/-
What slicing does to the texts of a comment.

A line of a comment carries the text that its marks left of it, with spaces for tabs, and differs
from it only in blanks at both ends (`Carries`).  At the front it has lost what the lines share:
each has the indentation that it had, less the least of all (`Outdented`), so the lines stand to
each other as they did.  The text on the line of an opening is no part of this; it has no
indentation, and none of its blanks are counted.

What is cut off a line is a number of characters that was computed from other lines.  That it never
reaches the text of a line is `trim_drop`: the number is at most the indentation of each line with
text.  A blank line may be shorter than the cut, and nothing is left of it.
-/
import DocLint.Proofs.Doc.Origin

namespace DocLint.Doc

/-! ### Indentation -/

/-- What the marks left of a line, with spaces for tabs. -/
def Stripped.expanded (s : Stripped) : Text := expandTabs 0 s.text

/-- How far the lines below an opening are indented that are not blank. -/
def Body.indents (b : Body) : Set Nat :=
  {n | ∃ s ∈ b.rest, Text.allBlank s.text = false ∧ Text.indent s.expanded = n}

/-- The line has the text that the marks left, but for blanks at both ends, and nothing that would be
in the way of its being printed: no tabs, no breaks and no blanks at its end. -/
structure Carries (s : Stripped) (d : DocLine) : Prop where
  text : Text.trim d.content = Text.trim s.expanded
  trimmed : Text.trimRight d.content = d.content
  tabless : '\t' ∉ d.content
  unbroken : d.content.Unbroken

/-- The line is indented as it was, less what all lines are indented at least. -/
def OutdentedBy (n : Nat) (s : Stripped) (d : DocLine) : Prop :=
  Text.allBlank s.text = false → d.indent + n = Text.indent s.expanded

/-- The lines of a comment and the texts that they carry: first that on the line of an opening,
without indentation, and then those below, without the indentation that all of them have. -/
structure Outdents (b : Body) (above below : List DocLine) : Prop where
  opening : List.Forall₂ Carries b.opening.toList above
  rest : List.Forall₂ Carries b.rest below
  flush : ∀ d ∈ above, d.indent = 0
  indent : ∀ n, IsLeast b.indents n → List.Forall₂ (OutdentedBy n) b.rest below
  least : b.indents.Nonempty → ∃ d ∈ below, d.isBlank = false ∧ d.indent = 0

variable {b : Body} {lines : List Line} {s : Stripped} {text : Text} {d : DocLine}

theorem tab_not_mem_expandTabs (column : Nat) (t : Text) : '\t' ∉ expandTabs column t := by
  induction t generalizing column with
  | nil => simp [expandTabs]
  | cons c t ih =>
      rw [expandTabs]
      split
      · rw [List.mem_append, List.mem_replicate]
        rintro (⟨-, hspace⟩ | hrest)
        · exact absurd hspace (by decide)
        · exact ih _ hrest
      · rename_i hc
        rw [List.mem_cons]
        rintro (rfl | hrest)
        · exact hc rfl
        · exact ih _ hrest

theorem allBlank_expanded (s : Stripped) : Text.allBlank s.expanded = Text.allBlank s.text :=
  Layout.allBlank_expandTabs 0 s.text

/-- What all lines below an opening are indented at least. -/
def Body.common (b : Body) : Nat := commonIndent (b.rest.map Stripped.expanded)

theorem Body.docLines_eq (b : Body) : b.docLines =
    (b.opening.map fun s => DocLine.ofLine s.line (Text.trim s.expanded)).toList
      ++ b.rest.map fun s => DocLine.ofLine s.line (s.expanded.drop b.common) := by
  unfold docLines
  simp only [List.map_map]
  rfl

theorem Body.isLeast_common (h : b.indents.Nonempty) : IsLeast b.indents b.common := by
  have hindents : b.indents = {n | ∃ t ∈ b.rest.map Stripped.expanded,
      Text.allBlank t = false ∧ Text.indent t = n} := by
    ext n
    simp [Body.indents, allBlank_expanded]
  rw [hindents] at h ⊢
  obtain ⟨_, t, ht, hblank, -⟩ := h
  exact Layout.isLeast_commonIndent ⟨t, ht, hblank⟩

/-- A line with text is indented at least as far as all are. -/
theorem Body.common_le (hs : s ∈ b.rest) (hblank : Text.allBlank s.text = false) :
    b.common ≤ Text.indent s.expanded :=
  (isLeast_common ⟨_, s, hs, hblank, rfl⟩).2 ⟨s, hs, hblank, rfl⟩

/-! ### One line -/

/-- A part of what is left of a line is carried if it holds all that is not blank. -/
theorem carries_ofLine (hs : s.text.Unbroken) (htext : Text.trim text = Text.trim s.expanded)
    (hpart : text ⊆ s.expanded) : Carries s (DocLine.ofLine s.line text) where
  text := (Text.trim_trimRight text).trans htext
  trimmed := Text.trimRight_trimRight text
  tabless := fun hmem =>
    tab_not_mem_expandTabs 0 s.text (hpart ((Text.trimRight_sublist text).subset hmem))
  unbroken := unbroken_ofLine ((unbroken_expandTabs hs 0).of_subset hpart)

/-- No text is cut off with the indentation: of a blank line there is nothing left either way. -/
theorem trim_drop_common (hs : s ∈ b.rest) :
    Text.trim (s.expanded.drop b.common) = Text.trim s.expanded := by
  cases hblank : Text.allBlank s.text with
  | true =>
      rw [← allBlank_expanded] at hblank
      have hdrop := Text.allBlank_of_sublist (List.drop_sublist b.common _) hblank
      rw [Text.trim_eq_nil_iff.mpr hblank, Text.trim_eq_nil_iff.mpr hdrop]
  | false => exact Text.trim_drop (Body.common_le hs hblank)

theorem allBlank_drop_common (hs : s ∈ b.rest) :
    Text.allBlank (s.expanded.drop b.common) = Text.allBlank s.text := by
  rw [Bool.eq_iff_iff, ← Text.trim_eq_nil_iff, trim_drop_common hs, Text.trim_eq_nil_iff,
    allBlank_expanded]

theorem outdentedBy_common (hs : s ∈ b.rest) :
    OutdentedBy b.common s (DocLine.ofLine s.line (s.expanded.drop b.common)) := by
  intro hblank
  have hindent : (DocLine.ofLine s.line (s.expanded.drop b.common)).indent =
      Text.indent (s.expanded.drop b.common) :=
    Text.indent_trimRight (by rw [allBlank_drop_common hs, hblank])
  rw [hindent]
  exact Text.indent_drop _ (Body.common_le hs hblank)

/-! ### All lines -/

/-- **The lines of a body are its texts without the indentation that they share.** -/
theorem outdents_docLines (hb : b.From lines) (h : ∀ l ∈ lines, l.content.Unbroken) :
    ∃ above below, b.docLines = above ++ below ∧ Outdents b above below := by
  refine ⟨_, _, b.docLines_eq, ?_⟩
  constructor
  case opening =>
    cases hopening : b.opening with
    | none => exact List.Forall₂.nil
    | some s =>
        refine List.Forall₂.cons ?_ List.Forall₂.nil
        exact carries_ofLine ((hb.1 s hopening).unbroken h) (Text.trim_trim _) (Text.trim_subset _)
  case rest =>
    rw [List.forall₂_map_right_iff, List.forall₂_same]
    intro s hs
    exact carries_ofLine ((hb.2 s hs).unbroken h) (trim_drop_common hs) (List.drop_subset _ _)
  case flush =>
    intro d hd
    obtain ⟨s, -, rfl⟩ := Option.map_eq_some_iff.mp (Option.mem_toList.mp hd)
    show Text.indent (Text.trimRight (Text.trim s.expanded)) = 0
    rw [Text.trim, Text.trimRight_trimRight]
    exact (Text.flush_trim s.expanded).indent_eq
  case indent =>
    intro n hn
    obtain rfl := hn.unique (Body.isLeast_common ⟨n, hn.1⟩)
    rw [List.forall₂_map_right_iff, List.forall₂_same]
    intro s hs
    exact outdentedBy_common hs
  case least =>
    intro hne
    obtain ⟨s, hs, hblank, hindent⟩ := (Body.isLeast_common hne).1
    refine ⟨_, List.mem_map_of_mem hs, ?_, ?_⟩
    · show Text.allBlank (Text.trimRight (s.expanded.drop b.common)) = false
      rw [Text.allBlank_trimRight, allBlank_drop_common hs, hblank]
    · have hout := outdentedBy_common hs hblank
      omega

/-- **Slicing loses nothing but marks and indentation.**  The marks leave a text of each line and no
other; of these texts the lines of the comment keep all but blanks at both ends, and how far one is
indented beyond another. -/
theorem slice_outdents {t : Text} {r : ByteRange} {docLines : List DocLine}
    (h : slice r (.ofText t) = .ok docLines) :
    ∃ lines body above below, (LineTable.ofText t).linesInRange r = .ok lines ∧
      (∀ b, Unmarks lines b ↔ b = body) ∧ docLines = above ++ below ∧
      Outdents body above below := by
  obtain ⟨head, more, body, hlines, hbody, rfl⟩ := slice_eq_ok_iff.mp h
  obtain ⟨above, below, hsplit, houtdents⟩ :=
    outdents_docLines hbody.from_lines (unbroken_of_linesInRange hlines)
  refine ⟨head :: more, body, above, below, hlines, ?_, hsplit, houtdents⟩
  intro b
  constructor
  · intro hb
    exact hb.unique hbody
  · rintro rfl
    exact hbody

/-- A gutter with tabs on both sides of a star, a line that is shorter than what is cut off, and text
behind the opening. -/
def tabbedGutter : Text := "/** A\tb\n\t*\t- c\n *\n *    d \n */".toList

/-- What is read of it. -/
def tabbedGutterLines : List DocLine :=
  [⟨"A      b".toList, 0, 8⟩, ⟨"    - c".toList, 9, 6⟩, ⟨[], 16, 2⟩, ⟨"d".toList, 19, 8⟩]

theorem slice_outdents_tabbedGutter :
    slice ⟨0, 30⟩ (.ofText tabbedGutter) = .ok tabbedGutterLines ∧
      ∃ lines body above below, (LineTable.ofText tabbedGutter).linesInRange ⟨0, 30⟩ = .ok lines ∧
        (∀ b, Unmarks lines b ↔ b = body) ∧ tabbedGutterLines = above ++ below ∧
        Outdents body above below := by
  have hslice : slice ⟨0, 30⟩ (.ofText tabbedGutter) = .ok tabbedGutterLines := by decide
  exact ⟨hslice, slice_outdents hslice⟩

end DocLint.Doc
