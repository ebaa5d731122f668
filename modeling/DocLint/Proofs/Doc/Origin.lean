/-
Where the lines of a comment come from.

Slicing takes marks and indentation off the lines of a file and leaves lines out, but it
writes nothing.  `Stripped.From` says so of one line on its way, and every step keeps it.
What is left of a line has text only if the line has, so a line of a comment that is not
blank stands in the place of a line that is not blank either (`slice_placedIn`), and so
does every entry of a list (`line_of_ofLines`).  Nor has a line of a comment a break in it,
since no line of a file has and spaces are all that is put in (`unbroken_of_slice`).
-/
import DocLint.Proofs.Doc.Layout
import DocLint.Proofs.Doc.ListGrammar
import DocLint.Proofs.Doc.Sections
import DocLint.Proofs.Source.Alignment

namespace DocLint.Doc

variable {lines : List Line}

/-! ### What is left of a line -/

/-- The text is what is left of one of the lines. -/
structure Stripped.From (lines : List Line) (s : Stripped) : Prop where
  line_mem : s.line ∈ lines
  text_sublist : s.text.Sublist s.line.content

/-- What is left of a line has text only if the line has. -/
theorem Stripped.From.not_blank {s : Stripped} (h : s.From lines)
    (htext : Text.allBlank s.text = false) : Text.allBlank s.line.content = false := by
  by_contra hblank
  rw [Bool.not_eq_false] at hblank
  rw [Text.allBlank_of_sublist h.text_sublist hblank] at htext
  simp at htext

theorem BehindMarker.sublist {t u : Text} (h : BehindMarker t u) : u.Sublist t := by
  cases h with
  | intro _ _ => simp

theorem BehindOpening.sublist {t u : Text} (h : BehindOpening t u) : u.Sublist t := by
  cases h with
  | intro _ => simp

theorem BeforeClosing.sublist {t u : Text} (h : BeforeClosing t u) : u.Sublist t := by
  cases h with
  | intro _ => simp

theorem BehindGutter.sublist {texts : List Text} {t u : Text} (h : BehindGutter texts t u) :
    u.Sublist t := by
  cases h with
  | star _ _ => simp
  | blank _ _ => exact List.Sublist.refl _
  | plain _ => exact List.Sublist.refl _

/-! ### Bodies -/

/-- Every line of the body is what is left of one of the lines. -/
def Body.From (lines : List Line) (b : Body) : Prop :=
  (∀ s, b.opening = some s → s.From lines) ∧ ∀ s ∈ b.rest, s.From lines

theorem mem_of_unlessBlank {s x : Stripped} (h : x ∈ s.unlessBlank.toList) : x = s := by
  unfold Stripped.unlessBlank at h
  split at h
  · simp at h
  · simpa using h

theorem textBelow_from {inner : List Line} {last : Line} {closing : Text}
    (hclose : BeforeClosing last.content closing) :
    ∀ s ∈ textBelow inner last closing, s.From (inner ++ [last]) := by
  intro s hs
  rcases List.mem_append.mp hs with hs | hs
  · obtain ⟨l, hl, rfl⟩ := List.mem_map.mp hs
    exact ⟨by simp [hl], List.Sublist.refl _⟩
  · obtain rfl := mem_of_unlessBlank hs
    exact ⟨by simp, hclose.sublist⟩

/-- **A body holds nothing but what is left of the lines.** -/
theorem Unmarks.from_lines {b : Body} (h : Unmarks lines b) : b.From lines := by
  cases h with
  | lines h =>
      refine ⟨by simp, ?_⟩
      intro s hs
      obtain ⟨_, hl, rfl, htext⟩ := exists_left_of_mem h hs
      exact ⟨hl, htext.sublist⟩
  | single hopen hclose =>
      refine ⟨?_, by simp⟩
      intro s hs
      obtain rfl := Option.some.inj hs
      exact ⟨by simp, hclose.sublist.trans hopen.sublist⟩
  | block hopen hclose hrest =>
      refine ⟨?_, ?_⟩
      · intro s hs
        obtain rfl := mem_of_unlessBlank (Option.mem_toList.mpr hs)
        exact ⟨by simp, hopen.sublist⟩
      · intro u hu
        obtain ⟨s, hs, hline, htext⟩ := exists_left_of_mem hrest hu
        obtain ⟨hmem, hsublist⟩ := textBelow_from hclose s hs
        rw [← hline] at hmem
        exact ⟨List.mem_cons_of_mem _ hmem, htext.sublist.trans (hline ▸ hsublist)⟩

/-! ### Lines of a comment -/

/-- The line stands in the place of one of the lines, which is not blank unless it is blank
itself. -/
def PlacedIn (lines : List Line) (l : DocLine) : Prop :=
  ∃ x ∈ lines, l.offset = x.textOffset ∧ (l.isBlank = false → Text.allBlank x.content = false)

theorem placedIn_ofLine {s : Stripped} (h : s.From lines) {t : Text}
    (ht : Text.allBlank s.text = true → Text.allBlank t = true) :
    PlacedIn lines (DocLine.ofLine s.line t) := by
  refine ⟨s.line, h.line_mem, rfl, ?_⟩
  intro hblank
  refine h.not_blank ?_
  by_contra hall
  rw [Bool.not_eq_false] at hall
  change Text.allBlank (Text.trimRight t) = false at hblank
  rw [Text.allBlank_trimRight, ht hall] at hblank
  simp at hblank

theorem docLines_placedIn {b : Body} (h : b.From lines) : ∀ l ∈ b.docLines, PlacedIn lines l := by
  intro l hl
  unfold Body.docLines at hl
  simp only [List.mem_append, List.mem_map, Option.mem_toList, Option.map_eq_some_iff] at hl
  rcases hl with ⟨s, hs, rfl⟩ | ⟨_, ⟨s, hs, rfl⟩, rfl⟩
  · refine placedIn_ofLine (h.1 s hs) ?_
    intro hblank
    refine Text.allBlank_of_sublist ((Text.trimRight_sublist _).trans (Text.trimLeft_sublist _)) ?_
    rw [Layout.allBlank_expandTabs]
    exact hblank
  · refine placedIn_ofLine (h.2 s hs) ?_
    intro hblank
    refine Text.allBlank_of_sublist (List.drop_sublist _ _) ?_
    rw [Layout.allBlank_expandTabs]
    exact hblank

/-- **A range is sliced if it is accepted and the marks leave a text of its lines**, and this text is
what the lines of the comment are made of. -/
theorem slice_eq_ok_iff {range : ByteRange} {table : LineTable} {docLines : List DocLine} :
    slice range table = .ok docLines ↔ ∃ head more body,
      table.linesInRange range = .ok (head :: more) ∧ Unmarks (head :: more) body ∧
        body.docLines = docLines := by
  constructor
  · intro h
    unfold slice at h
    cases hlines : table.linesInRange range with
    | error e =>
        rw [hlines] at h
        simp [bind, Except.bind] at h
    | ok lines =>
        rw [hlines] at h
        cases lines with
        | nil => simp [bind, Except.bind] at h
        | cons head more =>
            cases hbody : bodyOf range head more with
            | error e =>
                simp only [bind, Except.bind, hbody] at h
                simp at h
            | ok body =>
                simp only [bind, Except.bind, hbody] at h
                exact ⟨head, more, body, rfl, bodyOf_eq_ok_iff.mp hbody, Except.ok.inj h⟩
  · rintro ⟨head, more, body, hlines, hbody, rfl⟩
    exact slice_eq_ok hlines (bodyOf_eq_ok_iff.mpr hbody)

/-- **Every line of a comment stands in the place of a line of its range.** -/
theorem slice_placedIn {range : ByteRange} {table : LineTable} {docLines : List DocLine}
    (h : slice range table = .ok docLines) :
    ∃ lines, table.linesInRange range = .ok lines ∧ ∀ l ∈ docLines, PlacedIn lines l := by
  obtain ⟨head, more, body, hlines, hbody, rfl⟩ := slice_eq_ok_iff.mp h
  exact ⟨head :: more, hlines, docLines_placedIn hbody.from_lines⟩

/-! ### Breaks -/

/-- Spaces are all that is written for tabs. -/
theorem mem_expandTabs {c : Char} {column : Nat} {t : Text} (h : c ∈ expandTabs column t) :
    c ∈ t ∨ c = ' ' := by
  induction t generalizing column with
  | nil => simp [expandTabs] at h
  | cons d t ih =>
      rw [expandTabs] at h
      split at h
      · rcases List.mem_append.mp h with hspace | hrest
        · exact Or.inr (List.mem_replicate.mp hspace).2
        · exact (ih hrest).imp_left (List.mem_cons_of_mem d)
      · rcases List.mem_cons.mp h with rfl | hrest
        · exact Or.inl List.mem_cons_self
        · exact (ih hrest).imp_left (List.mem_cons_of_mem d)

theorem unbroken_expandTabs {t : Text} (h : t.Unbroken) (column : Nat) :
    (expandTabs column t).Unbroken := by
  intro c hc
  rcases mem_expandTabs hc with hmem | rfl
  · exact h c hmem
  · decide

theorem unbroken_ofLine {l : Line} {t : Text} (h : t.Unbroken) :
    (DocLine.ofLine l t).content.Unbroken :=
  h.of_subset (Text.trimRight_sublist t).subset

/-- What is left of a line without breaks has none. -/
theorem Stripped.From.unbroken {s : Stripped} (hs : s.From lines)
    (h : ∀ l ∈ lines, l.content.Unbroken) : s.text.Unbroken :=
  (h s.line hs.line_mem).of_subset hs.text_sublist.subset

theorem unbroken_docLines {b : Body} (hb : b.From lines) (h : ∀ l ∈ lines, l.content.Unbroken) :
    ∀ l ∈ b.docLines, l.content.Unbroken := by
  intro l hl
  unfold Body.docLines at hl
  simp only [List.mem_append, List.mem_map, Option.mem_toList, Option.map_eq_some_iff] at hl
  rcases hl with ⟨s, hs, rfl⟩ | ⟨_, ⟨s, hs, rfl⟩, rfl⟩
  · have hexpanded := unbroken_expandTabs ((hb.1 s hs).unbroken h) 0
    exact unbroken_ofLine (hexpanded.of_subset (Text.trim_subset _))
  · have hexpanded := unbroken_expandTabs ((hb.2 s hs).unbroken h) 0
    exact unbroken_ofLine (hexpanded.of_subset (List.drop_subset _ _))

theorem unbroken_of_linesInRange {t : Text} {range : ByteRange}
    (h : (LineTable.ofText t).linesInRange range = .ok lines) :
    ∀ l ∈ lines, l.content.Unbroken := fun _ hl =>
  LineTable.unbroken_of_mem ((LineTable.of_linesInRange_eq_ok h).2.subset hl)

/-- **The lines of a comment have no break in them.** -/
theorem unbroken_of_slice {t : Text} {range : ByteRange} {docLines : List DocLine}
    (h : slice range (.ofText t) = .ok docLines) : ∀ l ∈ docLines, l.content.Unbroken := by
  obtain ⟨head, more, body, hlines, hbody, rfl⟩ := slice_eq_ok_iff.mp h
  exact unbroken_docLines hbody.from_lines (unbroken_of_linesInRange hlines)

/-! ### Entries of a list -/

/-- **An entry of a list stands on a line of its section that is not blank.** -/
theorem line_of_ofLines {docLines : List DocLine} {list : ParameterList}
    (h : ParameterList.ofLines docLines = .ok list) :
    ∀ e ∈ list.entries, e.line ∈ docLines ∧ e.line.isBlank = false := by
  intro e he
  have hrun := isFirstRun_firstRun docLines
  have hmem := (reads_of_mem h he).1
  obtain ⟨blanks, rest, hsplit, -⟩ := hrun.place
  refine ⟨?_, hrun.text e.line hmem⟩
  rw [hsplit]
  simp [hmem]

/-- The lines of a section are lines of the comment. -/
theorem PartsInto.subset {docLines summary parameters : List DocLine}
    (h : PartsInto docLines summary parameters) : parameters ⊆ docLines := by
  cases h with
  | blank _ _ =>
      intro l hl
      simp [hl]
  | header _ _ => exact List.subset_append_right _ _

end DocLint.Doc
