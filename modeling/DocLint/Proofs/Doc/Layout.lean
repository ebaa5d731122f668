/-
Comments that are laid out in a style are read as they were written.

A `Layout` is a style with its indentations.  It puts the same text behind three slashes,
behind a star or between the two marks of a block; slicing takes the marks away again
(`bodyOf_lines`, `bodyOf_block`) and then the indentation that all lines share
(`docLines_rows`).  What is left is the text that was written, except that spaces stand
for its tabs and blanks at the end are gone.
-/
import Mathlib.Data.List.TakeWhile
import Mathlib.Order.Bounds.Basic
import DocLint.Proofs.Doc.Slice

namespace DocLint.Doc

/-! ### Layouts -/

/-- The ways in which a comment is marked. -/
inductive CommentStyle where
  /-- Three slashes on each line. -/
  | lines
  /-- A block with nothing before its lines. -/
  | block
  /-- A block with a star on each line. -/
  | gutter
  deriving Repr, DecidableEq

/-- A style and the spaces that go with it. -/
structure Layout where
  style : CommentStyle
  /-- The spaces before the comment. -/
  indent : Nat
  /-- The spaces before the text, in addition to the one that follows a mark. -/
  lead : Nat
  /-- The spaces on a line without text. -/
  trail : Nat
  /-- The spaces before the closing of a block. -/
  close : Nat
  deriving Repr, DecidableEq

/-- A line of a comment in the file, and the text that is written on it, if any. -/
structure Row where
  line : Line
  written : Option Text
  deriving Repr, DecidableEq

namespace Layout

/-- The spaces before the text. -/
def gap (y : Layout) : Nat :=
  match y.style with
  | .block => y.lead
  | _ => y.lead + 1

/-- What stands before the spaces. -/
def mark (y : Layout) : Text :=
  match y.style with
  | .lines => List.replicate y.indent ' ' ++ lineMarker
  | .block => []
  | .gutter => List.replicate (y.indent + 1) ' ' ++ ['*']

/-- A line behind its mark. -/
def spaced (y : Layout) : Option Text → Text
  | none => List.replicate y.trail ' '
  | some t => List.replicate y.gap ' ' ++ t

def line (y : Layout) (written : Option Text) : Text := y.mark ++ y.spaced written

def comment (y : Layout) (written : List (Option Text)) : List Text :=
  match y.style with
  | .lines => written.map y.line
  | _ => (List.replicate y.indent ' ' ++ blockOpen) :: written.map y.line
      ++ [List.replicate y.close ' ' ++ blockClose]

/-- What is left of a row without its mark. -/
def stripped (y : Layout) (r : Row) : Stripped := ⟨r.line, y.spaced r.written⟩

/-- What is read on a row. -/
def docLine (y : Layout) (r : Row) : DocLine :=
  .ofLine r.line ((r.written.map (expandTabs y.gap)).getD [])

/-- Nothing is written on any row. -/
def Unwritten (rows : List Row) : Prop := ∀ r ∈ rows, r.written = none

/-- On some row the text begins right behind the spaces of the layout. -/
def HasFlush (rows : List Row) : Prop :=
  ∃ r ∈ rows, ∃ c u, r.written = some (c :: u) ∧ Text.isBlank c = false

/-- On some row there is text that does not begin with a star. -/
def HasUnstarred (rows : List Row) : Prop :=
  ∃ r ∈ rows, ∃ t, r.written = some t ∧ ∃ c u, Text.trimLeft t = c :: u ∧ c ≠ '*'

variable {y : Layout} {rows : List Row}

/-- Lines that a layout makes of a text are rows. -/
theorem exists_rows_of_map_eq {written : List (Option Text)} {lines : List Line}
    (h : lines.map Line.content = written.map y.line) :
    ∃ rows : List Row, rows.map Row.line = lines ∧ rows.map Row.written = written ∧
      ∀ r ∈ rows, r.line.content = y.line r.written := by
  induction written generalizing lines with
  | nil =>
      obtain rfl : lines = [] := List.map_eq_nil_iff.mp h
      exact ⟨[], rfl, rfl, by simp⟩
  | cons c written ih =>
      obtain ⟨l, more, rfl, hl, hmore⟩ := List.map_eq_cons_iff.mp h
      obtain ⟨rows, rfl, rfl, hrows⟩ := ih hmore
      refine ⟨⟨l, c⟩ :: rows, rfl, rfl, ?_⟩
      intro r hr
      rcases List.mem_cons.mp hr with rfl | hr
      · exact hl
      · exact hrows r hr

/-- The lines of a block are that of the opening, rows, and that of the closing. -/
theorem exists_rows_of_block {written : List (Option Text)} {lines : List Line} {opening closing : Text}
    (h : lines.map Line.content = opening :: written.map y.line ++ [closing]) :
    ∃ (head last : Line) (rows : List Row), lines = head :: (rows.map Row.line ++ [last]) ∧
      head.content = opening ∧ last.content = closing ∧ rows.map Row.written = written ∧
      ∀ r ∈ rows, r.line.content = y.line r.written := by
  rw [List.cons_append] at h
  obtain ⟨head, more, rfl, hhead, hmore⟩ := List.map_eq_cons_iff.mp h
  obtain ⟨inner, rest, rfl, hinner, hrest⟩ := List.map_eq_append_iff.mp hmore
  obtain ⟨last, others, rfl, hlast, hnil⟩ := List.map_eq_cons_iff.mp hrest
  obtain rfl : others = [] := List.map_eq_nil_iff.mp hnil
  obtain ⟨rows, rfl, hwritten, hrows⟩ := exists_rows_of_map_eq hinner
  exact ⟨head, last, rows, rfl, hhead, hlast, hwritten, hrows⟩

theorem comment_lines (h : y.style = .lines) (texts : List (Option Text)) :
    y.comment texts = texts.map y.line := by
  unfold comment
  rw [h]

theorem comment_block (h : y.style ≠ .lines) (texts : List (Option Text)) :
    y.comment texts = (List.replicate y.indent ' ' ++ blockOpen) :: texts.map y.line
      ++ [List.replicate y.close ' ' ++ blockClose] := by
  unfold comment
  cases hstyle : y.style with
  | lines => exact absurd hstyle h
  | block => rfl
  | gutter => rfl

/-- Behind a mark there is a space before anything else. -/
theorem spaced_head (h : y.style ≠ .block) (written : Option Text) :
    ∀ c, (y.spaced written).head? = some c → c = ' ' := by
  intro c hc
  cases written with
  | none =>
      unfold spaced at hc
      exact (List.mem_replicate.mp (List.mem_of_head? hc)).2
  | some t =>
      have hgap : y.gap = y.lead + 1 := by
        unfold gap
        cases hstyle : y.style with
        | block => exact absurd hstyle h
        | lines => rfl
        | gutter => rfl
      simpa [spaced, hgap, List.replicate_succ, eq_comm] using hc

/-! ### Marks -/

theorem behindMarker_line (h : y.style = .lines) (written : Option Text) :
    BehindMarker (y.line written) (y.spaced written) := by
  have hruler : (y.spaced written).head? ≠ some '/' := by
    intro hhead
    exact absurd (spaced_head (by rw [h]; decide) written _ hhead) (by decide)
  unfold line mark
  rw [h]
  simp only
  rw [List.append_assoc]
  exact .intro (Text.allBlank_spaces _) hruler

theorem isLineDoc_line (h : y.style = .lines) (written : Option Text) :
    isLineDoc (y.line written) = true :=
  isLineDoc_iff.mpr ⟨_, behindMarker_line h written⟩

/-- The lines of a line comment are read behind their marks. -/
theorem bodyOf_lines (h : y.style = .lines) (hrows : ∀ r ∈ rows, r.line.content = y.line r.written)
    {head : Line} {more : List Line} (hlines : rows.map Row.line = head :: more)
    (range : ByteRange) : bodyOf range head more = .ok ⟨none, rows.map y.stripped⟩ := by
  rw [bodyOf_eq_ok_iff, ← hlines]
  refine .lines ?_
  rw [List.forall₂_map_left_iff, List.forall₂_map_right_iff, List.forall₂_same]
  intro r hr
  rw [hrows r hr]
  exact ⟨rfl, behindMarker_line h r.written⟩

/-- Spaces, the marks of a block, and the text behind the opening. -/
theorem behindOpening_spaces (n : Nat) (t : Text) :
    BehindOpening (List.replicate n ' ' ++ (blockOpen ++ t)) t :=
  .intro (Text.allBlank_spaces n)

theorem beforeClosing_append (t : Text) : BeforeClosing (t ++ blockClose) t :=
  beforeClosing_iff.mpr (trimRight_blockClose t)

/-- A block of one line keeps its text, blank or not. -/
theorem bodyOf_single {head : Line} {n : Nat} {t : Text}
    (hhead : head.content = List.replicate n ' ' ++ (blockOpen ++ (t ++ blockClose)))
    (range : ByteRange) : bodyOf range head [] = .ok ⟨some ⟨head, t⟩, []⟩ := by
  rw [bodyOf_eq_ok_iff]
  refine .single ?_ (beforeClosing_append t)
  rw [hhead]
  exact behindOpening_spaces n _

/-- The last line of a block is left out when the layout has put the closing there. -/
theorem textBelow_rows (hrows : ∀ r ∈ rows, r.line.content = y.line r.written) (last : Line)
    (n : Nat) : textBelow (rows.map Row.line) last (List.replicate n ' ') =
      rows.map fun r => ⟨r.line, y.line r.written⟩ := by
  unfold textBelow Stripped.unlessBlank
  rw [if_pos (Text.allBlank_spaces n), Option.toList_none, List.append_nil, List.map_map]
  refine List.map_congr_left ?_
  intro r hr
  show (⟨r.line, r.line.content⟩ : Stripped) = _
  rw [hrows r hr]

/-- The rows of a gutter have a star each, and what is written stands behind it. -/
theorem behindGutter_gutter (h : y.style = .gutter) (written : Option Text) :
    BehindGutter (rows.map fun r => y.line r.written) (y.line written) (y.spaced written) := by
  have hline : ∀ written, y.line written =
      List.replicate (y.indent + 1) ' ' ++ '*' :: y.spaced written := by
    intro written
    unfold line mark
    rw [h]
    exact List.append_assoc _ _ _
  have hall : Starred (rows.map fun r => y.line r.written) := by
    intro t ht _
    obtain ⟨r, -, rfl⟩ := List.mem_map.mp ht
    refine ⟨_, _, hline r.written, Text.allBlank_spaces _, ?_⟩
    intro hhead
    exact absurd (spaced_head (by rw [h]; decide) r.written _ hhead) (by decide)
  rw [hline]
  exact .star hall (Text.allBlank_spaces _)

/-- A block with nothing before its lines has no gutter, unless the text itself makes one. -/
theorem behindGutter_block (h : y.style = .block) (hstar : Unwritten rows ∨ HasUnstarred rows)
    {r : Row} (hr : r ∈ rows) :
    BehindGutter (rows.map fun r => y.line r.written) (y.line r.written) (y.spaced r.written) := by
  have hline : ∀ written, y.line written = y.spaced written := by
    intro written
    unfold line mark
    rw [h]
    rfl
  simp only [hline]
  rcases hstar with hnone | ⟨q, hq, t, ht, c, u, htrim, hc⟩
  · have hblank : ∀ q ∈ rows, Text.allBlank (y.spaced q.written) = true := by
      intro q hq
      rw [hnone q hq]
      exact Text.allBlank_spaces _
    refine .blank ?_ (hblank r hr)
    intro t ht htext
    obtain ⟨q, hq, rfl⟩ := List.mem_map.mp ht
    rw [hblank q hq] at htext
    simp at htext
  · refine .plain ?_
    intro hall
    have hspaced : Text.trimLeft (y.spaced q.written) = c :: u := by
      rw [ht, spaced, Text.trimLeft_append_of_allBlank _ (Text.allBlank_spaces _), htrim]
    have hblank : Text.allBlank (y.spaced q.written) = false := by
      rw [← Bool.not_eq_true, ← Text.trimLeft_eq_nil_iff, hspaced]
      simp
    obtain ⟨front, rest, htext, hfront, -⟩ := hall _ (List.mem_map_of_mem hq) hblank
    rw [htext, trimLeft_mark hfront (by decide)] at hspaced
    exact hc (List.cons.inj hspaced).1.symm

/-- The lines of a block are read behind their stars, if they have any, and so is what stands
on the line of the opening. -/
theorem bodyOf_block (h : y.style ≠ .lines) (hrows : ∀ r ∈ rows, r.line.content = y.line r.written)
    (hstar : Unwritten rows ∨ HasUnstarred rows) {head last : Line} {opening : Text}
    (hhead : head.content = List.replicate y.indent ' ' ++ (blockOpen ++ opening))
    (hlast : last.content = List.replicate y.close ' ' ++ blockClose) (range : ByteRange) :
    bodyOf range head (rows.map Row.line ++ [last]) =
      .ok ⟨if Text.allBlank opening then none else some ⟨head, opening⟩, rows.map y.stripped⟩ := by
  have hopening : BehindOpening head.content opening := by
    rw [hhead]
    exact behindOpening_spaces _ _
  have hclosing : BeforeClosing last.content (List.replicate y.close ' ') := by
    rw [hlast]
    exact beforeClosing_append _
  rw [bodyOf_eq_ok_iff]
  refine .block hopening hclosing ?_
  rw [textBelow_rows hrows, List.map_map, List.forall₂_map_left_iff, List.forall₂_map_right_iff,
    List.forall₂_same]
  intro r hr
  refine ⟨rfl, ?_⟩
  cases hstyle : y.style with
  | lines => exact absurd hstyle h
  | gutter => exact behindGutter_gutter hstyle r.written
  | block => exact behindGutter_block hstyle hstar hr

/-! ### Indentation -/

theorem expandTabs_append {u : Text} (h : '\t' ∉ u) (column : Nat) (t : Text) :
    expandTabs column (u ++ t) = u ++ expandTabs (column + u.length) t := by
  induction u generalizing column with
  | nil => rfl
  | cons c u ih =>
      have hc : c ≠ '\t' := fun hc => h (by simp [hc])
      rw [List.cons_append, expandTabs, if_neg hc, ih (fun hu => h (by simp [hu])), List.length_cons,
        Nat.add_assoc, Nat.add_comm 1]
      rfl

theorem expandTabs_of_not_mem {t : Text} (h : '\t' ∉ t) (column : Nat) : expandTabs column t = t := by
  have hexpand := expandTabs_append h column []
  rw [List.append_nil, expandTabs, List.append_nil] at hexpand
  exact hexpand

theorem expandTabs_spaces_append (n column : Nat) (t : Text) :
    expandTabs column (List.replicate n ' ' ++ t) =
      List.replicate n ' ' ++ expandTabs (column + n) t := by
  have hspaces : '\t' ∉ List.replicate n ' ' := by
    intro hmem
    exact absurd (List.mem_replicate.mp hmem).2 (by decide)
  rw [expandTabs_append hspaces, List.length_replicate]

theorem allBlank_expandTabs (column : Nat) (t : Text) :
    Text.allBlank (expandTabs column t) = Text.allBlank t := by
  induction t generalizing column with
  | nil => rfl
  | cons c t ih =>
      rw [expandTabs]
      by_cases hc : c = '\t'
      · rw [if_pos hc, Text.allBlank_append, Text.allBlank_spaces, ih, Bool.true_and, hc]
        rfl
      · rw [if_neg hc]
        show (Text.isBlank c && Text.allBlank (expandTabs (column + 1) t)) = _
        rw [ih]
        rfl

/-- The least indentation is that of a line, and no line with text has less. -/
theorem isLeast_commonIndent {texts : List Text} (h : ∃ t ∈ texts, Text.allBlank t = false) :
    IsLeast {n | ∃ t ∈ texts, Text.allBlank t = false ∧ Text.indent t = n} (commonIndent texts) := by
  obtain ⟨t, ht, hblank⟩ := h
  have hmem : ∀ n, n ∈ (texts.filter fun t => !Text.allBlank t).map Text.indent ↔
      ∃ t ∈ texts, Text.allBlank t = false ∧ Text.indent t = n := by
    intro n
    simp only [List.mem_map, List.mem_filter, Bool.not_eq_true', and_assoc]
  obtain ⟨n, hn⟩ : ∃ n, ((texts.filter fun t => !Text.allBlank t).map Text.indent).min? = some n := by
    rw [← Option.isSome_iff_exists, List.isSome_min?_iff]
    exact List.ne_nil_of_mem ((hmem _).mpr ⟨t, ht, hblank, rfl⟩)
  have hcommon : commonIndent texts = n := by rw [commonIndent, hn, Option.getD_some]
  obtain ⟨hleast, hle⟩ := List.min?_eq_some_iff.mp hn
  rw [hcommon]
  exact ⟨(hmem n).mp hleast, fun k hk => hle k ((hmem k).mpr hk)⟩

theorem expandTabs_spaced_some (t : Text) :
    expandTabs 0 (y.spaced (some t)) = List.replicate y.gap ' ' ++ expandTabs y.gap t := by
  rw [spaced, expandTabs_spaces_append, Nat.zero_add]

theorem expandTabs_spaced_none : expandTabs 0 (y.spaced none) = List.replicate y.trail ' ' := by
  have h := expandTabs_spaces_append y.trail 0 []
  rw [List.append_nil, expandTabs, List.append_nil] at h
  exact h

/-- The common indentation is what the layout put before the text: a row has no other, and no
line has less. -/
theorem commonIndent_rows (hflush : HasFlush rows) :
    commonIndent (rows.map fun r => expandTabs 0 (y.spaced r.written)) = y.gap := by
  obtain ⟨r, hr, c, u, hu, hc⟩ := hflush
  have htab : c ≠ '\t' := fun h => by simp [h, show Text.isBlank '\t' = true by decide] at hc
  have hexpand : expandTabs y.gap (c :: u) = c :: expandTabs (y.gap + 1) u := by
    rw [expandTabs, if_neg htab]
  have hmem := List.mem_map_of_mem (f := fun r => expandTabs 0 (y.spaced r.written)) hr
  have hblank : Text.allBlank (expandTabs 0 (y.spaced r.written)) = false := by
    rw [hu, expandTabs_spaced_some, Text.allBlank_append, hexpand, Text.allBlank_cons, hc]
    simp
  refine (isLeast_commonIndent ⟨_, hmem, hblank⟩).unique ⟨⟨_, hmem, hblank, ?_⟩, ?_⟩
  · rw [hu, expandTabs_spaced_some, Text.indent, hexpand, Text.leadingBlanks_spaces_append _ _ hc,
      List.length_replicate]
  · rintro _ ⟨_, hx, hblank, rfl⟩
    obtain ⟨q, -, rfl⟩ := List.mem_map.mp hx
    cases hq : q.written with
    | none =>
        rw [hq, expandTabs_spaced_none, Text.allBlank_spaces] at hblank
        simp at hblank
    | some t =>
        rw [expandTabs_spaced_some, Text.indent,
          Text.leadingBlanks_append_of_allBlank _ (Text.allBlank_spaces _), List.length_append,
          List.length_replicate]
        omega

/-- What is read on a row without text, however much is taken away. -/
theorem ofLine_drop_none {r : Row} (h : r.written = none) (n : Nat) :
    DocLine.ofLine r.line ((expandTabs 0 (y.spaced r.written)).drop n) = y.docLine r := by
  unfold docLine
  rw [h, expandTabs_spaced_none, List.drop_replicate]
  show (⟨Text.trimRight (List.replicate (y.trail - n) ' '), _, _⟩ : DocLine) = _
  rw [Text.trimRight_eq_nil (Text.allBlank_spaces _)]
  rfl

/-- Without it a row is read as it was written. -/
theorem ofLine_drop_gap (r : Row) :
    DocLine.ofLine r.line ((expandTabs 0 (y.spaced r.written)).drop y.gap) = y.docLine r := by
  cases h : r.written with
  | none => rw [← h, ofLine_drop_none h]
  | some t =>
      unfold docLine
      rw [h, expandTabs_spaced_some, List.drop_left' (List.length_replicate)]
      rfl

/-- **Rows are read as they were written.** -/
theorem docLines_rows (h : Unwritten rows ∨ HasFlush rows) (opening : Option Stripped) :
    Body.docLines ⟨opening, rows.map y.stripped⟩ =
      (opening.map fun s => DocLine.ofLine s.line (Text.trim (expandTabs 0 s.text))).toList
        ++ rows.map y.docLine := by
  unfold Body.docLines
  simp only [List.map_map, Function.comp_def, stripped]
  refine congrArg _ (List.map_congr_left fun r hr => ?_)
  rcases h with hnone | hflush
  · exact ofLine_drop_none (hnone r hr) _
  · rw [commonIndent_rows (y := y) hflush]
    exact ofLine_drop_gap r

/-! ### What is read on a row -/

theorem docLine_content {r : Row} {t : Text} (h : r.written = some t) :
    (y.docLine r).content = Text.trimRight (expandTabs y.gap t) := by
  unfold docLine
  rw [h]
  rfl

theorem isBlank_docLine {r : Row} {t : Text} (h : r.written = some t) :
    (y.docLine r).isBlank = Text.allBlank t := by
  unfold DocLine.isBlank
  rw [docLine_content h, Text.allBlank_trimRight, allBlank_expandTabs]

theorem trim_docLine {r : Row} {t : Text} (h : r.written = some t) :
    Text.trim (y.docLine r).content = Text.trim (expandTabs y.gap t) := by
  rw [docLine_content h, Text.trim_trimRight]

end Layout

end DocLint.Doc
