/-
Every style of comment reads the same.

A text may be written behind three slashes, in a block or in a block with a gutter, at any
indentation, and its first line may share the line of the opening.  `Layout.Renders` says
which lines stand in the file then, and slicing gives the text back whichever they are
(`slice_renders`).

Not every text can be moved from one style to another.  Lines that all begin with a star
would be read as a gutter, and an indentation that all lines have would be taken for that
of the comment; a `Portable` text has neither, also where its first line is not counted
because it stands behind the opening.
-/
import Mathlib.Tactic.MkIffOfInductiveProp
import DocLint.Proofs.Doc.Layout

namespace DocLint.Doc

/-! ### Texts and their renderings -/

/-- A text that every style can hold, by its first line and those below. -/
@[mk_iff]
structure Portable (first : Text) (later : List Text) : Prop where
  tabless : ∀ t ∈ first :: later, '\t' ∉ t
  trimmed : ∀ t ∈ first :: later, Text.trimRight t = t
  first_text : Text.allBlank first = false
  first_flush : Text.indent first = 0
  first_unstarred : first.head? ≠ some '*'
  later_flush : (∃ t ∈ later, Text.allBlank t = false) →
    ∃ t ∈ later, Text.allBlank t = false ∧ Text.indent t = 0
  later_unstarred : (∃ t ∈ later, Text.allBlank t = false) →
    ∃ t ∈ later, Text.allBlank t = false ∧ (Text.trimLeft t).head? ≠ some '*'

instance (first : Text) (later : List Text) : Decidable (Portable first later) :=
  decidable_of_iff _ (portable_iff first later).symm

/-- What is written on the row of a text. -/
def written (t : Text) : Option Text := if t = [] then none else some t

namespace Layout

/-- A block whose first text shares the line of the opening. -/
def openedComment (y : Layout) (first : Text) (later : List (Option Text)) : List Text :=
  (List.replicate y.indent ' ' ++ (blockOpen ++ ' ' :: first)) :: later.map y.line
    ++ [List.replicate y.close ' ' ++ blockClose]

/-- The lines of a file on which a text is written as a comment. -/
inductive Renders (y : Layout) : List Text → List Text → Prop
  | laidOut {contents : List Text} : y.Renders contents (y.comment (contents.map written))
  | opened {first : Text} {later : List Text} (h : y.style ≠ .lines) :
      y.Renders (first :: later) (y.openedComment first (later.map written))
  /-- The closing may share the line as well when it is the only one. -/
  | single {first : Text} (h : y.style ≠ .lines) :
      y.Renders [first] [List.replicate y.indent ' ' ++ (blockOpen ++ ' ' :: first
        ++ ' ' :: blockClose)]

example : (⟨.lines, 2, 0, 0, 0⟩ : Layout).comment (["Sums up.".toList, []].map written) =
    ["  /// Sums up.".toList, "  ///".toList] := by decide

example : (⟨.gutter, 2, 0, 0, 3⟩ : Layout).comment (["Sums up.".toList, []].map written) =
    ["  /**".toList, "   * Sums up.".toList, "   *".toList, "   */".toList] := by decide

variable {y : Layout} {rows : List Row} {contents : List Text}

/-! ### Rows of a text -/

theorem exists_row_of_mem (hw : rows.map Row.written = contents.map written) {t : Text}
    (ht : t ∈ contents) (hblank : Text.allBlank t = false) : ∃ r ∈ rows, r.written = some t := by
  have hmem : written t ∈ rows.map Row.written := by
    rw [hw]
    exact List.mem_map_of_mem ht
  obtain ⟨r, hr, hwritten⟩ := List.mem_map.mp hmem
  have hne : t ≠ [] := by
    rintro rfl
    exact absurd hblank (by decide)
  exact ⟨r, hr, by rw [hwritten, written, if_neg hne]⟩

theorem hasFlush_of_mem (hw : rows.map Row.written = contents.map written) {t : Text}
    (ht : t ∈ contents) (hblank : Text.allBlank t = false) (hindent : Text.indent t = 0) :
    HasFlush rows := by
  obtain ⟨r, hr, hwritten⟩ := exists_row_of_mem hw ht hblank
  obtain ⟨c, u, htrim, hc⟩ := Text.exists_trimLeft_eq_cons hblank
  have hcons : t = c :: u := by rw [← htrim, Text.trimLeft_of_indent hindent]
  exact ⟨r, hr, c, u, by rw [hwritten, hcons], hc⟩

theorem hasUnstarred_of_mem (hw : rows.map Row.written = contents.map written) {t : Text}
    (ht : t ∈ contents) (hblank : Text.allBlank t = false)
    (hstar : (Text.trimLeft t).head? ≠ some '*') : HasUnstarred rows := by
  obtain ⟨r, hr, hwritten⟩ := exists_row_of_mem hw ht hblank
  obtain ⟨c, u, htrim, -⟩ := Text.exists_trimLeft_eq_cons hblank
  refine ⟨r, hr, t, hwritten, c, u, htrim, ?_⟩
  rintro rfl
  exact hstar (by rw [htrim]; rfl)

/-- Nothing is written for blank texts, when no blank stands at their ends. -/
theorem unwritten_of_allBlank (hw : rows.map Row.written = contents.map written)
    (htrimmed : ∀ t ∈ contents, Text.trimRight t = t)
    (hblank : ∀ t ∈ contents, Text.allBlank t = true) : Unwritten rows := by
  intro r hr
  have hmem : r.written ∈ contents.map written := by
    rw [← hw]
    exact List.mem_map_of_mem hr
  obtain ⟨t, ht, hwritten⟩ := List.mem_map.mp hmem
  have hnil : t = [] := by
    rw [← htrimmed t ht, Text.trimRight_eq_nil (hblank t ht)]
  rw [← hwritten, hnil]
  rfl

/-- **What is read on the rows of a text is the text.** -/
theorem map_content_docLine (hw : rows.map Row.written = contents.map written)
    (htab : ∀ t ∈ contents, '\t' ∉ t) (htrimmed : ∀ t ∈ contents, Text.trimRight t = t) :
    (rows.map y.docLine).map DocLine.content = contents := by
  let read : Option Text → Text := fun w => Text.trimRight ((w.map (expandTabs y.gap)).getD [])
  have hread : ∀ t ∈ contents, read (written t) = t := by
    intro t ht
    show Text.trimRight (((written t).map (expandTabs y.gap)).getD []) = t
    unfold written
    by_cases hnil : t = []
    · rw [if_pos hnil, hnil]
      rfl
    · rw [if_neg hnil, Option.map_some, Option.getD_some, expandTabs_of_not_mem (htab t ht),
        htrimmed t ht]
  calc (rows.map y.docLine).map DocLine.content
      = (rows.map Row.written).map read := by rw [List.map_map, List.map_map]; rfl
    _ = (contents.map written).map read := by rw [hw]
    _ = contents := by
        rw [List.map_map]
        conv_rhs => rw [← List.map_id contents]
        exact List.map_congr_left hread

/-- The text behind an opening is read without the spaces around it. -/
theorem content_ofLine_opening {first : Text} (l : Line) (blanks : Text) (htab : '\t' ∉ first)
    (htrimmed : Text.trimRight first = first) (hindent : Text.indent first = 0)
    (hb : ∀ c ∈ blanks, c = ' ') :
    (DocLine.ofLine l (Text.trim (expandTabs 0 (' ' :: first ++ blanks)))).content = first := by
  have hnotab : '\t' ∉ ' ' :: first ++ blanks := by
    intro h
    rcases List.mem_append.mp h with h | h
    · rcases List.mem_cons.mp h with h | h
      · exact absurd h (by decide)
      · exact htab h
    · exact absurd (hb _ h) (by decide)
  have hblanks : Text.allBlank blanks = true := by
    rw [Text.allBlank_iff]
    intro c hc
    rw [hb c hc]
    decide
  have hleft : Text.trimLeft (' ' :: first) = first := Text.trimLeft_of_indent hindent
  show Text.trimRight (Text.trim (expandTabs 0 _)) = first
  rw [expandTabs_of_not_mem hnotab, Text.trim_append_of_allBlank _ hblanks, Text.trim, hleft,
    htrimmed, htrimmed]

/-! ### Slicing a rendering -/

/-- Spaces stand before the mark that a comment begins with. -/
theorem Renders.head_eq {texts : List Text} (h : y.Renders contents texts) (hne : contents ≠ []) :
    ∃ u more, texts = (List.replicate y.indent ' ' ++ '/' :: u) :: more := by
  cases h with
  | laidOut =>
      by_cases hstyle : y.style = .lines
      · obtain ⟨t, more, rfl⟩ := List.exists_cons_of_ne_nil hne
        refine ⟨'/' :: '/' :: y.spaced (written t), (more.map written).map y.line, ?_⟩
        rw [comment_lines hstyle, List.map_cons, List.map_cons]
        refine congrArg₂ _ ?_ rfl
        unfold line mark
        rw [hstyle]
        simp [lineMarker]
      · exact ⟨['*', '*'], _, comment_block hstyle _⟩
  | opened _ => exact ⟨_, _, rfl⟩
  | single _ => exact ⟨_, _, rfl⟩

/-- A mark stands on the last line of a comment. -/
theorem Renders.last_not_blank {texts : List Text} (h : y.Renders contents texts) {u : Text}
    (hlast : texts.getLast? = some u) : Text.allBlank u = false := by
  have hclose : ∀ (front : List Text) {s : Text}, (front ++ [s]).getLast? = some u → '/' ∈ s →
      Text.allBlank u = false := by
    intro front s hs hmem
    rw [List.getLast?_append_of_ne_nil _ (by simp)] at hs
    obtain rfl : s = u := by simpa using hs
    exact Text.allBlank_eq_false_of_mem hmem (by decide)
  cases h with
  | laidOut =>
      by_cases hstyle : y.style = .lines
      · rw [comment_lines hstyle] at hlast
        obtain ⟨w, -, rfl⟩ := List.mem_map.mp (List.mem_of_getLast? hlast)
        refine Text.allBlank_eq_false_of_mem (c := '/') ?_ (by decide)
        unfold line mark
        rw [hstyle]
        simp [lineMarker]
      · rw [comment_block hstyle] at hlast
        exact hclose _ hlast (by simp [blockClose])
  | opened _ => exact hclose _ hlast (by simp [blockClose])
  | single _ => exact hclose [] hlast (by simp [blockClose])

variable {first : Text} {later : List Text} {run : List Line}

/-- The lines are the first and more, and have the contents without their marks. -/
def ReadsAs (run : List Line) (contents : List Text) : Prop :=
  ∀ range, ∃ head more body, run = head :: more ∧ bodyOf range head more = .ok body ∧
    body.docLines.map DocLine.content = contents

/-- The rows below the first: either they are empty, or they show how far the layout goes. -/
theorem unwritten_or_flush (h : Portable first later)
    (hw : rows.map Row.written = later.map written) :
    Unwritten rows ∨ (HasFlush rows ∧ HasUnstarred rows) := by
  by_cases htext : ∃ t ∈ later, Text.allBlank t = false
  · obtain ⟨t, ht, hblank, hindent⟩ := h.later_flush htext
    obtain ⟨u, hu, hu_blank, hstar⟩ := h.later_unstarred htext
    exact Or.inr ⟨hasFlush_of_mem hw ht hblank hindent, hasUnstarred_of_mem hw hu hu_blank hstar⟩
  · refine Or.inl (unwritten_of_allBlank hw (fun t ht => h.trimmed t (by simp [ht])) ?_)
    intro t ht
    rw [← Bool.not_eq_false]
    exact fun hblank => htext ⟨t, ht, hblank⟩

/-- The first text shows how far a layout goes, and that a block has no gutter. -/
theorem readsAs_comment (h : Portable first later)
    (hrun : run.map Line.content = y.comment ((first :: later).map written)) :
    ReadsAs run (first :: later) := by
  intro range
  have hread : ∀ {rows : List Row}, rows.map Row.written = (first :: later).map written →
      (Body.docLines ⟨none, rows.map y.stripped⟩).map DocLine.content = first :: later := by
    intro rows hw
    have hflush := hasFlush_of_mem hw List.mem_cons_self h.first_text h.first_flush
    rw [docLines_rows (Or.inr hflush)]
    exact map_content_docLine hw h.tabless h.trimmed
  by_cases hstyle : y.style = .lines
  · rw [comment_lines hstyle] at hrun
    obtain ⟨rows, hlines, hw, hcontent⟩ := exists_rows_of_map_eq hrun
    obtain ⟨head, more, rfl⟩ := List.exists_cons_of_ne_nil (l := run) (by
      rintro rfl
      simp at hrun)
    exact ⟨head, more, _, rfl, bodyOf_lines hstyle hcontent hlines range, hread hw⟩
  · rw [comment_block hstyle, ← List.append_nil blockOpen] at hrun
    obtain ⟨head, last, rows, rfl, hhead, hlast, hw, hcontent⟩ := exists_rows_of_block hrun
    have hstar : HasUnstarred rows := by
      refine hasUnstarred_of_mem hw List.mem_cons_self h.first_text ?_
      rw [Text.trimLeft_of_indent h.first_flush]
      exact h.first_unstarred
    exact ⟨head, _, _, rfl, bodyOf_block hstyle hcontent (Or.inr hstar) hhead hlast range, hread hw⟩

/-- A text behind the opening is not counted, so those below have to show the same by themselves. -/
theorem readsAs_openedComment (h : Portable first later) (hstyle : y.style ≠ .lines)
    (hrun : run.map Line.content = y.openedComment first (later.map written)) :
    ReadsAs run (first :: later) := by
  intro range
  obtain ⟨head, last, rows, rfl, hhead, hlast, hw, hcontent⟩ := exists_rows_of_block hrun
  have hcases := unwritten_or_flush h hw
  refine ⟨head, _, _, rfl,
    bodyOf_block hstyle hcontent (hcases.imp_right And.right) hhead hlast range, ?_⟩
  have htext : Text.allBlank (' ' :: first) = false := by
    rw [Text.allBlank_cons, h.first_text, Bool.and_false]
  have hfirst := content_ofLine_opening head [] (h.tabless first (by simp))
    (h.trimmed first (by simp)) h.first_flush (by simp)
  rw [List.append_nil] at hfirst
  have hlater := map_content_docLine (y := y) hw (fun t ht => h.tabless t (by simp [ht]))
    fun t ht => h.trimmed t (by simp [ht])
  rw [docLines_rows (hcases.imp_right And.left), if_neg (by simp [htext])]
  simp only [Option.map_some, Option.toList_some, List.map_append, List.map_cons, List.map_nil]
  rw [hfirst, hlater]
  rfl

theorem readsAs_single (h : Portable first [])
    (hrun : run.map Line.content =
      [List.replicate y.indent ' ' ++ (blockOpen ++ ' ' :: first ++ ' ' :: blockClose)]) :
    ReadsAs run [first] := by
  intro range
  obtain ⟨head, more, rfl, hhead, hmore⟩ := List.map_eq_cons_iff.mp hrun
  obtain rfl : more = [] := List.map_eq_nil_iff.mp hmore
  have hopening : head.content =
      List.replicate y.indent ' ' ++ (blockOpen ++ ((' ' :: first ++ [' ']) ++ blockClose)) := by
    rw [hhead]
    simp
  refine ⟨head, [], _, rfl, bodyOf_single hopening range, ?_⟩
  exact congrArg (· :: []) (content_ofLine_opening head [' '] (h.tabless first (by simp))
    (h.trimmed first (by simp)) h.first_flush (by simp))

/-- **The lines of a rendering are read as the text that was written.** -/
theorem readsAs_of_renders (h : Portable first later)
    (hr : y.Renders (first :: later) (run.map Line.content)) : ReadsAs run (first :: later) := by
  generalize hrun : run.map Line.content = texts at hr
  cases hr with
  | laidOut => exact readsAs_comment h hrun
  | opened hstyle => exact readsAs_openedComment h hstyle hrun
  | single _ => exact readsAs_single h hrun

/-- **Every style of comment reads the same.**  Wherever in a file a portable text is rendered,
in a layout or behind the opening of a block, slicing gives back the text. -/
theorem slice_renders (h : Portable first later)
    (hr : y.Renders (first :: later) (run.map Line.content)) {t : Text} {above below : List Line}
    (hlines : (LineTable.ofText t).lines = above ++ run ++ below) {head last : Line}
    (hhead : run.head? = some head) (hlast : run.getLast? = some last) {range : ByteRange}
    (hcovers : Covers range head last) :
    ∃ lines, slice range (LineTable.ofText t) = .ok lines ∧
      lines.map DocLine.content = first :: later := by
  obtain ⟨u, texts, hcontent⟩ := hr.head_eq (by simp)
  have hheadContent : head.content = List.replicate y.indent ' ' ++ '/' :: u := by
    have hmap := congrArg List.head? hcontent
    rw [List.head?_map, hhead] at hmap
    simpa using hmap
  have hascii : (Text.leadingBlanks head.content).all Text.isAsciiBlank = true := by
    rw [hheadContent, Text.leadingBlanks_spaces_append _ _ (by decide)]
    exact Text.all_isAsciiBlank_spaces y.indent
  have hheadText : Text.allBlank head.content = false := by
    rw [hheadContent]
    exact Text.allBlank_eq_false_of_mem (c := '/') (by simp) (by decide)
  have hlastText : Text.allBlank last.content = false :=
    hr.last_not_blank (by rw [List.getLast?_map, hlast]; rfl)
  have hinRange := linesInRange_eq_ok hlines hhead hlast hheadText hlastText hcovers hascii
  obtain ⟨first', more, body, rfl, hbody, hdocLines⟩ := readsAs_of_renders h hr range
  exact ⟨body.docLines, slice_eq_ok hinRange hbody, hdocLines⟩

/-- A function with a block above it that opens with its summary. -/
def summaryInOpening : Text :=
  "  /** Sums up.\n\n     - Parameter a: x\n   */\n  func f(a: Int)\n".toList

theorem slice_renders_summaryInOpening :
    ∃ lines, slice ⟨2, 41⟩ (LineTable.ofText summaryInOpening) = .ok lines ∧
      lines.map DocLine.content = ["Sums up.".toList, [], "- Parameter a: x".toList] := by
  have hrenders : (⟨.block, 2, 5, 0, 3⟩ : Layout).Renders
      ["Sums up.".toList, [], "- Parameter a: x".toList]
      (((LineTable.ofText summaryInOpening).lines.take 4).map Line.content) :=
    .opened (by decide)
  have hlines : (LineTable.ofText summaryInOpening).lines =
      [] ++ (LineTable.ofText summaryInOpening).lines.take 4
        ++ (LineTable.ofText summaryInOpening).lines.drop 4 :=
    (List.take_append_drop 4 _).symm
  exact slice_renders (by decide) hrenders hlines rfl rfl ⟨by decide, by decide, by decide⟩

end Layout

end DocLint.Doc
