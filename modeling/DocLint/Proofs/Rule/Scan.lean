/-
What the scan finds in a documented function that was written down.

The lines of the comment are blanked, so the one declaration is the function
(`declarations_eq`), all lines above it belong to its comment, and the comment is sliced
into what was written on its lines (`docRange_slice`).
-/
import DocLint.Proofs.Rule.DocumentedFunction
import DocLint.Proofs.Swift.Declaration

namespace DocLint.DocumentedFunction

open Doc Swift

variable (g : DocumentedFunction)

/-! ### The mask -/

/-- What follows the comment. -/
def below : Text := g.functionLine ++ if g.finalBreak then ['\n'] else []

theorem text_eq : g.text = Text.unlines g.commentLines ++ g.below := rfl

theorem mask_commentLines (t : Text) :
    mask (Text.unlines g.commentLines ++ t) = (Text.unlines g.commentLines).map blanked ++ mask t := by
  by_cases hstyle : g.layout.style = .lines
  · rw [g.commentLines_of_lines hstyle]
    refine mask_lineComments ?_ t
    intro l hl
    obtain ⟨c, hc, rfl⟩ := List.mem_map.mp hl
    refine ⟨g.layout.indent, '/' :: g.layout.spaced c, ?_, ?_⟩
    · unfold Layout.line Layout.mark
      rw [hstyle]
      simp [lineMarker]
    · intro hmem
      rcases List.mem_cons.mp hmem with hmem | hmem
      · exact absurd hmem (by decide)
      · exact ((g.spaced_writable hc).unbroken _ hmem).2 rfl
  · rw [g.commentLines_of_block hstyle]
    refine mask_blockComment ?_ _ _ t
    intro l hl
    obtain ⟨c, hc, rfl⟩ := List.mem_map.mp hl
    exact g.unmarked_line hstyle hc

theorem mem_functionLine : ∀ c ∈ g.functionLine,
    Text.isPlain c = true ∨ c = '(' ∨ c = ')' ∨ c = '\x7b' ∨ c = '\x7d' := by
  intro c hc
  simp only [functionLine, List.mem_append, List.mem_cons] at hc
  rcases hc with hc | hc | hc | rfl | hc
  · exact Or.inl (isPlain_spaces _ c hc)
  · have hall : ∀ c ∈ "func f(".toList, Text.isPlain c = true ∨ c = '(' := by decide
    rcases hall c hc with h | h
    · exact Or.inl h
    · exact Or.inr (Or.inl h)
  · exact Or.inl (g.isPlain_clause c hc)
  · exact Or.inr (Or.inr (Or.inl rfl))
  · have hall : ∀ c ∈ " \x7b\x7d".toList, Text.isPlain c = true ∨ c = '\x7b' ∨ c = '\x7d' := by decide
    rcases hall c hc with h | h
    · exact Or.inl h
    · exact Or.inr (Or.inr (Or.inr h))

theorem functionLine_unbroken : g.functionLine.Unbroken := by
  intro c hc
  rcases g.mem_functionLine c hc with h | rfl | rfl | rfl | rfl
  · exact ⟨Text.ne_of_isPlain h rfl, Text.ne_of_isPlain h rfl⟩
  · decide
  · decide
  · decide
  · decide

theorem mask_below : mask g.below = g.below := by
  have hcode : ∀ c ∈ g.below, c ≠ '/' ∧ c ≠ '\"' := by
    intro c hc
    rcases List.mem_append.mp hc with hc | hc
    · rcases g.mem_functionLine c hc with h | rfl | rfl | rfl | rfl
      · exact ⟨Text.ne_of_isPlain h rfl, Text.ne_of_isPlain h rfl⟩
      · decide
      · decide
      · decide
      · decide
    · have hbreak : c = '\n' := by
        split at hc
        · simpa using hc
        · simp at hc
      rw [hbreak]
      decide
  have h := mask_append_of_code hcode []
  rwa [mask_nil, List.append_nil] at h

/-- **The mask holds the function and blanks.** -/
theorem mask_text : mask g.text = (Text.unlines g.commentLines).map blanked ++ g.below := by
  rw [text_eq, mask_commentLines, mask_below]

/-! ### The head -/

theorem functionLine_ne : g.functionLine ≠ [] := by
  unfold functionLine
  simp

/-- The blanks of a comment are spaces and line feeds. -/
theorem mem_blanked {lines : List Text} (h : ∀ l ∈ lines, l.Unbroken) :
    ∀ c ∈ (Text.unlines lines).map blanked, c = ' ' ∨ c = '\n' := by
  intro c hc
  obtain ⟨d, hd, rfl⟩ := List.mem_map.mp hc
  obtain ⟨l, hl, hmem⟩ := List.mem_flatMap.mp hd
  rcases List.mem_append.mp hmem with hmem | hmem
  · exact Or.inl (blanked_of_unbroken (h l hl) hmem)
  · right
    obtain rfl : d = '\n' := by simpa using hmem
    rfl

theorem heads_text : heads (mask g.text) =
    [⟨⟨.function, "f".toList⟩, (Text.unlines g.commentLines).length + g.functionIndent,
      (Text.unlines g.commentLines).length + g.functionIndent + 6, some g.clause⟩] := by
  have hblanks : ∀ c ∈ (Text.unlines g.commentLines).map blanked ++ List.replicate g.functionIndent ' ',
      c = ' ' ∨ c = '\n' := by
    intro c hc
    rcases List.mem_append.mp hc with hc | hc
    · exact mem_blanked g.commentLines_unbroken c hc
    · exact Or.inl (List.mem_replicate.mp hc).2
  have hclause : ∀ c ∈ g.clause, c ≠ '(' ∧ c ≠ '[' ∧ c ≠ ')' ∧ c ≠ ']' := by
    intro c hc
    have hplain := g.isPlain_clause c hc
    exact ⟨Text.ne_of_isPlain hplain rfl, Text.ne_of_isPlain hplain rfl,
      Text.ne_of_isPlain hplain rfl, Text.ne_of_isPlain hplain rfl⟩
  have hrest : '(' ∉ " \x7b\x7d".toList ++ if g.finalBreak then ['\n'] else [] := by
    cases g.finalBreak with
    | true => decide
    | false => decide
  have hheads := heads_function hblanks hclause hrest
  rw [mask_text, below, functionLine]
  simp only [List.append_assoc, List.cons_append, List.length_append, List.length_map,
    List.length_replicate] at hheads ⊢
  exact hheads

/-! ### The lines -/

theorem splitLines_below :
    splitLines g.below = [⟨g.functionLine, if g.finalBreak then some .lf else none⟩] := by
  unfold below
  cases g.finalBreak with
  | true => exact splitLines_append_lf g.functionLine_unbroken []
  | false =>
      have h := splitLines_of_unbroken g.functionLine_unbroken g.functionLine_ne
      simpa using h

theorem map_blanked_unlines (lines : List Text) :
    (Text.unlines lines).map blanked = Text.unlines (lines.map (List.map blanked)) := by
  induction lines with
  | nil => rfl
  | cons l more ih =>
      rw [Text.unlines_cons, List.map_cons, Text.unlines_cons, List.map_append, List.map_cons, ih]
      rfl

/-- In the mask spaces stand for the lines of the comment. -/
theorem map_masked : (maskedLines (LineTable.ofText g.text) (mask g.text)).map MaskedLine.masked =
    g.commentLines.map (List.map blanked) ++ [g.functionLine] := by
  have hunbroken : ∀ l ∈ g.commentLines.map (List.map blanked), Text.Unbroken l := by
    intro l hl c hc
    obtain ⟨t, ht, rfl⟩ := List.mem_map.mp hl
    obtain ⟨d, hd, rfl⟩ := List.mem_map.mp hc
    rw [blanked_of_unbroken (g.commentLines_unbroken t ht) hd]
    decide
  rw [maskedLines_map_masked, mask_text, map_blanked_unlines,
    splitLines_unlines_append hunbroken, splitLines_below, List.map_append, List.map_map]
  exact congrArg (· ++ [g.functionLine]) (List.map_id _)

/-- How the lines of the file divide: the comment, blank in the mask, and the function. -/
structure Placement where
  comment : List Line
  function : Line
  /-- The lines of the comment beside those of the mask. -/
  above : List MaskedLine
  last : MaskedLine
  lines_eq : (LineTable.ofText g.text).lines = comment ++ [function]
  content_eq : comment.map Line.content = g.commentLines
  ending_eq : ∀ l ∈ comment, l.ending = some .lf
  masked_eq : maskedLines (LineTable.ofText g.text) (mask g.text) = above ++ [last]
  above_line : above.map MaskedLine.line = comment
  last_line : last.line = function
  above_blank : ∀ l ∈ above, Text.allBlank l.masked = true

theorem exists_placement : Nonempty g.Placement := by
  have hraw := LineTable.map_raw_ofText g.text
  have hline := maskedLines_map_line g.text
  have hmasked := g.map_masked
  rw [text_eq, splitLines_unlines_append g.commentLines_unbroken, splitLines_below] at hraw
  obtain ⟨comment, more, hlines, hcomment, hmore⟩ := List.map_eq_append_iff.mp hraw
  obtain ⟨function, rest, rfl, -, hrest⟩ := List.map_eq_cons_iff.mp hmore
  obtain rfl : rest = [] := List.map_eq_nil_iff.mp hrest
  have hcontent : comment.map Line.content = g.commentLines := by
    have h := congrArg (List.map RawLine.content) hcomment
    rw [List.map_map, List.map_map] at h
    exact h.trans (List.map_id _)
  change (LineTable.ofText g.text).lines = _ at hlines
  rw [hlines] at hline
  obtain ⟨above, more, hsplit, habove, hmore⟩ := List.map_eq_append_iff.mp hline
  obtain ⟨last, rest, rfl, hlast, hrest⟩ := List.map_eq_cons_iff.mp hmore
  obtain rfl : rest = [] := List.map_eq_nil_iff.mp hrest
  refine ⟨⟨comment, function, above, last, hlines, hcontent, ?_, hsplit, habove, hlast, ?_⟩⟩
  · intro l hl
    have hmem : l.raw ∈ comment.map Line.raw := List.mem_map_of_mem hl
    rw [hcomment] at hmem
    obtain ⟨t, -, ht⟩ := List.mem_map.mp hmem
    exact (congrArg RawLine.ending ht).symm
  · have hlength : (above.map MaskedLine.masked).length
        = (g.commentLines.map (List.map blanked)).length := by
      rw [← hcontent, ← habove]
      simp
    rw [hsplit, List.map_append] at hmasked
    have hblanked := (List.append_inj hmasked hlength).1
    intro l hl
    have hmem : l.masked ∈ above.map MaskedLine.masked := List.mem_map_of_mem hl
    rw [hblanked] at hmem
    obtain ⟨t, ht, htl⟩ := List.mem_map.mp hmem
    rw [← htl, Text.allBlank_iff]
    intro c hc
    obtain ⟨d, hd, rfl⟩ := List.mem_map.mp hc
    rw [blanked_of_unbroken (g.commentLines_unbroken t ht) hd]
    rfl

variable {g} (w : g.Placement)

/-! ### The declaration -/

/-- The function stands behind the bytes of the comment. -/
theorem Placement.offset_le : w.function.offset ≤ Text.byteSize
    (g.text.take ((Text.unlines g.commentLines).length + g.functionIndent)) := by
  have hoffset := (LineTable.offset_eq_unlines w.lines_eq w.ending_eq).2
  rw [hoffset, w.content_eq, text_eq, List.take_length_add_append, Text.byteSize_append]
  omega

/-- **The function is the one declaration**, and the lines above it are those of the comment. -/
theorem Placement.declarations_eq (path : Option Text) :
    ∃ offset, (SourceFile.mk g.text path).declarations =
      [⟨⟨.function, "f".toList⟩, offset, g.parameters, docRange? w.above.reverse⟩] := by
  have hlaid := LineTable.laidOut_ofText g.text
  rw [w.lines_eq] at hlaid
  have hle : ∀ l ∈ w.above ++ [w.last], l.line.offset ≤ Text.byteSize
      (g.text.take ((Text.unlines g.commentLines).length + g.functionIndent)) := by
    intro l hl
    have hmem : l.line ∈ w.comment ++ [w.function] := by
      rw [← w.above_line, ← w.last_line]
      simpa using List.mem_map_of_mem (f := MaskedLine.line) hl
    have h := hlaid.offset_le_of_mem (Int.ofNat_le.mpr w.offset_le) l.line hmem
    exact Int.ofNat_le.mp h
  have hsearch : SourceFile.linesAbove (w.above ++ [w.last]) (Text.byteSize
      (g.text.take ((Text.unlines g.commentLines).length + g.functionIndent))) = w.above.reverse := by
    unfold SourceFile.linesAbove
    rw [List.takeWhile_eq_self_iff.mpr (by simpa using hle)]
    simp
  refine ⟨Text.byteSize (g.text.take ((Text.unlines g.commentLines).length + g.functionIndent)), ?_⟩
  have hheads : (SourceFile.mk g.text path).heads = _ := g.heads_text
  have hmasked : (SourceFile.mk g.text path).maskedLines = _ := w.masked_eq
  rw [SourceFile.declarations_eq, hheads, hmasked]
  simp only [List.filterMap_cons, List.filterMap_nil, Option.map_some, hsearch]
  rw [clause, parameterNames_join g.parameters_name]

/-! ### The comment -/

/-- The list begins with a dash. -/
theorem exists_dash (g : DocumentedFunction) : ∃ u, some ('-' :: u) ∈ g.written := by
  have hlist : ∀ t ∈ g.list, some t ∈ g.written := by
    intro t ht
    unfold written
    simp [ht]
  by_cases hstyle : g.listStyle = .nested
  · refine ⟨" Parameters:".toList, hlist _ ?_⟩
    unfold list
    rw [header_nested hstyle]
    exact List.mem_cons_self
  · obtain ⟨e, more, hentries⟩ := List.exists_cons_of_ne_nil g.entries_ne
    refine ⟨' ' :: (g.listStyle.beforeName ++ (e.1 ++ ':' :: ' ' :: e.2)), hlist _ ?_⟩
    have hitem : g.item e = '-' :: ' ' :: (g.listStyle.beforeName ++ (e.1 ++ ':' :: ' ' :: e.2)) := by
      unfold item
      rw [itemIndent_of_flat hstyle]
      rfl
    unfold list
    rw [hentries, ← hitem]
    simp

/-- The line that closes a block carries no other mark. -/
theorem closing_marks (n : Nat) :
    isLineDoc (List.replicate n ' ' ++ blockClose) = false ∧
      Text.trim (List.replicate n ' ' ++ blockClose) = blockClose ∧
      Text.hasPart commentOpen (List.replicate n ' ' ++ blockClose) = false := by
  have hleft := Text.trimLeft_append_of_allBlank blockClose (Text.allBlank_spaces n)
  refine ⟨?_, ?_, ?_⟩
  · unfold isLineDoc
    rw [hleft]
    rfl
  · unfold Text.trim
    rw [hleft]
    rfl
  · induction n with
    | zero => rfl
    | succ n ih =>
        rw [List.replicate_succ, List.cons_append, Text.hasPart,
          ih (Text.trimLeft_append_of_allBlank blockClose (Text.allBlank_spaces n))]
        rfl

/-- The lines of a comment beside what is written on them. -/
structure Rows (w : g.Placement) where
  front : List Line
  rows : List Row
  back : List Line
  comment_eq : w.comment = front ++ rows.map Row.line ++ back
  written_eq : rows.map Row.written = g.written
  content_eq : ∀ r ∈ rows, r.line.content = g.layout.line r.written
  /-- Only a block has lines for its marks. -/
  marks : (g.layout.style = .lines ∧ front = [] ∧ back = []) ∨
    (g.layout.style ≠ .lines ∧ ∃ first last, front = [first] ∧ back = [last] ∧
      first.content = List.replicate g.layout.indent ' ' ++ blockOpen ∧
      last.content = List.replicate g.layout.close ' ' ++ blockClose)

theorem Placement.exists_rows : Nonempty (Rows w) := by
  have hcontent := w.content_eq
  by_cases hstyle : g.layout.style = .lines
  · rw [g.commentLines_of_lines hstyle] at hcontent
    obtain ⟨rows, hline, hwritten, hrows⟩ := Layout.exists_rows_of_map_eq hcontent
    exact ⟨⟨[], rows, [], by simp [hline], hwritten, hrows, Or.inl ⟨hstyle, rfl, rfl⟩⟩⟩
  · rw [g.commentLines_of_block hstyle] at hcontent
    obtain ⟨first, last, rows, hcomment, hfirst, hlast, hwritten, hrows⟩ :=
      Layout.exists_rows_of_block hcontent
    refine ⟨⟨[first], rows, [last], ?_, hwritten, hrows,
      Or.inr ⟨hstyle, first, last, rfl, rfl, hfirst, hlast⟩⟩⟩
    rw [hcomment]
    simp

namespace Rows

variable {w} (q : Rows w)

theorem rows_ne : q.rows ≠ [] := by
  intro hnil
  have h := q.written_eq
  rw [hnil, written] at h
  simp at h

theorem exists_dash : ∃ r ∈ q.rows, ∃ u, r.written = some ('-' :: u) := by
  obtain ⟨u, hu⟩ := g.exists_dash
  rw [← q.written_eq] at hu
  obtain ⟨r, hr, hwritten⟩ := List.mem_map.mp hu
  exact ⟨r, hr, u, hwritten⟩

theorem hasFlush : Layout.HasFlush q.rows := by
  obtain ⟨r, hr, u, hu⟩ := q.exists_dash
  exact ⟨r, hr, '-', u, hu, by decide⟩

theorem hasUnstarred : Layout.HasUnstarred q.rows := by
  obtain ⟨r, hr, u, hu⟩ := q.exists_dash
  exact ⟨r, hr, _, hu, '-', u, Text.trimLeft_cons_of_not u (by decide), by decide⟩

/-- The lines of the comment are taken for one. -/
theorem commentRun (q : Rows w) : CommentRun w.comment.reverse [] := by
  have hcomment := q.comment_eq
  rcases q.marks with ⟨hstyle, hfront, hback⟩ | ⟨hstyle, first, last, hfront, hback, hfirst, hlast⟩
  · rw [hfront, hback, List.nil_append, List.append_nil] at hcomment
    have hall : ∀ l ∈ w.comment.reverse, isLineDoc l.content = true := by
      intro l hl
      rw [hcomment, List.mem_reverse] at hl
      obtain ⟨r, hr, rfl⟩ := List.mem_map.mp hl
      rw [q.content_eq r hr]
      exact Layout.isLineDoc_line hstyle r.written
    obtain ⟨last, run, hrun⟩ := List.exists_cons_of_ne_nil
      (l := w.comment.reverse) (by rw [hcomment]; simp [q.rows_ne])
    rw [hrun] at hall ⊢
    exact CommentRun.lines (hall last (by simp)) (fun l hl => hall l (by simp [hl])) (by simp)
  · have hreverse : w.comment.reverse = (last :: (q.rows.map Row.line).reverse) ++ [first] := by
      rw [hcomment, hfront, hback]
      simp
    have hopen : Text.trimLeft first.content = blockOpen := by
      rw [hfirst, Text.trimLeft_append_of_allBlank _ (Text.allBlank_spaces _)]
      rfl
    obtain ⟨hlastDoc, htrim, hnoOpening⟩ := closing_marks g.layout.close
    rw [← hlast] at hlastDoc htrim hnoOpening
    rw [hreverse]
    refine CommentRun.block (rfl : _ = some last) hlastDoc (by rw [htrim]; rfl) ?_ ?_
      (by rw [hopen]; rfl) (by rw [hopen]; rfl)
    · intro l hl
      rcases List.mem_cons.mp hl with rfl | hl
      · exact hnoOpening
      · obtain ⟨r, hr, rfl⟩ := List.mem_map.mp (List.mem_reverse.mp hl)
        have hwritten : r.written ∈ g.written := by
          rw [← q.written_eq]
          exact List.mem_map_of_mem hr
        rw [q.content_eq r hr]
        exact (g.unmarked_line hstyle hwritten).noOpening
    · rw [hfirst]
      exact Text.hasPart_append (by decide) _

/-- Spaces stand before the first mark. -/
theorem exists_first (q : Rows w) : ∃ first more u, w.comment = first :: more ∧
    first.content = List.replicate g.layout.indent ' ' ++ '/' :: u := by
  have hcomment := q.comment_eq
  rcases q.marks with ⟨hstyle, hfront, hback⟩ | ⟨-, first, last, hfront, hback, hfirst, -⟩
  · obtain ⟨r, more, hrows⟩ := List.exists_cons_of_ne_nil q.rows_ne
    refine ⟨r.line, more.map Row.line, '/' :: '/' :: g.layout.spaced r.written, ?_, ?_⟩
    · rw [hcomment, hfront, hback, hrows]
      simp
    · rw [q.content_eq r (by simp [hrows])]
      unfold Layout.line Layout.mark
      rw [hstyle]
      simp [lineMarker]
  · refine ⟨first, q.rows.map Row.line ++ [last], ['*', '*'], ?_, hfirst⟩
    rw [hcomment, hfront, hback]
    simp

/-- The marks of the comment are taken away. -/
theorem bodyOf_eq (q : Rows w) {first : Line} {more : List Line} (h : w.comment = first :: more)
    (range : ByteRange) : bodyOf range first more = .ok ⟨none, q.rows.map g.layout.stripped⟩ := by
  have hcomment := q.comment_eq
  rw [h] at hcomment
  rcases q.marks with ⟨hstyle, hfront, hback⟩ | ⟨hstyle, x, last, hfront, hback, hx, hlast⟩
  · rw [hfront, hback, List.nil_append, List.append_nil] at hcomment
    exact Layout.bodyOf_lines hstyle q.content_eq hcomment.symm range
  · rw [hfront, hback] at hcomment
    obtain ⟨rfl, rfl⟩ : first = x ∧ more = q.rows.map Row.line ++ [last] := by
      simpa using hcomment
    rw [← List.append_nil blockOpen] at hx
    exact Layout.bodyOf_block hstyle q.content_eq (Or.inr q.hasUnstarred) hx hlast range

/-- **The comment is the one of the function, and it is read as it was written.** -/
theorem docRange_slice (q : Rows w) : ∃ first last, w.comment.head? = some first ∧
    docRange? w.above.reverse = some (rangeOfLines first last) ∧
    slice (rangeOfLines first last) (LineTable.ofText g.text) = .ok (q.rows.map g.layout.docLine) := by
  obtain ⟨first, more, u, hcomment, hfirst⟩ := q.exists_first
  obtain ⟨last, hlast⟩ : ∃ last, w.comment.getLast? = some last := by
    rw [hcomment]
    exact ⟨_, List.getLast?_cons⟩
  have hhead : w.comment.head? = some first := by rw [hcomment]; rfl
  have hrun := q.commentRun
  have hfirstBlank := hrun.first_not_blank first (by simpa using hhead)
  have hlastBlank := hrun.last_not_blank last (by simpa using hlast)
  refine ⟨first, last, hhead, ?_, ?_⟩
  · rw [docRange?_eq_some_iff, dropAttributes_of_blank (by simpa using w.above_blank)]
    refine ⟨w.comment.reverse, [], ?_, hrun, first, last, ?_, ?_, rfl⟩
    · rw [List.map_reverse, w.above_line, List.append_nil]
    · simpa using hhead
    · simpa using hlast
  · have hlines : (LineTable.ofText g.text).lines = [] ++ w.comment ++ [w.function] := by
      rw [w.lines_eq, List.nil_append]
    have hinRange := linesInRange_rangeOfLines hlines hhead hlast hfirstBlank hlastBlank
    have hascii : (Text.leadingBlanks first.content).all Text.isAsciiBlank = true := by
      rw [hfirst, Text.leadingBlanks_spaces_append _ _ (by decide)]
      exact Text.all_isAsciiBlank_spaces g.layout.indent
    rw [if_pos hascii, hcomment] at hinRange
    rw [slice_eq_ok hinRange (q.bodyOf_eq hcomment _)]
    exact congrArg Except.ok (Layout.docLines_rows (Or.inr q.hasFlush) none)

end Rows

end DocLint.DocumentedFunction
