/-
Which block comments are found.

The mask reads a block comment by counting openings and closings, and the search for the
comment of a declaration goes up from the line of the closing to the nearest line with an
opening.  `DocBlock` says of a comment, as the mask reads it, that it documents: it opens
with two stars, it is closed, and nothing but blanks stands before and behind it.  Such a
comment is taken for the declaration on the next line exactly when no other opening stands
on a line below its first one and its last line is not read as a documentation line
(`docRange_docBlock_iff`).
-/
import Mathlib
import DocLint.Proofs.Doc.Slice
import DocLint.Proofs.Swift.Coverage

namespace DocLint

namespace Swift

/-! ### Where a block comment closes -/

/-- A block comment that is closed ends with a closing. -/
theorem blockClose_suffix_blockTail {depth : Nat} {t : Text}
    (h : (blockTail depth t).closed = true) :
    depth = 0 ∨ Doc.blockClose <:+ (blockTail depth t).taken := by
  fun_induction blockTail depth t with
  | case1 => exact Or.inl rfl
  | case2 => simp at h
  | case3 depth r ih =>
      rcases ih h with hdepth | hsuffix
      · omega
      · exact Or.inr ((hsuffix.trans (List.suffix_cons _ _)).trans (List.suffix_cons _ _))
  | case4 depth r ih =>
      rcases ih h with rfl | hsuffix
      · refine Or.inr ?_
        rw [blockTail]
        exact List.suffix_rfl
      · exact Or.inr ((hsuffix.trans (List.suffix_cons _ _)).trans (List.suffix_cons _ _))
  | case5 depth c r _ _ ih =>
      rcases ih h with hdepth | hsuffix
      · omega
      · exact Or.inr (hsuffix.trans (List.suffix_cons _ _))

theorem Occurrence.blockComment_eq {t : Text} (o : Occurrence t)
    (hkind : o.lexeme.kind = .blockComment) :
    ∃ r, o.lexeme.text = '/' :: '*' :: (blockTail 1 r).taken ∧
      o.lexeme.closed = (blockTail 1 r).closed := by
  obtain ⟨c, r, -, hnext⟩ := o.exists_nextLexeme
  have hlexeme := congrArg Prod.fst hnext
  simp only at hlexeme
  rw [← hlexeme] at hkind ⊢
  revert hkind
  fun_cases nextLexeme c r with
  | case1 => simp [Lexeme.ofSpan]
  | case2 r => exact fun _ => ⟨r, rfl, rfl⟩
  | case3 => simp [Lexeme.ofSpan]
  | case4 => simp [Lexeme.ofSpan]
  | case5 => simp

/-- It has four characters at least, those of the opening and those of the closing. -/
theorem Occurrence.blockClose_suffix {t : Text} (o : Occurrence t)
    (hkind : o.lexeme.kind = .blockComment) (hclosed : o.lexeme.closed = true) :
    Doc.blockClose <:+ o.lexeme.text ∧ 4 ≤ o.lexeme.text.length := by
  obtain ⟨r, htext, hspan⟩ := o.blockComment_eq hkind
  rw [hspan] at hclosed
  rcases blockClose_suffix_blockTail hclosed with hdepth | hsuffix
  · simp at hdepth
  · rw [htext]
    refine ⟨(hsuffix.trans (List.suffix_cons _ _)).trans (List.suffix_cons _ _), ?_⟩
    have hlength := hsuffix.length_le
    simp only [Doc.blockClose, List.length_cons, List.length_nil] at hlength ⊢
    omega

end Swift

/-! ### Cutting a text at a byte -/

/-- Two beginnings of a text with the same bytes are the same. -/
theorem Text.eq_of_append_eq {s s' t t' : Text} (h : s ++ t = s' ++ t')
    (hbytes : s.byteSize = s'.byteSize) : s = s' ∧ t = t' := by
  rcases List.append_eq_append_iff.mp h with ⟨w, rfl, rfl⟩ | ⟨w, rfl, rfl⟩
  all_goals
    rw [Text.byteSize_append] at hbytes
    obtain rfl : w = [] := Text.eq_nil_of_byteSize_eq_zero (by omega)
    simp

/-- A character that is not blank stands between the blanks at the two ends. -/
theorem Text.bytesBefore_of_not_blank {t : Text} {j : Nat} {c : Char} (hj : t[j]? = some c)
    (hc : Text.isBlank c = false) :
    (Text.leadingBlanks t).byteSize ≤ t.bytesBefore j ∧
      t.bytesBefore j < (Text.trimRight t).byteSize := by
  refine ⟨?_, ?_⟩
  · have hsplit := Text.leadingBlanks_append_trimLeft t
    have hle : (Text.leadingBlanks t).length ≤ j := by
      by_contra hlt
      rw [← hsplit, List.getElem?_append_left (by omega)] at hj
      have hblank := Text.allBlank_iff.mp (Text.allBlank_leadingBlanks t) c (List.mem_of_getElem? hj)
      rw [hblank] at hc
      simp at hc
    have hmono := Text.bytesBefore_le (t := t) hle
    have hfront := Text.bytesBefore_length (Text.leadingBlanks t) (Text.trimLeft t)
    rw [hsplit] at hfront
    omega
  · obtain ⟨rest, hrest, hblank⟩ := Text.exists_trimRight_append t
    have hlt : j < (Text.trimRight t).length := by
      by_contra hle
      rw [hrest, List.getElem?_append_right (by omega)] at hj
      have hcb := Text.allBlank_iff.mp hblank c (List.mem_of_getElem? hj)
      rw [hcb] at hc
      simp at hc
    obtain ⟨hbound, -⟩ := List.getElem?_eq_some_iff.mp hj
    have hmono := Text.bytesBefore_lt (t := t) hlt hbound
    have hfront := Text.bytesBefore_length (Text.trimRight t) rest
    rw [← hrest] at hfront
    omega

namespace SourceFile

open Swift

variable {f : SourceFile} {d : Declaration} {o : Occurrence f.contents} {first last keyword l : Line}
  {above below : List Line}

/-! ### Lines of a file -/

/-- What follows the content of a line begins with a line break, if there is anything. -/
theorem break_of_head? (hlines : f.table.lines = above ++ l :: below) :
    ∀ c, (l.raw.endingText ++ LineTable.text ⟨below⟩).head? = some c → c = '\r' ∨ c = '\n' := by
  intro c hc
  by_cases hnone : l.ending = none
  · cases below with
    | nil => simp [RawLine.endingText, Line.raw, hnone, LineTable.text] at hc
    | cons next below => exact absurd hnone (LineTable.ending_ne_none hlines)
  · obtain ⟨e, r, hending⟩ := List.exists_cons_of_ne_nil (RawLine.endingText_ne_nil (l := l.raw) hnone)
    obtain rfl : e = c := by
      rw [hending] at hc
      simpa using hc
    exact RawLine.eq_of_mem_endingText (l := l.raw) (by rw [hending]; simp)

/-- What stands in front of a line ends with a line break, if there is anything. -/
theorem break_of_getLast? (hlines : f.table.lines = above ++ l :: below) :
    ∀ c, (LineTable.text ⟨above⟩).getLast? = some c → c = '\r' ∨ c = '\n' := by
  intro c hc
  rcases List.eq_nil_or_concat above with rfl | ⟨upper, x, rfl⟩
  · simp [LineTable.text] at hc
  · rw [List.concat_eq_append] at hlines hc
    have hx : x.ending ≠ none := by
      rw [List.append_assoc, List.singleton_append] at hlines
      exact LineTable.ending_ne_none hlines
    rw [LineTable.text, List.flatMap_append, List.flatMap_singleton, RawLine.text, ← List.append_assoc,
      List.getLast?_append_of_ne_nil _ (RawLine.endingText_ne_nil (l := x.raw) hx)] at hc
    exact RawLine.eq_of_mem_endingText (l := x.raw) (List.mem_of_getLast? hc)

/-- The text of a file, cut where only blanks follow on a line. -/
theorem contents_eq_trimRight (hlines : f.table.lines = above ++ l :: below) :
    ∃ rest, f.contents = LineTable.text ⟨above⟩ ++ Text.trimRight l.content ++ rest ∧
      Text.byteSize (LineTable.text ⟨above⟩ ++ Text.trimRight l.content) =
        l.offset + (Text.trimRight l.content).byteSize := by
  obtain ⟨htext, habove⟩ := contents_eq hlines
  obtain ⟨blanks, hblanks, -⟩ := Text.exists_trimRight_append l.content
  refine ⟨blanks ++ (l.raw.endingText ++ LineTable.text ⟨below⟩), ?_, ?_⟩
  · rw [htext]
    conv_lhs => rw [hblanks]
    simp only [List.append_assoc]
  · rw [Text.byteSize_append, habove]

/-- A character of a line and what stands for it in the mask have one place in the file. -/
theorem exists_place_of_maskedLine {above below : List MaskedLine} {l : MaskedLine}
    (hsplit : f.maskedLines = above ++ l :: below) {j : Nat} {c m : Char}
    (hc : l.line.content[j]? = some c) (hm : l.masked[j]? = some m) :
    ∃ i, f.contents[i]? = some c ∧ (mask f.contents)[i]? = some m ∧
      f.contents.bytesBefore i = l.line.offset + l.line.content.bytesBefore j := by
  obtain ⟨htext, habove⟩ := contents_eq (table_lines_of_maskedLines hsplit)
  have hmasks : ∀ x ∈ above, List.Forall₂ Masks x.line.content x.masked := by
    intro x hx
    refine masks_of_mem_maskedLines (t := f.contents) ?_
    change x ∈ f.maskedLines
    rw [hsplit]
    simp [hx]
  have hmask : mask f.contents = above.flatMap MaskedLine.text ++ l.masked
      ++ (l.line.raw.endingText ++ below.flatMap MaskedLine.text) := by
    have h := maskedLines_flatMap_text f.contents
    change f.maskedLines.flatMap MaskedLine.text = _ at h
    rw [hsplit, List.flatMap_append, List.flatMap_cons, MaskedLine.text] at h
    rw [← h]
    simp only [List.append_assoc]
  obtain ⟨hplace, hbytes⟩ := Text.getElem?_of_part htext hc
  obtain ⟨hmaskPlace, -⟩ := Text.getElem?_of_part hmask hm
  refine ⟨_, hplace, ?_, ?_⟩
  · rw [length_flatMap_text hmasks] at hmaskPlace
    exact hmaskPlace
  · rw [hbytes, habove]

/-! ### Documentation blocks -/

/-- A closed block comment of the scan that opens with two stars, from the line `first` to the line
`last`, with nothing but blanks before it and behind it. -/
structure DocBlock (f : SourceFile) (o : Occurrence f.contents) (first last : Line) : Prop where
  kind : o.lexeme.kind = .blockComment
  closed : o.lexeme.closed = true
  opens : Doc.blockOpen <+: o.lexeme.text
  /-- The second star of the opening is not that of the closing. -/
  notEmpty : ¬Doc.blockOpen ++ ['/'] <+: o.lexeme.text
  first_line : f.table.lineAt o.start = .ok first
  first_text : first.textOffset = o.start
  last_line : f.table.lineAt ((o.stop : Int) - 1) = .ok last
  last_text : last.offset + (Text.trimRight last.content).byteSize = o.stop

namespace DocBlock

/-- The comment begins and ends inside the file, on the two lines. -/
theorem bounds (h : DocBlock f o first last) :
    (first ∈ f.table.lines ∧ first.offset ≤ o.start ∧ o.start < first.stop) ∧
      (last ∈ f.table.lines ∧ last.offset < o.stop ∧ o.stop ≤ last.stop) ∧ o.start < o.stop := by
  have hsize : f.table.size = f.contents.byteSize := LineTable.size_ofText f.contents
  have hlength := (o.blockClose_suffix h.kind h.closed).2
  have hpos : 0 < o.lexeme.text.byteSize := by
    refine Text.byteSize_pos ?_
    intro hnil
    rw [hnil] at hlength
    simp at hlength
  have hstop : o.stop = o.start + o.lexeme.text.byteSize := rfl
  have hinside := o.stop_le
  obtain ⟨hfirst, hlow, hhigh⟩ := LineTable.of_lineAt_eq_ok (t := f.contents) h.first_line (by omega)
    (by
      change _ < ((f.table.size : Nat) : Int)
      omega)
  obtain ⟨hlast, hlow', hhigh'⟩ := LineTable.of_lineAt_eq_ok (t := f.contents) h.last_line (by omega)
    (by
      change _ < ((f.table.size : Nat) : Int)
      omega)
  exact ⟨⟨hfirst, by omega, by omega⟩, ⟨hlast, by omega, by omega⟩, by omega⟩

/-- The comment begins with the first text of its first line. -/
theorem first_not_blank (h : DocBlock f o first last) : Text.allBlank first.content = false := by
  obtain ⟨⟨hfirst, -, -⟩, -, -⟩ := h.bounds
  obtain ⟨above, below, hlines⟩ := List.append_of_mem hfirst
  obtain ⟨htext, habove⟩ := contents_eq hlines
  obtain ⟨r, hlexeme, -⟩ := o.blockComment_eq h.kind
  by_contra hblank
  rw [Bool.not_eq_false] at hblank
  have hoffset : first.offset = o.start := by
    rw [← h.first_text, Line.textOffset, if_pos hblank]
  have hcut := htext.symm.trans o.text_eq
  rw [List.append_assoc, List.append_assoc] at hcut
  have hrest := (Text.eq_of_append_eq hcut (habove.trans hoffset)).2
  rw [hlexeme, List.cons_append] at hrest
  cases hcontent : first.content with
  | nil =>
      have hbreak := break_of_head? hlines '/' (by
        rw [hcontent, List.nil_append] at hrest
        rw [hrest]
        rfl)
      rcases hbreak with hbreak | hbreak
      · simp at hbreak
      · simp at hbreak
  | cons c content =>
      rw [hcontent, List.cons_append] at hrest
      obtain ⟨rfl, -⟩ := List.cons.inj hrest
      have hslash := Text.allBlank_iff.mp hblank '/' (by rw [hcontent]; simp)
      exact absurd hslash (by decide)

/-- The first line carries the opening, and not that of an empty comment. -/
theorem first_marks (h : DocBlock f o first last) :
    Doc.blockOpen <+: Text.trimLeft first.content ∧
      ¬Doc.blockOpen ++ ['/'] <+: Text.trimLeft first.content := by
  obtain ⟨⟨hfirst, -, -⟩, -, -⟩ := h.bounds
  obtain ⟨above, below, hlines⟩ := List.append_of_mem hfirst
  obtain ⟨htext, hfront, -⟩ := contents_eq_fromText hlines h.first_not_blank
  have hcut := htext.symm.trans o.text_eq
  rw [List.append_assoc o.front] at hcut
  have hrest := (Text.eq_of_append_eq hcut (hfront.trans h.first_text)).2
  refine ⟨?_, ?_⟩
  · have hprefix : Doc.blockOpen <+: fromText first below := by
      rw [hrest]
      exact h.opens.trans (List.prefix_append _ _)
    refine prefix_of_prefix_append hprefix ?_
    intro c hc
    rcases break_of_head? hlines c hc with rfl | rfl
    · simp [Doc.blockOpen]
    · simp [Doc.blockOpen]
  · intro hprefix
    have hwhole : Doc.blockOpen ++ ['/'] <+: o.lexeme.text ++ o.back := by
      rw [← hrest]
      exact hprefix.trans (List.prefix_append _ _)
    exact h.notEmpty (List.prefix_of_prefix_length_le hwhole (List.prefix_append _ _)
      (o.blockClose_suffix h.kind h.closed).2)

/-- The last line carries the closing. -/
theorem last_mark (h : DocBlock f o first last) : Doc.blockClose <:+ Text.trim last.content := by
  obtain ⟨-, ⟨hlast, -, -⟩, -⟩ := h.bounds
  obtain ⟨above, below, hlines⟩ := List.append_of_mem hlast
  obtain ⟨rest, htext, hbytes⟩ := contents_eq_trimRight hlines
  have hcut := htext.symm.trans o.text_eq
  have hfront := (Text.eq_of_append_eq hcut (by rw [hbytes, h.last_text, o.stop_eq])).1
  have hclose : Doc.blockClose <:+ LineTable.text ⟨above⟩ ++ Text.trimRight last.content := by
    rw [hfront]
    exact (o.blockClose_suffix h.kind h.closed).1.trans (List.suffix_append _ _)
  have hline : Doc.blockClose <:+ Text.trimRight last.content := by
    refine suffix_of_suffix_append hclose ?_
    intro c hc
    rcases break_of_getLast? hlines c hc with rfl | rfl
    · simp [Doc.blockClose]
    · simp [Doc.blockClose]
  have hblank : Text.allBlank last.content = false := by
    by_contra hblank
    rw [Bool.not_eq_false] at hblank
    rw [Text.trimRight_eq_nil hblank] at hline
    exact absurd hline (by decide)
  rw [Text.trimRight_eq_append_trim hblank] at hline
  refine suffix_of_suffix_append hline ?_
  intro c hc
  have hcb := Text.allBlank_iff.mp (Text.allBlank_leadingBlanks last.content) c
    (List.mem_of_getLast? hc)
  intro hmem
  rcases List.mem_cons.mp hmem with rfl | hmem
  · exact absurd hcb (by decide)
  · obtain rfl : c = '/' := by simpa using hmem
    exact absurd hcb (by decide)

/-- The comment has begun where the text of its last line begins. -/
theorem start_le_last (h : DocBlock f o first last) :
    o.start ≤ last.offset + (Text.leadingBlanks last.content).byteSize := by
  obtain ⟨⟨hfirst, hlow, hhigh⟩, ⟨hlast, hlow', hhigh'⟩, hspan⟩ := h.bounds
  obtain ⟨above, below, hlines⟩ := List.append_of_mem hfirst
  rcases LineTable.above_or_eq_or_below (t := f.contents) hlines hlast with
    ⟨-, -, hle⟩ | heq | ⟨-, -, hle⟩
  · omega
  · have htext := h.first_text
    rw [Line.textOffset, h.first_not_blank, if_neg (by simp)] at htext
    rw [heq]
    omega
  · omega

/-- Nothing of the last line is code. -/
theorem last_masked (h : DocBlock f o first last) {l : MaskedLine} (hl : l ∈ f.maskedLines)
    (hlast : l.line = last) : Text.allBlank l.masked = true := by
  rw [Text.allBlank_iff]
  intro m hm
  obtain ⟨j, hj, rfl⟩ := List.mem_iff_getElem.mp hm
  have hmasks := masks_of_mem_maskedLines (t := f.contents) hl
  have hlength := hmasks.length_eq
  have hc : j < l.line.content.length := by omega
  by_cases hblank : Text.isBlank l.line.content[j] = true
  · exact (hmasks.get hc hj).isBlank hblank
  -- A character that is not blank belongs to the comment, for only blanks stand around it.
  · obtain ⟨above, below, hsplit⟩ := List.append_of_mem hl
    obtain ⟨i, hi, hmaskAt, hbytes⟩ := exists_place_of_maskedLine hsplit
      (List.getElem?_eq_getElem hc) (List.getElem?_eq_getElem hj)
    obtain ⟨hbehind, hbefore⟩ := Text.bytesBefore_of_not_blank (List.getElem?_eq_getElem hc)
      (by simpa using hblank)
    have hbegin := h.start_le_last
    have hend := h.last_text
    rw [← hlast] at hbegin hend
    have hheld : o.Holds (f.contents.bytesBefore i) := by
      rw [hbytes]
      exact ⟨by omega, by omega⟩
    have hblanked := o.getElem?_mask (by rw [h.kind]; decide) hi hheld
    rw [hmaskAt] at hblanked
    rw [Option.some.inj hblanked]
    exact isBlank_blanked _

/-- The line of the closing is the first one that is looked at when the next line has the keyword of
a declaration. -/
theorem docRange_iff (h : DocBlock f o first last) (hd : d ∈ f.declarations)
    (hkeyword : f.table.lineAt d.offset = .ok keyword) (hnext : keyword.index = last.index + 1) :
    ∃ above below, f.table.lines = above ++ last :: below ∧ ∀ range, d.docRange = some range ↔
      ∃ run rest, last :: above.reverse = run ++ rest ∧ CommentRun run rest ∧ IsRangeOf range run := by
  obtain ⟨-, ⟨hlast, -, -⟩, -⟩ := h.bounds
  obtain ⟨above, k, below, hsplit, hlow, hhigh, -, habove⟩ := exists_keyword_line hd
  obtain ⟨-, -, -, -, -, -, -, -, -, hdoc⟩ := exists_head_of_mem hd
  have hlines := table_lines_of_maskedLines hsplit
  have hstop := k.line.contentEnd_le_stop
  have hk : k.line ∈ f.table.lines := by
    rw [hlines]
    simp
  obtain rfl : k.line = keyword := by
    have hat := LineTable.lineAt_eq_ok (t := f.contents) (x := d.offset) hk (by omega) (by omega)
    exact Except.ok.inj (hat.symm.trans hkeyword)
  have hlaid := laidOut_of_maskedLines hsplit
  rcases List.eq_nil_or_concat above with rfl | ⟨upper, m, rfl⟩
  · have hindex := hlaid.eq_of_append.1
    simp only [List.map_nil, List.length_nil] at hindex
    omega
  rw [List.concat_eq_append] at *
  have hm : m ∈ f.maskedLines := by
    rw [hsplit]
    simp
  have hmline : m.line = last := by
    have hmem : m.line ∈ f.table.lines := by
      rw [hlines]
      simp
    refine LineTable.eq_of_index_eq (t := f.contents) hmem hlast ?_
    have hindex := hlaid.eq_of_append.1
    rw [List.map_append, List.append_assoc] at hlaid
    have hindexM := hlaid.eq_of_append.1
    simp only [List.map_append, List.length_append, List.length_map, List.length_singleton] at hindex
    simp only [List.length_map] at hindexM
    omega
  refine ⟨upper.map MaskedLine.line, k.line :: below.map MaskedLine.line, ?_, ?_⟩
  · rw [hlines, ← hmline]
    simp
  · intro range
    rw [hdoc, habove, docRange?_eq_some_iff, List.reverse_append, List.reverse_singleton,
      List.singleton_append, dropAttributes_cons_of_blank (h.last_masked hm hmline), List.map_cons,
      hmline, List.map_reverse]

/-- The opening stands on the line of the closing, or above it. -/
theorem first_mem (h : DocBlock f o first last) {above below : List Line}
    (hlines : f.table.lines = above ++ last :: below) : first ∈ above ++ [last] := by
  obtain ⟨⟨hfirst, hlow, hhigh⟩, ⟨-, hlow', hhigh'⟩, hspan⟩ := h.bounds
  rcases LineTable.above_or_eq_or_below (t := f.contents) hlines hfirst with
    ⟨hmem, -⟩ | rfl | ⟨-, -, hle⟩
  · simp [hmem]
  · simp
  · omega

/-- A line with the place of the opening is that of the opening. -/
theorem eq_first (h : DocBlock f o first last) {l : Line} (hl : l ∈ f.table.lines)
    (hblank : Text.allBlank l.content = false) (htext : l.textOffset = o.start) : l = first := by
  have hlow := l.offset_le_textOffset
  have hhigh := Line.textOffset_lt hblank
  have hstop := l.contentEnd_le_stop
  have hat := LineTable.lineAt_eq_ok (t := f.contents) (x := o.start) hl (by omega) (by omega)
  exact Except.ok.inj (hat.symm.trans h.first_line)

/-- A comment that the search takes, and that begins where the block does, is the block. -/
theorem unopened_of_commentRun (h : DocBlock f o first last) {above below : List Line}
    (hlines : f.table.lines = above ++ last :: below) {run rest : List Line}
    (hsplit : last :: above.reverse = run ++ rest) (hrun : CommentRun run rest)
    (hfirst : run.getLast? = some first) :
    Doc.isLineDoc last.content = false ∧
      ∀ l ∈ f.table.lines, first.index < l.index → l.index ≤ last.index →
        Text.hasPart Doc.commentOpen l.content = false := by
  cases hrun with
  | @lines x run' _ hx hall _ =>
      have hdoc : Doc.isLineDoc first.content = true := by
        rcases List.mem_cons.mp (List.mem_of_getLast? hfirst) with rfl | hmem
        · exact hx
        · exact hall first hmem
      rw [Doc.isLineDoc_of_blockOpen (List.isPrefixOf_iff_prefix.mpr h.first_marks.1)] at hdoc
      simp at hdoc
  | @block x y inner _ hhead hx _ hinner _ _ _ =>
      obtain rfl : y = first := by simpa using hfirst
      obtain rfl : last = x := by
        have hfront := congrArg List.head? hsplit
        rw [List.head?_append_of_ne_nil _ (by simp), hhead] at hfront
        exact Option.some.inj hfront
      refine ⟨hx, ?_⟩
      intro l hl hlow hhigh
      have hreverse : above ++ [last] = rest.reverse ++ y :: inner.reverse := by
        simpa using congrArg List.reverse hsplit
      have hcut : f.table.lines = rest.reverse ++ y :: (inner.reverse ++ below) := by
        rw [hlines, ← List.singleton_append, ← List.append_assoc, hreverse, List.append_assoc,
          List.cons_append]
      rcases LineTable.above_or_eq_or_below (t := f.contents) hcut hl with
        ⟨-, hlt, -⟩ | rfl | ⟨hmem, -, -⟩
      · omega
      · omega
      rcases List.mem_append.mp hmem with hmem | hmem
      · exact hinner l (List.mem_reverse.mp hmem)
      · have hlt := ((LineTable.order_of_append (t := f.contents) hlines).2 l hmem).1
        omega

/-- The search takes the block when nothing stops it on the way up. -/
theorem exists_commentRun (h : DocBlock f o first last) {above below : List Line}
    (hlines : f.table.lines = above ++ last :: below) (hdoc : Doc.isLineDoc last.content = false)
    (hinner : ∀ l ∈ f.table.lines, first.index < l.index → l.index ≤ last.index →
      Text.hasPart Doc.commentOpen l.content = false) :
    ∃ run rest, last :: above.reverse = run ++ rest ∧ CommentRun run rest ∧
      run.getLast? = some first ∧ run.head? = some last := by
  obtain ⟨rest, inner, hcut⟩ := List.append_of_mem (h.first_mem hlines)
  obtain ⟨hopens, hempty⟩ := h.first_marks
  have hreverse : last :: above.reverse = (inner.reverse ++ [first]) ++ rest.reverse := by
    simpa using congrArg List.reverse hcut
  have hhead : (inner.reverse ++ [first]).head? = some last := by
    have hfront := congrArg List.head? hreverse
    rw [List.head?_append_of_ne_nil _ (by simp)] at hfront
    exact hfront.symm
  have hlow : ∀ l ∈ inner, first.index < l.index := by
    have hcutTable : f.table.lines = rest ++ first :: (inner ++ below) := by
      rw [hlines, ← List.singleton_append, ← List.append_assoc, hcut, List.append_assoc,
        List.cons_append]
    intro l hl
    exact ((LineTable.order_of_append (t := f.contents) hcutTable).2 l (by simp [hl])).1
  have hhigh : ∀ l ∈ above ++ [last], l.index ≤ last.index := by
    intro l hl
    rcases List.mem_append.mp hl with hl | hl
    · exact Nat.le_of_lt ((LineTable.order_of_append (t := f.contents) hlines).1 l hl).1
    · obtain rfl := List.mem_singleton.mp hl
      exact Nat.le_refl _
  refine ⟨inner.reverse ++ [first], rest.reverse, hreverse, CommentRun.block hhead hdoc
    (List.isSuffixOf_iff_suffix.mpr h.last_mark) ?_ ?_ (List.isPrefixOf_iff_prefix.mpr hopens) ?_,
    by simp, hhead⟩
  · intro l hl
    have hmem : l ∈ above ++ [last] := by
      rw [hcut]
      simp [List.mem_reverse.mp hl]
    refine hinner l ?_ (hlow l (List.mem_reverse.mp hl)) (hhigh l hmem)
    rw [hlines, ← List.singleton_append, ← List.append_assoc]
    exact List.mem_append_left _ hmem
  · have hopening : Doc.commentOpen <+: Text.trimLeft first.content :=
      (List.prefix_append Doc.commentOpen ['*']).trans hopens
    have hpart := Text.hasPart_append hopening (Text.leadingBlanks first.content)
    rwa [Text.leadingBlanks_append_trimLeft] at hpart
  · rw [← Bool.not_eq_true, List.isPrefixOf_iff_prefix]
    exact hempty

end DocBlock

/-- **A documentation block is found as the mask reads it exactly when no other opening stands below
its first line and its last line is no documentation line.** -/
theorem docRange_docBlock_iff (h : DocBlock f o first last) (hd : d ∈ f.declarations)
    (hkeyword : f.table.lineAt d.offset = .ok keyword) (hnext : keyword.index = last.index + 1) :
    d.docRange = some ⟨o.start, (last.contentEnd : Int) - o.start⟩ ↔
      Doc.isLineDoc last.content = false ∧
        ∀ l ∈ f.table.lines, first.index < l.index → l.index ≤ last.index →
          Text.hasPart Doc.commentOpen l.content = false := by
  obtain ⟨above, below, hlines, hiff⟩ := h.docRange_iff hd hkeyword hnext
  rw [hiff]
  constructor
  · rintro ⟨run, rest, hsplit, hrun, top, bottom, htop, -, hrange⟩
    have hmem : top ∈ f.table.lines := by
      have hsearched : top ∈ last :: above.reverse := by
        rw [hsplit]
        exact List.mem_append_left _ (List.mem_of_getLast? htop)
      rw [hlines]
      rcases List.mem_cons.mp hsearched with rfl | hmem
      · simp
      · exact List.mem_append_left _ (List.mem_reverse.mp hmem)
    have hplace : top.textOffset = o.start := by
      have hlocation := congrArg ByteRange.location hrange
      simp only [rangeOfLines] at hlocation
      omega
    obtain rfl := h.eq_first hmem (hrun.first_not_blank top htop) hplace
    exact h.unopened_of_commentRun hlines hsplit hrun htop
  · rintro ⟨hdoc, hinner⟩
    obtain ⟨run, rest, hsplit, hrun, hfirst, hlast⟩ := h.exists_commentRun hlines hdoc hinner
    refine ⟨run, rest, hsplit, hrun, first, last, hfirst, hlast, ?_⟩
    rw [rangeOfLines, h.first_text]

/-- A block comment of three lines above a function, with a line of text in its middle. -/
def blockAbove (inner : Text) : SourceFile :=
  ⟨"/**\n".toList ++ inner ++ "\n*/\nfunc f()".toList, none⟩

/-- The scan reads the block as one comment. -/
def ReadsBlock (inner : Text) : Prop :=
  lexemes (blockAbove inner).contents =
    ⟨.blockComment, "/**\n".toList ++ inner ++ "\n*/".toList, true⟩ ::
      lexemes "\nfunc f()".toList

/-- The block in the scan of its file. -/
def blockOccurrence {inner : Text} (h : ReadsBlock inner) : Occurrence (blockAbove inner).contents :=
  ⟨[], _, _, h⟩

/-- The line of the closing. -/
def blockLast (inner : Text) : Line := ⟨2, 5 + inner.byteSize, "*/".toList, some .lf⟩

/-- The line of the function. -/
def blockKeyword (inner : Text) : Line := ⟨3, 8 + inner.byteSize, "func f()".toList, none⟩

theorem blockAbove_lines {inner : Text} (h : inner.Unbroken) :
    (blockAbove inner).table.lines = [⟨0, 0, "/**".toList, some .lf⟩, ⟨1, 4, inner, some .lf⟩,
      blockLast inner, blockKeyword inner] := by
  have hsplit : splitLines (blockAbove inner).contents =
      [⟨"/**".toList, some .lf⟩, ⟨inner, some .lf⟩, ⟨"*/".toList, some .lf⟩,
        ⟨"func f()".toList, none⟩] := by
    show splitLines (("/**".toList ++ ['\n']) ++ inner ++ ('\n' :: "*/\nfunc f()".toList)) = _
    rw [List.append_assoc, List.append_assoc, List.singleton_append,
      splitLines_append_lf (by decide), splitLines_append_lf h]
    rfl
  show LineTable.layOut 0 0 (splitLines (blockAbove inner).contents) = _
  have hopen : RawLine.text ⟨"/**".toList, some .lf⟩ = "/**\n".toList := rfl
  have hclose : RawLine.text ⟨"*/".toList, some .lf⟩ = "*/\n".toList := rfl
  have hinner : (RawLine.text ⟨inner, some .lf⟩).byteSize = inner.byteSize + 1 := by
    rw [RawLine.text, Text.byteSize_append]
    rfl
  rw [hsplit]
  simp only [LineTable.layOut, blockLast, blockKeyword, hopen, hclose, hinner]
  have hopenSize : Text.byteSize "/**\n".toList = 4 := rfl
  have hcloseSize : Text.byteSize "*/\n".toList = 3 := rfl
  simp only [hopenSize, hcloseSize, List.cons.injEq, Line.mk.injEq, true_and, and_true]
  omega

/-- The block documents, whatever the text in it, if the scan reads it as one comment. -/
theorem docBlock_blockAbove {inner : Text} (hinner : inner.Unbroken) (h : ReadsBlock inner) :
    (blockAbove inner).DocBlock (blockOccurrence h) ⟨0, 0, "/**".toList, some .lf⟩
      (blockLast inner) := by
  have hlines := blockAbove_lines hinner
  have hfirst : (⟨0, 0, "/**".toList, some .lf⟩ : Line) ∈ (blockAbove inner).table.lines := by
    rw [hlines]
    exact List.mem_cons_self
  have hlast : blockLast inner ∈ (blockAbove inner).table.lines := by
    rw [hlines]
    simp
  have hstart : (blockOccurrence h).start = 0 := rfl
  have hstop : (blockOccurrence h).stop = 7 + inner.byteSize := by
    have hopen : Text.byteSize "/**\n".toList = 4 := rfl
    have hclose : Text.byteSize "\n*/".toList = 3 := rfl
    have hbytes : (blockOccurrence h).stop =
        0 + Text.byteSize ("/**\n".toList ++ inner ++ "\n*/".toList) := rfl
    rw [hbytes, Text.byteSize_append, Text.byteSize_append]
    omega
  have hend : (blockLast inner).stop = 8 + inner.byteSize := by
    have hbytes : (blockLast inner).stop = 5 + inner.byteSize + 3 := rfl
    omega
  have hoffset : (blockLast inner).offset = 5 + inner.byteSize := rfl
  refine ⟨rfl, rfl, ⟨_, rfl⟩, ?_, ?_, rfl, ?_, ?_⟩
  · rintro ⟨r, hr⟩
    simp [blockOccurrence, Doc.blockOpen] at hr
  · rw [hstart]
    exact LineTable.lineAt_eq_ok (t := (blockAbove inner).contents) hfirst (by decide) (by decide)
  · exact LineTable.lineAt_eq_ok (t := (blockAbove inner).contents) hlast (by omega) (by omega)
  · have hbytes : (Text.trimRight (blockLast inner).content).byteSize = 2 := rfl
    omega

/-- The function stands on the line below. -/
theorem lineAt_blockKeyword {inner : Text} (hinner : inner.Unbroken) :
    (blockAbove inner).table.lineAt (8 + inner.byteSize : Nat) = .ok (blockKeyword inner) := by
  have hend : (blockKeyword inner).stop = 8 + inner.byteSize + 8 := rfl
  have hoffset : (blockKeyword inner).offset = 8 + inner.byteSize := rfl
  refine LineTable.lineAt_eq_ok (t := (blockAbove inner).contents) ?_ (by omega) (by omega)
  show blockKeyword inner ∈ (blockAbove inner).table.lines
  rw [blockAbove_lines hinner]
  simp

theorem readsBlock_plain : ReadsBlock ['A'] := by
  unfold ReadsBlock
  cbv

theorem readsBlock_nested : ReadsBlock "/* A */".toList := by
  unfold ReadsBlock
  cbv

/-- With plain text in it the block is found. -/
theorem docRange_docBlock_plain :
    ∃ d ∈ (blockAbove ['A']).declarations, d.docRange = some ⟨0, 8⟩ := by
  have hdeclarations : (blockAbove ['A']).declarations =
      [⟨⟨.function, "f".toList⟩, 9, [], some ⟨0, 8⟩⟩] := by cbv
  have hd : (⟨⟨.function, "f".toList⟩, 9, [], some ⟨0, 8⟩⟩ : Declaration) ∈
      (blockAbove ['A']).declarations := by
    rw [hdeclarations]
    exact List.mem_singleton.mpr rfl
  have hblock := docBlock_blockAbove (by decide) readsBlock_plain
  have hkeyword := @lineAt_blockKeyword ['A'] (by decide)
  refine ⟨_, hd, (docRange_docBlock_iff hblock hd hkeyword rfl).mpr ⟨by decide, ?_⟩⟩
  rw [blockAbove_lines (by decide)]
  decide

/-- With a comment in it the block is not found, for the search stops at the inner opening. -/
theorem docRange_docBlock_nested :
    ∃ o first last keyword, (blockAbove "/* A */".toList).DocBlock o first last ∧
      ∃ d ∈ (blockAbove "/* A */".toList).declarations,
        (blockAbove "/* A */".toList).table.lineAt d.offset = .ok keyword ∧
        keyword.index = last.index + 1 ∧ d.docRange = none := by
  have hdeclarations : (blockAbove "/* A */".toList).declarations =
      [⟨⟨.function, "f".toList⟩, 15, [], none⟩] := by cbv
  have hd : (⟨⟨.function, "f".toList⟩, 15, [], none⟩ : Declaration) ∈
      (blockAbove "/* A */".toList).declarations := by
    rw [hdeclarations]
    exact List.mem_singleton.mpr rfl
  have hblock := docBlock_blockAbove (by decide) readsBlock_nested
  have hkeyword := @lineAt_blockKeyword "/* A */".toList (by decide)
  exact ⟨_, _, _, _, hblock, _, hd, hkeyword, rfl, rfl⟩

end SourceFile

end DocLint
