/-
Where a declaration stands, and what it has above it.

A declaration that was found has its keyword in the mask, hence in the text, and the
keyword is no line break.  So it lies in the content of exactly one line, and the lines
above that one, nearest first, are what the search for its comment is given
(`exists_keyword_line`).  With `Attachment` this turns a range of a declaration into
neighbouring lines of the table (`Attachment.table_lines`).
-/
import DocLint.Proofs.Agree
import DocLint.Proofs.Source.Character
import DocLint.Proofs.Swift.Attachment
import DocLint.Proofs.Swift.Head
import DocLint.Proofs.Swift.Mask
import DocLint.Swift.SourceFile

namespace DocLint

/-! ### The place of a character of the mask -/

namespace Swift

/-- A character of a mask that is no line break is one of the text, and has its place there. -/
theorem characterOffset_of_mask {t before rest : Text} {c : Char} (hcr : c ≠ '\r') (hlf : c ≠ '\n')
    (h : mask t = before ++ c :: rest) :
    (LineTable.ofText t).characterOffset before.length =
      .ok (Text.byteSize (t.take before.length)) := by
  have hmasks : List.Forall₂ (fun m s => Masks s m) (before ++ c :: rest) t :=
    h ▸ (mask_forall₂ t).flip
  obtain ⟨front, back, rfl, hfront, hback⟩ := exists_append_of_forall₂ hmasks
  obtain ⟨d, more, hd, -, rfl⟩ := List.forall₂_cons_left_iff.mp hback
  refine LineTable.characterOffset_eq (c := d) ?_ ⟨?_, ?_⟩
  · rw [hfront.length_eq]
    simp
  · exact fun heq => hcr ((hd.break_iff (Or.inl rfl)).mpr heq)
  · exact fun heq => hlf ((hd.break_iff (Or.inr rfl)).mpr heq)

/-- A character that is no line break stands in one line of a mask, not in an ending. -/
theorem exists_line_of_flatMap_text {lines : List MaskedLine} {before rest : Text} {c : Char}
    (hcr : c ≠ '\r') (hlf : c ≠ '\n')
    (h : lines.flatMap MaskedLine.text = before ++ c :: rest) :
    ∃ above l below inner more, lines = above ++ l :: below ∧ l.masked = inner ++ c :: more ∧
      before = above.flatMap MaskedLine.text ++ inner := by
  have hending : ∀ l : MaskedLine, c ∉ l.line.raw.endingText := by
    intro l hc
    rcases RawLine.eq_of_mem_endingText hc with hc | hc
    · exact hcr hc
    · exact hlf hc
  induction lines generalizing before with
  | nil => simp at h
  | cons l lines ih =>
      rw [List.flatMap_cons] at h
      rcases List.append_eq_append_iff.mp h with ⟨w, rfl, hrest⟩ | ⟨w, htext, hrest⟩
      · obtain ⟨above, x, below, inner, more, rfl, hx, rfl⟩ := ih hrest
        exact ⟨l :: above, x, below, inner, more, rfl, hx, by simp⟩
      cases w with
      | nil =>
          have htail : lines.flatMap MaskedLine.text = [] ++ c :: rest := hrest.symm
          obtain ⟨above, x, below, inner, more, rfl, hx, hinner⟩ := ih htail
          refine ⟨l :: above, x, below, inner, more, rfl, hx, ?_⟩
          rw [List.append_nil] at htext
          rw [List.flatMap_cons, List.append_assoc, ← hinner, htext, List.append_nil]
      | cons d w =>
          obtain ⟨rfl, -⟩ : c = d ∧ rest = w ++ lines.flatMap MaskedLine.text := by
            simpa using hrest
          rcases List.append_eq_append_iff.mp htext with ⟨v, -, hv⟩ | ⟨v, hmasked, hv⟩
          · exact absurd (by rw [hv]; simp) (hending l)
          cases v with
          | nil =>
              rw [List.nil_append] at hv
              exact absurd (by rw [← hv]; simp) (hending l)
          | cons e v =>
              obtain ⟨rfl, -⟩ : c = e ∧ w = v ++ l.line.raw.endingText := by simpa using hv
              exact ⟨[], l, lines, before, v, rfl, hmasked, rfl⟩

end Swift

namespace SourceFile

open Swift

variable {f : SourceFile} {d : Declaration}

/-- The lines of the file beside those of its mask. -/
def maskedLines (f : SourceFile) : List MaskedLine := Swift.maskedLines f.table (mask f.contents)

theorem map_line_maskedLines (f : SourceFile) :
    f.maskedLines.map MaskedLine.line = f.table.lines := maskedLines_map_line f.contents

/-- **Every head has its place**, and the bytes in front of it are its offset. -/
theorem declaration?_eq {head : Head} (hhead : head ∈ f.heads) (lines : List MaskedLine) :
    declaration? f.table lines head = head.clause.map fun clause =>
      ⟨head.signature, Text.byteSize (f.contents.take head.start), parameterNames clause,
        docRange? (linesAbove lines (Text.byteSize (f.contents.take head.start)))⟩ := by
  obtain ⟨before, rest, after, hmask, hstart, hsig, -⟩ := mem_heads hhead
  obtain ⟨c, u, rfl, hc⟩ := exists_keyword_of_signature? hsig
  have hoffset : f.table.characterOffset head.start =
      .ok (Text.byteSize (f.contents.take head.start)) := by
    rw [hstart]
    refine characterOffset_of_mask ?_ ?_ hmask
    · rcases hc with rfl | rfl
      · decide
      · decide
    · rcases hc with rfl | rfl
      · decide
      · decide
  unfold declaration?
  rw [hoffset]
  cases head.clause with
  | none => rfl
  | some clause => rfl

theorem declarations_eq (f : SourceFile) :
    f.declarations = f.heads.filterMap fun head => head.clause.map fun clause =>
      ⟨head.signature, Text.byteSize (f.contents.take head.start), parameterNames clause,
        docRange? (linesAbove f.maskedLines (Text.byteSize (f.contents.take head.start)))⟩ :=
  List.filterMap_congr fun _ hhead => declaration?_eq hhead f.maskedLines

/-- A declaration is read off a head whose parentheses are balanced. -/
theorem mem_declarations_iff :
    d ∈ f.declarations ↔ ∃ head ∈ f.heads, declaration? f.table f.maskedLines head = some d := by
  unfold declarations
  rw [List.mem_filterMap]
  rfl

/-- A declaration was read in the mask, at the place of its keyword. -/
theorem exists_head_of_mem (hd : d ∈ f.declarations) :
    ∃ before rest after clause, mask f.contents = before ++ rest ∧
      signature? rest = some (d.signature, after) ∧ clause? 0 after = some clause ∧
      d.parameterNames = parameterNames clause ∧
      d.offset = Text.byteSize (f.contents.take before.length) ∧
      d.docRange = docRange? (linesAbove f.maskedLines d.offset) := by
  obtain ⟨head, hhead, hdecl⟩ := mem_declarations_iff.mp hd
  obtain ⟨before, rest, after, hmask, hstart, hsig, hclause⟩ := mem_heads hhead
  rw [declaration?_eq hhead, Option.map_eq_some_iff] at hdecl
  obtain ⟨clause, hread, rfl⟩ := hdecl
  exact ⟨before, rest, after, clause, hmask, hsig, hclause ▸ hread, rfl, by rw [← hstart], rfl⟩

section Lines

variable {above below : List MaskedLine} {l : MaskedLine}

theorem table_lines_of_maskedLines (hsplit : f.maskedLines = above ++ l :: below) :
    f.table.lines = above.map MaskedLine.line ++ l.line :: below.map MaskedLine.line := by
  rw [← map_line_maskedLines, hsplit, List.map_append, List.map_cons]

theorem laidOut_of_maskedLines (hsplit : f.maskedLines = above ++ l :: below) :
    LaidOut 0 0 (above.map MaskedLine.line ++ l.line :: below.map MaskedLine.line) := by
  rw [← table_lines_of_maskedLines hsplit]
  exact LineTable.laidOut_ofText f.contents

/-- The lines that are searched from a place are those above its line. -/
theorem linesAbove_eq (hsplit : f.maskedLines = above ++ l :: below) {offset : Nat}
    (hlow : l.line.offset ≤ offset) (hhigh : offset < l.line.stop) :
    linesAbove f.maskedLines offset = above.reverse := by
  have hlaid := laidOut_of_maskedLines hsplit
  unfold linesAbove
  rw [hsplit, show above ++ l :: below = (above ++ [l]) ++ below by simp, takeWhile_append_of_stop]
  · simp
  · intro y hy
    have hmem : y.line ∈ above.map MaskedLine.line ++ [l.line] := by
      simpa using List.mem_map_of_mem (f := MaskedLine.line) hy
    have hle := hlaid.offset_le_of_mem (x := offset) (by omega) _ hmem
    simpa using hle
  · intro y hy
    have hhead : (below.map MaskedLine.line).head? = some y.line := by
      rw [List.head?_map, hy]
      rfl
    have hlt := hlaid.lt_offset_of_head? (x := offset) (by omega) _ hhead
    simp
    omega

/-- The text in front of a character of the mask, cut at the beginning of its line. -/
theorem take_flatMap_text (hsplit : f.maskedLines = above ++ l :: below) {inner more : Text}
    (hl : l.masked = inner ++ more) :
    f.contents.take (above.flatMap MaskedLine.text ++ inner).length =
      LineTable.text ⟨above.map MaskedLine.line⟩ ++ l.line.content.take inner.length := by
  have hmasks : ∀ x ∈ f.maskedLines, List.Forall₂ Masks x.line.content x.masked :=
    fun x hx => masks_of_mem_maskedLines hx
  have habove : ∀ x ∈ above, List.Forall₂ Masks x.line.content x.masked :=
    fun x hx => hmasks x (by rw [hsplit]; simp [hx])
  have hlength := length_flatMap_text habove
  have hinner : inner.length ≤ l.line.content.length := by
    rw [(hmasks l (by rw [hsplit]; simp)).length_eq, hl, List.length_append]
    omega
  have hcontents := LineTable.text_ofText f.contents
  unfold LineTable.text at hcontents ⊢
  rw [← hcontents]
  change List.take _ (f.table.lines.flatMap fun x => x.raw.text) = _
  rw [table_lines_of_maskedLines hsplit, List.flatMap_append, List.flatMap_cons, List.length_append,
    hlength, List.take_length_add_append]
  show _ ++ List.take inner.length ((l.line.content ++ l.line.raw.endingText) ++ _) = _
  rw [List.append_assoc, List.take_append_of_le_length hinner]

/-- A character of the mask has its place inside the content of its line. -/
theorem byteSize_take_mem_content (hsplit : f.maskedLines = above ++ l :: below)
    {inner more : Text} {c : Char} (hl : l.masked = inner ++ c :: more) :
    l.line.offset ≤ Text.byteSize (f.contents.take (above.flatMap MaskedLine.text ++ inner).length) ∧
      Text.byteSize (f.contents.take (above.flatMap MaskedLine.text ++ inner).length)
        < l.line.contentEnd := by
  have hoffset := (laidOut_of_maskedLines hsplit).eq_of_append.2
  have hfront := LineTable.byteSize_text ⟨above.map MaskedLine.line⟩
  have hdrop : 0 < Text.byteSize (l.line.content.drop inner.length) := by
    refine Text.byteSize_pos ?_
    intro hnil
    have hmasks : List.Forall₂ Masks l.line.content l.masked :=
      masks_of_mem_maskedLines (t := f.contents) (show l ∈ f.maskedLines by rw [hsplit]; simp)
    have hlength := hmasks.length_eq
    rw [hl, List.length_append, List.length_cons] at hlength
    have hle := List.drop_eq_nil_iff.mp hnil
    omega
  have hcut := congrArg Text.byteSize (List.take_append_drop inner.length l.line.content)
  have hend : l.line.contentEnd = l.line.offset + l.line.content.byteSize := rfl
  rw [take_flatMap_text hsplit hl, Text.byteSize_append, hfront]
  rw [Text.byteSize_append] at hcut
  simp only
  omega

end Lines

/-- **The keyword stands in one line, and the lines above that one are searched.** -/
theorem exists_keyword_line (hd : d ∈ f.declarations) :
    ∃ above l below, f.maskedLines = above ++ l :: below ∧ l.line.offset ≤ d.offset ∧
      d.offset < l.line.contentEnd ∧ Text.allBlank l.masked = false ∧
      linesAbove f.maskedLines d.offset = above.reverse := by
  obtain ⟨before, rest, after, -, hmask, hsig, -, -, hoffset, -⟩ := exists_head_of_mem hd
  obtain ⟨c, u, rfl, hc⟩ := exists_keyword_of_signature? hsig
  have htext : f.maskedLines.flatMap MaskedLine.text = before ++ c :: u := by
    rw [← hmask]
    exact maskedLines_flatMap_text f.contents
  obtain ⟨above, l, below, inner, more, hsplit, hl, rfl⟩ := exists_line_of_flatMap_text
    (by rcases hc with rfl | rfl <;> decide) (by rcases hc with rfl | rfl <;> decide) htext
  obtain ⟨hlow, hhigh⟩ := byteSize_take_mem_content hsplit hl
  rw [← hoffset] at hlow hhigh
  have hstop := l.line.contentEnd_le_stop
  have hblank : Text.allBlank l.masked = false := by
    by_contra hall
    rw [Bool.not_eq_false, Text.allBlank_iff] at hall
    have hcb := hall c (by rw [hl]; simp)
    rcases hc with rfl | rfl
    · exact absurd hcb (by decide)
    · exact absurd hcb (by decide)
  exact ⟨above, l, below, hsplit, hlow, hhigh, hblank, linesAbove_eq hsplit hlow (by omega)⟩

/-! ### The comment of a declaration -/

/-- Where the comment of a declaration was found. -/
structure Attachment (f : SourceFile) (d : Declaration) (range : ByteRange) where
  /-- The lines of the file from the last one of the comment up. -/
  upward : List MaskedLine
  /-- The lines that were passed over, nearest to the declaration first. -/
  attributes : List MaskedLine
  /-- The line of the keyword. -/
  keyword : MaskedLine
  below : List MaskedLine
  /-- The lines of the comment, the last one first, and those above it. -/
  run : List Line
  rest : List Line
  lines_eq : f.maskedLines = (attributes ++ upward).reverse ++ keyword :: below
  search_eq : linesAbove f.maskedLines d.offset = attributes ++ upward
  attributeLines : AttributeLines attributes
  /-- The comment does not begin with a further attribute. -/
  upward_eq : aboveAttribute? 0 upward = none
  upward_line : upward.map MaskedLine.line = run ++ rest
  commentRun : CommentRun run rest
  isRangeOf : IsRangeOf range run
  offset_le : keyword.line.offset ≤ d.offset
  offset_lt : d.offset < keyword.line.contentEnd
  keyword_code : Text.allBlank keyword.masked = false

/-- **A range that was found is that of a comment which stands in such a place.** -/
theorem exists_attachment {range : ByteRange} (hd : d ∈ f.declarations)
    (hrange : d.docRange = some range) : Nonempty (Attachment f d range) := by
  obtain ⟨-, -, -, -, -, -, -, -, -, hdoc⟩ := exists_head_of_mem hd
  obtain ⟨above, keyword, below, hsplit, hlow, hhigh, hcode, habove⟩ := exists_keyword_line hd
  rw [hdoc, habove, docRange?_eq_some_iff] at hrange
  obtain ⟨run, rest, hupward, hrun, hrangeOf⟩ := hrange
  obtain ⟨attributes, hattributes, hall, hnone⟩ := exists_attributeLines above.reverse
  refine ⟨⟨dropAttributes above.reverse, attributes, keyword, below, run, rest, ?_, ?_, hall, hnone,
    hupward, hrun, hrangeOf, hlow, hhigh, hcode⟩⟩
  · rw [← hattributes, List.reverse_reverse, hsplit]
  · rw [habove, ← hattributes]

/-- The lines of the comment in the table of the file. -/
theorem Attachment.table_lines {range : ByteRange} (a : Attachment f d range) :
    f.table.lines = a.rest.reverse ++ a.run.reverse
      ++ ((a.attributes.map MaskedLine.line).reverse
        ++ a.keyword.line :: a.below.map MaskedLine.line) := by
  rw [← map_line_maskedLines, a.lines_eq]
  simp only [List.map_append, List.map_reverse, List.map_cons, List.reverse_append, a.upward_line]
  simp

/-- The range of the comment lies in the file. -/
theorem Attachment.range_mem {range : ByteRange} (a : Attachment f d range) :
    0 ≤ range.location ∧ range.stop ≤ f.table.size := by
  obtain ⟨first, last, -, hlast, rfl⟩ := a.isRangeOf
  have hmem : last ∈ (LineTable.ofText f.contents).lines := by
    have hrun := List.mem_of_head? hlast
    show last ∈ f.table.lines
    rw [a.table_lines]
    simp [hrun]
  have hsize := Nat.le_trans last.contentEnd_le_stop (LineTable.stop_le_size hmem)
  rw [stop_rangeOfLines]
  exact ⟨Int.natCast_nonneg _, Int.ofNat_le.mpr hsize⟩

/-- The same lines, cut where the comment begins. -/
theorem Attachment.table_lines_first {range : ByteRange} (a : Attachment f d range) {first : Line}
    (hfirst : a.run.getLast? = some first) :
    ∃ more after, a.run.reverse = first :: more ∧
      f.table.lines = a.rest.reverse ++ first :: (more ++ after) := by
  have hhead : a.run.reverse.head? = some first := by simpa using hfirst
  obtain ⟨more, hmore⟩ := List.head?_eq_some_iff.mp hhead
  have hlines := a.table_lines
  rw [hmore, List.append_assoc, List.cons_append] at hlines
  exact ⟨more, _, hmore, hlines⟩

end SourceFile

end DocLint
