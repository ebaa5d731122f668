/-
Attributes are transparent.

Lines that make up an attribute (`AttributeBlock`) can be put right above the line of a
declaration.  The lines above that line are cut and masked as before, and the search for the
comment passes over the new ones: counted from below, their parentheses balance at the top
line of each attribute and not earlier (`AttributeBlock.isAttribute`).

The heads need more than that.  A head may begin in one line and end in a later one, so a
keyword that is left dangling in the lines above, or in those that are put in, can reach down
into the line of the declaration and take it over.  Where none does, neither before nor
after, the declaration stays as it was, only further on (`declaration_below_attributes`).
-/
import DocLint.Proofs.Swift.Clause
import DocLint.Proofs.Swift.HeadsApart
import DocLint.Proofs.Swift.Joined

namespace DocLint

namespace Swift

variable {a b : Text}

/-! ### Blocks of attributes -/

/-- Whole lines that are an attribute: their code begins with the sign of attributes, its
parentheses are balanced, and some are open wherever a line ends but the last. -/
structure AttributeBlock (b : Text) : Prop where
  endsInFeeds : ∀ l ∈ splitLines b, l.ending = some .lf
  opensAttribute : ['@'].isPrefixOf (Text.trimLeft (mask b)) = true
  balanced : (mask b).Balanced (· == '(') (· == ')')
  openInside : ∀ i < (mask b).length - 1, (mask b)[i]? = some '\n' →
    ((mask b).take i).count ')' < ((mask b).take i).count '('
  endsOutside : ∀ l, (lexemes b).getLast? = some l → l.closed = true

theorem surplus_append (xs ys : List MaskedLine) :
    surplus (xs ++ ys) = surplus xs + surplus ys := by
  induction xs with
  | nil => simp
  | cons l xs ih =>
      rw [List.cons_append, surplus_cons, surplus_cons, ih]
      omega

theorem surplus_reverse (lines : List MaskedLine) : surplus lines.reverse = surplus lines := by
  induction lines with
  | nil => rfl
  | cons l lines ih =>
      rw [List.reverse_cons, surplus_append, ih, surplus_cons, surplus_cons, surplus_nil]
      omega

/-- The surplus of lines is counted in the text that they are. -/
theorem surplus_eq_count (lines : List MaskedLine) :
    surplus lines = ((Text.unlines (lines.map MaskedLine.masked)).count ')' : Int) -
      (Text.unlines (lines.map MaskedLine.masked)).count '(' := by
  induction lines with
  | nil => rfl
  | cons l lines ih =>
      rw [surplus_cons, ih, List.map_cons, Text.unlines_cons, MaskedLine.surplus]
      simp only [List.count_append, List.count_cons]
      simp
      omega

/-- The first text of a line is that of everything that begins with the line. -/
theorem trimLeft_append_of_not_allBlank {s : Text} (h : Text.allBlank s = false) (t : Text) :
    Text.trimLeft (s ++ t) = Text.trimLeft s ++ t := by
  obtain ⟨c, r, htrim, hc⟩ := Text.exists_trimLeft_eq_cons h
  have hs := Text.leadingBlanks_append_trimLeft s
  have hflush : Text.Flush (Text.trimLeft s ++ t) := by
    rw [htrim]
    exact Text.flush_cons.mpr hc
  have htrimmed := Text.trimLeft_append_of_flush (Text.allBlank_leadingBlanks s) hflush
  rwa [← List.append_assoc, hs] at htrimmed

/-- One more attribute may stand above. -/
theorem AttributeLines.concat {lines group : List MaskedLine} (h : AttributeLines lines)
    (hgroup : IsAttribute group) : AttributeLines (lines ++ group) := by
  induction h with
  | nil =>
      have hone := AttributeLines.append hgroup AttributeLines.nil
      rwa [List.append_nil] at hone
  | append hfirst _ ih =>
      rw [List.append_assoc]
      exact AttributeLines.append hfirst ih

namespace AttributeBlock

variable (h : AttributeBlock b)

include h

/-- The code of the block is that of its lines. -/
theorem mask_eq (index offset : Nat) :
    mask b = Text.unlines ((maskedLinesFrom index offset b).map MaskedLine.masked) := by
  have hfeeds : ∀ m ∈ splitLines (mask b), m.ending = some .lf := by
    intro m hm
    obtain ⟨l, hl, hlm⟩ := exists_left_of_mem (splitLines_forall₂ (mask_forall₂ b)) hm
    rw [← hlm.1, h.endsInFeeds l hl]
  rw [map_masked_maskedLinesFrom, ← flatMap_text_of_lf hfeeds, splitLines_flatMap_text]

/-- Where a line ends that is not the last, parentheses are open; those below close them. -/
theorem surplus_pos {index offset : Nat} {front inner : List MaskedLine}
    (hlines : maskedLinesFrom index offset b = front ++ inner) (hfront : front ≠ [])
    (hinner : inner ≠ []) : 0 < surplus inner := by
  have hmask := h.mask_eq index offset
  rw [hlines, List.map_append, Text.unlines_append] at hmask
  have hfront' : front.map MaskedLine.masked ≠ [] := by simpa using hfront
  have hinner' : inner.map MaskedLine.masked ≠ [] := by simpa using hinner
  obtain ⟨p, hp⟩ := Text.exists_unlines_eq hfront'
  obtain ⟨q, hq⟩ := Text.exists_unlines_eq hinner'
  have hsurplus := surplus_eq_count inner
  have htotal : (mask b).count ')' = (mask b).count '(' := h.balanced.total
  have hopen := h.openInside p.length
  rw [hmask, hp, hq] at hopen htotal
  rw [hq] at hsurplus
  simp [List.count_append] at hopen htotal hsurplus
  omega

theorem surplus_eq_zero (index offset : Nat) : surplus (maskedLinesFrom index offset b) = 0 := by
  have htotal : (mask b).count ')' = (mask b).count '(' := h.balanced.total
  rw [surplus_eq_count, ← h.mask_eq, htotal]
  omega

/-- The top line carries code: the sign if it is the only line, an open parenthesis otherwise. -/
theorem top_code {index offset : Nat} {top : MaskedLine} {below : List MaskedLine}
    (hlines : maskedLinesFrom index offset b = top :: below) : Text.allBlank top.masked = false := by
  cases below with
  | nil =>
      have hmask := h.mask_eq index offset
      have hopens := h.opensAttribute
      rw [hmask, hlines] at hopens
      by_contra hblank
      rw [Bool.not_eq_false] at hblank
      have htext : Text.unlines [top.masked] = top.masked ++ ['\n'] := by simp [Text.unlines]
      rw [List.map_singleton, htext, Text.trimLeft_append_of_allBlank _ hblank] at hopens
      exact absurd hopens (by decide)
  | cons l below =>
      have hsum := h.surplus_eq_zero index offset
      have hparts : maskedLinesFrom index offset b = [top] ++ l :: below := hlines
      have hpos := h.surplus_pos hparts (by simp) (by simp)
      rw [hlines, surplus_cons, MaskedLine.surplus] at hsum
      have hopen : 0 < top.masked.count '(' := by omega
      exact Text.allBlank_eq_false_of_mem (List.count_pos_iff.mp hopen) (by decide)

/-- **The lines of the block are read as an attribute.** -/
theorem isAttribute (index offset : Nat) :
    IsAttribute (maskedLinesFrom index offset b).reverse := by
  have hmask := h.mask_eq index offset
  have hopens := h.opensAttribute
  have hsum := h.surplus_eq_zero index offset
  cases hlines : maskedLinesFrom index offset b with
  | nil =>
      rw [hmask, hlines] at hopens
      cases hopens
  | cons top below =>
      refine ⟨below.reverse, top, List.reverse_cons, ⟨?_, ?_⟩, ?_⟩
      · rintro inner hne ⟨rest, hrest⟩
        have hbelow : below = rest.reverse ++ inner.reverse := by
          rw [← List.reverse_append, hrest, List.reverse_reverse]
        have hparts : maskedLinesFrom index offset b = (top :: rest.reverse) ++ inner.reverse := by
          rw [hlines, hbelow, List.cons_append]
        have hpos := h.surplus_pos hparts (by simp) (by simpa using hne)
        rw [surplus_reverse] at hpos
        omega
      · rw [hlines, surplus_cons] at hsum
        rw [surplus_reverse]
        omega
      · have hcode := h.top_code hlines
        obtain ⟨c, r, htrim, -⟩ := Text.exists_trimLeft_eq_cons hcode
        rw [hmask, hlines, List.map_cons, Text.unlines_cons,
          trimLeft_append_of_not_allBlank hcode, htrim] at hopens
        rw [MaskedLine.opensAttribute, htrim]
        simpa using hopens

/-- The block does not go on with the line break of what stands above. -/
theorem head?_ne : b.head? ≠ some '\n' := by
  intro hhead
  obtain ⟨r, rfl⟩ := List.head?_eq_some_iff.mp hhead
  have hmask : mask ('\n' :: r) = '\n' :: mask r := mask_cons_of_code (by decide) (by decide) r
  obtain ⟨rest, hlines⟩ : ∃ rest,
      maskedLinesFrom 0 0 ('\n' :: r) = ⟨⟨0, 0, [], some .lf⟩, []⟩ :: rest := by
    unfold maskedLinesFrom
    rw [hmask, splitLines, splitLines]
    exact ⟨_, rfl⟩
  have hcode := h.top_code hlines
  cases hcode

theorem endsLine : b.EndsLine := by
  have hb := splitLines_flatMap_text b
  rw [flatMap_text_of_lf h.endsInFeeds] at hb
  rw [← hb]
  exact Text.endsLine_unlines _

theorem complete : Complete b := ⟨fun c hc => Or.inr (h.endsLine c hc), h.endsOutside⟩

end AttributeBlock

/-! ### Blocks one below the other -/

section Blocks

variable {blocks : List Text} (h : ∀ b ∈ blocks, AttributeBlock b)

include h

theorem complete_flatten : Complete blocks.flatten := by
  induction blocks with
  | nil => exact complete_nil
  | cons b blocks ih =>
      rw [List.flatten_cons]
      exact (h b (by simp)).complete.append (ih fun x hx => h x (by simp [hx]))

theorem endsLine_flatten : Text.EndsLine blocks.flatten := by
  induction blocks with
  | nil => simp [Text.EndsLine]
  | cons b blocks ih =>
      intro c hc
      have hmore := ih fun x hx => h x (by simp [hx])
      rw [List.flatten_cons, List.getLast?_append] at hc
      cases hlast : blocks.flatten.getLast? with
      | none =>
          rw [hlast] at hc
          exact (h b (by simp)).endsLine c hc
      | some d =>
          rw [hlast] at hc
          exact hmore c (hlast.trans hc)

theorem head?_flatten_ne : blocks.flatten.head? ≠ some '\n' := by
  induction blocks with
  | nil => simp
  | cons b blocks ih =>
      rw [List.flatten_cons, List.head?_append]
      cases hhead : b.head? with
      | none => exact ih fun x hx => h x (by simp [hx])
      | some c =>
          have hc := (h b (by simp)).head?_ne
          rw [hhead] at hc
          exact hc

/-- **Blocks one below the other are read as attributes.** -/
theorem attributeLines_flatten (index offset : Nat) :
    AttributeLines (maskedLinesFrom index offset blocks.flatten).reverse := by
  induction blocks generalizing index offset with
  | nil => exact AttributeLines.nil
  | cons b blocks ih =>
      have hb := h b (by simp)
      have hmore := ih (fun x hx => h x (by simp [hx])) (index + (splitLines b).length)
        (offset + b.byteSize)
      rw [List.flatten_cons, maskedLinesFrom_append hb.complete (hb.endsLine.breakBetween _),
        List.reverse_append]
      exact hmore.concat (hb.isAttribute index offset)

end Blocks

theorem docRange?_append {attributes : List MaskedLine} (h : AttributeLines attributes)
    (above : List MaskedLine) : docRange? (attributes ++ above) = docRange? above := by
  unfold docRange?
  rw [dropAttributes_append h]

end Swift

namespace SourceFile

open Swift

/-! ### Declarations below inserted lines -/

variable {s t : Text} {path : Option Text}

/-- The lines above one that begins behind a complete text are the lines of that text. -/
theorem linesAbove_append (hs : Complete s) (hbreak : Text.BreakBetween s t) {r : RawLine}
    {more : List RawLine} (hsplit : splitLines t = r :: more) {x : Nat} (hlow : s.byteSize ≤ x)
    (hhigh : x < s.byteSize + r.text.byteSize) :
    linesAbove (SourceFile.maskedLines ⟨s ++ t, path⟩) x = (maskedLinesFrom 0 0 s).reverse := by
  obtain ⟨m, rest, hfirst⟩ := exists_maskedLinesFrom_cons hsplit (0 + (splitLines s).length)
    (0 + s.byteSize)
  have hlines : SourceFile.maskedLines ⟨s ++ t, path⟩ =
      maskedLinesFrom 0 0 s ++
        ⟨⟨0 + (splitLines s).length, 0 + s.byteSize, r.content, r.ending⟩, m⟩ :: rest := by
    rw [← hfirst, ← maskedLinesFrom_append hs hbreak]
    exact maskedLines_ofText (s ++ t)
  refine linesAbove_eq hlines ?_ ?_
  · show 0 + s.byteSize ≤ x
    omega
  · show x < 0 + s.byteSize + r.text.byteSize
    omega

variable (path) in
/-- The heads behind a complete text, if no head reaches beyond its end. -/
theorem exists_heads_append (hs : Complete s) (hapart : HeadsApart s.length (mask (s ++ t))) :
    ∃ front, SourceFile.heads ⟨s ++ t, path⟩ =
        front ++ (Swift.heads (mask t)).map (Head.shift s.length) ∧
      ∀ h ∈ front, h.start < s.length := by
  have hlength := length_mask s
  rw [mask_append hs, ← hlength] at hapart
  have happ := Swift.exists_heads_append hapart hs.mayPrecede
  rw [hlength, ← mask_append hs] at happ
  exact happ

/-- **What is declared on the first line behind a complete text** is read off the text behind.  Of
the complete text it takes the lines above. -/
theorem mem_declarations_append_iff (hs : Complete s) (hbreak : Text.BreakBetween s t)
    (hapart : HeadsApart s.length (mask (s ++ t))) {r : RawLine} {more : List RawLine}
    (hsplit : splitLines t = r :: more) {d : Declaration} :
    (d ∈ (SourceFile.mk (s ++ t) path).declarations ∧ s.byteSize ≤ d.offset ∧
        d.offset < s.byteSize + r.text.byteSize) ↔
      ∃ head ∈ Swift.heads (mask t), ∃ clause, head.clause = some clause ∧
        Text.bytesBefore t head.start < r.text.byteSize ∧
        d = ⟨head.signature, s.byteSize + Text.bytesBefore t head.start, parameterNames clause,
          docRange? (maskedLinesFrom 0 0 s).reverse⟩ := by
  obtain ⟨front, hheads, hfront⟩ := exists_heads_append path hs hapart
  have hoffset : ∀ head : Head, Text.byteSize ((s ++ t).take (head.shift s.length).start) =
      s.byteSize + Text.bytesBefore t head.start := by
    intro head
    rw [← Text.bytesBefore_append, Nat.add_comm]
    rfl
  rw [declarations_eq, List.mem_filterMap, hheads]
  constructor
  · rintro ⟨⟨head, hmem, hdecl⟩, hlow, hhigh⟩
    obtain ⟨clause, hclause, rfl⟩ := Option.map_eq_some_iff.mp hdecl
    rcases List.mem_append.mp hmem with hmem | hmem
    · -- A head that begins in front has fewer bytes before it.
      have hlt := hfront head hmem
      have hbytes : Text.bytesBefore (s ++ t) head.start < Text.bytesBefore (s ++ t) s.length :=
        Text.bytesBefore_lt hlt (by rw [List.length_append]; omega)
      rw [Text.bytesBefore_length] at hbytes
      exact absurd hlow (Nat.not_le_of_lt hbytes)
    · obtain ⟨x, hx, rfl⟩ := List.mem_map.mp hmem
      simp only [hoffset] at hlow hhigh ⊢
      refine ⟨x, hx, clause, hclause, by omega, ?_⟩
      rw [linesAbove_append hs hbreak hsplit hlow hhigh]
      rfl
  · rintro ⟨x, hx, clause, hclause, hhigh, rfl⟩
    refine ⟨⟨x.shift s.length, List.mem_append_right _ (List.mem_map_of_mem hx), ?_⟩, by simp, ?_⟩
    · refine Option.map_eq_some_iff.mpr ⟨clause, hclause, ?_⟩
      simp only [hoffset]
      rw [linesAbove_append hs hbreak hsplit (by omega) (by omega)]
      rfl
    · simp only
      omega

/-- **Attributes are transparent.**  When blocks of attributes are put right above the line of a
declaration, outside comments and literals, it is found further on by their bytes, with the same
name, the same parameters and the same comment.  That no head reaches from above into the line is
needed of both texts. -/
theorem declaration_below_attributes {above below : Text} {blocks : List Text} {d : Declaration}
    {l : Line} (hd : d ∈ (SourceFile.mk (above ++ below) path).declarations)
    (hline : (LineTable.ofText (above ++ below)).lineAt d.offset = .ok l)
    (hstart : l.offset = above.byteSize)
    (houtside : ∀ x, (lexemes above).getLast? = some x → x.closed = true)
    (hblocks : ∀ b ∈ blocks, AttributeBlock b)
    (hbefore : HeadsApart above.length (mask (above ++ below)))
    (hafter : HeadsApart (above ++ blocks.flatten).length
      (mask (above ++ blocks.flatten ++ below))) :
    { d with offset := d.offset + Text.byteSize blocks.flatten } ∈
      (SourceFile.mk (above ++ blocks.flatten ++ below) path).declarations := by
  obtain ⟨_, keyword, _, hlines, hlow, hhigh, -, -⟩ := exists_keyword_line hd
  have hmem : keyword.line ∈ (LineTable.ofText (above ++ below)).lines := by
    have htable := table_lines_of_maskedLines hlines
    show keyword.line ∈ (SourceFile.mk (above ++ below) path).table.lines
    rw [htable]
    simp
  have hstop := keyword.line.contentEnd_le_stop
  obtain rfl : keyword.line = l := by
    rw [LineTable.lineAt_eq_ok hmem (by omega) (by omega)] at hline
    exact Except.ok.inj hline
  have hbreak := LineTable.breakBetween_of_offset hmem hstart
  obtain ⟨more, hsplit⟩ := LineTable.exists_splitLines_of_offset hmem hstart
  have hlength : keyword.line.stop = keyword.line.offset + keyword.line.raw.text.byteSize := rfl
  have habove : Complete above := ⟨hbreak.endsInBreak, houtside⟩
  obtain ⟨head, hhead, clause, hclause, hfirst, rfl⟩ :=
    (mem_declarations_append_iff habove hbreak hbefore hsplit).mp ⟨hd, by omega, by omega⟩
  -- The lines above the new place are the attributes and then those above the old one.
  have hdoc : docRange? (maskedLinesFrom 0 0 (above ++ blocks.flatten)).reverse =
      docRange? (maskedLinesFrom 0 0 above).reverse := by
    rw [maskedLinesFrom_append habove ⟨hbreak.endsInBreak, fun _ => head?_flatten_ne hblocks⟩,
      List.reverse_append, docRange?_append (attributeLines_flatten hblocks _ _)]
  refine ((mem_declarations_append_iff (habove.append (complete_flatten hblocks))
    (hbreak.insert (endsLine_flatten hblocks)) hafter hsplit).mpr
      ⟨head, hhead, clause, hclause, hfirst, ?_⟩).1
  rw [hdoc, Text.byteSize_append, Nat.add_right_comm]

/-- A comment, and the function below it. -/
def adderComment : Text := "/// Adds.\n".toList

def adder : Text := "func f(a: Int) {}\n".toList

/-- An attribute of three lines, with a comment in it, and one of a single line with a literal. -/
def stackedAttributes : List Text :=
  ["@available(\n  iOS 13, // (\n  *)\n".toList, "@a(\")\")\n".toList]

theorem attributeBlock_stacked : ∀ b ∈ stackedAttributes, AttributeBlock b := by
  have hmask : mask "@available(\n  iOS 13, // (\n  *)\n".toList =
      "@available(\n  iOS 13,     \n  *)\n".toList := by cbv
  have hmask' : mask "@a(\")\")\n".toList = "@a(   )\n".toList := by cbv
  have hlexeme : (lexemes "@available(\n  iOS 13, // (\n  *)\n".toList).getLast? =
      some ⟨.code, ['\n'], true⟩ := by cbv
  have hlexeme' : (lexemes "@a(\")\")\n".toList).getLast? = some ⟨.code, ['\n'], true⟩ := by cbv
  intro b hb
  rcases List.mem_pair.mp hb with rfl | rfl
  · refine ⟨by decide, by rw [hmask]; decide, by rw [hmask]; decide, by rw [hmask]; decide, ?_⟩
    rw [hlexeme]
    simp
  · refine ⟨by decide, by rw [hmask']; decide, by rw [hmask']; decide, by rw [hmask']; decide, ?_⟩
    rw [hlexeme']
    simp

theorem heads_adder : Swift.heads (mask (adderComment ++ adder)) =
    [⟨⟨.function, "f".toList⟩, 10, 16, some "a: Int".toList⟩] := by cbv

theorem heads_adder_stacked :
    Swift.heads (mask (adderComment ++ stackedAttributes.flatten ++ adder)) =
      [⟨⟨.function, "f".toList⟩, 50, 56, some "a: Int".toList⟩] := by cbv

theorem declarations_adder : (SourceFile.mk (adderComment ++ adder) none).declarations =
    [⟨⟨.function, "f".toList⟩, 10, ["a".toList], some ⟨0, 9⟩⟩] := by cbv

/-- Both attributes are passed over. -/
theorem declaration_below_attributes_stacked :
    (∀ b ∈ stackedAttributes, AttributeBlock b) ∧
      ⟨⟨.function, "f".toList⟩, 10, ["a".toList], some ⟨0, 9⟩⟩ ∈
        (SourceFile.mk (adderComment ++ adder) none).declarations ∧
      ⟨⟨.function, "f".toList⟩, 50, ["a".toList], some ⟨0, 9⟩⟩ ∈
        (SourceFile.mk (adderComment ++ stackedAttributes.flatten ++ adder) none).declarations := by
  have hd : ⟨⟨.function, "f".toList⟩, 10, ["a".toList], some ⟨0, 9⟩⟩ ∈
      (SourceFile.mk (adderComment ++ adder) none).declarations := by
    rw [declarations_adder]
    exact List.mem_singleton.mpr rfl
  have hlexeme : (lexemes adderComment).getLast? = some ⟨.code, ['\n'], true⟩ := by cbv
  refine ⟨attributeBlock_stacked, hd,
    declaration_below_attributes (l := ⟨1, 10, "func f(a: Int) {}".toList, some .lf⟩) hd rfl rfl ?_
      attributeBlock_stacked ?_ ?_⟩
  · rw [hlexeme]
    simp
  · rw [HeadsApart, heads_adder]
    decide
  · rw [HeadsApart, heads_adder_stacked]
    decide

/-- A generic function below its comment. -/
def genericComment : Text := "/// Doc.\n".toList

def genericFunction : Text := "func f<T>(a: T) {}\n".toList

/-- An attribute whose last word is a keyword with an open angle bracket. -/
def danglingAttribute : Text := "@a init<\n".toList

theorem attributeBlock_dangling : AttributeBlock danglingAttribute := by
  have hmask : mask danglingAttribute = danglingAttribute := by cbv
  have hlexeme : (lexemes danglingAttribute).getLast? = some ⟨.code, ['\n'], true⟩ := by cbv
  refine ⟨by decide, by rw [hmask]; decide, by rw [hmask]; decide, by rw [hmask]; decide, ?_⟩
  rw [hlexeme]
  simp

theorem declarations_generic :
    (SourceFile.mk (genericComment ++ genericFunction) none).declarations =
    [⟨⟨.function, "f".toList⟩, 9, ["a".toList], some ⟨0, 8⟩⟩] := by cbv

theorem declarations_generic_dangling :
    (SourceFile.mk (genericComment ++ danglingAttribute ++ genericFunction) none).declarations =
      [⟨⟨.initializer, "init".toList⟩, 12, ["a".toList], some ⟨0, 8⟩⟩] := by cbv

/-- It takes the line below for its own, and the function there is lost.  So it is not enough that
the attribute holds no declaration. -/
theorem declaration_below_attributes_dangling :
    (∀ x, (lexemes genericComment).getLast? = some x → x.closed = true) ∧
      AttributeBlock danglingAttribute ∧ Swift.heads (mask danglingAttribute) = [] ∧
      ∃ d ∈ (SourceFile.mk (genericComment ++ genericFunction) none).declarations,
        d.docRange = some ⟨0, 8⟩ ∧
        (LineTable.ofText (genericComment ++ genericFunction)).lineAt d.offset =
          .ok ⟨1, genericComment.byteSize, "func f<T>(a: T) {}".toList, some .lf⟩ ∧
        ∀ e ∈ (SourceFile.mk (genericComment ++ danglingAttribute ++ genericFunction) none).declarations,
          e.signature.name ≠ d.signature.name := by
  have hlexeme : (lexemes genericComment).getLast? = some ⟨.code, ['\n'], true⟩ := by cbv
  have hheads : Swift.heads (mask danglingAttribute) = [] := by cbv
  rw [hlexeme, declarations_generic, declarations_generic_dangling]
  exact ⟨by simp, attributeBlock_dangling, hheads, _, List.mem_singleton.mpr rfl, rfl, rfl, by simp⟩

end SourceFile

end DocLint
