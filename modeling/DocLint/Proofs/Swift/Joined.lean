/-
Texts scanned one behind the other.

The scan of a text goes on into what is put behind it in two cases: a comment or a string
literal is still open at its end, or its last characters begin a mark.  A `Complete` text
has neither, for everything it opens is closed and its last character is a line break.
Then the text behind is scanned, and masked, as if it stood alone (`mask_append`), and its
lines follow those of the first text (`maskedLinesFrom_append`).

A line comment stays open up to the next line feed.  Behind CR LF or LF the mask therefore
begins anew, but behind a CR that stands alone the comment goes on and `lineRest` takes the
place of `mask` (`mask_commentLine`).
-/
import DocLint.Proofs.Source.Excerpt
import DocLint.Proofs.Swift.Coverage
import DocLint.Proofs.Swift.Erasure

namespace DocLint

namespace Swift

/-! ### Spans that are closed -/

/-- The same span of a text that goes on with `b`. -/
def Span.extend (s : Span) (b : Text) : Span := { s with rest := s.rest ++ b }

/-- A closed span does not change with what comes behind its text. -/
theorem lineTail_append_of_closed {t : Text} (h : (lineTail t).closed = true) (b : Text) :
    lineTail (t ++ b) = (lineTail t).extend b := by
  induction t with
  | nil => cases h
  | cons c r ih =>
      rw [List.cons_append, lineTail, lineTail]
      by_cases hc : c = '\n'
      · rw [if_pos hc, if_pos hc]
        rfl
      · rw [lineTail, if_neg hc] at h
        rw [if_neg hc, if_neg hc, ih h]
        rfl

theorem blockTail_append_of_closed {depth : Nat} {t : Text}
    (h : (blockTail depth t).closed = true) (b : Text) :
    blockTail depth (t ++ b) = (blockTail depth t).extend b := by
  fun_induction blockTail depth t with
  | case1 t =>
      rw [blockTail]
      rfl
  | case2 => cases h
  | case3 depth r ih =>
      show blockTail (depth + 1) ('/' :: '*' :: (r ++ b)) = _
      rw [blockTail, ih h]
      rfl
  | case4 depth r ih =>
      show blockTail (depth + 1) ('*' :: '/' :: (r ++ b)) = _
      rw [blockTail, ih h]
      rfl
  | case5 depth c r hopen hclose ih =>
      -- The character and its neighbour are no mark, and there is a neighbour.
      cases r with
      | nil => cases h
      | cons d r =>
          rw [List.cons_append, blockTail]
          · rw [ih h]
            rfl
          · rintro s rfl hs
            obtain ⟨rfl, -⟩ := List.cons.inj hs
            exact hopen r rfl rfl
          · rintro s rfl hs
            obtain ⟨rfl, -⟩ := List.cons.inj hs
            exact hclose r rfl rfl

theorem multilineTail_append_of_closed {t : Text} (h : (multilineTail t).closed = true) (b : Text) :
    multilineTail (t ++ b) = (multilineTail t).extend b := by
  fun_induction multilineTail t with
  | case1 => cases h
  | case2 r => rfl
  | case3 c r hquotes ih =>
      rcases r with _ | ⟨d, _ | ⟨e, r⟩⟩
      · cases h
      · simp [multilineTail, Span.push] at h
      · rw [List.cons_append, multilineTail]
        · rw [ih h]
          rfl
        · rintro s rfl hs
          obtain ⟨rfl, hmore⟩ := List.cons.inj hs
          obtain ⟨rfl, -⟩ := List.cons.inj hmore
          exact hquotes r rfl rfl

theorem stringTail_append_of_closed {t : Text} (h : (stringTail t).closed = true) (b : Text) :
    stringTail (t ++ b) = (stringTail t).extend b := by
  fun_induction stringTail t with
  | case1 => cases h
  | case2 c r ih =>
      show stringTail ('\\' :: c :: (r ++ b)) = _
      rw [stringTail, ih h]
      rfl
  | case3 c r hescape hend =>
      rw [List.cons_append, stringTail, if_pos hend]
      · rfl
      · rintro d s rfl -
        exact absurd hend (by decide)
  | case4 c r hescape hend ih =>
      cases r with
      | nil => cases h
      | cons d r =>
          rw [List.cons_append, stringTail, if_neg hend, ih h]
          · rfl
          · rintro e s rfl -
            exact hescape d r rfl rfl

/-- Nothing follows a span that is not closed. -/
theorem lineTail_rest_of_not_closed {t : Text} (h : (lineTail t).closed = false) :
    (lineTail t).rest = [] := by
  induction t with
  | nil => rfl
  | cons c r ih =>
      by_cases hc : c = '\n'
      · rw [lineTail, if_pos hc] at h
        cases h
      · rw [lineTail, if_neg hc] at h ⊢
        exact ih h

theorem blockTail_rest_of_not_closed {depth : Nat} {t : Text}
    (h : (blockTail depth t).closed = false) : (blockTail depth t).rest = [] := by
  fun_induction blockTail depth t with
  | case1 => cases h
  | case2 => rfl
  | case3 _ _ ih => exact ih h
  | case4 _ _ ih => exact ih h
  | case5 _ _ _ _ _ ih => exact ih h

theorem multilineTail_rest_of_not_closed {t : Text} (h : (multilineTail t).closed = false) :
    (multilineTail t).rest = [] := by
  fun_induction multilineTail t with
  | case1 => rfl
  | case2 => cases h
  | case3 _ _ _ ih => exact ih h

theorem stringTail_rest_of_not_closed {t : Text} (h : (stringTail t).closed = false) :
    (stringTail t).rest = [] := by
  fun_induction stringTail t with
  | case1 => rfl
  | case2 _ _ ih => exact ih h
  | case3 => cases h
  | case4 _ _ _ _ ih => exact ih h

theorem nextLexeme_rest_of_not_closed {c : Char} {r : Text}
    (h : (nextLexeme c r).1.closed = false) : (nextLexeme c r).2 = [] := by
  revert h
  fun_cases nextLexeme c r with
  | case1 => exact lineTail_rest_of_not_closed
  | case2 => exact blockTail_rest_of_not_closed
  | case3 => exact multilineTail_rest_of_not_closed
  | case4 => exact stringTail_rest_of_not_closed
  | case5 => simp

/-! ### Complete texts -/

/-- The text can be scanned on its own: it is empty or ends with a line break, and the scan ends
outside comments and literals. -/
structure Complete (t : Text) : Prop where
  endsInBreak : t.EndsInBreak
  endsOutside : ∀ l, (lexemes t).getLast? = some l → l.closed = true

theorem complete_nil : Complete [] := by
  refine ⟨by simp [Text.EndsInBreak], ?_⟩
  rw [lexemes]
  simp

/-- The last character and the last lexeme decide. -/
theorem complete_of_getLast? {t : Text} {c : Char} {l : Lexeme} (hlast : t.getLast? = some c)
    (hc : c = '\r' ∨ c = '\n') (hlexeme : (lexemes t).getLast? = some l) (hl : l.closed = true) :
    Complete t := by
  refine ⟨?_, ?_⟩
  · intro d hd
    obtain rfl : c = d := Option.some.inj (hlast.symm.trans hd)
    exact hc
  · intro m hm
    obtain rfl : l = m := Option.some.inj (hlexeme.symm.trans hm)
    exact hl

/-- A text that ends with a line break does not end within a mark. -/
theorem nextLexeme_append_of_closed {c : Char} {r : Text}
    (hclosed : (nextLexeme c r).1.closed = true)
    (hbreak : Text.EndsInBreak (c :: r)) (b : Text) :
    nextLexeme c (r ++ b) = ((nextLexeme c r).1, (nextLexeme c r).2 ++ b) := by
  revert hclosed
  fun_cases nextLexeme c r with
  | case1 r =>
      intro hclosed
      show Lexeme.ofSpan .lineComment ['/', '/'] (lineTail (r ++ b)) = _
      rw [lineTail_append_of_closed hclosed]
      rfl
  | case2 r =>
      intro hclosed
      show Lexeme.ofSpan .blockComment ['/', '*'] (blockTail 1 (r ++ b)) = _
      rw [blockTail_append_of_closed hclosed]
      rfl
  | case3 r =>
      intro hclosed
      show Lexeme.ofSpan .multilineString _ (multilineTail (r ++ b)) = _
      rw [multilineTail_append_of_closed hclosed]
      rfl
  | case4 r hquotes =>
      intro hclosed
      have hnext : nextLexeme '\"' (r ++ b) = Lexeme.ofSpan .string ['\"'] (stringTail (r ++ b)) := by
        -- A second quote that is the last character would not be a line break.
        rcases r with _ | ⟨d, _ | ⟨e, r⟩⟩
        · cases hclosed
        · have hd := hbreak d rfl
          rw [nextLexeme]
          rintro s hs
          obtain ⟨rfl, -⟩ := List.cons.inj hs
          exact absurd hd (by decide)
        · rw [nextLexeme]
          rintro s hs
          obtain ⟨rfl, hmore⟩ := List.cons.inj hs
          obtain ⟨rfl, -⟩ := List.cons.inj hmore
          exact hquotes r rfl
      rw [hnext, stringTail_append_of_closed hclosed]
      rfl
  | case5 c r hline hblock hquotes hquote =>
      intro _
      rw [nextLexeme_eq_code hquote]
      rintro rfl
      cases r with
      | nil => exact absurd (hbreak '/' rfl) (by decide)
      | cons d r =>
          constructor
          · intro hd
            exact hline r rfl (by rw [Option.some.inj hd])
          · intro hd
            exact hblock r rfl (by rw [Option.some.inj hd])

theorem Complete.tail {c : Char} {r : Text} (h : Complete (c :: r)) :
    (nextLexeme c r).1.closed = true ∧ Complete (nextLexeme c r).2 := by
  obtain ⟨hbreak, hclosed⟩ := h
  rw [lexemes, List.getLast?_cons] at hclosed
  refine ⟨?_, ?_, ?_⟩
  · -- With something behind it a lexeme is closed, and as the last one it is by assumption.
    by_contra hnot
    rw [Bool.not_eq_true] at hnot
    rw [nextLexeme_rest_of_not_closed hnot, lexemes] at hclosed
    have hlast : (nextLexeme c r).1.closed = true := hclosed _ rfl
    rw [hlast] at hnot
    cases hnot
  · intro d hd
    refine hbreak d ?_
    rw [← nextLexeme_append, List.getLast?_append, hd]
    rfl
  · intro l hl
    refine hclosed l ?_
    rw [hl]
    rfl

variable {a : Text}

/-- **Behind a complete text the scan begins anew.** -/
theorem lexemes_append (h : Complete a) (b : Text) :
    lexemes (a ++ b) = lexemes a ++ lexemes b := by
  fun_induction lexemes a with
  | case1 => rfl
  | case2 c r ih =>
      obtain ⟨hclosed, hrest⟩ := h.tail
      rw [List.cons_append, lexemes, nextLexeme_append_of_closed hclosed h.endsInBreak, ih hrest]
      rfl

theorem mask_append (h : Complete a) (b : Text) : mask (a ++ b) = mask a ++ mask b := by
  rw [mask, lexemes_append h, List.flatMap_append]
  rfl

theorem Complete.append {b : Text} (ha : Complete a) (hb : Complete b) : Complete (a ++ b) := by
  refine ⟨?_, ?_⟩
  · intro c hc
    rw [List.getLast?_append] at hc
    cases hlast : b.getLast? with
    | none =>
        rw [hlast] at hc
        exact ha.endsInBreak c hc
    | some d =>
        rw [hlast] at hc
        exact hb.endsInBreak c (hlast.trans hc)
  · intro l hl
    rw [lexemes_append ha, List.getLast?_append] at hl
    cases hlast : (lexemes b).getLast? with
    | none =>
        rw [hlast] at hl
        exact ha.endsOutside l hl
    | some d =>
        rw [hlast] at hl
        exact hb.endsOutside l (hlast.trans hl)

/-! ### Masked lines of texts that are put together -/

/-- The lines of a text beside those of its mask, numbered and placed from some line on. -/
def maskedLinesFrom (index offset : Nat) (t : Text) : List MaskedLine :=
  (LineTable.layOut index offset (splitLines t)).zipWith (fun l m => ⟨l, m.content⟩)
    (splitLines (mask t))

theorem maskedLines_ofText (t : Text) :
    maskedLines (LineTable.ofText t) (mask t) = maskedLinesFrom 0 0 t := by
  unfold maskedLines maskedLinesFrom
  rw [← LineTable.map_raw_ofText (mask t), List.zipWith_map_right]
  rfl

theorem length_layOut (index offset : Nat) (raws : List RawLine) :
    (LineTable.layOut index offset raws).length = raws.length := by
  rw [← List.length_map Line.raw, LineTable.map_raw_layOut]

/-- A mask has as many lines as its text. -/
theorem length_splitLines_mask (t : Text) : (splitLines (mask t)).length = (splitLines t).length :=
  (splitLines_forall₂ (mask_forall₂ t)).length_eq.symm

theorem map_masked_maskedLinesFrom (index offset : Nat) (t : Text) :
    (maskedLinesFrom index offset t).map MaskedLine.masked =
      (splitLines (mask t)).map RawLine.content := by
  have hlength := (length_layOut index offset (splitLines t)).trans (length_splitLines_mask t).symm
  unfold maskedLinesFrom
  rw [List.map_zipWith]
  refine List.ext_getElem (by simp [hlength]) ?_
  intro i hi hi'
  simp

variable {b : Text}

/-- Line breaks, and so the ends of lines, are the same in the masks. -/
theorem breakBetween_mask (h : Text.BreakBetween a b) : Text.BreakBetween (mask a) (mask b) := by
  have hlast : ∀ c, c = '\r' ∨ c = '\n' → ((mask a).getLast? = some c ↔ a.getLast? = some c) :=
    fun c hc => Masks.eq_some_break_iff (optionRel_getLast? (mask_forall₂ a)) hc
  have hhead := Masks.eq_some_break_iff (head?_mask b) (Or.inr rfl : '\n' = '\r' ∨ '\n' = '\n')
  refine ⟨?_, fun hcr hlf => h.apart ((hlast _ (Or.inl rfl)).mp hcr) (hhead.mp hlf)⟩
  intro m hm
  have hrel := optionRel_getLast? (mask_forall₂ a)
  rw [hm] at hrel
  cases ha : a.getLast? with
  | none =>
      rw [ha] at hrel
      cases hrel
  | some c =>
      have hc := h.endsInBreak c ha
      have hmc : (mask a).getLast? = some c := (hlast c hc).mpr ha
      rwa [Option.some.inj (hm.symm.trans hmc)]

theorem maskedLinesFrom_append (ha : Complete a) (h : Text.BreakBetween a b) (index offset : Nat) :
    maskedLinesFrom index offset (a ++ b) = maskedLinesFrom index offset a ++
      maskedLinesFrom (index + (splitLines a).length) (offset + a.byteSize) b := by
  unfold maskedLinesFrom
  rw [mask_append ha, splitLines_append_of_breakBetween h,
    splitLines_append_of_breakBetween (breakBetween_mask h), LineTable.layOut_append,
    splitLines_flatMap_text, List.zipWith_append]
  rw [length_layOut, length_splitLines_mask]

/-- The first line stands where the others are counted from. -/
theorem exists_maskedLinesFrom_cons {r : RawLine} {more : List RawLine}
    (h : splitLines a = r :: more) (index offset : Nat) :
    ∃ m rest, maskedLinesFrom index offset a =
      ⟨⟨index, offset, r.content, r.ending⟩, m⟩ :: rest := by
  have hlength := length_splitLines_mask a
  unfold maskedLinesFrom
  rw [h] at hlength ⊢
  cases hmask : splitLines (mask a) with
  | nil =>
      rw [hmask] at hlength
      simp at hlength
  | cons m ms => exact ⟨m.content, _, rfl⟩

/-- Behind a complete text a keyword may begin. -/
theorem Complete.mayPrecede (ha : Complete a) : mayPrecede (mask a).getLast? = true := by
  have hbreak := (breakBetween_mask (b := []) ⟨ha.endsInBreak, by simp⟩).endsInBreak
  cases hlast : (mask a).getLast? with
  | none => rfl
  | some c =>
      rcases hbreak c hlast with rfl | rfl
      · rfl
      · rfl

/-! ### A line comment and the end of its line -/

/-- Behind `a`, a line comment up to the end of its line; then `b`. -/
def commentLine (a c : Text) (e : LineEnd) (b : Text) : Text :=
  a ++ ('/' :: '/' :: c ++ (e.text ++ b))

theorem map_blanked_of_unbroken {c : Text} (h : c.Unbroken) :
    c.map blanked = List.replicate c.length ' ' := by
  refine List.eq_replicate_iff.mpr ⟨List.length_map _, ?_⟩
  intro m hm
  obtain ⟨x, hx, rfl⟩ := List.mem_map.mp hm
  exact blanked_of_unbroken h hx

/-- A line feed ends a line comment, also behind a carriage return; that alone does not. -/
theorem lineRest_ending (e : LineEnd) (b : Text) :
    lineRest (e.text ++ b) = e.text ++ if e = .cr then lineRest b else mask b := by
  cases e with
  | crlf =>
      show lineRest ('\r' :: '\n' :: b) = _
      rw [lineRest, if_neg (by decide), lineRest_lf]
      rfl
  | lf => exact lineRest_lf b
  | cr =>
      show lineRest ('\r' :: b) = _
      rw [lineRest, if_neg (by decide)]
      rfl

/-- **What a mask shows for a line comment and what follows its line.**  The comment is blanked
and the end of the line kept.  What follows is masked on its own unless the line ends in a CR that
stands alone: then it is masked as part of the comment.  So the comment ends with its line exactly
if that makes no difference. -/
theorem mask_commentLine {a c : Text} (ha : Complete a) (hc : c.Unbroken) (e : LineEnd) (b : Text) :
    mask (commentLine a c e b) =
        mask a ++ (List.replicate (c.length + 2) ' ' ++
          (e.text ++ if e = .cr then lineRest b else mask b)) ∧
      (mask (commentLine a c e b) =
          mask a ++ (List.replicate (c.length + 2) ' ' ++ (e.text ++ mask b)) ↔
        (e = .cr → lineRest b = mask b)) := by
  have hcomment : Text.Unbroken ('/' :: '/' :: c) :=
    Text.unbroken_cons.mpr ⟨by decide, Text.unbroken_cons.mpr ⟨by decide, hc⟩⟩
  have hfeed : '\n' ∉ '/' :: '/' :: c := fun h => (hcomment _ h).2 rfl
  have hmask : mask (commentLine a c e b) =
      mask a ++ (List.replicate (c.length + 2) ' ' ++
        (e.text ++ if e = .cr then lineRest b else mask b)) := by
    rw [commentLine, mask_append ha, List.cons_append, List.cons_append, mask_slashes,
      ← List.cons_append, ← List.cons_append, lineRest_append hfeed, lineRest_ending,
      map_blanked_of_unbroken hcomment]
    rfl
  refine ⟨hmask, ?_⟩
  rw [hmask, List.append_cancel_left_eq, List.append_cancel_left_eq, List.append_cancel_left_eq]
  by_cases he : e = .cr
  · rw [if_pos he]
    exact ⟨fun h _ => h, fun h => h he⟩
  · rw [if_neg he]
    exact ⟨fun _ h => absurd h he, fun _ => rfl⟩

/-- Behind a closed literal, with marks in the comment and CR LF at its end. -/
theorem mask_commentLine_crlf :
    Complete "let s = \"//\"\r".toList ∧ Text.Unbroken " /* \"".toList ∧
      mask (commentLine "let s = \"//\"\r".toList " /* \"".toList .crlf "/**/ let t\n".toList) =
        "let s =     \r       \r\n     let t\n".toList := by
  have hlexeme : (lexemes "let s = \"//\"\r".toList).getLast? =
      some ⟨.code, ['\r'], true⟩ := by cbv
  have ha : Complete "let s = \"//\"\r".toList :=
    complete_of_getLast? (c := '\r') (by decide) (by decide) hlexeme rfl
  have hc : Text.Unbroken " /* \"".toList := by decide
  refine ⟨ha, hc, ?_⟩
  have hmask := (mask_commentLine ha hc .crlf "/**/ let t\n".toList).2
  rw [hmask.mpr fun he => by cases he]
  cbv

/-- Behind a CR that stands alone a function is taken for a part of the comment. -/
theorem mask_commentLine_cr :
    Complete [] ∧ Text.Unbroken " A".toList ∧
      mask (commentLine [] " A".toList .cr "func f() {}\n".toList) ≠
        mask [] ++ (List.replicate (" A".toList.length + 2) ' ' ++
          (LineEnd.cr.text ++ mask "func f() {}\n".toList)) := by
  refine ⟨complete_nil, by decide, ?_⟩
  have hmask : mask (commentLine [] " A".toList .cr "func f() {}\n".toList) =
      "    \r           \n".toList := by cbv
  have hfollowing : mask "func f() {}\n".toList = "func f() {}\n".toList := by cbv
  rw [hmask, hfollowing, mask_nil]
  decide

end Swift

end DocLint
