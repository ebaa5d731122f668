/-
What the mask shows in the range of a comment.

The range of a comment is found by its marks, line by line, and the mask by a scan of the
text.  They agree as far as the comment goes that the range begins in: a range always
begins in a comment or a literal, and all of that is blanked.  Where it is a line comment
they agree to the end, because the scan passes from each documentation line into the next
one (`commentedFrom_next`).  Behind a block comment that closes inside the range nothing is
said: the range may run on over code.

`lineRest` is the mask of a text that begins inside a line comment, and `Shows` says what
the mask of a text is from some place on.
-/
import Mathlib
import DocLint.Proofs.Swift.Comment
import DocLint.Proofs.Swift.Declaration
import DocLint.Proofs.Swift.Occurrence

namespace DocLint

namespace Swift

/-! ### The mask inside a line comment -/

/-- The mask of a text that begins inside a line comment. -/
def lineRest : Text → Text
  | [] => []
  | c :: r => if c = '\n' then mask (c :: r) else blanked c :: lineRest r

theorem lineRest_append {s : Text} (h : '\n' ∉ s) (t : Text) :
    lineRest (s ++ t) = s.map blanked ++ lineRest t := by
  induction s with
  | nil => rfl
  | cons c s ih =>
      have hc : c ≠ '\n' := fun hc => h (by simp [hc])
      rw [List.cons_append, lineRest, if_neg hc, ih fun hs => h (by simp [hs])]
      rfl

theorem lineRest_lf (t : Text) : lineRest ('\n' :: t) = '\n' :: mask t := by
  rw [lineRest, if_pos rfl, mask_cons_of_code (by decide) (by decide)]

theorem lineRest_eq_lineTail (t : Text) :
    lineRest t = (lineTail t).taken.map blanked ++ mask (lineTail t).rest := by
  induction t with
  | nil =>
      rw [lineRest, lineTail, mask_nil]
      rfl
  | cons c r ih =>
      by_cases hc : c = '\n'
      · rw [lineRest, if_pos hc, lineTail, if_pos hc]
        rfl
      · rw [lineRest, if_neg hc, lineTail, if_neg hc, ih]
        rfl

theorem lf_not_mem_lineTail (t : Text) : '\n' ∉ (lineTail t).taken := by
  induction t with
  | nil => simp [lineTail]
  | cons c r ih =>
      by_cases hc : c = '\n'
      · simp [lineTail, hc]
      · rw [lineTail, if_neg hc]
        intro hmem
        rcases List.mem_cons.mp hmem with hmem | hmem
        · exact hc hmem.symm
        · exact ih hmem

/-- At its end a line comment makes no difference. -/
theorem lineRest_lineTail (t : Text) : lineRest (lineTail t).rest = mask (lineTail t).rest := by
  induction t with
  | nil => rw [lineTail, lineRest, mask_nil]
  | cons c r ih =>
      by_cases hc : c = '\n'
      · rw [lineTail, if_pos hc, lineRest, if_pos hc]
      · rw [lineTail, if_neg hc]
        exact ih

/-- Two slashes begin a line comment. -/
theorem mask_slashes (t : Text) : mask ('/' :: '/' :: t) = lineRest ('/' :: '/' :: t) := by
  have hnext : nextLexeme '/' ('/' :: t) = Lexeme.ofSpan .lineComment ['/', '/'] (lineTail t) := rfl
  rw [mask_cons, hnext, lineRest, if_neg (by decide), lineRest, if_neg (by decide),
    lineRest_eq_lineTail]
  rfl

namespace Occurrence

variable {t : Text} (o : Occurrence t)

/-- A lexeme that is scanned is read from the first character of what there is. -/
theorem exists_nextLexeme :
    ∃ c r, o.lexeme.text ++ o.back = c :: r ∧ nextLexeme c r = (o.lexeme, o.back) := by
  cases h : o.lexeme.text ++ o.back with
  | nil =>
      have hscan := lexemes_of_append o.scan_eq
      have htext : (o.lexeme :: o.after).flatMap Lexeme.text = [] := by
        rw [List.flatMap_cons]
        exact h
      rw [htext, lexemes] at hscan
      simp at hscan
  | cons c r => exact ⟨c, r, rfl, o.nextLexeme_eq h⟩

/-- Behind a line comment there is a line feed or nothing. -/
theorem lineComment_eq (hkind : o.lexeme.kind = .lineComment) :
    ∃ r, o.lexeme.text = '/' :: '/' :: (lineTail r).taken ∧ o.back = (lineTail r).rest := by
  obtain ⟨c, r, -, hnext⟩ := o.exists_nextLexeme
  have hlexeme := congrArg Prod.fst hnext
  have hback := congrArg Prod.snd hnext
  simp only at hlexeme hback
  rw [← hlexeme] at hkind ⊢
  rw [← hback]
  revert hkind
  fun_cases nextLexeme c r with
  | case1 r => exact fun _ => ⟨r, rfl, rfl⟩
  | case2 => simp [Lexeme.ofSpan]
  | case3 => simp [Lexeme.ofSpan]
  | case4 => simp [Lexeme.ofSpan]
  | case5 => simp

/-- Code is scanned one character at a time, and opens no comment. -/
theorem code_eq (hkind : o.lexeme.kind = .code) :
    ∃ c, o.lexeme.text = [c] ∧ (c = '/' → ∀ r, o.back ≠ '/' :: r ∧ o.back ≠ '*' :: r) := by
  obtain ⟨c, r, -, hnext⟩ := o.exists_nextLexeme
  have hlexeme := congrArg Prod.fst hnext
  have hback := congrArg Prod.snd hnext
  simp only at hlexeme hback
  rw [← hlexeme] at hkind ⊢
  rw [← hback]
  revert hkind
  fun_cases nextLexeme c r with
  | case1 => simp [Lexeme.ofSpan]
  | case2 => simp [Lexeme.ofSpan]
  | case3 => simp [Lexeme.ofSpan]
  | case4 => simp [Lexeme.ofSpan]
  | case5 c r hline hblock =>
      intro _
      refine ⟨c, rfl, ?_⟩
      intro hc u
      exact ⟨fun hr => hline u hc hr, fun hr => hblock u hc hr⟩

/-- A place inside a lexeme cuts it in two. -/
theorem exists_cut {front back : Text} (ht : t = front ++ back)
    (hheld : o.Holds (front.byteSize : Nat)) :
    ∃ p q, front = o.front ++ p ∧ o.lexeme.text = p ++ q ∧ q ≠ [] ∧ back = q ++ o.back := by
  obtain ⟨hlow, hhigh⟩ := hheld
  rw [stop_eq, Text.byteSize_append] at hhigh
  have hstart : o.start = o.front.byteSize := rfl
  have htext := o.text_eq.symm.trans ht
  rw [List.append_assoc] at htext
  rcases List.append_eq_append_iff.mp htext with ⟨p, hfront, hrest⟩ | ⟨p, hfront, hrest⟩
  · -- The place is not behind the lexeme, for it has too few bytes in front.
    rcases List.append_eq_append_iff.mp hrest with ⟨q, hp, hback⟩ | ⟨q, hp, hback⟩
    · rw [hfront, hp] at hhigh
      simp only [Text.byteSize_append] at hhigh
      have hq : q = [] := Text.eq_nil_of_byteSize_eq_zero (by omega)
      rw [hq] at hhigh
      simp only [Text.byteSize_nil] at hhigh
      omega
    · refine ⟨p, q, hfront, hp, ?_, hback⟩
      intro hq
      rw [hfront, hp, hq] at hhigh
      simp only [Text.byteSize_append, Text.byteSize_nil] at hhigh
      omega
  · rw [hstart, hfront, Text.byteSize_append] at hlow
    have hp : p = [] := Text.eq_nil_of_byteSize_eq_zero (by omega)
    refine ⟨[], o.lexeme.text, by rw [hfront, hp]; simp, rfl, ?_, by rw [hrest, hp]; rfl⟩
    intro hnil
    rw [hfront, hp, hnil] at hhigh
    simp only [Text.byteSize_append, Text.byteSize_nil] at hhigh
    omega

end Occurrence

/-! ### The mask from a place on -/

/-- Behind `front` the text goes on with `back`, and its mask with `shown`. -/
structure Shows (t front back shown : Text) : Prop where
  text_eq : t = front ++ back
  mask_eq : ∃ masked, mask t = masked ++ shown ∧ masked.length = front.length

namespace Shows

variable {t front part back shown masked : Text}

/-- What has been passed belongs to what is in front. -/
theorem advance (h : Shows t front (part ++ back) (masked ++ shown))
    (hlength : masked.length = part.length) : Shows t (front ++ part) back shown := by
  obtain ⟨m, hmask, hm⟩ := h.mask_eq
  refine ⟨by rw [h.text_eq, List.append_assoc], m ++ masked, ?_, ?_⟩
  · rw [hmask, List.append_assoc]
  · rw [List.length_append, List.length_append, hm, hlength]

/-- A place in a line comment is one from which the text is blanked up to the line feed. -/
theorem ofOccurrence {o : Occurrence t} (hkind : o.lexeme.kind = .lineComment)
    (ht : t = front ++ back) (hheld : o.Holds (front.byteSize : Nat)) :
    Shows t front back (lineRest back) := by
  obtain ⟨p, q, hfront, htext, hq, hback⟩ := o.exists_cut ht hheld
  obtain ⟨masked, hmask, hlength⟩ := o.mask_eq
  obtain ⟨r, hlexeme, hrest⟩ := o.lineComment_eq hkind
  have hcomment : o.lexeme.masked = p.map blanked ++ q.map blanked := by
    unfold Lexeme.masked
    rw [hkind, htext, List.map_append]
  have hfeed : '\n' ∉ q := by
    intro hmem
    have hall : '\n' ∈ '/' :: '/' :: (lineTail r).taken := by
      rw [← hlexeme, htext]
      simp [hmem]
    exact lf_not_mem_lineTail r (by simpa using hall)
  have hbehind : lineRest o.back = mask o.back := by
    rw [hrest]
    exact lineRest_lineTail r
  refine ⟨ht, masked ++ p.map blanked, ?_, ?_⟩
  · rw [hback, lineRest_append hfeed, hbehind, hmask, hcomment]
    simp only [List.append_assoc]
  · rw [List.length_append, List.length_map, hlength, hfront, List.length_append]

/-- What the mask shows for a part is found at the place of the part. -/
theorem getElem?_mask (h : Shows t front (part ++ back) (masked ++ shown)) {j : Nat} {c : Char}
    (hj : masked[j]? = some c) : (mask t)[front.length + j]? = some c := by
  obtain ⟨m, hmask, hm⟩ := h.mask_eq
  rw [← List.append_assoc] at hmask
  rw [← hm]
  exact (Text.getElem?_of_part hmask hj).1

end Shows

/-! ### Runs of documentation lines -/

theorem exists_slashes {t : Text} (h : Doc.isLineDoc t = true) :
    ∃ r, Text.trimLeft t = '/' :: '/' :: '/' :: r := by
  unfold Doc.isLineDoc at h
  simp only [Bool.and_eq_true] at h
  obtain ⟨r, hr⟩ := List.isPrefixOf_iff_prefix.mp h.1
  exact ⟨r, hr.symm⟩

/-- The text from the first text of a line on. -/
def fromText (l : Line) (below : List Line) : Text :=
  Text.trimLeft l.content ++ (l.raw.endingText ++ LineTable.text ⟨below⟩)

/-- Where the text of the line begins the scan is inside a line comment. -/
def CommentedFrom (t : Text) (above : List Line) (l : Line) (below : List Line) : Prop :=
  Shows t (LineTable.text ⟨above⟩ ++ Text.leadingBlanks l.content) (fromText l below)
    (lineRest (fromText l below))

/-- A documentation line is in a line comment, whether the scan comes to it from code or from the
comment of the line above. -/
theorem exists_lineRest_ending {blanks comment : Text} (ending : Option LineEnd)
    (hblanks : Text.allBlank blanks = true) (hfeed : '\n' ∉ blanks)
    (hcomment : mask comment = lineRest comment) :
    ∃ masked, lineRest ((ending.map LineEnd.text).getD [] ++ (blanks ++ comment)) =
        masked ++ lineRest comment ∧
      masked.length = ((ending.map LineEnd.text).getD [] ++ blanks).length := by
  have hinside := lineRest_append hfeed comment
  have houtside : mask (blanks ++ comment) = blanks ++ lineRest comment := by
    rw [mask_append_of_code, hcomment]
    intro c hc
    have hb := Text.allBlank_iff.mp hblanks c hc
    constructor
    · rintro rfl
      exact absurd hb (by decide)
    · rintro rfl
      exact absurd hb (by decide)
  rcases ending with _ | _ | _ | _
  · exact ⟨blanks.map blanked, hinside, by simp⟩
  · refine ⟨'\r' :: '\n' :: blanks, ?_, by simp [LineEnd.text]⟩
    show lineRest ('\r' :: '\n' :: (blanks ++ comment)) = _
    rw [lineRest, if_neg (by decide), lineRest_lf, houtside]
    rfl
  · refine ⟨'\n' :: blanks, ?_, by simp [LineEnd.text]⟩
    show lineRest ('\n' :: (blanks ++ comment)) = _
    rw [lineRest_lf, houtside]
    rfl
  · refine ⟨'\r' :: blanks.map blanked, ?_, by simp [LineEnd.text]⟩
    show lineRest ('\r' :: (blanks ++ comment)) = _
    rw [lineRest, if_neg (by decide), hinside]
    rfl

variable {t : Text} {above below : List Line} {l next : Line}

/-- **The scan passes from one documentation line into the next.** -/
theorem commentedFrom_next (h : CommentedFrom t above l (next :: below))
    (hl : l.content.Unbroken) (hn : next.content.Unbroken)
    (hnext : Doc.isLineDoc next.content = true) :
    CommentedFrom t (above ++ [l]) next below := by
  have hblanks := Text.allBlank_leadingBlanks next.content
  have hfeedNext : '\n' ∉ Text.leadingBlanks next.content := by
    intro hmem
    exact (hn '\n' (List.takeWhile_subset _ hmem)).2 rfl
  have hfeed : '\n' ∉ Text.trimLeft l.content := by
    intro hmem
    exact (hl '\n' ((List.dropWhile_suffix _).subset hmem)).2 rfl
  obtain ⟨r, hr⟩ := exists_slashes hnext
  have hcomment : mask (fromText next below) = lineRest (fromText next below) := by
    unfold fromText
    rw [hr]
    exact mask_slashes _
  obtain ⟨masked, hmasked, hlength⟩ := exists_lineRest_ending l.ending hblanks hfeedNext hcomment
  have hsplit : LineTable.text ⟨next :: below⟩ =
      Text.leadingBlanks next.content ++ fromText next below := by
    unfold fromText
    rw [← List.append_assoc, Text.leadingBlanks_append_trimLeft]
    simp [LineTable.text, RawLine.text, Line.raw]
  unfold CommentedFrom at h ⊢
  have hfront : LineTable.text ⟨above ++ [l]⟩ ++ Text.leadingBlanks next.content =
      LineTable.text ⟨above⟩ ++ Text.leadingBlanks l.content ++ (Text.trimLeft l.content ++
        (l.raw.endingText ++ Text.leadingBlanks next.content)) := by
    have hcontent := Text.leadingBlanks_append_trimLeft l.content
    conv_lhs => rw [LineTable.text, List.flatMap_append, List.flatMap_singleton, RawLine.text, Line.raw,
      ← hcontent]
    simp [LineTable.text, Line.raw, RawLine.endingText]
  have hback : fromText l (next :: below) = Text.trimLeft l.content ++
      (l.raw.endingText ++ Text.leadingBlanks next.content) ++ fromText next below := by
    rw [fromText, hsplit]
    simp only [List.append_assoc]
  have hshown : lineRest (fromText l (next :: below)) =
      (Text.trimLeft l.content).map blanked ++ masked ++ lineRest (fromText next below) := by
    rw [fromText, hsplit, lineRest_append hfeed, List.append_assoc]
    exact congrArg _ hmasked
  rw [hshown, hback] at h
  rw [hfront]
  refine h.advance ?_
  rw [List.length_append, List.length_append, List.length_map, hlength]
  rfl

/-- The scan is inside a line comment on all lines of a run when it is on the first one. -/
theorem commentedFrom_of_mem {lines : List Line} {first : Line}
    (hunbroken : ∀ x ∈ first :: lines, x.content.Unbroken)
    (hrun : ∀ x ∈ lines, Doc.isLineDoc x.content = true)
    (h : CommentedFrom t above first (lines ++ below)) :
    ∀ x ∈ first :: lines, ∃ upper lower, above ++ first :: lines ++ below = upper ++ x :: lower ∧
      CommentedFrom t upper x lower := by
  induction lines generalizing above first with
  | nil =>
      intro x hx
      obtain rfl : x = first := by simpa using hx
      exact ⟨above, below, by simp, h⟩
  | cons next lines ih =>
      intro x hx
      rcases List.mem_cons.mp hx with rfl | hx
      · exact ⟨above, next :: lines ++ below, by simp, h⟩
      · have hstep := commentedFrom_next h (hunbroken first (by simp)) (hunbroken next (by simp))
          (hrun next (by simp))
        obtain ⟨upper, lower, hsplit, hcommented⟩ := ih (fun y hy => hunbroken y (by simp [hy]))
          (fun y hy => hrun y (by simp [hy])) hstep x hx
        exact ⟨upper, lower, by rw [← hsplit]; simp, hcommented⟩

/-- From its first text on a line that is commented is blanked. -/
theorem CommentedFrom.getElem?_mask (h : CommentedFrom t above l below)
    (hunbroken : l.content.Unbroken) {i : Nat} {c : Char} (hi : t[i]? = some c)
    (hcr : c ≠ '\r') (hlf : c ≠ '\n')
    (hlow : Text.byteSize (LineTable.text ⟨above⟩ ++ Text.leadingBlanks l.content) ≤ t.bytesBefore i)
    (hhigh : t.bytesBefore i < Text.byteSize (LineTable.text ⟨above⟩ ++ l.raw.text)) :
    (mask t)[i]? = some ' ' := by
  have hfeed : '\n' ∉ Text.trimLeft l.content := by
    intro hmem
    exact (hunbroken '\n' ((List.dropWhile_suffix _).subset hmem)).2 rfl
  have htext : t = LineTable.text ⟨above⟩ ++ Text.leadingBlanks l.content
      ++ (Text.trimLeft l.content ++ l.raw.endingText) ++ LineTable.text ⟨below⟩ := by
    have hfront := Shows.text_eq h
    rw [fromText] at hfront
    simpa only [List.append_assoc] using hfront
  have hline : LineTable.text ⟨above⟩ ++ l.raw.text = LineTable.text ⟨above⟩
      ++ Text.leadingBlanks l.content ++ (Text.trimLeft l.content ++ l.raw.endingText) := by
    rw [List.append_assoc, ← List.append_assoc (Text.leadingBlanks l.content),
      Text.leadingBlanks_append_trimLeft]
    rfl
  rw [hline] at hhigh
  obtain ⟨j, rfl, hj⟩ := Text.exists_place htext hi hlow hhigh
  have hinside : (Text.trimLeft l.content)[j]? = some c := by
    by_cases hlt : j < (Text.trimLeft l.content).length
    · rwa [List.getElem?_append_left hlt] at hj
    · rw [List.getElem?_append_right (by omega)] at hj
      rcases RawLine.eq_of_mem_endingText (List.mem_of_getElem? hj) with hc | hc
      · exact absurd hc hcr
      · exact absurd hc hlf
  have hblanked : ((Text.trimLeft l.content).map blanked)[j]? = some ' ' := by
    rw [List.getElem?_map, hinside, Option.map_some, blanked, if_neg (by simp [hcr, hlf])]
  unfold CommentedFrom at h
  rw [fromText, lineRest_append hfeed] at h
  exact h.getElem?_mask hblanked

/-- The first line of a comment begins with two marks of a comment. -/
theorem CommentRun.exists_marks {run rest : List Line} {first : Line} (h : CommentRun run rest)
    (hfirst : run.getLast? = some first) :
    ∃ r, Text.trimLeft first.content = '/' :: '/' :: r ∨
      Text.trimLeft first.content = '/' :: '*' :: r := by
  cases h with
  | @lines last run _ hlast hrun _ =>
      have hdoc : Doc.isLineDoc first.content = true := by
        rcases List.mem_cons.mp (List.mem_of_getLast? hfirst) with rfl | hmem
        · exact hlast
        · exact hrun first hmem
      obtain ⟨r, hr⟩ := exists_slashes hdoc
      exact ⟨'/' :: r, Or.inl hr⟩
  | @block _ top below _ _ _ _ _ _ hopen _ =>
      obtain rfl : top = first := by simpa using hfirst
      obtain ⟨r, hr⟩ := List.isPrefixOf_iff_prefix.mp hopen
      exact ⟨'*' :: r, Or.inr hr.symm⟩

/-- A comment that begins with a documentation line is a run of such lines. -/
theorem CommentRun.isLineDoc_of_first {run rest : List Line} {first : Line}
    (h : CommentRun run rest) (hfirst : run.getLast? = some first)
    (hdoc : Doc.isLineDoc first.content = true) : ∀ l ∈ run, Doc.isLineDoc l.content = true := by
  cases h with
  | @lines last run _ hlast hrun _ =>
      intro l hl
      rcases List.mem_cons.mp hl with rfl | hl
      · exact hlast
      · exact hrun l hl
  | @block _ top below _ _ _ _ _ _ hopen _ =>
      obtain rfl : top = first := by simpa using hfirst
      obtain ⟨r, hr⟩ := exists_slashes hdoc
      rw [hr] at hopen
      exact absurd hopen (by simp [Doc.blockOpen])

end Swift

namespace SourceFile

open Swift

variable {f : SourceFile} {d : Declaration} {range : ByteRange}

/-! ### The range of a comment -/

/-- The text of a file, cut around the content of a line. -/
theorem contents_eq {above below : List Line} {l : Line}
    (hlines : f.table.lines = above ++ l :: below) :
    f.contents = LineTable.text ⟨above⟩ ++ l.content
        ++ (l.raw.endingText ++ LineTable.text ⟨below⟩) ∧
      (LineTable.text ⟨above⟩).byteSize = l.offset :=
  LineTable.eq_append_of_lines hlines

/-- The text of a file, cut where the text of a line begins. -/
theorem contents_eq_fromText {above below : List Line} {l : Line}
    (hlines : f.table.lines = above ++ l :: below) (hblank : Text.allBlank l.content = false) :
    f.contents = LineTable.text ⟨above⟩ ++ Text.leadingBlanks l.content ++ fromText l below ∧
      Text.byteSize (LineTable.text ⟨above⟩ ++ Text.leadingBlanks l.content) = l.textOffset ∧
      Text.byteSize (LineTable.text ⟨above⟩ ++ l.raw.text) = l.stop := by
  obtain ⟨htext, habove⟩ := contents_eq hlines
  refine ⟨?_, ?_, ?_⟩
  · rw [htext, fromText]
    conv_lhs => rw [← Text.leadingBlanks_append_trimLeft l.content]
    simp only [List.append_assoc]
  · rw [Text.byteSize_append, habove, Line.textOffset, hblank, if_neg (by simp)]
  · rw [Text.byteSize_append, habove]
    rfl

/-- Where a comment begins the scan is not in code. -/
theorem Attachment.not_code (a : Attachment f d range) {first : Line}
    (hfirst : a.run.getLast? = some first) (o : Occurrence f.contents)
    (hheld : o.Holds first.textOffset) : o.lexeme.kind ≠ .code := by
  obtain ⟨more, after, -, hlines⟩ := a.table_lines_first hfirst
  obtain ⟨htext, hbytes, -⟩ := contents_eq_fromText hlines (a.commentRun.first_not_blank first hfirst)
  rw [← hbytes] at hheld
  obtain ⟨p, q, -, hpq, hq, hback⟩ := o.exists_cut htext hheld
  intro hkind
  obtain ⟨c, hc, hopens⟩ := o.code_eq hkind
  obtain ⟨rfl, rfl⟩ : p = [] ∧ q = [c] := by
    cases q with
    | nil => exact absurd rfl hq
    | cons e q =>
        rw [hc] at hpq
        cases p with
        | nil => exact ⟨rfl, by simpa using hpq.symm⟩
        | cons e p => simp at hpq
  obtain ⟨r, hr | hr⟩ := a.commentRun.exists_marks hfirst
  · rw [fromText, hr, List.cons_append, List.cons_append, List.singleton_append] at hback
    obtain ⟨rfl, hrest⟩ := List.cons.inj hback
    exact (hopens rfl _).1 hrest.symm
  · rw [fromText, hr, List.cons_append, List.cons_append, List.singleton_append] at hback
    obtain ⟨rfl, hrest⟩ := List.cons.inj hback
    exact (hopens rfl _).2 hrest.symm

/-- A byte of the range of a comment lies on one of the comment's lines. -/
theorem Attachment.mem_run (a : Attachment f d range) {l : Line} {n : Int}
    (hl : l ∈ f.table.lines) (hlow : (l.offset : Int) ≤ n) (hhigh : n < l.stop)
    (hstart : range.location ≤ n) (hstop : n < range.stop) : l ∈ a.run := by
  obtain ⟨first, last, hfirst, hlast, rfl⟩ := a.isRangeOf
  have hpair := (LineTable.laidOut_ofText f.contents).pairwise
  change f.table.lines.Pairwise _ at hpair
  rw [a.table_lines] at hl hpair
  have hfirstMem : first ∈ a.run.reverse := by simpa using List.mem_of_getLast? hfirst
  have hlastMem : last ∈ a.run.reverse := by simpa using List.mem_of_mem_head? hlast
  have hlocation : (rangeOfLines first last).location = first.textOffset := rfl
  have hend := stop_rangeOfLines first last
  have hfirstText := first.offset_le_textOffset
  have hlastEnd := last.contentEnd_le_stop
  rcases List.mem_append.mp hl with hl | hl
  · rcases List.mem_append.mp hl with hl | hl
    · have hle := ((List.pairwise_append.mp (List.pairwise_append.mp hpair).1).2.2 l hl first
        hfirstMem).2
      omega
    · simpa using hl
  · have hle := ((List.pairwise_append.mp hpair).2.2 last (by simp [hlastMem]) l hl).2
    omega

/-- The lines of a comment that begins in a line comment are commented, each from its text on. -/
theorem Attachment.commentedFrom (a : Attachment f d range) {first : Line}
    (hfirst : a.run.getLast? = some first) (hdoc : Doc.isLineDoc first.content = true)
    {o : Occurrence f.contents} (hkind : o.lexeme.kind = .lineComment)
    (hheld : o.Holds first.textOffset) :
    ∀ l ∈ a.run, ∃ above below, f.table.lines = above ++ l :: below ∧
      CommentedFrom f.contents above l below := by
  have hrun := a.commentRun.isLineDoc_of_first hfirst hdoc
  obtain ⟨more, after, hmore, hlines⟩ := a.table_lines_first hfirst
  have hmem : ∀ x, x ∈ a.run ↔ x ∈ first :: more := by
    intro x
    rw [← hmore, List.mem_reverse]
  have hunbroken : ∀ x ∈ first :: more, x.content.Unbroken := by
    intro x hx
    refine LineTable.unbroken_of_mem (t := f.contents) ?_
    change x ∈ f.table.lines
    rw [hlines, ← List.cons_append]
    exact List.mem_append_right _ (List.mem_append_left _ hx)
  obtain ⟨htext, hbytes, -⟩ := contents_eq_fromText hlines (a.commentRun.first_not_blank first hfirst)
  rw [← hbytes] at hheld
  have hshows := Shows.ofOccurrence hkind htext hheld
  intro l hl
  obtain ⟨above, below, hsplit, hcommented⟩ := commentedFrom_of_mem hunbroken
    (fun x hx => hrun x ((hmem x).mpr (by simp [hx]))) hshows l ((hmem l).mp hl)
  refine ⟨above, below, ?_, hcommented⟩
  rw [← hsplit, hlines, List.append_assoc, List.cons_append]

/-- **The range of a comment is blanked as far as the comment goes that it begins in.**  The scan has
a comment or a literal there.  Up to its end every character but a line break is blanked, and all
through a run of documentation lines that begins in a line comment every character is but for the
line breaks and what stands before the text of a line. -/
theorem docRange_blanked (hd : d ∈ f.declarations) (hrange : d.docRange = some range) :
    ∃ (o : Occurrence f.contents) (first : Line), o.Holds range.location ∧
      o.lexeme.kind ≠ .code ∧ f.table.lineAt range.location = .ok first ∧
      ∀ (i : Nat) (c : Char), f.contents[i]? = some c → c ≠ '\r' → c ≠ '\n' →
        range.location ≤ f.contents.bytesBefore i → f.contents.bytesBefore i < range.stop →
        ∃ l, f.table.lineAt (f.contents.bytesBefore i) = .ok l ∧
          (f.contents.bytesBefore i < o.stop ∨
              Doc.isLineDoc first.content = true ∧ o.lexeme.kind = .lineComment ∧
                l.textOffset ≤ f.contents.bytesBefore i →
            (mask f.contents)[i]? = some ' ') := by
  obtain ⟨a⟩ := exists_attachment hd hrange
  obtain ⟨first, last, hfirst, hlast, hrangeOf⟩ := a.isRangeOf
  have hlocation : range.location = first.textOffset := by rw [hrangeOf]; rfl
  have hfirstLine : first ∈ f.table.lines := by
    rw [a.table_lines]
    simp [List.mem_of_getLast? hfirst]
  have hblank := a.commentRun.first_not_blank first hfirst
  have hlow := first.offset_le_textOffset
  have hhigh := Line.textOffset_lt hblank
  have hstop := first.contentEnd_le_stop
  have hfirstAt : f.table.lineAt (first.textOffset : Int) = .ok first :=
    LineTable.lineAt_eq_ok hfirstLine (by omega) (by omega)
  have hsize : f.table.size = f.contents.byteSize := LineTable.size_ofText f.contents
  have hinside : first.stop ≤ f.table.size := LineTable.stop_le_size hfirstLine
  obtain ⟨o, hheld⟩ := exists_occurrence (t := f.contents) (n := first.textOffset) (by omega) (by omega)
  rw [hlocation]
  refine ⟨o, first, hheld, a.not_code hfirst o hheld, hfirstAt, ?_⟩
  intro i c hi hcr hlf hstart hend
  obtain ⟨hlt, -⟩ := List.getElem?_eq_some_iff.mp hi
  have hbytes := Text.bytesBefore_lt hlt hlt
  have htotal : f.contents.bytesBefore f.contents.length = f.contents.byteSize := by
    simp [Text.bytesBefore]
  obtain ⟨l, hl, hat, hbegin, hbehind⟩ := LineTable.exists_lineAt (t := f.contents)
    (x := f.contents.bytesBefore i) (by omega) (by
      rw [LineTable.size_ofText]
      omega)
  refine ⟨l, hat, ?_⟩
  rintro (hin | ⟨hdoc, hkind, htext⟩)
  · have hchar : o.Holds (f.contents.bytesBefore i) := ⟨by have := hheld.1; omega, by omega⟩
    rw [o.getElem?_mask (a.not_code hfirst o hheld) hi hchar, blanked, if_neg (by simp [hcr, hlf])]
  · rw [← hlocation] at hstart
    have hrun := a.mem_run hl hbegin hbehind hstart hend
    obtain ⟨above, below, hlines, hcommented⟩ := a.commentedFrom hfirst hdoc hkind hheld l hrun
    have hlblank : Text.allBlank l.content = false :=
      allBlank_of_isLineDoc (a.commentRun.isLineDoc_of_first hfirst hdoc l hrun)
    obtain ⟨-, hfront, hline⟩ := contents_eq_fromText hlines hlblank
    exact hcommented.getElem?_mask (LineTable.unbroken_of_mem hl) hi hcr hlf (by omega) (by omega)

/-- A comment of two lines, the lower one behind a tab. -/
def tabbedDoc : SourceFile := ⟨"/// A\n\t/// B\nfunc f()".toList, none⟩

/-- The lower line is blanked from its marker on. -/
theorem docRange_blanked_tabbedDoc : (mask tabbedDoc.contents)[11]? = some ' ' := by
  have hdeclarations : tabbedDoc.declarations =
      [⟨⟨.function, "f".toList⟩, 13, [], some ⟨0, 12⟩⟩] := by cbv
  obtain ⟨o, first, hheld, -, hfirst, hall⟩ :=
    docRange_blanked (f := tabbedDoc) (d := ⟨⟨.function, "f".toList⟩, 13, [], some ⟨0, 12⟩⟩)
      (by rw [hdeclarations]; simp) rfl
  have hfirstAt : tabbedDoc.table.lineAt 0 = .ok ⟨0, 0, "/// A".toList, some .lf⟩ :=
    LineTable.lineAt_eq_ok (by decide) (by decide) (by decide)
  have hlowerAt : tabbedDoc.table.lineAt 11 = .ok ⟨1, 6, "\t/// B".toList, some .lf⟩ :=
    LineTable.lineAt_eq_ok (by decide) (by decide) (by decide)
  obtain rfl := Except.ok.inj (hfirstAt.symm.trans hfirst)
  -- The scan begins with the comment, so that is the lexeme which holds the first byte.
  have hkind : o.lexeme.kind = .lineComment := by
    have hstart : o.front.byteSize = 0 := by
      have hlow : ((o.front.byteSize : Nat) : Int) ≤ 0 := hheld.1
      omega
    have hfront : o.front = [] := Text.eq_nil_of_byteSize_eq_zero hstart
    have htext := o.text_eq
    rw [hfront, List.nil_append] at htext
    have hnext := o.nextLexeme_eq (c := '/') (r := "// A\n\t/// B\nfunc f()".toList) htext.symm
    have hlexeme := congrArg Prod.fst hnext
    change _ = o.lexeme at hlexeme
    rw [← hlexeme]
    rfl
  obtain ⟨l, hl, hblanked⟩ := hall 11 'B' (by decide) (by decide) (by decide) (by decide) (by decide)
  obtain rfl := Except.ok.inj (hlowerAt.symm.trans hl)
  exact hblanked (Or.inr ⟨by decide, hkind, by decide⟩)

/-- The character, no line break and no space, stands in the range and in the mask as well. -/
def ShownIn (f : SourceFile) (range : ByteRange) (c : Char) : Prop :=
  c ≠ '\r' ∧ c ≠ '\n' ∧ c ≠ ' ' ∧ ∃ i, f.contents[i]? = some c ∧
    range.location ≤ f.contents.bytesBefore i ∧ f.contents.bytesBefore i < range.stop ∧
    (mask f.contents)[i]? = some c

/-- Code between two block comments on one line. -/
def codeBetween : SourceFile := ⟨"/** A */ x /* B */\nfunc f()".toList, none⟩

/-- The tab in front of a documentation line is no part of the comment, and stays; and a range runs
on over code to the closing of another comment. -/
theorem docRange_shown :
    (tabbedDoc.declarations = [⟨⟨.function, "f".toList⟩, 13, [], some ⟨0, 12⟩⟩] ∧
      tabbedDoc.ShownIn ⟨0, 12⟩ '\t') ∧
    (codeBetween.declarations = [⟨⟨.function, "f".toList⟩, 19, [], some ⟨0, 18⟩⟩] ∧
      codeBetween.ShownIn ⟨0, 18⟩ 'x') := by
  refine ⟨⟨by cbv, by decide, by decide, by decide, 6, by decide, by decide, by decide, by cbv⟩,
    by cbv, by decide, by decide, by decide, 9, by decide, by decide, by decide, by cbv⟩

end SourceFile

end DocLint
