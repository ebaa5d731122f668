/-
The scan of a text with CR LF for every LF.

A carriage return before a line feed is code where the line feed is code, and is kept in
the mask where it stands in a comment or a literal.  So the mask of the longer text is the
mask of the shorter one, again with the carriage returns (`mask_crlf`).  There is one
exception: a backslash in a string literal of one line takes the character behind it along.
That can be the line feed of the shorter text, and then the literal runs on into the next
line, but of a CR LF it is the carriage return only, and the literal ends with the line.

Heads, clauses and the names of parameters come out alike from such masks, because nothing
in them looks at a line break but as at a blank.
-/
import DocLint.Proofs.Source.CarriageReturn
import DocLint.Proofs.Swift.Clause
import DocLint.Proofs.Swift.Coverage

namespace DocLint.Swift

open Text (crlf)

variable {t r : Text} {c : Char}

/-! ### Spans -/

/-- The same span of the text with CR LF, closed or not. -/
structure Span.Recoded (s u : Span) : Prop where
  taken : u.taken = crlf s.taken
  rest : u.rest = crlf s.rest

namespace Span.Recoded

variable {s u : Span}

theorem push (h : s.Recoded u) (hc : c ≠ '\n') : (s.push c).Recoded (u.push c) where
  taken := by
    show c :: u.taken = crlf (c :: s.taken)
    rw [h.taken, Text.crlf_cons hc]
  rest := h.rest

theorem push_lf (h : s.Recoded u) : (s.push '\n').Recoded ((u.push '\n').push '\r') where
  taken := by
    show '\r' :: '\n' :: u.taken = crlf ('\n' :: s.taken)
    rw [h.taken, Text.crlf_lf]
  rest := h.rest

end Span.Recoded

theorem blockTail_crlf (depth : Nat) (t : Text) :
    (blockTail depth t).Recoded (blockTail depth (crlf t)) := by
  fun_induction blockTail depth t with
  | case1 t =>
      rw [blockTail]
      exact ⟨rfl, rfl⟩
  | case2 => exact ⟨rfl, rfl⟩
  | case3 depth r ih =>
      rw [Text.crlf_cons (by decide), Text.crlf_cons (by decide), blockTail]
      exact (ih.push (by decide)).push (by decide)
  | case4 depth r ih =>
      rw [Text.crlf_cons (by decide), Text.crlf_cons (by decide), blockTail]
      exact (ih.push (by decide)).push (by decide)
  | case5 depth c r hopen hclose ih =>
      by_cases hc : c = '\n'
      · subst hc
        rw [Text.crlf_lf, blockTail, blockTail]
        · exact ih.push_lf
        all_goals simp
      · rw [Text.crlf_cons hc, blockTail]
        · exact ih.push hc
        · intro u hslash hu
          obtain ⟨v, hv, -⟩ := Text.exists_of_crlf_eq_cons (by decide) hu
          exact hopen v hslash hv
        · intro u hstar hu
          obtain ⟨v, hv, -⟩ := Text.exists_of_crlf_eq_cons (by decide) hu
          exact hclose v hstar hv

theorem multilineTail_crlf (t : Text) : (multilineTail t).Recoded (multilineTail (crlf t)) := by
  fun_induction multilineTail t with
  | case1 => exact ⟨rfl, rfl⟩
  | case2 r =>
      rw [Text.crlf_cons (by decide), Text.crlf_cons (by decide), Text.crlf_cons (by decide),
        multilineTail]
      exact ⟨rfl, rfl⟩
  | case3 c r hnot ih =>
      by_cases hc : c = '\n'
      · subst hc
        rw [Text.crlf_lf, multilineTail, multilineTail]
        · exact ih.push_lf
        all_goals simp
      · rw [Text.crlf_cons hc, multilineTail]
        · exact ih.push hc
        · intro u hquote hu
          obtain ⟨v, hv, htail⟩ := Text.exists_of_crlf_eq_cons (by decide) hu
          obtain ⟨w, hw, -⟩ := Text.exists_of_crlf_eq_cons (by decide) htail.symm
          exact hnot w hquote (by rw [hv, hw])

theorem stringTail_taken_ne_nil (h : t ≠ []) : (stringTail t).taken ≠ [] := by
  fun_cases stringTail t <;> simp_all [Span.push]

/-- A literal of one line is the same if no line feed stands inside: the last character it takes
may be one, the character that ends the line. -/
theorem stringTail_crlf (h : '\n' ∉ (stringTail t).taken.dropLast) :
    (stringTail t).Recoded (stringTail (crlf t)) := by
  have hinside : ∀ {c : Char} {s : Text}, '\n' ∉ (c :: s).dropLast → '\n' ∉ s.dropLast := by
    intro c s hs
    cases s with
    | nil => simp
    | cons d s =>
        intro hmem
        exact hs (by simp [hmem])
  fun_induction stringTail t with
  | case1 => exact ⟨rfl, rfl⟩
  | case2 c r ih =>
      have hc := hinside h
      by_cases hlf : c = '\n'
      · subst hlf
        -- The escaped line feed is the last character taken, so nothing follows it.
        obtain rfl : r = [] := by
          by_contra hr
          obtain ⟨d, s, hds⟩ := List.exists_cons_of_ne_nil (stringTail_taken_ne_nil hr)
          simp [Span.push, hds] at hc
        exact ⟨rfl, rfl⟩
      · rw [Text.crlf_cons (by decide), Text.crlf_cons hlf, stringTail]
        exact ((ih (hinside hc)).push hlf).push (by decide)
  | case3 c r hnot hend =>
      rcases hend with rfl | rfl
      · exact ⟨rfl, rfl⟩
      · exact ⟨rfl, rfl⟩
  | case4 c r hnot hend ih =>
      have hlf : c ≠ '\n' := fun hc => hend (Or.inr hc)
      rw [Text.crlf_cons hlf, stringTail, if_neg hend]
      · exact (ih (hinside h)).push hlf
      · intro d s hc hs
        cases r with
        | nil => simp at hs
        | cons e r => exact hnot e r hc rfl

/-! ### Lexemes and the mask -/

theorem map_blanked_crlf (t : Text) : (crlf t).map blanked = crlf (t.map blanked) := by
  induction t with
  | nil => rfl
  | cons c t ih =>
      by_cases hc : c = '\n'
      · subst hc
        rw [Text.crlf_lf, List.map_cons, List.map_cons, ih]
        rfl
      · have hblank : blanked c ≠ '\n' := by
          rcases blanked_cases c with ⟨h, -⟩ | ⟨h, -, -⟩
          · rwa [h]
          · rw [h]
            decide
        rw [Text.crlf_cons hc, List.map_cons, List.map_cons, ih, Text.crlf_cons hblank]

/-- Does a literal of one line run on over the end of the line? -/
def Lexeme.RunsOn (l : Lexeme) : Prop := l.kind = .string ∧ '\n' ∈ l.text.dropLast

instance (l : Lexeme) : Decidable l.RunsOn :=
  inferInstanceAs (Decidable (l.kind = .string ∧ '\n' ∈ l.text.dropLast))

/-- Every lexeme but a line comment is the same, if it is no literal that runs on. -/
theorem nextLexeme_crlf (hc : c ≠ '\n') (hline : (nextLexeme c r).1.kind ≠ .lineComment)
    (hrun : ¬(nextLexeme c r).1.RunsOn) :
    (nextLexeme c (crlf r)).1.masked = crlf (nextLexeme c r).1.masked ∧
      (nextLexeme c (crlf r)).2 = crlf (nextLexeme c r).2 := by
  have hspan : ∀ {s u : Span} (kind : LexemeKind) {opening : Text}, s.Recoded u → kind ≠ .code →
      '\n' ∉ opening → (Lexeme.ofSpan kind opening u).1.masked =
        crlf (Lexeme.ofSpan kind opening s).1.masked ∧
      (Lexeme.ofSpan kind opening u).2 = crlf (Lexeme.ofSpan kind opening s).2 := by
    intro s u kind opening h hkind hopening
    have hmasked : ∀ v : Span, (Lexeme.ofSpan kind opening v).1.masked =
        (opening ++ v.taken).map blanked := by
      intro v
      unfold Lexeme.masked
      split
      · exact absurd ‹_› hkind
      · rfl
    refine ⟨?_, h.rest⟩
    rw [hmasked, hmasked, ← map_blanked_crlf, Text.crlf_append, Text.crlf_of_not_mem hopening, h.taken]
  revert hline hrun
  fun_cases nextLexeme c r with
  | case1 r => exact fun hline _ => absurd rfl hline
  | case2 r =>
      intro _ _
      rw [Text.crlf_cons (by decide)]
      exact hspan .blockComment (blockTail_crlf 1 r) (by decide) (by decide)
  | case3 r =>
      intro _ _
      rw [Text.crlf_cons (by decide), Text.crlf_cons (by decide)]
      exact hspan .multilineString (multilineTail_crlf r) (by decide) (by decide)
  | case4 r hnot =>
      intro _ hrun
      have hinside : '\n' ∉ (stringTail r).taken.dropLast := by
        intro hmem
        refine hrun ⟨rfl, ?_⟩
        show '\n' ∈ ('\"' :: (stringTail r).taken).dropLast
        cases htaken : (stringTail r).taken with
        | nil => simp [htaken] at hmem
        | cons d s =>
            rw [htaken] at hmem
            simp [hmem]
      rw [nextLexeme]
      · exact hspan .string (stringTail_crlf hinside) (by decide) (by decide)
      · intro u hu
        obtain ⟨v, rfl, htail⟩ := Text.exists_of_crlf_eq_cons (by decide) hu
        obtain ⟨w, rfl, -⟩ := Text.exists_of_crlf_eq_cons (by decide) htail.symm
        exact hnot w rfl
  | case5 c r hslash hstar hquotes hquote =>
      intro _ _
      rw [nextLexeme]
      · exact ⟨(Text.crlf_cons hc []).symm, rfl⟩
      · exact hquote
      · intro u hu hcr
        obtain ⟨v, hv, -⟩ := Text.exists_of_crlf_eq_cons (by decide) hcr
        exact hslash v hu hv
      · intro u hu hcr
        obtain ⟨v, hv, -⟩ := Text.exists_of_crlf_eq_cons (by decide) hcr
        exact hstar v hu hv
      · exact fun _ hu => absurd hu hquote

theorem mask_crlf_lf (t : Text) : mask ('\r' :: '\n' :: t) = '\r' :: '\n' :: mask t := by
  rw [mask_cons_of_code (by decide) (by decide), mask_cons_of_code (by decide) (by decide)]

theorem exists_of_lineComment (h : (nextLexeme c r).1.kind = .lineComment) :
    ∃ s, c = '/' ∧ r = '/' :: s := by
  revert h
  fun_cases nextLexeme c r with
  | case1 r => exact fun _ => ⟨r, rfl, rfl⟩
  | case2 => simp [Lexeme.ofSpan]
  | case3 => simp [Lexeme.ofSpan]
  | case4 => simp [Lexeme.ofSpan]
  | case5 => simp

/-- A line comment takes the carriage return along, which a mask keeps as it does outside. -/
theorem lineRest_crlf (t : Text) :
    lineRest (crlf t) = (lineTail t).taken.map blanked ++ mask (crlf (lineTail t).rest) := by
  induction t with
  | nil =>
      rw [crlf, lineRest, lineTail, crlf, mask_nil]
      rfl
  | cons c t ih =>
      by_cases hc : c = '\n'
      · subst hc
        rw [lineTail, if_pos rfl, Text.crlf_lf, mask_crlf_lf, lineRest, if_neg (by decide), lineRest_lf]
        rfl
      · rw [lineTail, if_neg hc, Text.crlf_cons hc, lineRest, if_neg hc, ih]
        rfl

/-- **The mask is the same, again with CR LF for every LF**, unless a literal runs on. -/
theorem mask_crlf (h : ∀ l ∈ lexemes t, ¬l.RunsOn) : mask (crlf t) = crlf (mask t) := by
  fun_induction lexemes t with
  | case1 => rw [mask_nil, crlf, mask_nil]
  | case2 c r ih =>
      have hrest := ih fun l hl => h l (by simp [hl])
      by_cases hc : c = '\n'
      · subst hc
        change mask (crlf r) = crlf (mask r) at hrest
        rw [Text.crlf_lf, mask_crlf_lf, mask_cons_of_code (by decide) (by decide), Text.crlf_lf, hrest]
      -- A line comment is the one lexeme that differs: it takes the carriage return along.
      by_cases hline : (nextLexeme c r).1.kind = .lineComment
      · obtain ⟨s, rfl, rfl⟩ := exists_of_lineComment hline
        change mask (crlf (lineTail s).rest) = crlf (mask (lineTail s).rest) at hrest
        have hkept : crlf ((lineTail s).taken.map blanked) = (lineTail s).taken.map blanked := by
          rw [← map_blanked_crlf, Text.crlf_of_not_mem (lf_not_mem_lineTail s)]
        have hrecoded := lineRest_crlf s
        rw [hrest, ← hkept, ← Text.crlf_append, ← lineRest_eq_lineTail] at hrecoded
        rw [Text.crlf_cons (by decide), Text.crlf_cons (by decide), mask_slashes, mask_slashes, lineRest,
          if_neg (by decide), lineRest, if_neg (by decide), hrecoded, lineRest, if_neg (by decide),
          lineRest, if_neg (by decide)]
        rfl
      · obtain ⟨hmasked, hafter⟩ := nextLexeme_crlf hc hline (h _ (by simp))
        rw [Text.crlf_cons hc, mask_cons, mask_cons, hmasked, hafter, hrest, ← Text.crlf_append]

/-! ### Heads -/

theorem after?_crlf {word : Text} (hword : word.Unbroken) (t : Text) :
    after? word (crlf t) = (after? word t).map crlf := by
  have hbegins : ∀ {word t r : Text}, word.Unbroken → crlf t = word ++ r →
      ∃ s, t = word ++ s ∧ r = crlf s := by
    intro word t r hword h
    induction word generalizing t with
    | nil => exact ⟨t, rfl, h.symm⟩
    | cons c word ih =>
        obtain ⟨hc, hmore⟩ := Text.unbroken_cons.mp hword
        obtain ⟨u, rfl, hu⟩ := Text.exists_of_crlf_eq_cons hc.1 h
        obtain ⟨s, rfl, hs⟩ := ih hmore hu.symm
        exact ⟨s, rfl, hs⟩
  ext r
  simp only [Option.map_eq_some_iff, after?_eq_some_iff]
  constructor
  · intro h
    obtain ⟨s, hs, hr⟩ := hbegins hword h
    exact ⟨s, hs, hr.symm⟩
  · rintro ⟨s, rfl, rfl⟩
    rw [Text.crlf_append, Text.crlf_of_unbroken hword]

theorem afterParenthesis?_crlf (t : Text) :
    afterParenthesis? (crlf t) = (afterParenthesis? t).map crlf := by
  unfold afterParenthesis?
  rw [Text.trimLeft_crlf]
  cases Text.trimLeft t with
  | nil => rfl
  | cons c r =>
      by_cases hlf : c = '\n'
      · subst hlf
        rfl
      rw [Text.crlf_cons hlf]
      by_cases hround : c = '('
      · subst hround
        rfl
      by_cases hangle : c = '<'
      · subst hangle
        simp only [Text.dropWhile_crlf (p := isTypeParameterChar) rfl,
          Text.takeWhile_crlf (p := isTypeParameterChar) rfl, Text.trimRight_crlf, Text.getLast?_crlf]
        cases r.dropWhile isTypeParameterChar with
        | nil => rfl
        | cons d rest =>
            by_cases hd : d = '\n'
            · subst hd
              rfl
            rw [Text.crlf_cons hd]
            by_cases hclosed : d = '('
            · subst hclosed
              simp only
              split <;> rfl
            · simp [hclosed]
      · simp [hround, hangle]

/-- The signature with CR LF in a name between backticks, and what follows. -/
def recoded (found : Signature × Text) : Signature × Text :=
  ({ found.1 with name := crlf found.1.name }, crlf found.2)

theorem functionName?_crlf (t : Text) :
    functionName? (crlf t) = (functionName? t).map fun found => (crlf found.1, crlf found.2) := by
  cases t with
  | nil => rfl
  | cons c r =>
      by_cases hlf : c = '\n'
      · subst hlf
        rfl
      rw [Text.crlf_cons hlf]
      simp only [functionName?]
      by_cases htick : c = '\x60'
      · rw [if_pos htick, if_pos htick, Text.takeWhile_crlf rfl, Text.dropWhile_crlf rfl]
        have hhead := List.head?_dropWhile_not (· != '\x60') r
        cases r.takeWhile (· != '\x60') with
        | nil => rfl
        | cons d name =>
            have hname : crlf (d :: name) ≠ [] := by
              rw [← List.isEmpty_eq_false_iff, Text.isEmpty_crlf]
              rfl
            obtain ⟨e, more, hmore⟩ := List.exists_cons_of_ne_nil hname
            rw [hmore]
            cases hdrop : r.dropWhile (· != '\x60') with
            | nil => rfl
            | cons x rest =>
                obtain rfl : x = '\x60' := by
                  rw [hdrop] at hhead
                  simpa using hhead
                simp only [Option.map_some, hmore]
                rfl
      · rw [if_neg htick, if_neg htick, Text.takeWhile_crlf rfl, Text.dropWhile_crlf rfl]
        split
        · rw [Option.map_some, Text.crlf_cons hlf]
        · rfl

theorem functionHead?_crlf (t : Text) : functionHead? (crlf t) = (functionHead? t).map recoded := by
  unfold functionHead?
  rw [after?_crlf (by decide)]
  cases after? "func".toList t with
  | none => rfl
  | some r =>
      simp only [Option.map_some, Option.bind_eq_bind, Option.bind_some, Text.leadingBlanks_crlf,
        Text.isEmpty_crlf, Text.trimLeft_crlf, functionName?_crlf]
      split
      · rfl
      cases functionName? (Text.trimLeft r) with
      | none => rfl
      | some found =>
          simp only [Option.map_some, Option.bind_some, afterParenthesis?_crlf]
          cases afterParenthesis? found.2 with
          | none => rfl
          | some rest => rfl

theorem initializerHead?_crlf (t : Text) :
    initializerHead? (crlf t) = (initializerHead? t).map recoded := by
  unfold initializerHead?
  rw [after?_crlf (by decide)]
  cases after? "init".toList t with
  | none => rfl
  | some r =>
      have hrest : ∀ s : Text, ((afterParenthesis? (crlf s)).bind fun rest =>
            some (⟨.initializer, "init".toList⟩, rest)) =
          ((afterParenthesis? s).bind fun rest =>
            some ((⟨.initializer, "init".toList⟩, rest) : Signature × Text)).map recoded := by
        intro s
        rw [afterParenthesis?_crlf]
        cases afterParenthesis? s with
        | none => rfl
        | some rest => rfl
      simp only [Option.map_some, Option.bind_eq_bind, Option.bind_some]
      cases r with
      | nil => exact hrest []
      | cons c r =>
          by_cases hlf : c = '\n'
          · subst hlf
            exact hrest ('\n' :: r)
          by_cases hquestion : c = '?'
          · subst hquestion
            exact hrest r
          by_cases hforced : c = '!'
          · subst hforced
            exact hrest r
          · simpa [hquestion, hforced, Text.crlf_cons hlf] using hrest (c :: r)

theorem signature?_crlf (t : Text) : signature? (crlf t) = (signature? t).map recoded := by
  unfold signature?
  rw [functionHead?_crlf, initializerHead?_crlf]
  cases functionHead? t with
  | none => rfl
  | some found => rfl

/-- A line break is no bracket. -/
theorem clause?_break (depth : Nat) (h : c = '\r' ∨ c = '\n') (r : Text) :
    clause? depth (c :: r) = (clause? depth r).map (c :: ·) := by
  rw [clause?.eq_def]
  rcases h with rfl | rfl <;> rfl

theorem clause?_crlf (depth : Nat) (t : Text) : clause? depth (crlf t) = (clause? depth t).map crlf := by
  have hpush : ∀ {c : Char} (x : Option Text), c ≠ '\n' →
      (x.map crlf).map (c :: ·) = (x.map (c :: ·)).map crlf := by
    intro c x hc
    cases x with
    | none => rfl
    | some s => simp [Text.crlf_cons hc]
  induction t generalizing depth with
  | nil => rfl
  | cons c r ih =>
      by_cases hlf : c = '\n'
      · subst hlf
        rw [Text.crlf_lf, clause?_break depth (Or.inl rfl), clause?_break depth (Or.inr rfl),
          clause?_break depth (Or.inr rfl), ih]
        cases clause? depth r with
        | none => rfl
        | some s => simp
      · rw [Text.crlf_cons hlf, clause?.eq_def, clause?.eq_def depth (c :: r)]
        simp only
        split
        · rw [ih, hpush _ hlf]
        split
        · cases depth with
          | zero => rfl
          | succ outer =>
              simp only
              rw [ih, hpush _ hlf]
        · rw [ih, hpush _ hlf]

/-- The same head in the mask with CR LF: its keyword stands behind the same text, and its clause is
the same, both with CR LF for every LF. -/
structure Head.Recoded (masked : Text) (h k : Head) : Prop where
  clause : k.clause = h.clause.map crlf
  place : ∃ before c rest, masked = before ++ c :: rest ∧ (c ≠ '\r' ∧ c ≠ '\n') ∧
    h.start = before.length ∧ k.start = (crlf before).length

theorem signature?_of_break (h : c = '\r' ∨ c = '\n') (r : Text) : signature? (c :: r) = none := by
  cases hfound : signature? (c :: r) with
  | none => rfl
  | some found =>
      obtain ⟨d, u, hd, hkeyword⟩ := exists_keyword_of_signature? hfound
      obtain rfl := (List.cons.inj hd).1
      rcases h with rfl | rfl
      · exact absurd hkeyword (by decide)
      · exact absurd hkeyword (by decide)

theorem headsFrom_cons_of_none {previous : Option Char} (h : signature? (c :: r) = none) (place : Nat) :
    headsFrom place 0 previous (c :: r) = headsFrom (place + 1) 0 (some c) r := by
  rw [headsFrom, h, ite_self]

/-- What follows the parenthesis of a head, and what stands between the first letter and that. -/
theorem exists_of_signature? {s : Signature} {rest : Text} (h : signature? (c :: r) = some (s, rest)) :
    (c ≠ '\r' ∧ c ≠ '\n') ∧ ∃ between, r = between ++ rest := by
  obtain ⟨d, u, hd, hkeyword⟩ := exists_keyword_of_signature? h
  obtain ⟨rfl, rfl⟩ := List.cons.inj hd
  have hsuffix := (of_signature? h).2
  refine ⟨by rcases hkeyword with rfl | rfl <;> decide, ?_⟩
  rcases List.suffix_cons_iff.mp hsuffix with heq | ⟨between, hbetween⟩
  · obtain rfl := (List.cons.inj heq).1
    exact absurd hkeyword (by decide)
  · exact ⟨between ++ ['('], by rw [← hbetween]; simp⟩

/-- **The same heads are found in the same order**, also inside of what belongs to a head. -/
theorem headsFrom_crlf (front t : Text) (skip : Nat) (previous : Option Char) :
    List.Forall₂ (Head.Recoded (front ++ t)) (headsFrom front.length skip previous t)
      (headsFrom (crlf front).length (crlf (t.take skip)).length previous (crlf t)) := by
  induction t generalizing front skip previous with
  | nil => exact List.Forall₂.nil
  | cons c r ih =>
      have hnext : ∀ skip previous, List.Forall₂ (Head.Recoded (front ++ c :: r))
          (headsFrom (front.length + 1) skip previous r)
          (headsFrom ((crlf front).length + (crlf [c]).length) (crlf (r.take skip)).length previous
            (crlf r)) := by
        intro skip previous
        have hafter := ih (front ++ [c]) skip previous
        rwa [List.append_assoc, List.singleton_append, List.length_append, Text.crlf_append,
          List.length_append] at hafter
      by_cases hlf : c = '\n'
      · subst hlf
        cases skip with
        | zero =>
            rw [Text.crlf_lf, headsFrom_cons_of_none (signature?_of_break (Or.inr rfl) r), List.take_zero,
              Text.crlf_nil, List.length_nil,
              headsFrom_cons_of_none (signature?_of_break (Or.inl rfl) _),
              headsFrom_cons_of_none (signature?_of_break (Or.inr rfl) _)]
            exact hnext 0 _
        | succ skip =>
            rw [List.take_succ_cons, Text.crlf_lf, Text.crlf_lf]
            exact hnext skip _
      have hone : (crlf [c]).length = 1 := by rw [Text.crlf_cons hlf]; rfl
      rw [hone] at hnext
      rw [Text.crlf_cons hlf]
      cases skip with
      | succ skip =>
          rw [List.take_succ_cons, Text.crlf_cons hlf]
          exact hnext skip _
      | zero =>
          have hrecoded : (if mayPrecede previous then signature? (c :: crlf r) else none) =
              (if mayPrecede previous then signature? (c :: r) else none).map recoded := by
            rw [← Text.crlf_cons hlf, signature?_crlf]
            split <;> rfl
          cases hfound : if mayPrecede previous then signature? (c :: r) else none with
          | none =>
              rw [hfound, Option.map_none] at hrecoded
              rw [headsFrom, hfound, List.take_zero, Text.crlf_nil, List.length_nil, headsFrom,
                hrecoded]
              exact hnext 0 _
          | some found =>
              obtain ⟨signature, rest⟩ := found
              rw [hfound, Option.map_some] at hrecoded
              obtain ⟨hbreak, between, rfl⟩ :
                  (c ≠ '\r' ∧ c ≠ '\n') ∧ ∃ between, r = between ++ rest := by
                split at hfound
                · exact exists_of_signature? hfound
                · simp at hfound
              -- Behind the parenthesis both searches go on at the same place.
              have hskip : (crlf (between ++ rest)).length - (crlf rest).length =
                  (crlf ((between ++ rest).take ((between ++ rest).length - rest.length))).length := by
                rw [List.length_append, Nat.add_sub_cancel, List.take_left, Text.crlf_append,
                  List.length_append, Nat.add_sub_cancel]
              rw [headsFrom, hfound, List.take_zero, Text.crlf_nil, List.length_nil, headsFrom,
                hrecoded]
              simp only [recoded]
              rw [hskip]
              exact List.Forall₂.cons ⟨clause?_crlf 0 rest, front, c, _, rfl, hbreak, rfl, rfl⟩
                (hnext _ _)

theorem heads_crlf (masked : Text) :
    List.Forall₂ (Head.Recoded masked) (heads masked) (heads (crlf masked)) :=
  headsFrom_crlf [] masked 0 none

/-! ### Parameters -/

/-- CR LF tells the split what LF tells it. -/
theorem pieces_crlf (s : ClauseState) (t : Text) : pieces s (crlf t) = (pieces s t).map crlf := by
  induction t generalizing s with
  | nil => rfl
  | cons c r ih =>
      obtain ⟨piece, more, hpieces⟩ := exists_pieces (s.next c) r
      by_cases hlf : c = '\n'
      · subst hlf
        have hnext : (s.next '\r').next '\n' = s.next '\n' := by
          simp [ClauseState.next, ClauseState.parts, ClauseState.step]
        rw [Text.crlf_lf, pieces_cons, if_neg (by simp [ClauseState.parts]), pieces_cons,
          if_neg (by simp [ClauseState.parts]), pieces_cons, if_neg (by simp [ClauseState.parts]), hnext,
          ih, hpieces]
        simp
      · rw [Text.crlf_cons hlf, pieces_cons, pieces_cons, ih, hpieces]
        split
        · rfl
        · simp [Text.crlf_cons hlf]

theorem parameterNames_crlf (clause : Text) :
    parameterNames (crlf clause) = parameterNames clause := by
  have hname : ∀ t, parameterName? (crlf t) = parameterName? t := by
    intro t
    unfold parameterName?
    rw [Text.beforeChar_crlf (by decide) (by decide), Text.lastWord?_crlf]
  have htexts : parameterTexts (crlf clause) = (parameterTexts clause).map crlf := by
    unfold parameterTexts
    have htrim : Text.trim ∘ crlf = crlf ∘ Text.trim := funext Text.trim_crlf
    rw [pieces_crlf, List.map_map, htrim, ← List.map_map, List.filter_map]
    congr 2
    funext t
    exact congrArg not (Text.isEmpty_crlf t)
  unfold parameterNames
  rw [htexts, List.filterMap_map]
  exact List.filterMap_congr fun t _ => hname t

end DocLint.Swift
