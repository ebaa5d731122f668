/-
What a mask keeps and what it erases.

A text is `Bare` when nothing in it opens a comment or a string literal.  Such a text is all
code and its own mask (`mask_eq_self`).  Every mask is bare (`bare_mask`): a blanked lexeme
holds neither slashes, stars nor quotes, and a slash that stays as code is followed by what
the mask shows for the character behind it, which is that character or a blank.  The second
can be neither a slash nor a star unless the text had a comment there.  So blanked and kept
characters never meet in a new mark, and masking twice is masking once.
-/
import DocLint.Proofs.Agree
import DocLint.Proofs.Swift.Comment

namespace DocLint

/-! ### Pairs of characters -/

/-- A pair stands in a text at its front or further on. -/
theorem Text.hasPart_pair_cons_eq_false {a b c : Char} {t : Text} :
    Text.hasPart [a, b] (c :: t) = false ↔
      (c = a → t.head? ≠ some b) ∧ Text.hasPart [a, b] t = false := by
  rw [Text.hasPart, Bool.or_eq_false_iff]
  refine and_congr_left fun _ => ?_
  cases t with
  | nil =>
      show (a == c && false) = false ↔ _
      simp
  | cons d t =>
      show (a == c && (b == d && true)) = false ↔ _
      rw [Bool.and_true, Bool.and_eq_false_imp, beq_iff_eq, beq_eq_false_iff_ne, List.head?_cons,
        Ne, Ne, Option.some_inj, eq_comm, eq_comm (a := b)]

/-- A pair cannot begin in a text that its first character is not in. -/
theorem Text.hasPart_pair_append {a : Char} (b : Char) {s : Text} (h : a ∉ s) (t : Text) :
    Text.hasPart [a, b] (s ++ t) = Text.hasPart [a, b] t := by
  induction s with
  | nil => rfl
  | cons c s ih =>
      have hc : c ≠ a := fun hc => h (by simp [hc])
      rw [List.cons_append, Text.hasPart, ih fun hs => h (by simp [hs])]
      show (a == c && _ || _) = _
      rw [beq_false_of_ne (Ne.symm hc), Bool.false_and, Bool.false_or]

namespace Swift

/-! ### Texts without comments and literals -/

/-- Nothing in the text opens a comment or a string literal. -/
structure Bare (t : Text) : Prop where
  noQuote : '\"' ∉ t
  noLineComment : Text.hasPart ['/', '/'] t = false
  noBlockComment : Text.hasPart Doc.commentOpen t = false

theorem bare_nil : Bare [] := ⟨by simp, rfl, rfl⟩

/-- A character in front of a bare text is bare too unless it is a quote or opens a comment. -/
theorem bare_cons_iff {c : Char} {t : Text} :
    Bare (c :: t) ↔
      (c ≠ '\"' ∧ (c = '/' → t.head? ≠ some '/' ∧ t.head? ≠ some '*')) ∧ Bare t := by
  constructor
  · rintro ⟨hquote, hline, hblock⟩
    rw [Text.hasPart_pair_cons_eq_false] at hline
    have hblock := Text.hasPart_pair_cons_eq_false.mp hblock
    exact ⟨⟨fun hc => hquote (by simp [hc]), fun hc => ⟨hline.1 hc, hblock.1 hc⟩⟩,
      fun hmem => hquote (by simp [hmem]), hline.2, hblock.2⟩
  · rintro ⟨⟨hquote, hslash⟩, ht⟩
    refine ⟨?_, Text.hasPart_pair_cons_eq_false.mpr ⟨fun hc => (hslash hc).1, ht.noLineComment⟩,
      Text.hasPart_pair_cons_eq_false.mpr ⟨fun hc => (hslash hc).2, ht.noBlockComment⟩⟩
    intro hmem
    rcases List.mem_cons.mp hmem with hc | hmem
    · exact hquote hc.symm
    · exact ht.noQuote hmem

/-- Without slashes and quotes a text opens nothing. -/
theorem Bare.append {s t : Text} (ht : Bare t) (hs : ∀ c ∈ s, c ≠ '/' ∧ c ≠ '\"') :
    Bare (s ++ t) := by
  have hslash : '/' ∉ s := fun h => (hs '/' h).1 rfl
  refine ⟨?_, ?_, ?_⟩
  · intro hmem
    rcases List.mem_append.mp hmem with hmem | hmem
    · exact (hs _ hmem).2 rfl
    · exact ht.noQuote hmem
  · rw [Text.hasPart_pair_append _ hslash, ht.noLineComment]
  · rw [Doc.commentOpen, Text.hasPart_pair_append _ hslash]
    exact ht.noBlockComment

/-- A character that opens nothing where it stands is code. -/
theorem nextLexeme_eq_code {c : Char} {r : Text} (hquote : c ≠ '\"')
    (hslash : c = '/' → r.head? ≠ some '/' ∧ r.head? ≠ some '*') :
    nextLexeme c r = (⟨.code, [c], true⟩, r) := by
  fun_cases nextLexeme c r with
  | case1 => simp at hslash
  | case2 => simp at hslash
  | case3 => exact absurd rfl hquote
  | case4 => exact absurd rfl hquote
  | case5 => rfl

/-- **A text without comments and literals is its own mask.** -/
theorem mask_eq_self {t : Text} (h : Bare t) : mask t = t := by
  induction t with
  | nil => exact mask_nil
  | cons c t ih =>
      obtain ⟨⟨hquote, hslash⟩, ht⟩ := bare_cons_iff.mp h
      rw [mask_cons, nextLexeme_eq_code hquote hslash, ih ht]
      rfl

/-! ### Masks are bare -/

/-- The first character of a mask is that of the text or its blank. -/
theorem head?_mask (t : Text) : Option.Rel Masks t.head? (mask t).head? :=
  optionRel_head? (mask_forall₂ t)

theorem blanked_ne {c b : Char} (hb : Text.isBlank b = false) : blanked c ≠ b := by
  intro h
  rw [← h, isBlank_blanked] at hb
  exact absurd hb (by decide)

/-- What is no blank begins a mask only if it begins the text. -/
theorem head?_mask_ne {t : Text} {b : Char} (hb : Text.isBlank b = false)
    (h : t.head? ≠ some b) : (mask t).head? ≠ some b := by
  intro hmask
  have hrel := head?_mask t
  rw [hmask] at hrel
  cases ht : t.head? with
  | none =>
      rw [ht] at hrel
      cases hrel
  | some c =>
      rw [ht] at hrel h
      have hcb : Masks c b := by
        cases hrel with
        | some hcb => exact hcb
      rcases hcb with rfl | hcb
      · exact h rfl
      · exact blanked_ne hb hcb.symm

/-- What is blanked opens nothing. -/
theorem Bare.blanked_append {t : Text} (h : Bare t) (s : Text) : Bare (s.map blanked ++ t) := by
  refine h.append ?_
  intro c hc
  obtain ⟨d, -, rfl⟩ := List.mem_map.mp hc
  exact ⟨blanked_ne (by decide), blanked_ne (by decide)⟩

/-- **No mask opens a comment or a string literal.** -/
theorem bare_mask (t : Text) : Bare (mask t) := by
  -- Along the scan, one lexeme at a time; only code needs to look at what follows it.
  fun_induction lexemes t with
  | case1 =>
      rw [mask_nil]
      exact bare_nil
  | case2 c r ih =>
      rw [mask_cons]
      revert ih
      fun_cases nextLexeme c r with
      | case1 => exact fun ih => ih.blanked_append _
      | case2 => exact fun ih => ih.blanked_append _
      | case3 => exact fun ih => ih.blanked_append _
      | case4 => exact fun ih => ih.blanked_append _
      | case5 c r hline hblock _ hquote =>
          intro ih
          refine bare_cons_iff.mpr ⟨⟨hquote, ?_⟩, ih⟩
          intro hc
          constructor
          · refine head?_mask_ne (by decide) fun hr => ?_
            obtain ⟨u, rfl⟩ := List.head?_eq_some_iff.mp hr
            exact hline u hc rfl
          · refine head?_mask_ne (by decide) fun hr => ?_
            obtain ⟨u, rfl⟩ := List.head?_eq_some_iff.mp hr
            exact hblock u hc rfl

/-! ### Places of a mask -/

/-- What stands in the mask at a place stands for what is there in the text. -/
theorem masks_getElem? (t : Text) (i : Nat) : Option.Rel Masks t[i]? (mask t)[i]? := by
  rw [← List.head?_drop, ← List.head?_drop]
  exact optionRel_head? (List.forall₂_drop i (mask_forall₂ t))

/-- **Masking erases in place, and once is enough.**  A mask is as long as its text, has the
line breaks where the text has them, and elsewhere the character of the text or a space.  It
holds no quote and opens no comment, so masking it again changes nothing. -/
theorem mask_erases (t : Text) :
    (mask t).length = t.length ∧
      (∀ (i : Nat) (b : Char), b = '\r' ∨ b = '\n' → ((mask t)[i]? = some b ↔ t[i]? = some b)) ∧
      (∀ i : Nat, (mask t)[i]? = t[i]? ∨ (mask t)[i]? = some ' ') ∧
      '\"' ∉ mask t ∧ Text.hasPart ['/', '/'] (mask t) = false ∧
      Text.hasPart ['/', '*'] (mask t) = false ∧ mask (mask t) = mask t := by
  have hbare := bare_mask t
  refine ⟨length_mask t, ?_, ?_, hbare.noQuote, hbare.noLineComment, hbare.noBlockComment,
    mask_eq_self hbare⟩
  · intro i b hb
    exact Masks.eq_some_break_iff (masks_getElem? t i) hb
  · intro i
    have hrel := masks_getElem? t i
    revert hrel
    generalize t[i]? = x
    generalize (mask t)[i]? = y
    rintro (h | _)
    · rcases h with rfl | rfl
      · exact Or.inl rfl
      · rcases blanked_cases _ with ⟨heq, -⟩ | ⟨heq, -, -⟩
        · exact Or.inl (by rw [heq])
        · exact Or.inr (by rw [heq])
    · exact Or.inl rfl

end Swift

end DocLint
