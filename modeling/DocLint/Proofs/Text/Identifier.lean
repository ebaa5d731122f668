/-
Identifiers: names of ASCII letters, digits and underscores.

What the readers of names and lists need to know of them is that no character which
means something else stands inside: no blank, no colon, no bracket, no mark of a comment.
-/
import DocLint.Proofs.Text.Blank
import DocLint.Text.Word

namespace DocLint.Text

/-- What an identifier may go on with. -/
def isNameChar (c : Char) : Bool := isNameStart c || c.isDigit

/-- An ASCII letter or the underscore, and letters, digits and underscores behind it. -/
def isIdentifier : Text → Bool
  | [] => false
  | c :: r => isNameStart c && r.all isNameChar

variable {t : Text}

theorem isNameChar_of_mem (h : isIdentifier t = true) {c : Char} (hc : c ∈ t) :
    isNameChar c = true := by
  cases t with
  | nil => simp at hc
  | cons d r =>
      rw [isIdentifier, Bool.and_eq_true, List.all_eq_true] at h
      rcases List.mem_cons.mp hc with rfl | hc
      · rw [isNameChar, h.1, Bool.true_or]
      · exact h.2 c hc

theorem exists_cons_of_isIdentifier (h : isIdentifier t = true) :
    ∃ c r, t = c :: r ∧ isNameStart c = true := by
  cases t with
  | nil => simp [isIdentifier] at h
  | cons c r =>
      rw [isIdentifier, Bool.and_eq_true] at h
      exact ⟨c, r, rfl, h.1⟩

/-- A character that means something else does not stand in an identifier. -/
theorem ne_of_isIdentifier (h : isIdentifier t = true) {c x : Char} (hc : c ∈ t)
    (hx : isNameChar x = false) : c ≠ x := by
  rintro rfl
  rw [isNameChar_of_mem h hc] at hx
  exact absurd hx (by simp)

theorem not_mem_of_isIdentifier (h : isIdentifier t = true) {x : Char}
    (hx : isNameChar x = false) : x ∉ t :=
  fun hmem => ne_of_isIdentifier h hmem hx rfl

/-- What stands around names: the characters of identifiers, a space and some punctuation. -/
def isPlain (c : Char) : Bool := isNameChar c || c == ' ' || c == '-' || c == ':' || c == ','

theorem isPlain_of_mem (h : isIdentifier t = true) {c : Char} (hc : c ∈ t) : isPlain c = true := by
  simp [isPlain, isNameChar_of_mem h hc]

/-- A character that is not plain does not stand in a plain text. -/
theorem ne_of_isPlain {c x : Char} (hc : isPlain c = true) (hx : isPlain x = false) : c ≠ x := by
  rintro rfl
  rw [hc] at hx
  exact absurd hx (by simp)

/-- The blanks among the ASCII characters come before all letters and digits. -/
theorem isBlank_of_isNameChar {c : Char} (h : isNameChar c = true) : isBlank c = false := by
  have hbounds : 0x30 ≤ c.toNat ∧ c.toNat ≤ 0x7A := by
    delta isNameChar isNameStart Char.isAlpha Char.isUpper Char.isLower Char.isDigit at h
    simp only [Bool.or_eq_true, Bool.and_eq_true, decide_eq_true_eq, beq_iff_eq,
      UInt32.le_iff_toNat_le, ge_iff_le] at h
    change (((65 ≤ c.toNat ∧ c.toNat ≤ 90) ∨ (97 ≤ c.toNat ∧ c.toNat ≤ 122)) ∨ c = '_') ∨
      (48 ≤ c.toNat ∧ c.toNat ≤ 57) at h
    rcases h with ((h | h) | rfl) | h
    · omega
    · omega
    · decide
    · omega
  simp [isBlank]
  omega

theorem not_blank_of_isIdentifier (h : isIdentifier t = true) : ∀ c ∈ t, isBlank c = false :=
  fun _ hc => isBlank_of_isNameChar (isNameChar_of_mem h hc)

/-- Numbers are written in digits. -/
theorem isDigit_of_mem_ofNat {n : Nat} {c : Char} (h : c ∈ ofNat n) : c.isDigit = true :=
  Nat.isDigit_of_mem_toDigits (by omega) (by omega) h

/-- A text without blanks is trimmed. -/
theorem trim_of_not_blank (h : ∀ c ∈ t, isBlank c = false) : trim t = t := by
  have hleft : trimLeft t = t := by
    cases t with
    | nil => rfl
    | cons c r => exact trimLeft_cons_of_not r (h c (by simp))
  unfold trim
  rw [hleft]
  rcases List.eq_nil_or_concat t with rfl | ⟨s, c, rfl⟩
  · rfl
  · rw [List.concat_eq_append, trimRight_append_of_not s [] (h c (by simp))]
    rfl

theorem beforeChar_append {x : Char} (h : x ∉ t) (r : Text) : beforeChar x (t ++ x :: r) = t := by
  unfold beforeChar
  refine takeWhile_append_of_stop ?_ ?_
  · intro c hc
    simp
    rintro rfl
    exact h hc
  · intro c hc
    obtain rfl : x = c := by simpa using hc
    simp

/-- A text that holds `x` is what stands before the first one, and a rest. -/
theorem contains_iff_exists_append {x : Char} :
    t.contains x = true ↔ ∃ front rest, t = front ++ x :: rest ∧ x ∉ front := by
  rw [List.contains_iff_mem]
  constructor
  · exact List.eq_append_cons_of_mem
  · rintro ⟨front, rest, rfl, -⟩
    simp

/-- What stands before the first `x` is known from the texts that begin with it. -/
theorem append_prefix_append_iff {x : Char} {s : Text} (hs : x ∉ s) (ht : x ∉ t) (r : Text) :
    s ++ [x] <+: t ++ x :: r ↔ s = t := by
  constructor
  · rintro ⟨u, hu⟩
    have hbefore := congrArg (beforeChar x) hu
    rw [List.append_assoc, List.singleton_append, beforeChar_append hs, beforeChar_append ht] at hbefore
    exact hbefore
  · rintro rfl
    exact ⟨r, by simp⟩

end DocLint.Text
