/-
Integers that are read, and the digits that are written for them.

An integer of too many digits is not read, and then it is not written either: what has been read
has few enough digits (`isWritableInt_of_toInt?`).  Conversely the digits of a number are read as
that number, as long as there are not too many (`toInt?_ofNat`).  They are ASCII digits alone, so
that none of the other things an integer may be written with comes up.
-/
import Mathlib.Algebra.Order.Ring.Nat
import Mathlib.Data.Nat.Digits.Lemmas
import Mathlib.Tactic.Ring
import DocLint.Proofs.Text.Identifier
import DocLint.Value.Fault

namespace DocLint

namespace Text

variable {base : Nat} {t : Text}

theorem valueOf_lt {digits : List Nat} (h : ∀ d ∈ digits, d < base) :
    valueOf base digits < base ^ digits.length := by
  have hfold : ∀ total, digits.foldl (fun total d => total * base + d) total <
      (total + 1) * base ^ digits.length := by
    induction digits with
    | nil =>
        intro total
        simp
    | cons d more ih =>
        intro total
        have hd : d < base := h d (by simp)
        have hmore := ih (fun x hx => h x (List.mem_cons_of_mem d hx)) (total * base + d)
        have hstep : total * base + d + 1 ≤ (total + 1) * base := by
          rw [Nat.add_mul, Nat.one_mul]
          omega
        calc (d :: more).foldl (fun total d => total * base + d) total
            < (total * base + d + 1) * base ^ more.length := hmore
          _ ≤ (total + 1) * base * base ^ more.length := Nat.mul_le_mul_right _ hstep
          _ = (total + 1) * base ^ (d :: more).length := by
            rw [List.length_cons]
            ring
  have hzero := hfold 0
  rwa [Nat.zero_add, Nat.one_mul] at hzero

theorem digitIn?_underscore (base : Nat) : digitIn? base '_' = none := by
  have hnone : (digitValue? '_' <|> hexValue? '_') = none := by decide
  unfold digitIn?
  rw [hnone]
  rfl

theorem digitIn?_lt {c : Char} {d : Nat} (h : digitIn? base c = some d) : d < base := by
  unfold digitIn? at h
  have hlt := (Option.filter_eq_some_iff.mp h).2
  simpa using hlt

theorem leadingDigits_cons {c : Char} {d : Nat} (h : digitIn? base c = some d) (t : Text) :
    leadingDigits base (c :: t) = leadingDigits base t + 1 := by
  have hc : c ≠ '_' := by
    rintro rfl
    rw [digitIn?_underscore] at h
    simp at h
  unfold leadingDigits
  rw [List.takeWhile_cons_of_pos (by simp [h]), List.filter_cons_of_pos (by simpa using hc)]
  rfl

theorem leadingDigits_cons_underscore (base : Nat) (t : Text) :
    leadingDigits base ('_' :: t) = leadingDigits base t := by
  unfold leadingDigits
  rw [List.takeWhile_cons_of_pos (by simp), List.filter_cons_of_neg (by simp)]

/-- Every digit that is read has been counted. -/
theorem leadingDigits_of_groupedDigits? {values : List Nat} (h : groupedDigits? base t = some values) :
    leadingDigits base t = values.length ∧ ∀ d ∈ values, d < base := by
  fun_induction groupedDigits? base t generalizing values with
  | case1 => simp at h
  | case2 c =>
      obtain ⟨d, hd, rfl⟩ := Option.map_eq_some_iff.mp h
      rw [leadingDigits_cons hd]
      exact ⟨rfl, by simpa using digitIn?_lt hd⟩
  | case3 c r ih =>
      simp only [Option.bind_eq_bind, Option.bind_eq_some_iff, Option.pure_def,
        Option.some.injEq] at h
      obtain ⟨d, hd, more, hmore, rfl⟩ := h
      obtain ⟨hcount, hlt⟩ := ih hmore
      rw [leadingDigits_cons hd, leadingDigits_cons_underscore, hcount]
      exact ⟨rfl, List.forall_mem_cons.mpr ⟨digitIn?_lt hd, hlt⟩⟩
  | case4 c r _ _ ih =>
      simp only [Option.bind_eq_bind, Option.bind_eq_some_iff, Option.pure_def,
        Option.some.injEq] at h
      obtain ⟨d, hd, more, hmore, rfl⟩ := h
      obtain ⟨hcount, hlt⟩ := ih hmore
      rw [leadingDigits_cons hd, hcount]
      exact ⟨rfl, List.forall_mem_cons.mpr ⟨digitIn?_lt hd, hlt⟩⟩

theorem valueOf_lt_pow {digits : List Nat} {limit : Nat} (hbase : 0 < base)
    (h : ∀ d ∈ digits, d < base) (hfew : digits.length ≤ limit) :
    valueOf base digits < Nat.pow base limit :=
  Nat.lt_of_lt_of_le (valueOf_lt h) (Nat.pow_le_pow_right hbase hfew)

theorem lt_of_naturalIn {n : Nat} (h : naturalIn 10 t = .ok n) : n < Nat.pow 10 maxDigits := by
  unfold naturalIn at h
  simp only [true_and] at h
  split at h
  · simp at h
  · rename_i hfew
    split at h
    · rename_i values hvalues
      obtain rfl := Except.ok.inj h
      obtain ⟨hcount, hlt⟩ := leadingDigits_of_groupedDigits? hvalues
      -- Nothing is to be computed with the limit.
      generalize maxDigits = limit at hfew ⊢
      exact valueOf_lt_pow (by omega) hlt (by omega)
    · simp at h

theorem natAbs_lt_of_integerIn {n : Int} (h : integerIn 10 t = .ok n) :
    n.natAbs < Nat.pow 10 maxDigits := by
  unfold integerIn at h
  split at h
  · rename_i digits _
    cases hdigits : naturalIn 10 digits with
    | error e => simp [hdigits, Except.map] at h
    | ok k =>
        obtain rfl : -(k : Int) = n := by simpa [hdigits, Except.map] using h
        rw [Int.natAbs_neg]
        exact lt_of_naturalIn hdigits
  · rename_i digits _
    cases hdigits : naturalIn 10 digits with
    | error e => simp [hdigits, Except.map, bind, Except.bind] at h
    | ok k =>
        obtain rfl : (k : Int) = n := by
          simpa [hdigits, Except.map, bind, Except.bind, pure, Except.pure] using h
        exact lt_of_naturalIn hdigits
  · cases hdigits : naturalIn 10 (trimNumber t) with
    | error e => simp [hdigits, Except.map, bind, Except.bind] at h
    | ok k =>
        obtain rfl : (k : Int) = n := by
          simpa [hdigits, Except.map, bind, Except.bind, pure, Except.pure] using h
        exact lt_of_naturalIn hdigits

/-- **An integer that is read can be written.** -/
theorem isWritableInt_of_toInt? {n : Int} (h : toInt? t = some n) : Value.isWritableInt n = true := by
  unfold toInt? at h
  cases hread : integerIn 10 (trim t) with
  | error e =>
      rw [hread] at h
      simp [Except.toOption] at h
  | ok k =>
      rw [hread] at h
      obtain rfl := Option.some.inj h
      exact decide_eq_true (natAbs_lt_of_integerIn hread)

/-! ### Digits that are written -/

theorem isNameChar_of_isDigit {c : Char} (h : c.isDigit = true) : isNameChar c = true := by
  rw [isNameChar, h, Bool.or_true]

theorem digitIn?_of_isDigit {c : Char} (h : c.isDigit = true) :
    digitIn? 10 c = some (c.toNat - '0'.toNat) := by
  have hbounds : 48 ≤ c.toNat ∧ c.toNat ≤ 57 := by
    simp only [Char.isDigit, Bool.and_eq_true, decide_eq_true_eq, UInt32.le_iff_toNat_le,
      ge_iff_le] at h
    exact h
  have hvalue : digitValue? c = some (c.toNat - '0'.toNat) := by
    unfold digitValue? digitZeros
    rw [List.find?_cons_of_pos (by simp; omega)]
    rfl
  have hlt : c.toNat - '0'.toNat < 10 := by
    change c.toNat - 48 < 10
    omega
  unfold digitIn?
  rw [hvalue]
  simpa using hlt

/-- Digits without underscores are read one by one. -/
theorem groupedDigits?_of_isDigit (hne : t ≠ []) (h : ∀ c ∈ t, c.isDigit = true) :
    groupedDigits? 10 t = some (t.map fun c => c.toNat - '0'.toNat) := by
  fun_induction groupedDigits? 10 t with
  | case1 => exact absurd rfl hne
  | case2 c => rw [digitIn?_of_isDigit (h c (by simp))]; rfl
  | case3 c r ih => exact absurd (h '_' (by simp)) (by decide)
  | case4 c r hr _ ih =>
      obtain ⟨hc, hmore⟩ := List.forall_mem_cons.mp h
      rw [digitIn?_of_isDigit hc, ih (fun hnil => hr hnil) hmore]
      rfl

theorem valueOf_map_digits (t : Text) :
    valueOf 10 (t.map fun c => c.toNat - '0'.toNat) = Nat.ofDigitChars 10 t 0 := by
  unfold valueOf Nat.ofDigitChars
  rw [List.foldl_map]
  congr 1
  funext total c
  rw [Nat.mul_comm]

theorem dropWhile_of_none {p : Char → Bool} (h : ∀ c ∈ t, p c = false) : t.dropWhile p = t := by
  cases t with
  | nil => rfl
  | cons c r => exact List.dropWhile_cons_of_neg (by rw [h c (by simp)]; exact Bool.false_ne_true)

theorem trimNumber_of_not_blank (h : ∀ c ∈ t, isBlank c = false) : trimNumber t = t := by
  have hnone : ∀ c ∈ t, isNumberBlank c = false := fun c hc => by rw [isNumberBlank, h c hc]; rfl
  unfold trimNumber dropEndWhile
  rw [dropWhile_of_none hnone, dropWhile_of_none fun c hc => hnone c (List.mem_reverse.mp hc),
    List.reverse_reverse]

/-- Digits have nothing around them and no sign in front. -/
theorem integerIn_of_isDigit (h : ∀ c ∈ t, c.isDigit = true) :
    integerIn 10 (trim t) = (naturalIn 10 t).map fun n => (n : Int) := by
  have hblank : ∀ c ∈ t, isBlank c = false :=
    fun c hc => isBlank_of_isNameChar (isNameChar_of_isDigit (h c hc))
  rw [trim_of_not_blank hblank, integerIn, trimNumber_of_not_blank hblank]
  split
  · exact absurd (h '-' (by simp)) (by decide)
  · exact absurd (h '+' (by simp)) (by decide)
  · rfl

theorem dropBase_ten (t : Text) : dropBase 10 t = t := by
  unfold dropBase
  split <;> rfl

theorem naturalIn_of_isDigit (hne : t ≠ []) (h : ∀ c ∈ t, c.isDigit = true)
    (hfew : t.length ≤ maxDigits) : naturalIn 10 t = .ok (Nat.ofDigitChars 10 t 0) := by
  have hgrouped := groupedDigits?_of_isDigit hne h
  have hcount := (leadingDigits_of_groupedDigits? hgrouped).1
  rw [List.length_map] at hcount
  unfold naturalIn
  simp only [dropBase_ten]
  rw [if_neg (by rw [hcount]; omega), hgrouped]
  simp only
  rw [valueOf_map_digits]

/-- **The digits of a number are read as the number**, if there are not too many of them. -/
theorem toInt?_ofNat {n : Nat} (h : (ofNat n).length ≤ maxDigits) :
    toInt? (ofNat n) = some (n : Int) := by
  have hdigit : ∀ c ∈ ofNat n, c.isDigit = true := fun _ => isDigit_of_mem_ofNat
  have hread : naturalIn 10 (ofNat n) = .ok n :=
    (naturalIn_of_isDigit Nat.toDigits_ne_nil hdigit h).trans
      (congrArg Except.ok Nat.ofDigitChars_ten_toDigits)
  rw [toInt?, integerIn_of_isDigit hdigit, hread]
  rfl

end Text

end DocLint
