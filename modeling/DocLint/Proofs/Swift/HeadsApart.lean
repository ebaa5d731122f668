/-
Heads on both sides of a cut.

The search for heads goes from left to right and looks as far ahead as a head reaches.  So
what stands behind a place is searched on its own as long as no head that begins before the
place ends behind it (`HeadsApart`): the search comes to the place with nothing left to
skip.  Then the heads behind the place are those of the text behind it, only further on
(`exists_heads_append`), whatever stands in front.
-/
import DocLint.Proofs.Swift.Head

namespace DocLint.Swift

/-! ### Heads further on -/

/-- The same head, as many characters further on. -/
def Head.shift (n : Nat) (h : Head) : Head :=
  { h with start := h.start + n, parenthesis := h.parenthesis + n }

/-- Where the search begins to count makes no difference to what it finds. -/
theorem headsFrom_shift (n place skip : Nat) (previous : Option Char) (t : Text) :
    headsFrom (place + n) skip previous t =
      (headsFrom place skip previous t).map (Head.shift n) := by
  have hplace : ∀ place : Nat, place + n + 1 = place + 1 + n := by
    intro place
    omega
  fun_induction headsFrom place skip previous t with
  | case1 => rfl
  | case2 place previous c r skip ih => rw [headsFrom, hplace, ih]
  | case3 place previous c r hnone ih =>
      rw [headsFrom, hnone]
      simp only
      rw [hplace, ih]
  | case4 place previous c r signature rest hfound more ih =>
      rw [headsFrom, hfound]
      simp only
      rw [hplace, ih, List.map_cons, Head.shift, Nat.add_right_comm]

/-- Of the character before it the search asks only whether a keyword may follow. -/
theorem headsFrom_of_mayPrecede {p q : Option Char} (h : mayPrecede p = mayPrecede q)
    (place : Nat) (t : Text) : headsFrom place 0 p t = headsFrom place 0 q t := by
  cases t with
  | nil => rfl
  | cons c r => rw [headsFrom, headsFrom, h]

/-! ### Cuts between heads -/

/-- No head of the mask that begins before the place ends behind it. -/
def HeadsApart (place : Nat) (masked : Text) : Prop :=
  ∀ h ∈ heads masked, h.start < place → h.parenthesis < place

instance (place : Nat) (masked : Text) : Decidable (HeadsApart place masked) :=
  inferInstanceAs (Decidable (∀ h ∈ heads masked, h.start < place → h.parenthesis < place))

/-- Behind a cut between heads the search begins anew. -/
theorem exists_headsFrom_append {s t : Text} {place skip : Nat} {previous : Option Char}
    (hskip : skip ≤ s.length)
    (hapart : ∀ h ∈ headsFrom place skip previous (s ++ t),
      h.start < place + s.length → h.parenthesis < place + s.length) :
    ∃ front, headsFrom place skip previous (s ++ t) =
        front ++ headsFrom (place + s.length) 0 (s.getLast?.or previous) t ∧
      ∀ h ∈ front, h.start < place + s.length := by
  -- Along the first part; what is still to be skipped never reaches beyond it.
  induction s generalizing place skip previous with
  | nil =>
      obtain rfl : skip = 0 := by simpa using hskip
      exact ⟨[], rfl, by simp⟩
  | cons c s ih =>
      have hlength : place + (c :: s).length = place + 1 + s.length := by
        rw [List.length_cons]
        omega
      have hlast : (c :: s).getLast?.or previous = s.getLast?.or (some c) := by
        rw [List.getLast?_cons]
        cases s.getLast? with
        | none => rfl
        | some _ => rfl
      rw [List.cons_append, hlength] at hapart
      rw [List.cons_append, hlength, hlast]
      cases skip with
      | succ skip =>
          rw [headsFrom] at hapart ⊢
          exact ih (by simpa using hskip) hapart
      | zero =>
          rw [headsFrom] at hapart ⊢
          revert hapart
          cases if mayPrecede previous then signature? (c :: (s ++ t)) else none with
          | none => exact fun hapart => ih (Nat.zero_le _) hapart
          | some found =>
              obtain ⟨signature, rest⟩ := found
              simp only [List.mem_cons, forall_eq_or_imp]
              rintro ⟨hfirst, hapart⟩
              have hends := hfirst (by omega)
              obtain ⟨front, hmore, hfront⟩ := ih (by omega) hapart
              refine ⟨_ :: front, by rw [hmore, List.cons_append], ?_⟩
              simp only [List.mem_cons, forall_eq_or_imp]
              exact ⟨by omega, hfront⟩

/-- **Behind a cut between heads are the heads of the text behind it, further on.** -/
theorem exists_heads_append {s t : Text} (hapart : HeadsApart s.length (s ++ t))
    (hlast : mayPrecede s.getLast? = true) :
    ∃ front, heads (s ++ t) = front ++ (heads t).map (Head.shift s.length) ∧
      ∀ h ∈ front, h.start < s.length := by
  have hcut : ∀ h ∈ headsFrom 0 0 none (s ++ t), h.start < 0 + s.length →
      h.parenthesis < 0 + s.length := by
    rw [Nat.zero_add]
    exact hapart
  obtain ⟨front, hheads, hfront⟩ := exists_headsFrom_append (Nat.zero_le _) hcut
  rw [Nat.zero_add] at hheads hfront
  refine ⟨front, ?_, hfront⟩
  have hnone : mayPrecede (s.getLast?.or none) = mayPrecede none := by
    rw [Option.or_none, hlast]
    rfl
  rw [heads, hheads, headsFrom_of_mayPrecede hnone, heads]
  have hshift := headsFrom_shift s.length 0 0 none t
  rw [Nat.zero_add] at hshift
  rw [hshift]

end DocLint.Swift
