/-
Bytes and characters.

Ranges count bytes and lists count characters.  `bytesBefore` leads from one to the other, and
`exists_place` back: bytes inside a part of a text are those of a character of that part.

Bytes that end inside a character have no place of their own.  `takeBytes` takes the whole
characters that fit, and `le_length_takeBytes` says that no more of them do.
-/
import Mathlib.Data.List.TakeDrop
import Mathlib.Data.List.Infix
import Mathlib.Tactic.Common
import DocLint.Text.Basic

namespace DocLint.Text

/-- Every character takes at least one byte. -/
theorem byteSize_pos {s : Text} (h : s ≠ []) : 0 < s.byteSize := by
  cases s with
  | nil => exact absurd rfl h
  | cons c r =>
      have := Char.utf8Size_pos c
      simp
      omega

theorem eq_nil_of_byteSize_eq_zero {s : Text} (h : s.byteSize = 0) : s = [] := by
  by_contra hne
  have hpos := byteSize_pos hne
  omega

/-! ### Bytes in front of a character -/

/-- The bytes in front of a character. -/
def bytesBefore (t : Text) (i : Nat) : Nat := byteSize (t.take i)

theorem bytesBefore_append (s t : Text) (j : Nat) :
    bytesBefore (s ++ t) (s.length + j) = s.byteSize + bytesBefore t j := by
  unfold bytesBefore
  rw [List.take_length_add_append, byteSize_append]

theorem bytesBefore_length (s t : Text) : bytesBefore (s ++ t) s.length = s.byteSize := by
  unfold bytesBefore
  rw [List.take_left]

/-- More bytes stand in front of a later character. -/
theorem bytesBefore_lt {t : Text} {i j : Nat} (hij : i < j) (hi : i < t.length) :
    bytesBefore t i < bytesBefore t j := by
  have hsplit := List.take_append_drop i (t.take j)
  rw [List.take_take, Nat.min_eq_left (by omega)] at hsplit
  have hne : (t.take j).drop i ≠ [] := by
    intro hnil
    have hle := List.drop_eq_nil_iff.mp hnil
    rw [List.length_take] at hle
    omega
  have hpos := byteSize_pos hne
  unfold bytesBefore
  rw [← hsplit, byteSize_append]
  omega

theorem bytesBefore_le {t : Text} {i j : Nat} (hij : i ≤ j) :
    bytesBefore t i ≤ bytesBefore t j := by
  have hsplit := List.take_append_drop i (t.take j)
  rw [List.take_take, Nat.min_eq_left hij] at hsplit
  unfold bytesBefore
  rw [← hsplit, byteSize_append]
  omega

/-- A character whose bytes lie in a part of the text is one of that part. -/
theorem exists_place {t front part back : Text} {i : Nat} {c : Char}
    (ht : t = front ++ part ++ back) (hi : t[i]? = some c)
    (hlow : front.byteSize ≤ bytesBefore t i) (hhigh : bytesBefore t i < (front ++ part).byteSize) :
    ∃ j, i = front.length + j ∧ part[j]? = some c := by
  obtain ⟨hlt, -⟩ := List.getElem?_eq_some_iff.mp hi
  have hfront : front.length ≤ i := by
    by_contra hbefore
    have hless := bytesBefore_lt (t := t) (Nat.lt_of_not_le hbefore) hlt
    rw [ht, List.append_assoc, bytesBefore_length, ← List.append_assoc, ← ht] at hless
    omega
  have hpart : i < (front ++ part).length := by
    by_contra hbehind
    have hmore := bytesBefore_le (t := t) (Nat.le_of_not_lt hbehind)
    rw [ht, bytesBefore_length, ← ht] at hmore
    omega
  refine ⟨i - front.length, by omega, ?_⟩
  rw [ht, List.getElem?_append_left hpart, List.getElem?_append_right hfront] at hi
  exact hi

/-- A character of a part has its place behind what stands in front of the part. -/
theorem getElem?_of_part {t front part back : Text} {j : Nat} {c : Char}
    (ht : t = front ++ part ++ back) (hj : part[j]? = some c) :
    t[front.length + j]? = some c ∧
      bytesBefore t (front.length + j) = front.byteSize + bytesBefore part j := by
  obtain ⟨hlt, -⟩ := List.getElem?_eq_some_iff.mp hj
  refine ⟨?_, ?_⟩
  · rw [ht, List.append_assoc, List.getElem?_append_right (by omega), Nat.add_sub_cancel_left,
      List.getElem?_append_left hlt]
    exact hj
  · rw [ht, List.append_assoc, bytesBefore_append]
    unfold bytesBefore
    rw [List.take_append_of_le_length (by omega)]

/-! ### Whole characters that fit -/

/-- What fits the bytes of a text that stands in front is that text. -/
theorem takeBytes_append (s r : Text) : takeBytes s.byteSize (s ++ r) = s := by
  induction s with
  | nil =>
      cases r with
      | nil => rfl
      | cons c r =>
          have hpos := Char.utf8Size_pos c
          rw [List.nil_append, byteSize_nil, takeBytes, if_neg (by omega)]
  | cons c s ih =>
      rw [List.cons_append, byteSize_cons, takeBytes, if_pos (by omega),
        Nat.add_sub_cancel_left, ih]

variable {s : Text} {n k : Nat}

theorem prefix_takeBytes (n : Nat) (s : Text) : takeBytes n s <+: s := by
  fun_induction takeBytes n s with
  | case1 => exact List.nil_prefix
  | case2 n c r _ ih => exact List.cons_prefix_cons.mpr ⟨rfl, ih⟩
  | case3 => exact List.nil_prefix

theorem takeBytes_eq_take (n : Nat) (s : Text) : takeBytes n s = s.take (takeBytes n s).length :=
  List.prefix_iff_eq_take.mp (prefix_takeBytes n s)

theorem byteSize_takeBytes_le (n : Nat) (s : Text) : byteSize (takeBytes n s) ≤ n := by
  fun_induction takeBytes n s with
  | case1 => exact Nat.zero_le _
  | case2 n c r hfits ih =>
      rw [byteSize_cons]
      omega
  | case3 => exact Nat.zero_le _

/-- No more characters fit than are taken. -/
theorem le_length_takeBytes (hk : k ≤ s.length) (h : byteSize (s.take k) ≤ n) :
    k ≤ (takeBytes n s).length := by
  fun_induction takeBytes n s generalizing k with
  | case1 => simpa using hk
  | case2 n c r hfits ih =>
      cases k with
      | zero => exact Nat.zero_le _
      | succ k =>
          rw [List.take_succ_cons, byteSize_cons] at h
          rw [List.length_cons]
          have hrest := ih (Nat.le_of_succ_le_succ hk) (by omega)
          omega
  | case3 n c r hlarge =>
      cases k with
      | zero => exact Nat.zero_le _
      | succ k =>
          rw [List.take_succ_cons, byteSize_cons] at h
          omega

/-- The characters in front of a place take the bytes in front of it. -/
theorem takeBytes_bytesBefore (s : Text) (k : Nat) : takeBytes (bytesBefore s k) s = s.take k := by
  have htake := takeBytes_append (s.take k) (s.drop k)
  rwa [List.take_append_drop] at htake

end DocLint.Text
