/-
Entries with a key each: the one that a key finds, and the order in which they are sorted.
-/
import Mathlib.Data.List.Nodup

namespace DocLint

variable {α β : Type} [BEq β] [LawfulBEq β] {key : α → β} {entries : List α} {a : α} {k : β}

/-- A key finds the entry that it is the key of, where there is no other one. -/
theorem find?_key_eq_some_iff (h : ∀ a ∈ entries, ∀ b ∈ entries, key a = key b → a = b) :
    (entries.find? fun a => key a == k) = some a ↔ a ∈ entries ∧ key a = k := by
  constructor
  · intro hfind
    have hkey := List.find?_some hfind
    exact ⟨List.mem_of_find?_eq_some hfind, beq_iff_eq.mp hkey⟩
  · rintro ⟨ha, rfl⟩
    cases hfind : entries.find? fun b => key b == key a with
    | none => simpa using List.find?_eq_none.mp hfind a ha
    | some b =>
        have hkey := List.find?_some hfind
        rw [h b (List.mem_of_find?_eq_some hfind) a ha (beq_iff_eq.mp hkey)]

/-- Keys that are listed once belong to one entry each. -/
theorem find?_key_eq_some_iff_of_nodup (h : (entries.map key).Nodup) :
    (entries.find? fun a => key a == k) = some a ↔ a ∈ entries ∧ key a = k :=
  find?_key_eq_some_iff fun _ ha _ hb => List.inj_on_of_nodup_map h ha hb

omit [BEq β] [LawfulBEq β] in
/-- Entries that are sorted come in strict order, where no two of them share their key. -/
theorem pairwise_mergeSort_of_nodup {le : α → α → Bool} {lt : β → β → Prop}
    (htrans : ∀ a b c, le a b = true → le b c = true → le a c = true)
    (htotal : ∀ a b, (le a b || le b a) = true)
    (hlt : ∀ a b, le a b = true → key a ≠ key b → lt (key a) (key b))
    (h : (entries.map key).Nodup) :
    (entries.mergeSort le).Pairwise fun a b => lt (key a) (key b) := by
  have hnodup : ((entries.mergeSort le).map key).Nodup :=
    ((List.mergeSort_perm entries le).map key).nodup_iff.mpr h
  have hsorted := List.pairwise_mergeSort htrans htotal entries
  refine (hsorted.and (List.pairwise_map.mp hnodup)).imp ?_
  rintro a b ⟨hle, hne⟩
  exact hlt a b hle hne

end DocLint
