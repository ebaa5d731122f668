/-
Stable sorting, and the order of a report.

`StableSort` says what sorting does without an algorithm: the result is a permutation in
order, and what counts as equal stays in the order it came in.  There is one result
(`StableSort.unique`), which depends on no more of the list than the order among equals, and
merge sort gives it.  The findings of a report are sorted by path and offset, the names of
files as texts.
-/
import Mathlib.Data.List.Basic
import DocLint.Lint.Run

namespace DocLint

/-! ### Stable sorts -/

section StableSort

variable {α : Type} {le : α → α → Bool} {l l' s s' : List α}

/-- Do the two count as equal? -/
def tied (le : α → α → Bool) (a b : α) : Bool := le a b && le b a

structure StableSort (le : α → α → Bool) (l s : List α) : Prop where
  perm : s.Perm l
  sorted : s.Pairwise fun a b => le a b = true
  stable : ∀ a, s.filter (tied le a) = l.filter (tied le a)

/-- Lists in order are the same if they agree on everything that counts as equal. -/
theorem eq_of_filter_tied (total : ∀ a b, (le a b || le b a) = true)
    (hs : s.Pairwise fun a b => le a b = true) (hs' : s'.Pairwise fun a b => le a b = true)
    (h : ∀ a, s.filter (tied le a) = s'.filter (tied le a)) : s = s' := by
  have hself : ∀ a, tied le a a = true := by
    intro a
    have ha := total a a
    rw [Bool.or_self] at ha
    rw [tied, ha]
    rfl
  -- The first element of the one list is in the other, so it does not come before that one's first.
  have hle : ∀ {a b : α} {u v : List α}, (a :: u).Pairwise (fun a b => le a b = true) →
      (a :: u).filter (tied le b) = (b :: v).filter (tied le b) → le a b = true := by
    intro a b u v hsorted hfilter
    have hb : b ∈ (a :: u).filter (tied le b) := by
      rw [hfilter]
      exact List.mem_filter.mpr ⟨by simp, hself b⟩
    rcases List.mem_cons.mp (List.mem_of_mem_filter hb) with rfl | hmem
    · have hb := hself b
      rw [tied, Bool.and_self] at hb
      exact hb
    · exact (List.pairwise_cons.mp hsorted).1 b hmem
  induction s generalizing s' with
  | nil =>
      cases s' with
      | nil => rfl
      | cons b v =>
          have hb := h b
          rw [List.filter_cons_of_pos (hself b)] at hb
          simp at hb
  | cons a u ih =>
      cases s' with
      | nil =>
          have ha := h a
          rw [List.filter_cons_of_pos (hself a)] at ha
          simp at ha
      | cons b v =>
          have htied : tied le a b = true := by
            rw [tied, hle hs (h b), hle hs' (h a).symm]
            rfl
          have hfirst := h a
          rw [List.filter_cons_of_pos (hself a), List.filter_cons_of_pos htied] at hfirst
          obtain ⟨rfl, -⟩ := List.cons.inj hfirst
          rw [ih (List.pairwise_cons.mp hs).2 (List.pairwise_cons.mp hs').2]
          intro c
          have hc := h c
          by_cases htied : tied le c a = true
          · rw [List.filter_cons_of_pos htied, List.filter_cons_of_pos htied] at hc
            exact (List.cons.inj hc).2
          · rwa [List.filter_cons_of_neg htied, List.filter_cons_of_neg htied] at hc

/-- **There is one stable sort**, and it depends only on the order among what counts as equal. -/
theorem StableSort.unique (total : ∀ a b, (le a b || le b a) = true) (h : StableSort le l s)
    (h' : StableSort le l' s') (hl : ∀ a, l.filter (tied le a) = l'.filter (tied le a)) : s = s' := by
  refine eq_of_filter_tied total h.sorted h'.sorted ?_
  intro a
  rw [h.stable, h'.stable, hl]

/-- **Merge sort is stable.** -/
theorem stableSort_mergeSort (trans : ∀ a b c, le a b = true → le b c = true → le a c = true)
    (total : ∀ a b, (le a b || le b a) = true) (l : List α) : StableSort le l (l.mergeSort le) := by
  refine ⟨List.mergeSort_perm l le, List.pairwise_mergeSort trans total l, ?_⟩
  intro a
  have hequal : (l.filter (tied le a)).Pairwise fun b c => le b c = true := by
    refine List.pairwise_iff_forall_sublist.mpr ?_
    intro b c hbc
    have htied : ∀ x ∈ [b, c], tied le a x = true :=
      fun x hx => (List.mem_filter.mp (hbc.subset hx)).2
    have hb := htied b (by simp)
    have hc := htied c (by simp)
    simp only [tied, Bool.and_eq_true] at hb hc
    exact trans b a c hb.2 hc.1
  have hsublist := (List.sublist_mergeSort trans total hequal List.filter_sublist).filter (tied le a)
  rw [List.filter_filter] at hsublist
  simp only [Bool.and_self] at hsublist
  have hlength := ((List.mergeSort_perm l le).filter (tied le a)).length_eq
  exact (hsublist.eq_of_length hlength.symm).symm

end StableSort

/-! ### The orders of a report -/

namespace Text

variable {r s t : Text}

theorem atMost_iff : atMost s t = true ↔ ¬ t < s := by
  unfold atMost precedes
  rw [Bool.not_eq_true', decide_eq_false_iff_not]

theorem atMost_trans (r s t : Text) (hrs : atMost r s = true) (hst : atMost s t = true) :
    atMost r t = true := by
  rw [atMost_iff, List.not_lt] at hrs hst ⊢
  exact List.le_trans hrs hst

theorem atMost_total (s t : Text) : (atMost s t || atMost t s) = true := by
  rw [Bool.or_eq_true, atMost_iff, atMost_iff, List.not_lt, List.not_lt]
  exact List.le_total s t

theorem atMost_antisymm (hst : atMost s t = true) (hts : atMost t s = true) : s = t := by
  rw [atMost_iff, List.not_lt] at hst hts
  exact List.le_antisymm hst hts

theorem atMost_of_lt (h : s < t) : atMost s t = true := by
  rw [atMost_iff]
  exact List.lt_asymm h

theorem lt_of_atMost (h : atMost s t = true) (hne : s ≠ t) : s < t := by
  by_contra hlt
  exact hne (atMost_antisymm h (atMost_iff.mpr hlt))

end Text

namespace Violation

/-- Findings come in the order of their paths, and within a file in that of their offsets. -/
theorem atMost_iff {a b : Violation} :
    atMost a b = true ↔ a.location.sortPath < b.location.sortPath ∨
      (a.location.sortPath = b.location.sortPath ∧ a.location.byteOffset ≤ b.location.byteOffset) := by
  unfold atMost
  by_cases hpath : a.location.sortPath = b.location.sortPath
  · rw [if_pos hpath, hpath, decide_eq_true_eq]
    constructor
    · intro hle
      exact Or.inr ⟨rfl, hle⟩
    · rintro (hlt | ⟨-, hle⟩)
      · exact absurd hlt (List.lt_irrefl _)
      · exact hle
  · rw [if_neg hpath]
    constructor
    · intro hle
      exact Or.inl (Text.lt_of_atMost hle hpath)
    · rintro (hlt | ⟨heq, -⟩)
      · exact Text.atMost_of_lt hlt
      · exact absurd heq hpath

theorem atMost_trans (a b c : Violation) (hab : atMost a b = true) (hbc : atMost b c = true) :
    atMost a c = true := by
  rw [atMost_iff] at hab hbc ⊢
  rcases hab with hab | ⟨hab, hoffset⟩
  · rcases hbc with hbc | ⟨hbc, -⟩
    · exact Or.inl (List.lt_trans hab hbc)
    · exact Or.inl (hbc ▸ hab)
  · rcases hbc with hbc | ⟨hbc, hoffset'⟩
    · exact Or.inl (hab ▸ hbc)
    · exact Or.inr ⟨hab.trans hbc, by omega⟩

theorem atMost_total (a b : Violation) : (atMost a b || atMost b a) = true := by
  rw [Bool.or_eq_true, atMost_iff, atMost_iff]
  by_cases hpath : a.location.sortPath = b.location.sortPath
  · rcases Int.le_total a.location.byteOffset b.location.byteOffset with hle | hle
    · exact Or.inl (Or.inr ⟨hpath, hle⟩)
    · exact Or.inr (Or.inr ⟨hpath.symm, hle⟩)
  · by_cases hlt : a.location.sortPath < b.location.sortPath
    · exact Or.inl (Or.inl hlt)
    · refine Or.inr (Or.inl ?_)
      by_contra hgt
      exact hpath (Text.atMost_antisymm (Text.atMost_iff.mpr hgt) (Text.atMost_iff.mpr hlt))

/-- Findings that count as equal are about one path. -/
theorem sortPath_eq_of_tied {a b : Violation} (h : tied atMost a b = true) :
    a.location.sortPath = b.location.sortPath := by
  rw [tied, Bool.and_eq_true, atMost_iff, atMost_iff] at h
  rcases h with ⟨hab | ⟨hab, -⟩, hba | ⟨hba, -⟩⟩
  · exact absurd hba (List.lt_asymm hab)
  · exact hba.symm
  · exact hab
  · exact hab

end Violation

end DocLint
