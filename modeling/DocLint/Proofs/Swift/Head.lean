/-
Where heads are found.

A head begins with one of the two keywords and ends with the parenthesis that opens the
parameters, and what it was read from is a suffix of the text.  `mem_heads` says where in the mask
a head that was found stands.
-/
import DocLint.Proofs.Text.Blank
import DocLint.Swift.Head

namespace DocLint.Swift

variable {t r : Text}

/-! ### What a head consists of -/

theorem after?_eq_some_iff {word : Text} : after? word t = some r ↔ t = word ++ r := by
  unfold after?
  split
  · rename_i h
    obtain ⟨u, rfl⟩ := List.isPrefixOf_iff_prefix.mp h
    simp [eq_comm]
  · rename_i h
    simp only [reduceCtorEq, false_iff]
    rintro rfl
    exact h (List.isPrefixOf_iff_prefix.mpr (List.prefix_append _ _))

theorem trimLeft_suffix (t : Text) : Text.trimLeft t <:+ t := List.dropWhile_suffix _

/-- The parenthesis stands in the text, right before what follows it. -/
theorem suffix_of_afterParenthesis? (h : afterParenthesis? t = some r) : '(' :: r <:+ t := by
  unfold afterParenthesis? at h
  have htrim := trimLeft_suffix t
  split at h
  · rename_i u hu
    cases h
    rwa [hu] at htrim
  · rename_i u hu
    rw [hu] at htrim
    split at h
    · rename_i rest hrest
      split at h
      · cases h
        have hdrop : '(' :: r <:+ u := by
          rw [← hrest]
          exact List.dropWhile_suffix _
        exact hdrop.trans ((List.suffix_cons _ _).trans htrim)
      · simp at h
    · simp at h
  · simp at h

theorem suffix_of_functionName? {name : Text} (h : functionName? t = some (name, r)) : r <:+ t := by
  unfold functionName? at h
  split at h
  · simp at h
  · rename_i c u
    split at h
    · split at h
      · simp at h
      · simp at h
      · rename_i v rest hrest _
        cases h
        have hdrop := List.dropWhile_suffix (l := u) (· != '\x60')
        rw [hrest] at hdrop
        exact (List.suffix_cons _ _).trans (hdrop.trans (List.suffix_cons _ _))
    · split at h
      · cases h
        exact (List.dropWhile_suffix _).trans (List.suffix_cons _ _)
      · simp at h

/-- The keyword that declares it. -/
def DeclarationKind.keyword : DeclarationKind → Text
  | .function => "func".toList
  | .initializer => "init".toList

theorem DeclarationKind.keyword_ne_nil (kind : DeclarationKind) : kind.keyword ≠ [] := by
  cases kind with
  | function => decide
  | initializer => decide

/-- No character of a keyword is blank. -/
theorem DeclarationKind.not_blank_of_mem_keyword {kind : DeclarationKind} {c : Char}
    (h : c ∈ kind.keyword) : Text.isBlank c = false := by
  cases kind with
  | function =>
      have hall : ∀ c ∈ "func".toList, Text.isBlank c = false := by decide
      exact hall c h
  | initializer =>
      have hall : ∀ c ∈ "init".toList, Text.isBlank c = false := by decide
      exact hall c h

/-- What a signature was read from: its keyword, and after it the parenthesis that opens the
parameters. -/
theorem of_signature? {s : Signature} (h : signature? t = some (s, r)) :
    s.kind.keyword <+: t ∧ '(' :: r <:+ t := by
  unfold signature? at h
  split at h
  · rename_i found hfound
    cases h
    simp only [functionHead?, Option.bind_eq_bind, Option.bind_eq_some_iff] at hfound
    obtain ⟨u, hu, hfound⟩ := hfound
    rw [after?_eq_some_iff] at hu
    split at hfound
    · simp at hfound
    · simp only [Option.bind_eq_some_iff] at hfound
      obtain ⟨⟨name, v⟩, hname, w, hw, hfound⟩ := hfound
      simp only [Option.pure_def, Option.some.injEq, Prod.mk.injEq] at hfound
      obtain ⟨rfl, rfl⟩ := hfound
      refine ⟨⟨u, hu.symm⟩, ?_⟩
      rw [hu]
      exact (suffix_of_afterParenthesis? hw).trans ((suffix_of_functionName? hname).trans
        ((trimLeft_suffix u).trans (List.suffix_append _ _)))
  · simp only [initializerHead?, Option.bind_eq_bind, Option.bind_eq_some_iff] at h
    obtain ⟨u, hu, h⟩ := h
    rw [after?_eq_some_iff] at hu
    obtain ⟨w, hw, h⟩ := h
    simp only [Option.pure_def, Option.some.injEq, Prod.mk.injEq] at h
    obtain ⟨rfl, rfl⟩ := h
    refine ⟨⟨u, hu.symm⟩, ?_⟩
    have hmark := suffix_of_afterParenthesis? hw
    rw [hu]
    refine List.IsSuffix.trans ?_ (List.suffix_append _ _)
    split at hmark
    · exact hmark.trans (List.suffix_cons _ _)
    · exact hmark.trans (List.suffix_cons _ _)
    · exact hmark

/-- A head begins with the first letter of its keyword. -/
theorem exists_keyword_of_signature? {s : Signature} (h : signature? t = some (s, r)) :
    ∃ c u, t = c :: u ∧ (c = 'f' ∨ c = 'i') := by
  obtain ⟨u, hu⟩ := (of_signature? h).1
  cases hkind : s.kind with
  | function =>
      rw [hkind] at hu
      exact ⟨'f', _, hu.symm, Or.inl rfl⟩
  | initializer =>
      rw [hkind] at hu
      exact ⟨'i', _, hu.symm, Or.inr rfl⟩

/-! ### The heads of a text -/

/-- Where a head stands, and what was read there. -/
theorem mem_headsFrom {place skip : Nat} {previous : Option Char} {h : Head}
    (hmem : h ∈ headsFrom place skip previous t) :
    ∃ before rest after, t = before ++ rest ∧ h.start = place + before.length ∧
      signature? rest = some (h.signature, after) ∧ h.clause = clause? 0 after := by
  fun_induction headsFrom place skip previous t with
  | case1 => simp at hmem
  | case2 place previous c r skip ih =>
      obtain ⟨before, rest, after, rfl, hstart, hread⟩ := ih hmem
      exact ⟨c :: before, rest, after, rfl, by simp; omega, hread⟩
  | case3 place previous c r _ ih =>
      obtain ⟨before, rest, after, rfl, hstart, hread⟩ := ih hmem
      exact ⟨c :: before, rest, after, rfl, by simp; omega, hread⟩
  | case4 place previous c r signature rest hfound more ih =>
      rcases List.mem_cons.mp hmem with rfl | hmem
      · refine ⟨[], c :: r, rest, rfl, rfl, ?_, rfl⟩
        split at hfound
        · exact hfound
        · simp at hfound
      · obtain ⟨before, rest', after, rfl, hstart, hread⟩ := ih hmem
        exact ⟨c :: before, rest', after, rfl, by simp; omega, hread⟩

theorem mem_heads {masked : Text} {h : Head} (hmem : h ∈ heads masked) :
    ∃ before rest after, masked = before ++ rest ∧ h.start = before.length ∧
      signature? rest = some (h.signature, after) ∧ h.clause = clause? 0 after := by
  obtain ⟨before, rest, after, heq, hstart, hread⟩ := mem_headsFrom hmem
  exact ⟨before, rest, after, heq, by omega, hread⟩

/-- The search goes from left to right. -/
theorem pairwise_headsFrom (place skip : Nat) (previous : Option Char) (t : Text) :
    (headsFrom place skip previous t).Pairwise fun h k => h.start < k.start := by
  fun_induction headsFrom place skip previous t with
  | case1 => exact List.Pairwise.nil
  | case2 place previous c r skip ih => exact ih
  | case3 place previous c r _ ih => exact ih
  | case4 place previous c r signature rest hfound more ih =>
      refine List.Pairwise.cons ?_ ih
      intro k hk
      obtain ⟨before, -, -, -, hstart, -⟩ := mem_headsFrom hk
      show place < k.start
      omega

end DocLint.Swift
