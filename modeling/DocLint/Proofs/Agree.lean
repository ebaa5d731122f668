/-
Related data lead to related results.

Two runs of one function on related data are compared step by step.  `Agree` relates what
they return: both fail or both succeed, with related errors or results.  It is kept by
`map`, `bind` and `mapM`, so a function that is put together from these needs no case
distinction of its own.  The same goes for optional results and for lists.
-/
import Mathlib.Data.List.Forall2

namespace DocLint

/-! ### Results that agree -/

section Agree

variable {ε ε' α α' β β' : Type} {E : ε → ε' → Prop} {A : α → α' → Prop} {B : β → β' → Prop}
  {x : Except ε α} {y : Except ε' α'}

/-- Both fail or both succeed, with related errors or related results. -/
inductive Agree (E : ε → ε' → Prop) (A : α → α' → Prop) : Except ε α → Except ε' α' → Prop
  | error {e : ε} {e' : ε'} (h : E e e') : Agree E A (.error e) (.error e')
  | ok {a : α} {a' : α'} (h : A a a') : Agree E A (.ok a) (.ok a')

theorem Agree.map {f : α → β} {g : α' → β'} (h : Agree E A x y)
    (hfg : ∀ a a', A a a' → B (f a) (g a')) : Agree E B (x.map f) (y.map g) := by
  cases h with
  | error he => exact Agree.error he
  | ok ha => exact Agree.ok (hfg _ _ ha)

theorem Agree.bind {f : α → Except ε β} {g : α' → Except ε' β'} (h : Agree E A x y)
    (hfg : ∀ a a', A a a' → Agree E B (f a) (g a')) : Agree E B (x >>= f) (y >>= g) := by
  cases h with
  | error he => exact Agree.error he
  | ok ha => exact hfg _ _ ha

theorem Agree.mapM {γ γ' : Type} {C : γ → γ' → Prop} {f : γ → Except ε α} {g : γ' → Except ε' α'}
    (hfg : ∀ c c', C c c' → Agree E A (f c) (g c')) {cs : List γ} {cs' : List γ'}
    (h : List.Forall₂ C cs cs') : Agree E (List.Forall₂ A) (cs.mapM f) (cs'.mapM g) := by
  induction h with
  | nil => exact Agree.ok List.Forall₂.nil
  | cons hc _ ih =>
      rw [List.mapM_cons, List.mapM_cons]
      refine (hfg _ _ hc).bind ?_
      intro a a' ha
      refine ih.bind ?_
      intro as as' has
      exact Agree.ok (List.Forall₂.cons ha has)

/-- A step that can fail succeeds on a list when it does on each element, and keeps their order. -/
theorem mapM_eq_ok_iff {f : α → Except ε β} {as : List α} {bs : List β} :
    as.mapM f = .ok bs ↔ List.Forall₂ (fun a b => f a = .ok b) as bs := by
  constructor
  · intro h
    induction as generalizing bs with
    | nil =>
        obtain rfl : [] = bs := Except.ok.inj h
        exact List.Forall₂.nil
    | cons a as ih =>
        rw [List.mapM_cons] at h
        cases ha : f a with
        | error e => simp [ha, bind, Except.bind] at h
        | ok b =>
            cases has : as.mapM f with
            | error e => simp [ha, has, bind, Except.bind] at h
            | ok more =>
                rw [ha, has] at h
                obtain rfl : b :: more = bs := Except.ok.inj h
                exact List.Forall₂.cons ha (ih has)
  · intro h
    induction h with
    | nil => rfl
    | cons hab _ ih =>
        rw [List.mapM_cons, hab, ih]
        rfl

/-- Both fail or neither does. -/
theorem Agree.error_iff (h : Agree E A x y) : (∃ e, x = .error e) ↔ ∃ e, y = .error e := by
  cases h with
  | error he => exact ⟨fun _ => ⟨_, rfl⟩, fun _ => ⟨_, rfl⟩⟩
  | ok ha =>
      constructor
      · rintro ⟨e, he⟩
        simp at he
      · rintro ⟨e, he⟩
        simp at he

variable {a : Option α} {a' : Option α'}

theorem optionRel_map {f : α → β} {g : α' → β'} (h : Option.Rel A a a')
    (hfg : ∀ a a', A a a' → B (f a) (g a')) : Option.Rel B (a.map f) (a'.map g) := by
  cases h with
  | none => exact Option.Rel.none
  | some ha => exact Option.Rel.some (hfg _ _ ha)

theorem optionRel_bind {f : α → Option β} {g : α' → Option β'} (h : Option.Rel A a a')
    (hfg : ∀ a a', A a a' → Option.Rel B (f a) (g a')) : Option.Rel B (a.bind f) (a'.bind g) := by
  cases h with
  | none => exact Option.Rel.none
  | some ha => exact hfg _ _ ha

end Agree

section Forall

variable {α β : Type} {R : α → β → Prop} {p : α → Bool} {q : β → Bool} {as : List α} {bs : List β}

theorem forall₂_takeWhile (hpq : ∀ a b, R a b → p a = q b) (h : List.Forall₂ R as bs) :
    List.Forall₂ R (as.takeWhile p) (bs.takeWhile q) := by
  induction h with
  | nil => exact List.Forall₂.nil
  | @cons a b _ _ hab _ ih =>
      rw [List.takeWhile_cons, List.takeWhile_cons, hpq a b hab]
      split
      · exact List.Forall₂.cons hab ih
      · exact List.Forall₂.nil

theorem forall₂_dropWhile (hpq : ∀ a b, R a b → p a = q b) (h : List.Forall₂ R as bs) :
    List.Forall₂ R (as.dropWhile p) (bs.dropWhile q) := by
  induction h with
  | nil => exact List.Forall₂.nil
  | @cons a b _ _ hab hmore ih =>
      rw [List.dropWhile_cons, List.dropWhile_cons, hpq a b hab]
      split
      · exact ih
      · exact List.Forall₂.cons hab hmore

theorem exists_right_of_mem (h : List.Forall₂ R as bs) {a : α} (ha : a ∈ as) : ∃ b ∈ bs, R a b := by
  induction h with
  | nil => simp at ha
  | @cons x b _ _ hxb _ ih =>
      rcases List.mem_cons.mp ha with rfl | ha
      · exact ⟨b, by simp, hxb⟩
      · obtain ⟨c, hc, hac⟩ := ih ha
        exact ⟨c, by simp [hc], hac⟩

theorem exists_left_of_mem (h : List.Forall₂ R as bs) {b : β} (hb : b ∈ bs) : ∃ a ∈ as, R a b :=
  exists_right_of_mem (List.Forall₂.flip h : List.Forall₂ (fun b a => R a b) bs as) hb

theorem exists_getElem?_of_forall₂ (h : List.Forall₂ R as bs) {i : Nat} {a : α}
    (ha : as[i]? = some a) : ∃ b, bs[i]? = some b ∧ R a b := by
  induction h generalizing i with
  | nil => simp at ha
  | cons hab _ ih =>
      cases i with
      | zero =>
          obtain rfl := Option.some.inj ha
          exact ⟨_, rfl, hab⟩
      | succ i => exact ih ha

theorem exists_forall₂ (h : ∀ a ∈ as, ∃ b, R a b) : ∃ bs, List.Forall₂ R as bs := by
  induction as with
  | nil => exact ⟨[], List.Forall₂.nil⟩
  | cons a as ih =>
      obtain ⟨b, hab⟩ := h a List.mem_cons_self
      obtain ⟨bs, hbs⟩ := ih fun x hx => h x (List.mem_cons_of_mem a hx)
      exact ⟨b :: bs, List.Forall₂.cons hab hbs⟩

theorem isEmpty_eq_of_forall₂ (h : List.Forall₂ R as bs) : as.isEmpty = bs.isEmpty := by
  cases h with
  | nil => rfl
  | cons _ _ => rfl

theorem optionRel_head? (h : List.Forall₂ R as bs) : Option.Rel R as.head? bs.head? := by
  cases h with
  | nil => exact Option.Rel.none
  | cons hab _ => exact Option.Rel.some hab

theorem optionRel_getLast? (h : List.Forall₂ R as bs) : Option.Rel R as.getLast? bs.getLast? := by
  rw [← List.head?_reverse, ← List.head?_reverse]
  exact optionRel_head? (List.rel_reverse h)

/-- What is related to two lists put together is two lists put together. -/
theorem exists_append_of_forall₂ {front back : List α} (h : List.Forall₂ R (front ++ back) bs) :
    ∃ front' back', bs = front' ++ back' ∧ List.Forall₂ R front front' ∧
      List.Forall₂ R back back' := by
  induction front generalizing bs with
  | nil => exact ⟨[], bs, rfl, List.Forall₂.nil, h⟩
  | cons a front ih =>
      obtain ⟨b, more, hab, hmore, rfl⟩ := List.forall₂_cons_left_iff.mp h
      obtain ⟨front', back', rfl, hfront, hback⟩ := ih hmore
      exact ⟨b :: front', back', rfl, List.Forall₂.cons hab hfront, hback⟩

/-- What is the same in related elements is the same along the lists. -/
theorem map_eq_of_forall₂ {γ : Type} {f : α → γ} {g : β → γ} (hfg : ∀ a b, R a b → f a = g b)
    (h : List.Forall₂ R as bs) : as.map f = bs.map g := by
  induction h with
  | nil => rfl
  | cons hab _ ih => rw [List.map_cons, List.map_cons, hfg _ _ hab, ih]

/-- A relation that is a function on the elements of a list is one along the list. -/
theorem forall₂_iff_eq_map {f : α → β} (h : ∀ a ∈ as, ∀ b, R a b ↔ b = f a) :
    List.Forall₂ R as bs ↔ bs = as.map f := by
  induction as generalizing bs with
  | nil => rw [List.forall₂_nil_left_iff, List.map_nil]
  | cons a as ih =>
      simp only [List.forall₂_cons_left_iff, h a List.mem_cons_self,
        ih fun x hx => h x (List.mem_cons_of_mem _ hx), List.map_cons]
      constructor
      · rintro ⟨_, _, rfl, rfl, rfl⟩
        rfl
      · rintro rfl
        exact ⟨_, _, rfl, rfl, rfl⟩

/-- What a partial function makes of a list belongs, in order, to the elements that it is defined
on. -/
theorem forall₂_filter_filterMap {g : α → Option β} {list : List α}
    (h : ∀ a ∈ list, ∀ b, g a = some b → R a b) :
    List.Forall₂ R (list.filter fun a => (g a).isSome) (list.filterMap g) := by
  induction list with
  | nil => exact List.Forall₂.nil
  | cons a list ih =>
      have hall := ih fun x hx => h x (List.mem_cons_of_mem _ hx)
      cases hg : g a with
      | none =>
          rw [List.filterMap_cons_none hg, List.filter_cons_of_neg (by simp [hg])]
          exact hall
      | some b =>
          rw [List.filterMap_cons_some hg, List.filter_cons_of_pos (by simp [hg])]
          exact List.Forall₂.cons (h a (by simp) b hg) hall

end Forall

section Steps

variable {ε α β : Type} {f : α → Except ε β} {l : List α}

/-- A list is read just if each of its elements is. -/
theorem exists_mapM_iff : (∃ l', l.mapM f = .ok l') ↔ ∀ a ∈ l, ∃ b, f a = .ok b := by
  simp only [mapM_eq_ok_iff]
  refine ⟨?_, exists_forall₂⟩
  rintro ⟨l', h⟩ a ha
  obtain ⟨b, -, hb⟩ := exists_right_of_mem h ha
  exact ⟨b, hb⟩

/-- One element that cannot be read is enough. -/
theorem exists_mapM_eq_error_iff :
    (∃ e, l.mapM f = .error e) ↔ ∃ a ∈ l, ∃ e, f a = .error e := by
  constructor
  · rintro ⟨e, he⟩
    by_contra hnone
    have hall : ∀ a ∈ l, ∃ b, f a = .ok b := by
      intro a ha
      cases hf : f a with
      | error e => exact absurd ⟨a, ha, e, hf⟩ hnone
      | ok b => exact ⟨b, rfl⟩
    obtain ⟨l', hl'⟩ := exists_mapM_iff.mpr hall
    rw [he] at hl'
    simp at hl'
  · rintro ⟨a, ha, e, he⟩
    cases hread : l.mapM f with
    | error e => exact ⟨e, rfl⟩
    | ok l' =>
        obtain ⟨b, hb⟩ := exists_mapM_iff.mp ⟨l', hread⟩ a ha
        rw [he] at hb
        simp at hb

end Steps

end DocLint
