/-
A mapping that is applied to a configuration.

A mapping is taken as a whole or not at all.  `Overlaid` says that every setting that is given has
taken the value last given for it, and that the others are as before.  It is the one relation for
all ways in which a configuration comes about: from given settings, from a mapping and from a
sequence of mappings the new configuration is what lies over the old one, and two layers are one
that has the values of both (`Overlaid.trans`).
-/
import Mathlib.Data.List.Perm.Basic
import DocLint.Proofs.Config.Setting

namespace DocLint

namespace Configuration

variable {b c c' c'' : Configuration} {s : Setting} {e : SettingError}

/-! ### Layers -/

/-- Over a configuration lies what is given: where a setting is given it has been taken, and the
others are as they were. -/
def Overlaid (given : Setting → Option Value) (c c' : Configuration) : Prop :=
  ∀ s : Setting, s.Becomes (given s) (c.value s) (c'.value s)

variable {upper lower : Setting → Option Value}

/-- There is one configuration with given settings over another one. -/
theorem Overlaid.unique (h : Overlaid upper c c') (h' : Overlaid upper c c'') : c' = c'' :=
  ext_value fun s => (h s).unique (h' s)

/-- Two layers are one, in which the upper one comes first. -/
theorem Overlaid.trans (h : Overlaid lower b c) (h' : Overlaid upper c c') :
    Overlaid (fun s => (upper s).or (lower s)) b c' :=
  fun s => (h s).trans (h' s)

/-- What lies over the lower one of two layers is the upper one. -/
theorem Overlaid.of_trans (h : Overlaid lower b c)
    (h' : Overlaid (fun s => (upper s).or (lower s)) b c') : Overlaid upper c c' :=
  fun s => (h s).of_trans (h' s)

/-- A layer of settings as they are hides what is below it. -/
theorem Overlaid.of_values (h : ∀ s, upper s = some (c'.value s)) : Overlaid upper c c' :=
  fun s => h s ▸ .taken (takes_value c' s)

/-! ### The last value -/

/-- The value in the last of the pairs whose key is meant. -/
def lastValue? {α β : Type} (isMeant : α → Bool) (pairs : List (α × β)) : Option β :=
  ((pairs.filter fun p => isMeant p.1).getLast?).map (·.2)

section LastValue

variable {α β : Type} {isMeant : α → Bool} {pairs : List (α × β)} {v : β}

theorem lastValue?_append (isMeant : α → Bool) (front back : List (α × β)) :
    lastValue? isMeant (front ++ back) = (lastValue? isMeant back).or (lastValue? isMeant front) := by
  unfold lastValue?
  rw [List.filter_append, List.getLast?_append, Option.map_or]

theorem lastValue?_cons (isMeant : α → Bool) (p : α × β) (more : List (α × β)) :
    lastValue? isMeant (p :: more) =
      (lastValue? isMeant more).or (if isMeant p.1 then some p.2 else none) := by
  rw [← List.singleton_append, lastValue?_append]
  congr 1
  unfold lastValue?
  split <;> simp [*]

theorem lastValue?_eq_none_iff : lastValue? isMeant pairs = none ↔ ∀ p ∈ pairs, isMeant p.1 = false := by
  simp [lastValue?]

theorem mem_of_lastValue? (h : lastValue? isMeant pairs = some v) :
    ∃ key, (key, v) ∈ pairs ∧ isMeant key = true := by
  unfold lastValue? at h
  obtain ⟨p, hp, rfl⟩ := Option.map_eq_some_iff.mp h
  obtain ⟨hmem, hmeant⟩ := List.mem_filter.mp (List.mem_of_getLast? hp)
  exact ⟨p.1, hmem, hmeant⟩

end LastValue

/-! ### Mappings -/

theorem sameKey_text_iff {key : Value} {t : Text} : key.sameKey (.text t) = true ↔ key = .text t := by
  cases key <;> simp [Value.sameKey, Value.wholeNumber?]

/-- The value that is given last for a setting. -/
def given? (pairs : List (Value × Value)) (s : Setting) : Option Value :=
  lastValue? (fun key => key.sameKey (.text s.name)) pairs

theorem given?_append (front back : List (Value × Value)) (s : Setting) :
    given? (front ++ back) s = (given? back s).or (given? front s) :=
  lastValue?_append _ front back

theorem given?_cons_text (r : Setting) (v : Value) (more : List (Value × Value)) (s : Setting) :
    given? ((.text r.name, v) :: more) s = (given? more s).or (if r = s then some v else none) := by
  unfold given?
  rw [lastValue?_cons]
  congr 1
  by_cases h : r = s
  · subst h
    simp [sameKey_text_iff]
  · have hname : ¬r.name = s.name := fun heq => h (Setting.name_injective heq)
    simp [sameKey_text_iff, hname, h]

/-- A setting is not given where no key is its name. -/
theorem given?_eq_none_iff {pairs : List (Value × Value)} :
    given? pairs s = none ↔ ∀ pair ∈ pairs, pair.1 ≠ .text s.name := by
  unfold given?
  rw [lastValue?_eq_none_iff]
  exact forall₂_congr fun _ _ => by rw [Bool.eq_false_iff, ne_eq, sameKey_text_iff]

/-- A value that is given is in one of the pairs. -/
theorem mem_of_given? {pairs : List (Value × Value)} {v : Value} (h : given? pairs s = some v) :
    (.text s.name, v) ∈ pairs := by
  obtain ⟨key, hmem, hkey⟩ := mem_of_lastValue? h
  rwa [sameKey_text_iff.mp hkey] at hmem

variable {m m' front : List (Value × Value)} {pair : Value × Value}

theorem applyPairs_cons (c : Configuration) (pair : Value × Value) (m : List (Value × Value)) :
    c.applyPairs (pair :: m) = (c.applyPair pair).bind fun c' => c'.applyPairs m := rfl

/-- A pair that is taken lies over what was there. -/
theorem exists_applyPair (c : Configuration) (h : IsTaken pair) :
    ∃ c', c.applyPair pair = .ok c' ∧ Overlaid (given? [pair]) c c' := by
  obtain ⟨key, given⟩ := pair
  obtain ⟨s, w, rfl, hw⟩ := h
  obtain ⟨c', hset, hvalue, hothers⟩ := exists_set c hw
  refine ⟨c', (applyPair_text c s given).trans hset, ?_⟩
  intro r
  rw [given?_cons_text]
  by_cases hr : s = r
  · subst hr
    rw [if_pos rfl, hvalue]
    exact .taken hw
  · rw [if_neg hr, hothers r (Ne.symm hr)]
    exact .kept _

/-- A mapping whose pairs are all taken lies over what was there. -/
theorem exists_applyPairs (c : Configuration) (h : ∀ pair ∈ m, IsTaken pair) :
    ∃ c', c.applyPairs m = .ok c' ∧ Overlaid (given? m) c c' := by
  induction m generalizing c with
  | nil => exact ⟨c, rfl, fun s => .kept _⟩
  | cons pair more ih =>
      obtain ⟨hpair, hmore⟩ := List.forall_mem_cons.mp h
      obtain ⟨c₁, hfirst, hover₁⟩ := exists_applyPair c hpair
      obtain ⟨c₂, hrest, hover₂⟩ := ih c₁ hmore
      refine ⟨c₂, ?_, ?_⟩
      · rw [applyPairs_cons, hfirst]
        exact hrest
      · intro s
        rw [← List.singleton_append, given?_append]
        exact hover₁.trans hover₂ s

/-- The first pair that is not taken is the error. -/
theorem applyPairs_eq_error (c : Configuration) (hfront : ∀ q ∈ front, IsTaken q)
    (h : Objection pair e) (back : List (Value × Value)) :
    c.applyPairs (front ++ pair :: back) = .error e := by
  induction front generalizing c with
  | nil =>
      rw [List.nil_append, applyPairs_cons, applyPair_eq_error c h]
      rfl
  | cons q more ih =>
      obtain ⟨hq, hmore⟩ := List.forall_mem_cons.mp hfront
      obtain ⟨c', hfirst, -⟩ := exists_applyPair c hq
      rw [List.cons_append, applyPairs_cons, hfirst]
      exact ih c' hmore

/-- All pairs are taken, or there is a first one that is not. -/
theorem all_taken_or_first_objection (m : List (Value × Value)) :
    (∀ pair ∈ m, IsTaken pair) ∨ ∃ front pair back e, m = front ++ pair :: back ∧
      (∀ q ∈ front, IsTaken q) ∧ Objection pair e := by
  induction m with
  | nil => exact Or.inl (by simp)
  | cons pair more ih =>
      rcases isTaken_or_objection pair with hpair | ⟨e, he⟩
      · rcases ih with hmore | ⟨front, bad, back, e, rfl, hfront, he⟩
        · exact Or.inl (List.forall_mem_cons.mpr ⟨hpair, hmore⟩)
        · exact Or.inr ⟨pair :: front, bad, back, e, rfl,
            List.forall_mem_cons.mpr ⟨hpair, hfront⟩, he⟩
      · exact Or.inr ⟨[], pair, more, e, rfl, by simp, he⟩

/-- **A mapping is taken** just if all its pairs are, and then it lies over the configuration. -/
theorem applyPairs_eq_ok_iff :
    c.applyPairs m = .ok c' ↔ (∀ pair ∈ m, IsTaken pair) ∧ Overlaid (given? m) c c' := by
  constructor
  · intro h
    rcases all_taken_or_first_objection m with hall | ⟨front, pair, back, e, rfl, hfront, he⟩
    · obtain ⟨c'', happly, hover⟩ := exists_applyPairs c hall
      obtain rfl := Except.ok.inj (h.symm.trans happly)
      exact ⟨hall, hover⟩
    · rw [applyPairs_eq_error c hfront he back] at h
      simp at h
  · rintro ⟨hall, hover⟩
    obtain ⟨c'', happly, hover'⟩ := exists_applyPairs c hall
    rw [happly, hover.unique hover']

/-- **A mapping is rejected** just if a pair is not taken; the first of them is the reason. -/
theorem applyPairs_eq_error_iff :
    c.applyPairs m = .error e ↔ ∃ front pair back, m = front ++ pair :: back ∧
      (∀ q ∈ front, IsTaken q) ∧ Objection pair e := by
  constructor
  · intro h
    rcases all_taken_or_first_objection m with hall | ⟨front, pair, back, e', rfl, hfront, he⟩
    · obtain ⟨c', happly, -⟩ := exists_applyPairs c hall
      rw [happly] at h
      simp at h
    · rw [applyPairs_eq_error c hfront he back] at h
      exact ⟨front, pair, back, rfl, hfront, Except.error.inj h ▸ he⟩
  · rintro ⟨front, pair, back, rfl, hfront, he⟩
    exact applyPairs_eq_error c hfront he back

/-! ### Settings that are given by name -/

/-- The pairs of a mapping that gives some of the settings. -/
def pairsOf (given : Setting → Option Value) (settings : List Setting) : List (Value × Value) :=
  settings.filterMap fun s => (given s).map fun v => (.text s.name, v)

theorem given?_pairsOf (given : Setting → Option Value) (settings : List Setting) (s : Setting) :
    given? (pairsOf given settings) s = if s ∈ settings then given s else none := by
  induction settings with
  | nil => rfl
  | cons r more ih =>
      unfold pairsOf at ih ⊢
      cases hr : given r with
      | none =>
          rw [List.filterMap_cons_none (by rw [hr]; rfl), ih]
          by_cases h : s = r
          · subst h
            simp [hr]
          · simp [h]
      | some v =>
          rw [List.filterMap_cons_some (by rw [hr]; rfl), given?_cons_text, ih]
          by_cases h : r = s
          · subst h
            by_cases hmem : r ∈ more <;> simp [hmem, hr]
          · simp [h, Ne.symm h]

theorem mem_all (s : Setting) : s ∈ Setting.all := by cases s <;> decide

theorem ofSettings_eq_applyPairs (given : Setting → Option Value) :
    ofSettings given = applyPairs {} (pairsOf given Setting.all) := by
  have hfold : ∀ step : Configuration → Setting → Except SettingError Configuration,
      (∀ c s, given s = none → step c s = .ok c) →
      (∀ c s v, given s = some v → step c s = c.set s v) →
      ∀ (settings : List Setting) (c : Configuration),
        settings.foldlM step c = c.applyPairs (pairsOf given settings) := by
    intro step hnone hsome settings
    induction settings with
    | nil => exact fun c => rfl
    | cons s more ih =>
        intro c
        rw [List.foldlM_cons]
        unfold pairsOf at ih ⊢
        cases hs : given s with
        | none =>
            rw [List.filterMap_cons_none (by rw [hs]; rfl), hnone c s hs]
            exact ih c
        | some v =>
            rw [List.filterMap_cons_some (by rw [hs]; rfl), applyPairs_cons, applyPair_text,
              hsome c s v hs]
            exact congrArg (c.set s v).bind (funext ih)
  refine hfold _ ?_ ?_ Setting.all {}
  · intro c s hs
    rw [hs]
  · intro c s v hs
    rw [hs]

/-- What is given has been taken. -/
theorem Overlaid.takes {given : Setting → Option Value} {v : Value} (h : Overlaid given c c')
    (hs : given s = some v) : s.Takes v (c'.value s) := by
  have hbecomes := h s
  rw [hs] at hbecomes
  cases hbecomes with
  | taken htakes => exact htakes

theorem isTaken_pairsOf {given : Setting → Option Value} {settings : List Setting}
    (h : ∀ s v, given s = some v → ∃ w, s.Takes v w) :
    ∀ pair ∈ pairsOf given settings, IsTaken pair := by
  intro pair hpair
  obtain ⟨s, -, hs⟩ := List.mem_filterMap.mp hpair
  obtain ⟨v, hv, rfl⟩ := Option.map_eq_some_iff.mp hs
  obtain ⟨w, htakes⟩ := h s v hv
  exact ⟨s, w, rfl, htakes⟩

/-- A mapping of some of the settings is taken just if they can lie over the configuration. -/
theorem applyPairs_pairsOf_iff {given : Setting → Option Value} :
    c.applyPairs (pairsOf given Setting.all) = .ok c' ↔ Overlaid given c c' := by
  have hgiven : given? (pairsOf given Setting.all) = given := by
    funext s
    rw [given?_pairsOf, if_pos (mem_all s)]
  rw [applyPairs_eq_ok_iff, hgiven]
  exact ⟨fun h => h.2, fun h => ⟨isTaken_pairsOf fun s v hs => ⟨_, h.takes hs⟩, h⟩⟩

/-- **Settings that are given at the start** are checked like those of a mapping. -/
theorem ofSettings_eq_ok_iff {given : Setting → Option Value} :
    ofSettings given = .ok c ↔ Overlaid given {} c := by
  rw [ofSettings_eq_applyPairs, applyPairs_pairsOf_iff]

/-- **What a configuration shows is itself**, whatever it is applied to. -/
theorem apply_toValue (b c : Configuration) : b.apply c.toValue = .ok c :=
  applyPairs_pairsOf_iff.mpr (Overlaid.of_values fun _ => rfl)

/-- There is a configuration with given settings over another one just if each of them is taken. -/
theorem exists_overlaid_iff {given : Setting → Option Value} :
    (∃ c', Overlaid given c c') ↔ ∀ s v, given s = some v → ∃ w, s.Takes v w := by
  constructor
  · rintro ⟨c', h⟩ s v hs
    exact ⟨_, h.takes hs⟩
  · intro h
    obtain ⟨c', happly, -⟩ := exists_applyPairs c (isTaken_pairsOf h)
    exact ⟨c', applyPairs_pairsOf_iff.mp happly⟩

/-! ### Mappings over mappings -/

/-- No two pairs have the same key. -/
def IsMapping (m : List (Value × Value)) : Prop :=
  m.Pairwise fun p q => p.1.sameKey q.1 = false

/-- The mapping with the pairs of another one written over its own. -/
def overlay (m upper : List (Value × Value)) : List (Value × Value) :=
  upper.foldl (fun m pair => Value.put pair.1 pair.2 m) m

theorem mem_put_text {t : Text} {v : Value} {q : Value × Value}
    (h : q ∈ Value.put (.text t) v m) : q ∈ m ∨ q = (.text t, v) := by
  induction m with
  | nil => exact Or.inr (List.mem_singleton.mp h)
  | cons p more ih =>
      obtain ⟨k, w⟩ := p
      rw [Value.put] at h
      split at h
      · rename_i hsame
        obtain rfl := sameKey_text_iff.mp hsame
        rcases List.mem_cons.mp h with rfl | hmore
        · exact Or.inr rfl
        · exact Or.inl (List.mem_cons_of_mem _ hmore)
      · rcases List.mem_cons.mp h with rfl | hmore
        · exact Or.inl List.mem_cons_self
        · exact (ih hmore).imp_left (List.mem_cons_of_mem _)

theorem IsMapping.put_text (h : IsMapping m) (t : Text) (v : Value) :
    IsMapping (Value.put (.text t) v m) := by
  induction m with
  | nil => exact List.pairwise_singleton _ _
  | cons p more ih =>
      obtain ⟨k, w⟩ := p
      obtain ⟨hfirst, hmore⟩ := List.pairwise_cons.mp h
      rw [Value.put]
      split
      · exact List.pairwise_cons.mpr ⟨hfirst, hmore⟩
      · rename_i hdiffers
        refine List.pairwise_cons.mpr ⟨?_, ih hmore⟩
        intro q hq
        rcases mem_put_text hq with hmem | rfl
        · exact hfirst q hmem
        · simpa using hdiffers

/-- A setting that the first pair gives is in none of the others. -/
theorem given?_eq_none_of_first {v : Value}
    (h : ∀ q ∈ m, (Value.text s.name, v).1.sameKey q.1 = false) : given? m s = none := by
  refine given?_eq_none_iff.mpr fun q hq hkey => ?_
  have hdiffers := h q hq
  rw [hkey, sameKey_text_iff.mpr rfl] at hdiffers
  exact Bool.noConfusion hdiffers

/-- A pair of a mapping is the one that counts. -/
theorem IsMapping.given?_eq (h : IsMapping m) {v : Value} (hmem : (.text s.name, v) ∈ m) :
    given? m s = some v := by
  obtain ⟨front, back, rfl⟩ := List.append_of_mem hmem
  have hback := (List.pairwise_cons.mp (List.pairwise_append.mp h).2.1).1
  rw [given?_append, given?_cons_text, given?_eq_none_of_first hback, if_pos rfl]
  rfl

/-- What is written under one name does not change what is under the others. -/
theorem given?_put_text (h : IsMapping m) (r : Setting) (v : Value) (s : Setting) :
    given? (Value.put (.text r.name) v m) s = if r = s then some v else given? m s := by
  induction m with
  | nil =>
      rw [Value.put, given?_cons_text]
      rfl
  | cons p more ih =>
      obtain ⟨k, w⟩ := p
      obtain ⟨hfirst, hmore⟩ := List.pairwise_cons.mp h
      rw [Value.put]
      split
      · rename_i hsame
        obtain rfl := sameKey_text_iff.mp hsame
        rw [given?_cons_text, given?_cons_text]
        by_cases hr : r = s
        · subst hr
          rw [given?_eq_none_of_first hfirst, if_pos rfl, if_pos rfl, Option.none_or]
        · rw [if_neg hr, if_neg hr, if_neg hr]
      · have hcons : ∀ more', given? ((k, w) :: more') s = (given? more' s).or
            (if k.sameKey (.text s.name) = true then some w else none) :=
          fun more' => lastValue?_cons _ _ _
        rw [hcons, hcons, ih hmore]
        by_cases hr : r = s
        · rw [if_pos hr, if_pos hr, Option.some_or]
        · rw [if_neg hr, if_neg hr]

theorem given?_overlay {upper : List (Value × Value)} (h : IsMapping m)
    (hover : ∀ pair ∈ upper, IsTaken pair) (s : Setting) :
    given? (overlay m upper) s = (given? upper s).or (given? m s) := by
  induction upper generalizing m with
  | nil => rfl
  | cons pair more ih =>
      obtain ⟨⟨r, w, hkey, -⟩, hmore⟩ := List.forall_mem_cons.mp hover
      obtain ⟨key, v⟩ := pair
      obtain rfl : key = .text r.name := hkey
      change given? (overlay (Value.put (.text r.name) v m) more) s = _
      rw [ih (h.put_text r.name v) hmore, given?_put_text h, given?_cons_text, Option.or_assoc]
      congr 1
      split <;> rfl

theorem isTaken_overlay {upper : List (Value × Value)} (h : ∀ pair ∈ m, IsTaken pair)
    (hover : ∀ pair ∈ upper, IsTaken pair) : ∀ pair ∈ overlay m upper, IsTaken pair := by
  induction upper generalizing m with
  | nil => exact h
  | cons pair more ih =>
      obtain ⟨hpair, hmore⟩ := List.forall_mem_cons.mp hover
      obtain ⟨key, v⟩ := pair
      obtain ⟨r, w, hkey, htakes⟩ := hpair
      obtain rfl : key = .text r.name := hkey
      refine ih ?_ hmore
      intro q hq
      rcases mem_put_text hq with hmem | rfl
      · exact h q hmem
      · exact ⟨r, w, rfl, htakes⟩

/-- **One mapping after another** is the one with the other written over it. -/
theorem applyPairs_overlay {upper : List (Value × Value)} (hm : IsMapping m)
    (h : c.applyPairs m = .ok c') (h' : c'.applyPairs upper = .ok c'') :
    c.applyPairs (overlay m upper) = .ok c'' := by
  obtain ⟨htaken, hunder⟩ := applyPairs_eq_ok_iff.mp h
  obtain ⟨htaken', hover⟩ := applyPairs_eq_ok_iff.mp h'
  refine applyPairs_eq_ok_iff.mpr ⟨isTaken_overlay htaken htaken', ?_⟩
  intro s
  rw [given?_overlay hm htaken']
  exact hunder.trans hover s

/-- In a mapping there is one pair at most for a setting, so that their order does not count. -/
theorem given?_perm (hm : IsMapping m) (h : m.Perm m') (s : Setting) : given? m' s = given? m s := by
  cases hgiven : given? m' s with
  | none =>
      have hkeys := given?_eq_none_iff.mp hgiven
      exact (given?_eq_none_iff.mpr fun q hq => hkeys q (h.mem_iff.mp hq)).symm
  | some v => exact (hm.given?_eq (h.mem_iff.mpr (mem_of_given? hgiven))).symm

theorem applyPairs_perm (hm : IsMapping m) (h : m.Perm m') :
    c.applyPairs m = .ok c' ↔ c.applyPairs m' = .ok c' := by
  have hgiven : given? m' = given? m := funext (given?_perm hm h)
  rw [applyPairs_eq_ok_iff, applyPairs_eq_ok_iff, hgiven]
  refine and_congr_left fun _ => ?_
  exact ⟨fun hall q hq => hall q (h.mem_iff.mpr hq), fun hall q hq => hall q (h.mem_iff.mp hq)⟩

/-! ### Sequences of mappings -/

/-- The configuration after a mapping: one that is rejected leaves it as it is. -/
def after (c : Configuration) (step : Value) : Configuration :=
  match c.apply step with
  | .ok c' => c'
  | .error _ => c

/-- The configuration after a sequence of mappings. -/
def run (c : Configuration) (steps : List Value) : Configuration := steps.foldl after c

/-- What a step has a part in: the pairs of a mapping that is taken. -/
def brought (step : Value) : List (Value × Value) :=
  match step, apply {} step with
  | .map m, .ok _ => m
  | _, _ => []

/-- One step lays its pairs over the configuration, if it is a mapping that is taken. -/
theorem overlaid_after (c : Configuration) (step : Value) :
    Overlaid (given? (brought step)) c (c.after step) := by
  have hnothing : Overlaid (given? []) c c := fun s => .kept _
  unfold brought after
  cases step with
  | map m =>
      change Overlaid (given? (match Value.map m, applyPairs {} m with
        | .map m, .ok _ => m
        | _, _ => [])) c (match c.applyPairs m with
        | .ok c' => c'
        | .error _ => c)
      rcases all_taken_or_first_objection m with hall | ⟨front, pair, back, e, rfl, hfront, he⟩
      · obtain ⟨c', happly, hover⟩ := exists_applyPairs c hall
        obtain ⟨d, hdefault, -⟩ := exists_applyPairs {} hall
        rw [happly, hdefault]
        exact hover
      · rw [applyPairs_eq_error c hfront he back, applyPairs_eq_error {} hfront he back]
        exact hnothing
  | _ => exact hnothing

/-- A run of steps lays the pairs of all of them over the configuration. -/
theorem overlaid_run (c : Configuration) (steps : List Value) :
    Overlaid (given? (steps.flatMap brought)) c (c.run steps) := by
  induction steps generalizing c with
  | nil => exact fun s => .kept _
  | cons step more ih =>
      intro s
      rw [List.flatMap_cons, given?_append]
      exact (overlaid_after c step).trans (ih (c.after step)) s

/-- **Applying a mapping lays it over the configuration**, after a check.  What a configuration is
made of has been taken, at the start and in any sequence of steps.  A mapping is taken just if all
its pairs are; if not, the first of those that are not is the reason.  Of a mapping that is taken
the order of the pairs does not count, two mappings one after the other are the one with the other
written over it, and the settings that a configuration shows make it up again.

The reason is given here whether or not its message can be shown.  Where it shows an integer of too
many digits or a value that is too deep it cannot, and `LoadError.ofSetting` says what becomes of
it. -/
theorem apply_overlaid (b c : Configuration) :
    (∀ given c', ofSettings given = .ok c' ↔ Overlaid given {} c') ∧
    (∀ steps, Overlaid (given? (steps.flatMap brought)) c (c.run steps) ∧
      ∀ s : Setting, s.Takes ((c.run steps).value s) ((c.run steps).value s)) ∧
    (∀ m c', c.apply (.map m) = .ok c' ↔
      (∀ pair ∈ m, IsTaken pair) ∧ Overlaid (given? m) c c') ∧
    (∀ m e, c.apply (.map m) = .error e ↔ ∃ front pair back, m = front ++ pair :: back ∧
      (∀ q ∈ front, IsTaken q) ∧ Objection pair e) ∧
    (∀ m m' c', IsMapping m → m.Perm m' →
      (c.apply (.map m) = .ok c' ↔ c.apply (.map m') = .ok c')) ∧
    (∀ m upper, IsMapping m → (∀ pair ∈ m, IsTaken pair) → (∀ pair ∈ upper, IsTaken pair) →
      ∃ c₁ c₂, c.apply (.map m) = .ok c₁ ∧ c₁.apply (.map upper) = .ok c₂ ∧
        c.apply (.map (overlay m upper)) = .ok c₂) ∧
    b.apply c.toValue = .ok c := by
  refine ⟨fun given c' => ofSettings_eq_ok_iff, fun steps => ⟨overlaid_run c steps, takes_value _⟩,
    fun m c' => applyPairs_eq_ok_iff, fun m e => applyPairs_eq_error_iff,
    fun m m' c' hm hperm => applyPairs_perm hm hperm, ?_, apply_toValue b c⟩
  intro m upper hm htaken hover
  obtain ⟨c₁, hfirst, -⟩ := exists_applyPairs c htaken
  obtain ⟨c₂, hsecond, -⟩ := exists_applyPairs c₁ hover
  exact ⟨c₁, c₂, hfirst, hsecond, applyPairs_overlay hm hfirst hsecond⟩

/-- A limit over another one, and the grade that was below it. -/
theorem apply_overlaid_limits :
    ∃ c₁ c₂, apply {} (.map [(.text "severity".toList, .text "ERROR".toList),
        (.text "max_summary_line_count".toList, .int 2)]) = .ok c₁ ∧
      c₁.apply (.map [(.text "max_summary_line_count".toList, .int 0)]) = .ok c₂ ∧
      apply {} (.map [(.text "severity".toList, .text "ERROR".toList),
        (.text "max_summary_line_count".toList, .int 0)]) = .ok c₂ := by
  have hlimit : ∀ n : Nat, IsTaken (.text "max_summary_line_count".toList, .int n) :=
    fun n => ⟨.maxSummaryLineCount, _, rfl, .count (by simp) n⟩
  have hgrade : IsTaken (.text "severity".toList, .text "ERROR".toList) :=
    ⟨.severity, _, rfl, @Setting.Takes.severity _ .error (by decide)⟩
  exact (apply_overlaid {} {}).2.2.2.2.2.1 [(.text "severity".toList, .text "ERROR".toList),
      (.text "max_summary_line_count".toList, .int 2)]
    [(.text "max_summary_line_count".toList, .int 0)]
    (List.pairwise_pair.mpr (by decide)) (by simpa using ⟨hgrade, hlimit 2⟩)
    (by simpa using hlimit 0)

end Configuration

end DocLint
