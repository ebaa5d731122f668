/-
What the registry holds after any run of registrations.

A registration puts a description in the place of the one that has its identifier, or behind all
others.  So the identifiers stand where they came first, and the descriptions are those that came
last: `Records` says this of a registry and the history of registrations, and one more
registration keeps it (`Records.register`).  Whoever reads the registry then reads the history,
each reader in its own way.

Rules come in the order of their identifiers.  Pairs of an identifier and a description are
sorted, but a description is never looked at for it, for no two pairs share their identifier
(`mergeSort_pairAtMost`).
-/
import DocLint.Proofs.Agree
import DocLint.Proofs.Keyed
import DocLint.Proofs.Report.StableSort

namespace DocLint.Registry

variable {r : Registry} {d : RuleDescription} {history : List RuleDescription} {identifier : Text}
  {entries : List (Text × RuleDescription)}

/-! ### Histories -/

/-- The description that was registered last under an identifier. -/
def latest? (history : List RuleDescription) (identifier : Text) : Option RuleDescription :=
  (history.filter fun d => d.identifier = identifier).getLast?

theorem latest?_concat (history : List RuleDescription) (d : RuleDescription) (identifier : Text) :
    latest? (history ++ [d]) identifier =
      if d.identifier = identifier then some d else latest? history identifier := by
  unfold latest?
  rw [List.filter_append, List.getLast?_append]
  by_cases h : d.identifier = identifier
  · simp [h]
  · simp [h]

theorem latest?_eq_none_iff :
    latest? history identifier = none ↔ ∀ d ∈ history, d.identifier ≠ identifier := by
  simp [latest?]

theorem mem_of_latest? (h : latest? history identifier = some d) :
    d ∈ history ∧ d.identifier = identifier := by
  have hmem := List.mem_filter.mp (List.mem_of_getLast? h)
  exact ⟨hmem.1, by simpa using hmem.2⟩

/-! ### One registration -/

theorem map_put (identifier : Text) (d : RuleDescription) (entries : List (Text × RuleDescription)) :
    (put identifier d entries).map (·.1) =
      if identifier ∈ entries.map (·.1) then entries.map (·.1)
      else entries.map (·.1) ++ [identifier] := by
  induction entries with
  | nil => rfl
  | cons e entries ih =>
      rw [put]
      by_cases h : e.1 = identifier
      · simp [h]
      · rw [if_neg h, List.map_cons, ih]
        by_cases hmem : identifier ∈ entries.map (·.1)
        · simp [hmem]
        · simp [hmem, Ne.symm h]

theorem mem_put (h : (entries.map (·.1)).Nodup) {e : Text × RuleDescription} :
    e ∈ put identifier d entries ↔ e = (identifier, d) ∨ (e.1 ≠ identifier ∧ e ∈ entries) := by
  induction entries with
  | nil => simp [put]
  | cons x entries ih =>
      obtain ⟨hx, hmore⟩ := List.nodup_cons.mp h
      rw [put]
      by_cases hidentifier : x.1 = identifier
      · -- The identifier stands here and nowhere below.
        have hbelow : ∀ y ∈ entries, y.1 ≠ identifier := by
          intro y hy heq
          exact hx (List.mem_map.mpr ⟨y, hy, heq.trans hidentifier.symm⟩)
        rw [if_pos hidentifier, List.mem_cons, List.mem_cons]
        constructor
        · rintro (rfl | he)
          · exact Or.inl rfl
          · exact Or.inr ⟨hbelow e he, Or.inr he⟩
        · rintro (rfl | ⟨hne, rfl | he⟩)
          · exact Or.inl rfl
          · exact absurd hidentifier hne
          · exact Or.inr he
      · rw [if_neg hidentifier, List.mem_cons, List.mem_cons, ih hmore]
        constructor
        · rintro (rfl | rfl | ⟨hne, he⟩)
          · exact Or.inr ⟨hidentifier, Or.inl rfl⟩
          · exact Or.inl rfl
          · exact Or.inr ⟨hne, Or.inr he⟩
        · rintro (rfl | ⟨hne, rfl | he⟩)
          · exact Or.inr (Or.inl rfl)
          · exact Or.inl rfl
          · exact Or.inr (Or.inr ⟨hne, he⟩)

/-! ### Runs -/

/-- A registry records the history of registrations that it comes from. -/
structure Records (history : List RuleDescription) (r : Registry) : Prop where
  /-- Every identifier stands where it came first. -/
  identifiers : r.identifiers = (history.map (·.identifier)).eraseDups
  once : r.identifiers.Nodup
  /-- Beside it stands the description that came last. -/
  latest : ∀ e ∈ r.entries, latest? history e.1 = some e.2

theorem records_nil : Records [] ⟨[]⟩ := ⟨rfl, List.nodup_nil, by simp⟩

theorem Records.mem_identifiers_iff (h : Records history r) :
    identifier ∈ r.identifiers ↔ ∃ d ∈ history, d.identifier = identifier := by
  rw [h.identifiers, List.mem_eraseDups, List.mem_map]

/-- What one more registration does to the registry, it does to what the history says. -/
theorem Records.register (h : Records history r) (d : RuleDescription) :
    Records (history ++ [d]) (r.register d) := by
  have hput : (r.register d).identifiers = if d.identifier ∈ r.identifiers then r.identifiers
      else r.identifiers ++ [d.identifier] := map_put _ _ _
  refine ⟨?_, ?_, ?_⟩
  · have hmem : d.identifier ∈ r.identifiers ↔ d.identifier ∈ history.map (·.identifier) := by
      rw [h.identifiers, List.mem_eraseDups]
    rw [hput, List.map_append, List.eraseDups_append, ← h.identifiers]
    by_cases hd : d.identifier ∈ r.identifiers
    · rw [if_pos hd, List.removeAll, List.map_singleton,
        List.filter_cons_of_neg (by simpa using hmem.mp hd)]
      simp
    · rw [if_neg hd, List.removeAll, List.map_singleton,
        List.filter_cons_of_pos (by simpa using mt hmem.mpr hd)]
      rfl
  · rw [hput]
    split
    · exact h.once
    · rename_i hd
      exact List.Nodup.append h.once (by simp) (by simpa using hd)
  · intro e he
    rw [latest?_concat]
    rcases (mem_put h.once).mp he with rfl | ⟨hne, he⟩
    · exact if_pos rfl
    · rw [if_neg (Ne.symm hne)]
      exact h.latest e he

theorem Records.run (h : Records history r) (later : List RuleDescription) :
    Records (history ++ later) (later.foldl Registry.register r) := by
  induction later generalizing history r with
  | nil => rwa [List.append_nil]
  | cons d later ih =>
      rw [List.foldl_cons, List.append_cons]
      exact ih (h.register d)

/-- The registry after more rules have been registered than the library's own. -/
def after (later : List RuleDescription) : Registry := later.foldl Registry.register builtIn

theorem records_after (later : List RuleDescription) :
    Records (structuredFunctionDoc :: later) (after later) :=
  (records_nil.register structuredFunctionDoc).run later

/-! ### Looking up -/

namespace Records

theorem mem_entries_iff (h : Records history r) :
    (identifier, d) ∈ r.entries ↔ latest? history identifier = some d := by
  constructor
  · exact h.latest (identifier, d)
  · intro hlatest
    obtain ⟨e, he, rfl⟩ := List.mem_map.mp (h.mem_identifiers_iff.mpr ⟨d, mem_of_latest? hlatest⟩)
    have hsame := h.latest e he
    rw [hlatest] at hsame
    rwa [Option.some.inj hsame]

theorem get_eq (h : Records history r) (identifier : Text) :
    r.get identifier = match latest? history identifier with
      | some d => .ok d
      | none => .error ⟨identifier, r.identifiers.mergeSort Text.atMost⟩ := by
  unfold Registry.get
  cases hfind : r.entries.find? fun e => e.1 == identifier with
  | none =>
      have hnone : latest? history identifier = none := by
        refine Option.eq_none_iff_forall_ne_some.mpr ?_
        intro d hd
        have hfound := (find?_key_eq_some_iff_of_nodup h.once).mpr ⟨h.mem_entries_iff.mpr hd, rfl⟩
        rw [hfind] at hfound
        simp at hfound
      rw [hnone]
  | some e =>
      obtain ⟨he, rfl⟩ := (find?_key_eq_some_iff_of_nodup h.once).mp hfind
      rw [h.latest e he]

theorem get_eq_ok_iff (h : Records history r) :
    r.get identifier = .ok d ↔ latest? history identifier = some d := by
  rw [h.get_eq]
  cases latest? history identifier with
  | none => simp
  | some d => simp

theorem get_eq_error_iff (h : Records history r) {e : UnknownRule} :
    r.get identifier = .error e ↔ (∀ d ∈ history, d.identifier ≠ identifier) ∧
      e = ⟨identifier, r.identifiers.mergeSort Text.atMost⟩ := by
  rw [h.get_eq, ← latest?_eq_none_iff]
  cases latest? history identifier with
  | none => simp [eq_comm]
  | some d => simp

theorem contains_iff (h : Records history r) :
    r.contains identifier = true ↔ ∃ d ∈ history, d.identifier = identifier := by
  rw [Registry.contains, List.contains_iff_mem, h.mem_identifiers_iff]

theorem size_eq (h : Records history r) :
    r.size = (history.map (·.identifier)).eraseDups.length := by
  rw [← h.identifiers, Registry.identifiers, List.length_map, Registry.size]

end Records

/-! ### Rules -/

/-- Pairs come in the order of their identifiers; where these are the same, an order of the
descriptions decides. -/
def pairAtMost (le : RuleDescription → RuleDescription → Bool) (a b : Text × RuleDescription) :
    Bool :=
  if a.1 = b.1 then a.2 = b.2 || le a.2 b.2 else Text.atMost a.1 b.1

/-- The order of the descriptions does not matter. -/
theorem mergeSort_pairAtMost (h : (entries.map (·.1)).Nodup)
    (le : RuleDescription → RuleDescription → Bool) :
    entries.mergeSort (pairAtMost le) = entries.mergeSort fun a b => Text.atMost a.1 b.1 := by
  have hsort := List.map_mergeSort (l := entries) (f := id) (r := pairAtMost le)
    (s := fun a b => Text.atMost a.1 b.1) ?_
  · simpa using hsort
  · intro a ha b hb
    unfold pairAtMost
    by_cases hidentifier : a.1 = b.1
    · obtain rfl := List.inj_on_of_nodup_map h ha hb hidentifier
      have hself := Text.atMost_total a.1 a.1
      rw [Bool.or_self] at hself
      simp [hself]
    · rw [if_neg hidentifier]
      rfl

/-- For each of the identifiers, in order, there is the rule that was registered last under it,
with the configuration. -/
def Instances (history : List RuleDescription) (configuration : Configuration) :
    List Text → List Rule → Prop :=
  List.Forall₂ fun identifier rule =>
    latest? history identifier = some rule.description ∧ rule.configuration = configuration

variable {configuration : Configuration} {rules : List Rule}

namespace Records

/-- The identifiers of the sorted pairs, each of which is there once. -/
theorem pairwise_sorted (h : Records history r) :
    ((r.entries.mergeSort fun a b => Text.atMost a.1 b.1).map (·.1)).Pairwise (· < ·) := by
  rw [List.pairwise_map]
  exact pairwise_mergeSort_of_nodup (fun a b c => Text.atMost_trans a.1 b.1 c.1)
    (fun a b => Text.atMost_total a.1 b.1) (fun _ _ => Text.lt_of_atMost) h.once

theorem exists_allRules (h : Records history r) (configuration : Configuration) :
    ∃ identifiers : List Text, identifiers.Pairwise (· < ·) ∧
      (∀ identifier, identifier ∈ identifiers ↔ ∃ d ∈ history, d.identifier = identifier) ∧
      Instances history configuration identifiers (r.allRules configuration) := by
  refine ⟨_, h.pairwise_sorted, ?_, ?_⟩
  · intro identifier
    rw [← h.mem_identifiers_iff]
    exact ((List.mergeSort_perm _ _).map _).mem_iff
  · unfold Instances allRules
    rw [List.forall₂_map_left_iff, List.forall₂_map_right_iff, List.forall₂_same]
    intro e he
    exact ⟨h.latest e (List.mem_mergeSort.mp he), rfl⟩

theorem allRules_eq (h : Records history r) (le : RuleDescription → RuleDescription → Bool) :
    r.allRules configuration =
      (r.entries.mergeSort (pairAtMost le)).map fun e => ⟨e.2, configuration⟩ := by
  rw [mergeSort_pairAtMost h.once, allRules]

/-- What is made of one of the identifiers that are asked for. -/
theorem get_map_eq_ok_iff (h : Records history r) {rule : Rule} :
    ((r.get identifier).map fun d => (⟨d, configuration⟩ : Rule)) = .ok rule ↔
      latest? history identifier = some rule.description ∧ rule.configuration = configuration := by
  rw [h.get_eq]
  obtain ⟨description, configuration'⟩ := rule
  cases latest? history identifier with
  | none => simp [Except.map]
  | some d => simp [Except.map, eq_comm]

theorem exists_get_map_eq_error_iff (h : Records history r) :
    (∃ e, ((r.get identifier).map fun d => (⟨d, configuration⟩ : Rule)) = .error e) ↔
      ∀ d ∈ history, d.identifier ≠ identifier := by
  rw [h.get_eq, ← latest?_eq_none_iff]
  cases latest? history identifier with
  | none => simp [Except.map]
  | some d => simp [Except.map]

theorem createRules_eq_ok_iff (h : Records history r) {first : Text} {more : List Text} :
    r.createRules configuration (first :: more) = .ok rules ↔
      Instances history configuration (first :: more) rules := by
  unfold createRules Instances
  rw [mapM_eq_ok_iff]
  constructor
  · exact List.Forall₂.imp fun _ _ => h.get_map_eq_ok_iff.mp
  · exact List.Forall₂.imp fun _ _ => h.get_map_eq_ok_iff.mpr

theorem createRules_eq_error_iff (h : Records history r) {first : Text} {more : List Text} :
    (∃ e, r.createRules configuration (first :: more) = .error e) ↔
      ∃ identifier ∈ first :: more, ∀ d ∈ history, d.identifier ≠ identifier := by
  unfold createRules
  rw [exists_mapM_eq_error_iff]
  simp only [h.exists_get_map_eq_error_iff]

end Records

/-- **All readers of the registry read one history**, that of the registrations that follow the
library's own.  The entries are what listing and iterating give.  Rules are made for the identifiers
that are asked for, in the order and as often as they are; where none is asked for, they are made for
each identifier once, in ascending order, and no order of the descriptions has a say in it. -/
theorem after_reads (later : List RuleDescription) (configuration : Configuration) :
    let history := structuredFunctionDoc :: later
    let r := after later
    (r.identifiers = (history.map (·.identifier)).eraseDups ∧ r.identifiers.Nodup ∧
      ∀ e ∈ r.entries, latest? history e.1 = some e.2) ∧
    ((∀ identifier d, r.get identifier = .ok d ↔ latest? history identifier = some d) ∧
      (∀ identifier e, r.get identifier = .error e ↔
        (∀ d ∈ history, d.identifier ≠ identifier) ∧
          e = ⟨identifier, r.identifiers.mergeSort Text.atMost⟩) ∧
      (∀ identifier, r.contains identifier = true ↔ ∃ d ∈ history, d.identifier = identifier) ∧
      r.size = (history.map (·.identifier)).eraseDups.length) ∧
    ((∃ identifiers rules, r.createRules configuration [] = .ok rules ∧
        identifiers.Pairwise (· < ·) ∧
        (∀ identifier, identifier ∈ identifiers ↔ ∃ d ∈ history, d.identifier = identifier) ∧
        Instances history configuration identifiers rules) ∧
      ∀ le, r.createRules configuration [] =
        .ok ((r.entries.mergeSort (pairAtMost le)).map fun e => ⟨e.2, configuration⟩)) ∧
    ∀ first more,
      (∀ rules, r.createRules configuration (first :: more) = .ok rules ↔
        Instances history configuration (first :: more) rules) ∧
      ((∃ e, r.createRules configuration (first :: more) = .error e) ↔
        ∃ identifier ∈ first :: more, ∀ d ∈ history, d.identifier ≠ identifier) := by
  intro history r
  have h : Records history r := records_after later
  refine ⟨⟨h.identifiers, h.once, h.latest⟩, ⟨fun _ _ => h.get_eq_ok_iff,
    fun _ _ => h.get_eq_error_iff, fun _ => h.contains_iff, h.size_eq⟩, ⟨?_, ?_⟩, ?_⟩
  · obtain ⟨identifiers, hordered, hmem, hinstances⟩ := h.exists_allRules configuration
    exact ⟨identifiers, _, rfl, hordered, hmem, hinstances⟩
  · intro le
    rw [createRules, h.allRules_eq le]
  · intro first more
    exact ⟨fun _ => h.createRules_eq_ok_iff, h.createRules_eq_error_iff⟩

end DocLint.Registry
