/-
Which of the layers a setting comes from.

The environment lies over the settings file, and the file over the configuration to start from.  In
each layer the last value counts.  For the file this is nothing new: its settings are a mapping that
is applied.  The environment is gathered into a mapping first, and a later variable of a setting
replaces the value of an earlier one there, so that an earlier value need not be one that the
setting takes (`given?_overrides`).  Loading applies both mappings, and the two layers are one
(`Overlaid.trans`).

What a file holds is taken as its reader gives it, whatever that is.  `RuleSettings` says which part
of it counts.
-/
import DocLint.Proofs.Config.Loading

namespace DocLint

namespace Configuration

variable {δ : Type} {readers : Readers δ} {c c' base : Configuration} {s : Setting}

/-! ### The environment -/

/-- A variable of a setting: the name of the setting in any case, behind the common prefix. -/
theorem variableSetting?_eq_some_iff {name : Text} :
    variableSetting? name = some s ↔ ∃ rest, name = variablePrefix ++ rest ∧ Text.lower rest = s.name := by
  unfold variableSetting?
  constructor
  · intro h
    split at h
    · rename_i hprefix
      obtain ⟨rest, rfl⟩ := List.isPrefixOf_iff_prefix.mp hprefix
      rw [List.drop_left] at h
      exact ⟨rest, rfl, Setting.ofName?_eq_some_iff.mp h⟩
    · simp at h
  · rintro ⟨rest, rfl, hrest⟩
    rw [if_pos (List.isPrefixOf_iff_prefix.mpr (List.prefix_append _ _)), List.drop_left]
    exact Setting.ofName?_eq_some_iff.mpr hrest

/-- What is written in the last variable of a setting. -/
def lastVariable? (environment : List (Text × Text)) (s : Setting) : Option Text :=
  lastValue? (fun name => variableSetting? name == some s) environment

/-- The settings in the environment with another variable looked at. -/
def gather (seen : List (Value × Value)) (v : Text × Text) : List (Value × Value) :=
  match variableSetting? v.1 with
  | some setting => Value.put (.text setting.name) (variableValue v.2) seen
  | none => seen

theorem overrides_eq (environment : List (Text × Text)) :
    overrides environment = environment.foldl gather [] := rfl

theorem given?_gather {seen : List (Value × Value)} (h : IsMapping seen) (v : Text × Text)
    (s : Setting) : given? (gather seen v) s =
      if variableSetting? v.1 = some s then some (variableValue v.2) else given? seen s := by
  unfold gather
  cases hv : variableSetting? v.1 with
  | none => simp
  | some r =>
      change given? (Value.put _ _ seen) s = _
      rw [given?_put_text h]
      simp

/-- Pairs with different names of settings as their keys. -/
structure Gathered (seen : List (Value × Value)) : Prop where
  isMapping : IsMapping seen
  named : ∀ pair ∈ seen, ∃ s, pair.1 = .text (Setting.name s)

theorem Gathered.gather {seen : List (Value × Value)} (h : Gathered seen) (v : Text × Text) :
    Gathered (gather seen v) := by
  unfold Configuration.gather
  split
  · rename_i r _
    refine ⟨h.isMapping.put_text _ _, ?_⟩
    intro pair hpair
    rcases mem_put_text hpair with hmem | rfl
    · exact h.named pair hmem
    · exact ⟨r, rfl⟩
  · exact h

theorem gathered_overrides (environment : List (Text × Text)) : Gathered (overrides environment) :=
  List.foldlRecOn environment gather ⟨List.Pairwise.nil, by simp⟩ fun _ h v _ => h.gather v

/-- **Of several variables of a setting the last one counts.** -/
theorem given?_overrides (environment : List (Text × Text)) (s : Setting) :
    given? (overrides environment) s = (lastVariable? environment s).map variableValue := by
  have hfold : ∀ seen, Gathered seen → given? (environment.foldl gather seen) s =
      ((lastVariable? environment s).map variableValue).or (given? seen s) := by
    induction environment with
    | nil => exact fun seen _ => rfl
    | cons v more ih =>
        intro seen hseen
        rw [List.foldl_cons, ih _ (hseen.gather v), given?_gather hseen.isMapping]
        unfold lastVariable?
        rw [lastValue?_cons, Option.map_or, Option.or_assoc]
        congr 1
        by_cases hv : variableSetting? v.1 = some s
        · simp [hv]
        · simp [hv]
  rw [overrides_eq, hfold [] ⟨List.Pairwise.nil, by simp⟩]
  exact Option.or_none

/-- Variables that are for no setting are not looked at. -/
theorem overrides_filter (environment : List (Text × Text)) :
    overrides (environment.filter fun v => (variableSetting? v.1).isSome) = overrides environment := by
  rw [overrides_eq, overrides_eq, List.foldl_filter]
  congr 1
  funext seen v
  unfold gather
  cases variableSetting? v.1 <;> rfl

/-- The environment is taken just if the last variables can lie over the configuration. -/
theorem result_withEnvironment_eq_ok_iff {depth : Nat} {environment : List (Text × Text)} :
    (c.withEnvironment depth environment).result = .ok c' ↔
      Overlaid (fun s => (lastVariable? environment s).map variableValue) c c' := by
  have hresult : (c.withEnvironment depth environment).result =
      (c.applyPairs (overrides environment)).mapError (.ofSetting depth) := by
    unfold withEnvironment
    split
    · rename_i hnone
      rw [hnone]
      rfl
    · rfl
  have hgiven : given? (overrides environment) =
      fun s => (lastVariable? environment s).map variableValue :=
    funext (given?_overrides environment)
  have hok : (c.applyPairs (overrides environment)).mapError (LoadError.ofSetting depth) = .ok c' ↔
      c.applyPairs (overrides environment) = .ok c' := by
    cases c.applyPairs (overrides environment) <;> simp [Except.mapError]
  rw [hresult, hok, applyPairs_eq_ok_iff, hgiven]
  refine ⟨fun h => h.2, fun h => ⟨?_, h⟩⟩
  -- Each setting is there once, with the value that counts.
  obtain ⟨hmapping, hnamed⟩ := gathered_overrides environment
  rintro ⟨key, v⟩ hpair
  obtain ⟨s, rfl⟩ := hnamed _ hpair
  have hv := hmapping.given?_eq hpair
  rw [hgiven] at hv
  exact ⟨s, _, rfl, h.takes hv⟩

/-! ### The file -/

/-- The settings of the rule in a file: those of the section, in which there may be nothing, and
where there is no section those of the file. -/
inductive RuleSettings (readers : Readers δ) (top : List (Value × δ)) : List (Value × Value) → Prop
  | inSection {key : Value} {part : δ} {entries : List (Value × δ)}
      (h : top.find? (fun e => e.1.sameKey (.text sectionName)) = some (key, part))
      (hentries : readers.entries? part = some entries) :
      RuleSettings readers top (readers.values entries)
  | nothing {key : Value} {part : δ}
      (h : top.find? (fun e => e.1.sameKey (.text sectionName)) = some (key, part))
      (hvoid : readers.isVoid part = true) : RuleSettings readers top []
  | atTop (h : ∀ e ∈ top, e.1 ≠ .text sectionName) : RuleSettings readers top (readers.values top)

/-- The settings of a map are its entries, also where it counts as nothing. -/
theorem settings_eq {part : δ} {entries : List (Value × δ)}
    (h : readers.entries? part = some entries) :
    readers.settings part = .map (readers.values entries) := by
  unfold Readers.settings
  split
  · rename_i hvoid
    rw [(readers.isVoid_iff h).mp hvoid]
    rfl
  · rw [h]

theorem ruleSection_eq {top : List (Value × δ)} {settings : List (Value × Value)}
    (h : RuleSettings readers top settings) : ruleSection readers top = .map settings := by
  unfold ruleSection
  cases h with
  | inSection h hentries =>
      rw [h]
      exact settings_eq hentries
  | nothing h hvoid =>
      rw [h]
      exact if_pos hvoid
  | atTop h =>
      have hnone : top.find? (fun e => e.1.sameKey (.text sectionName)) = none :=
        List.find?_eq_none.mpr fun e he hkey => h e he (sameKey_text_iff.mp hkey)
      rw [hnone]

variable {tree : FileTree} {path : Option Path} {settings : List (Value × Value)}

/-- What the settings file brings.  Where there is none it brings nothing. -/
inductive FileLayer (readers : Readers δ) (tree : FileTree) (path : Option Path) :
    List (Value × Value) → Prop
  | noFile (h : chosenFile tree path = .ok none) : FileLayer readers tree path []
  | file {p : Path} {t : Text} {top : List (Value × δ)} {settings : List (Value × Value)}
      (hp : chosenFile tree path = .ok (some p)) (ht : tree.readText p = .ok t)
      (htop : parse readers p t = .ok top) (h : RuleSettings readers top settings) :
      FileLayer readers tree path settings

/-- The environment comes after the settings of the file. -/
theorem result_load_eq_ok_iff (h : FileLayer readers tree path settings)
    (environment : List (Text × Text)) (base : Configuration) :
    (load readers tree path environment base).result = .ok c ↔
      ∃ c₁, base.applyPairs settings = .ok c₁ ∧
        (c₁.withEnvironment readers.shownDepth environment).result = .ok c := by
  cases h with
  | noFile h =>
      rw [load_of_no_file environment base h]
      simp [applyPairs, pure, Except.pure]
  | @file p _ _ _ hp ht htop h =>
      have hsettings : fileSettings readers tree p = .ok (.map settings) := by
        rw [fileSettings, ht]
        simp only [Except.mapError, bind, Except.bind, htop]
        rw [ruleSection_eq h]
        rfl
      cases happly : base.applyPairs settings with
      | error e =>
          rw [result_load_of_objection environment hp hsettings happly]
          simp
      | ok c₁ =>
          rw [result_load_of_applied environment hp hsettings happly]
          simp

/-! ### A configuration in the environment -/

theorem toInt?_severity_name (grade : Severity) : Text.toInt? grade.name = none := by
  cases grade <;> decide

/-- A setting is read as what has been written for it. -/
theorem variableValue_plain (c : Configuration)
    (h : ∀ n ∈ [c.maxSummaryLineCount, c.minimalNumberOfParameters],
      (Text.ofNat n).length ≤ Text.maxDigits) (s : Setting) :
    variableValue (c.value s).plain = c.value s := by
  have hcount : ∀ n : Nat, (Text.ofNat n).length ≤ Text.maxDigits →
      variableValue (Value.int n).plain = .int n := by
    intro n hn
    have hplain : (Value.int n).plain = Text.ofNat n := rfl
    rw [hplain, variableValue, Text.toInt?_ofNat hn]
  cases s with
  | severity =>
      have hplain : (c.value .severity).plain = c.severity.name := rfl
      rw [hplain, variableValue, toInt?_severity_name]
      change Value.text (Text.trim c.severity.name) = .text c.severity.name
      cases c.severity <;> rfl
  | maxSummaryLineCount => exact hcount _ (h _ (by simp))
  | minimalNumberOfParameters => exact hcount _ (h _ (by simp))

/-- In an environment with one variable for each setting that variable is the last one. -/
theorem lastVariable?_of_perm {names texts : Setting → Text} {environment : List (Text × Text)}
    (hnames : ∀ s, variableSetting? (names s) = some s)
    (h : environment.Perm (Setting.all.map fun s => (names s, texts s))) (s : Setting) :
    lastVariable? environment s = some (texts s) := by
  have hone : (Setting.all.map fun s => (names s, texts s)).filter
      (fun v => variableSetting? v.1 == some s) = [(names s, texts s)] := by
    cases s <;> simp [Setting.all, hnames]
  have hfilter := h.filter fun v => variableSetting? v.1 == some s
  rw [hone] at hfilter
  unfold lastVariable? lastValue?
  rw [List.perm_singleton.mp hfilter]
  rfl

/-! ### Layers -/

/-- Variables for no setting leave no trace, not even in the log. -/
theorem load_filter (readers : Readers δ) (tree : FileTree) (path : Option Path)
    (environment : List (Text × Text)) (base : Configuration) :
    load readers tree path (environment.filter fun v => (variableSetting? v.1).isSome) base =
      load readers tree path environment base := by
  have hwith : ∀ c : Configuration,
      c.withEnvironment readers.shownDepth
          (environment.filter fun v => (variableSetting? v.1).isSome) =
        c.withEnvironment readers.shownDepth environment := by
    intro c
    unfold withEnvironment
    rw [overrides_filter]
  unfold load
  simp only [hwith]

/-- **What a setting is when a configuration is loaded.** -/
theorem result_load_iff_overlaid (h : FileLayer readers tree path settings)
    (environment : List (Text × Text)) (base c : Configuration) :
    (load readers tree path environment base).result = .ok c ↔ (∀ pair ∈ settings, IsTaken pair) ∧
      Overlaid (fun s => ((lastVariable? environment s).map variableValue).or (given? settings s))
        base c := by
  rw [result_load_eq_ok_iff h]
  constructor
  · rintro ⟨c₁, hfile, henvironment⟩
    obtain ⟨htaken, hunder⟩ := applyPairs_eq_ok_iff.mp hfile
    exact ⟨htaken, hunder.trans (result_withEnvironment_eq_ok_iff.mp henvironment)⟩
  · rintro ⟨htaken, hover⟩
    obtain ⟨c₁, hfile, hunder⟩ := exists_applyPairs base htaken
    exact ⟨c₁, hfile, result_withEnvironment_eq_ok_iff.mpr (hunder.of_trans hover)⟩

/-- There is a configuration just if what counts is taken, of the environment, and all of the file. -/
theorem exists_load_iff (h : FileLayer readers tree path settings)
    (environment : List (Text × Text)) (base : Configuration) :
    (∃ c, (load readers tree path environment base).result = .ok c) ↔
      (∀ pair ∈ settings, IsTaken pair) ∧
        ∀ s t, lastVariable? environment s = some t → ∃ w, s.Takes (variableValue t) w := by
  simp only [result_load_iff_overlaid h, exists_and_left]
  refine and_congr_right fun htaken => exists_overlaid_iff.trans ?_
  constructor
  · intro hall s t ht
    refine hall s (variableValue t) ?_
    rw [ht]
    rfl
  · intro hall s v hv
    rcases Option.or_eq_some_iff.mp hv with hlast | ⟨-, hfile⟩
    · obtain ⟨t, ht, rfl⟩ := Option.map_eq_some_iff.mp hlast
      exact hall s t ht
    · obtain ⟨r, w, hkey, htakes⟩ := htaken _ (mem_of_given? hfile)
      obtain rfl := Setting.name_injective (Value.text.inj hkey)
      exact ⟨w, htakes⟩

/-- **The last variable counts, then the file, then the configuration to start from.**  With a file
whose settings can be read there is a configuration just if all of them are taken and the last
variable of each setting is; a variable before that one may hold anything.  Then each setting is
what the last variable says, or else the file, and otherwise as before.  Variables that are for no
setting leave no trace, and from the settings of a configuration in the environment it is loaded
again, whatever is below, if its counts have few enough digits to be read. -/
theorem load_layers (h : FileLayer readers tree path settings) (environment : List (Text × Text))
    (base : Configuration) :
    (∀ name s, variableSetting? name = some s ↔
      ∃ rest, name = variablePrefix ++ rest ∧ Text.lower rest = s.name) ∧
    ((∃ c, (load readers tree path environment base).result = .ok c) ↔
      (∀ pair ∈ settings, IsTaken pair) ∧
        ∀ s t, lastVariable? environment s = some t → ∃ w, s.Takes (variableValue t) w) ∧
    (∀ c, (load readers tree path environment base).result = .ok c ↔
      (∀ pair ∈ settings, IsTaken pair) ∧
        Overlaid (fun s => ((lastVariable? environment s).map variableValue).or (given? settings s))
          base c) ∧
    load readers tree path (environment.filter fun v => (variableSetting? v.1).isSome) base =
      load readers tree path environment base ∧
    ∀ (c : Configuration) (names : Setting → Text),
      (∀ n ∈ [c.maxSummaryLineCount, c.minimalNumberOfParameters],
        (Text.ofNat n).length ≤ Text.maxDigits) →
      (∀ s, variableSetting? (names s) = some s) → (∀ pair ∈ settings, IsTaken pair) →
      environment.Perm (Setting.all.map fun s => (names s, (c.value s).plain)) →
      (load readers tree path environment base).result = .ok c := by
  refine ⟨fun name s => variableSetting?_eq_some_iff, exists_load_iff h environment base,
    result_load_iff_overlaid h environment base, load_filter readers tree path environment base, ?_⟩
  intro c names hdigits hnames htaken hperm
  refine (result_load_iff_overlaid h environment base c).mpr ⟨htaken, Overlaid.of_values ?_⟩
  intro s
  rw [lastVariable?_of_perm hnames hperm s, Option.map_some, variableValue_plain c hdigits s,
    Option.some_or]

/-- A settings file with a section. -/
def sectioned : FileTree :=
  treeOf ".structdoc.json".toList
    "\x7b\"structured_function_doc\": \x7b\"max_summary_line_count\": 2\x7d\x7d".toUTF8

/-- Only the last of the variables of the grade has to be one. -/
theorem load_layers_sectioned :
    FileLayer jsonReaders sectioned none [(.text "max_summary_line_count".toList, .int 2)] ∧
      (load jsonReaders sectioned none [("STRUCTDOC_SEVERITY".toList, "grave".toList),
        ("STRUCTDOC_Severity".toList, " Error ".toList)] {}).result =
          .ok { severity := .error, maxSummaryLineCount := 2 } := by
  have hread : Json.read
      "\x7b\"structured_function_doc\": \x7b\"max_summary_line_count\": 2\x7d\x7d".toList =
        .ok (.map [(.text "structured_function_doc".toList,
          .map [(.text "max_summary_line_count".toList, .int 2)])]) := by cbv
  have htop : parse jsonReaders (pathOf ".structdoc.json".toList)
      "\x7b\"structured_function_doc\": \x7b\"max_summary_line_count\": 2\x7d\x7d".toList =
        .ok [(.text "structured_function_doc".toList,
          .map [(.text "max_summary_line_count".toList, .int 2)])] :=
    parse_json (by decide) (by decide) hread rfl
  have hrule : RuleSettings jsonReaders [(.text "structured_function_doc".toList,
        .map [(.text "max_summary_line_count".toList, .int 2)])]
      (jsonReaders.values [(.text "max_summary_line_count".toList, .int 2)]) := .inSection rfl rfl
  have hfile : FileLayer jsonReaders sectioned none
      [(.text "max_summary_line_count".toList, .int 2)] := .file rfl rfl htop hrule
  refine ⟨hfile, ((load_layers hfile _ {}).2.2.1 _).mpr ⟨?_, ?_⟩⟩
  · intro pair hpair
    obtain rfl := List.mem_singleton.mp hpair
    exact ⟨.maxSummaryLineCount, _, rfl, .count (by simp) 2⟩
  · rintro (_ | _ | _)
    · have hlast : lastVariable? [("STRUCTDOC_SEVERITY".toList, "grave".toList),
          ("STRUCTDOC_Severity".toList, " Error ".toList)] .severity = some " Error ".toList := by
        decide
      have hvalue : variableValue " Error ".toList = .text "Error".toList := by cbv
      have htakes : Setting.severity.Takes (variableValue " Error ".toList) (.text "error".toList) :=
        hvalue ▸ @Setting.Takes.severity _ .error (by decide)
      beta_reduce
      rw [hlast]
      exact .taken htakes
    · exact .taken (.count (by simp) 2)
    · exact .kept _

end Configuration

end DocLint
