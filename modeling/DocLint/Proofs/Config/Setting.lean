/-
What settings take, and what they object to.

Each setting reads a value in one of two ways: the grade by its name, and a count as an integer that
is not negative.  `Setting.Takes` says which values are taken and what the setting is then, and
`Setting.Objects` why a value is not; there is no third thing (`Setting.takes_or_objects`).  A pair
of a mapping names a setting, and all that can happen to it follows.
-/
import Mathlib.Tactic.Common
import DocLint.Config.Configuration
import DocLint.Proofs.Keyed

namespace DocLint

/-! ### Names -/

/-- What has a name of its own is found by it among all that there is. -/
theorem find?_name_eq_some_iff {α : Type} {name : α → Text} {all : List α} {t : Text} {a : α}
    (hname : Function.Injective name) (hall : ∀ a, a ∈ all) :
    (all.find? fun a => name a == t) = some a ↔ t = name a := by
  rw [find?_key_eq_some_iff fun a _ b _ h => hname h]
  exact ⟨fun h => h.2.symm, fun h => ⟨hall a, h.symm⟩⟩

theorem Severity.name_injective : Function.Injective Severity.name := by
  intro s r h
  cases s <;> cases r <;> first | rfl | exact absurd h (by decide)

theorem Setting.name_injective : Function.Injective Setting.name := by
  intro s r h
  cases s <;> cases r <;> first | rfl | exact absurd h (by decide)

theorem Severity.ofName?_eq_some_iff {t : Text} {grade : Severity} :
    ofName? t = some grade ↔ t = grade.name :=
  find?_name_eq_some_iff name_injective (by rintro (_ | _) <;> decide)

theorem Setting.ofName?_eq_some_iff {t : Text} {s : Setting} : ofName? t = some s ↔ t = s.name :=
  find?_name_eq_some_iff name_injective (by rintro (_ | _ | _) <;> decide)

theorem Setting.ofKey?_eq_some_iff {key : Value} {s : Setting} :
    ofKey? key = some s ↔ key = .text s.name := by
  unfold ofKey?
  split
  · rw [ofName?_eq_some_iff, Value.text.injEq]
  · rename_i hne
    constructor
    · intro h
      simp at h
    · rintro rfl
      exact absurd rfl (hne _)

/-! ### One setting -/

namespace Setting

/-- A setting takes a value, and then it has another one. -/
inductive Takes : Setting → Value → Value → Prop
  /-- A grade has its name in lower case, however it is spelled. -/
  | severity {given : Value} {grade : Severity} (h : Text.lower given.plain = grade.name) :
      Takes .severity given (.text grade.name)
  | count {s : Setting} (hs : s ≠ .severity) (n : Nat) : Takes s (.int n) (.int n)

/-- What a setting is after a value has been given for it, or none. -/
inductive Becomes (s : Setting) : Option Value → Value → Value → Prop
  | taken {given before after : Value} (h : s.Takes given after) :
      Becomes s (some given) before after
  | kept (before : Value) : Becomes s none before before

/-- Why a setting does not take a value. -/
inductive Objects : Setting → Value → SettingError → Prop
  | severity {given : Value} (h : ∀ grade : Severity, Text.lower given.plain ≠ grade.name) :
      Objects .severity given (.noSuchSeverity given)
  | notAnInteger {s : Setting} {given : Value} (hs : s ≠ .severity) (h : ∀ n, given ≠ .int n) :
      Objects s given (.notAnInteger s given)
  | negative {s : Setting} {n : Int} (hs : s ≠ .severity) (h : n < 0) :
      Objects s (.int n) (.negative s n)

variable {s : Setting} {given v w : Value} {e : SettingError}

theorem Takes.unique (hv : s.Takes given v) (hw : s.Takes given w) : v = w := by
  cases hv with
  | severity h =>
      cases hw with
      | severity h' => rw [← h, ← h']
      | count hs => exact absurd rfl hs
  | count hs =>
      cases hw with
      | severity => exact absurd rfl hs
      | count => rfl

theorem Becomes.unique {o : Option Value} {before : Value} (hv : s.Becomes o before v)
    (hw : s.Becomes o before w) : v = w := by
  cases hv with
  | taken hv =>
      cases hw with
      | taken hw => exact hv.unique hw
  | kept =>
      cases hw with
      | kept => rfl

/-- A value that is given later replaces an earlier one. -/
theorem Becomes.trans {o o' : Option Value} {before : Value} (h : s.Becomes o before v)
    (h' : s.Becomes o' v w) : s.Becomes (o'.or o) before w := by
  cases h' with
  | taken hw => exact .taken hw
  | kept => rwa [Option.none_or]

/-- What is under the later of two values has been put there by the earlier one. -/
theorem Becomes.of_trans {o o' : Option Value} {before : Value} (h : s.Becomes o before v)
    (h' : s.Becomes (o'.or o) before w) : s.Becomes o' v w := by
  cases o' with
  | some given =>
      rw [Option.some_or] at h'
      cases h' with
      | taken hw => exact .taken hw
  | none =>
      rw [Option.none_or] at h'
      exact h.unique h' ▸ .kept v

/-- A value is taken or objected to. -/
theorem takes_or_objects (s : Setting) (given : Value) :
    (∃ w, s.Takes given w) ∨ ∃ e, s.Objects given e := by
  by_cases hs : s = .severity
  · subst hs
    by_cases h : ∃ grade : Severity, Text.lower given.plain = grade.name
    · obtain ⟨grade, h⟩ := h
      exact Or.inl ⟨_, .severity h⟩
    · exact Or.inr ⟨_, .severity fun grade hgrade => h ⟨grade, hgrade⟩⟩
  · by_cases h : ∃ n, given = .int n
    · obtain ⟨n, rfl⟩ := h
      cases n with
      | ofNat n => exact Or.inl ⟨_, .count hs n⟩
      | negSucc n => exact Or.inr ⟨_, .negative hs (Int.negSucc_lt_zero n)⟩
    · exact Or.inr ⟨_, .notAnInteger hs fun n hn => h ⟨n, hn⟩⟩

end Setting

theorem readSeverity_eq_ok {given : Value} {grade : Severity}
    (h : Text.lower given.plain = grade.name) : readSeverity given = .ok grade := by
  rw [readSeverity, Severity.ofName?_eq_some_iff.mpr h]

theorem readSeverity_eq_error {given : Value}
    (h : ∀ grade : Severity, Text.lower given.plain ≠ grade.name) :
    readSeverity given = .error (.noSuchSeverity given) := by
  unfold readSeverity
  split
  · rename_i grade hfound
    exact absurd (Severity.ofName?_eq_some_iff.mp hfound) (h grade)
  · rfl

theorem readCount_eq_error {s : Setting} {given : Value} {e : SettingError} (hs : s ≠ .severity)
    (h : s.Objects given e) : readCount s given = .error e := by
  cases h with
  | severity => exact absurd rfl hs
  | notAnInteger _ hint =>
      unfold readCount
      split
      · exact absurd rfl (hint _)
      · exact absurd rfl (hint _)
      · rfl
  | negative _ hneg =>
      obtain ⟨n, rfl⟩ := Int.eq_negSucc_of_lt_zero hneg
      rfl

namespace Configuration

/-- What a setting is, as a configuration shows it. -/
def value (c : Configuration) : Setting → Value
  | .severity => .text c.severity.name
  | .maxSummaryLineCount => .int c.maxSummaryLineCount
  | .minimalNumberOfParameters => .int c.minimalNumberOfParameters

variable {b c c' c'' : Configuration} {s : Setting} {given w : Value} {e : SettingError}

/-- A configuration is known from its settings. -/
theorem ext_value (h : ∀ s, c.value s = c'.value s) : c = c' := by
  obtain ⟨severity, maximum, minimum⟩ := c
  obtain ⟨severity', maximum', minimum'⟩ := c'
  obtain rfl : severity = severity' :=
    Severity.name_injective (Value.text.inj (h .severity))
  obtain rfl : maximum = maximum' := Int.ofNat.inj (Value.int.inj (h .maxSummaryLineCount))
  obtain rfl : minimum = minimum' := Int.ofNat.inj (Value.int.inj (h .minimalNumberOfParameters))
  rfl

/-- Whatever a setting is, it would be taken. -/
theorem takes_value (c : Configuration) (s : Setting) : s.Takes (c.value s) (c.value s) := by
  cases s with
  | severity =>
      have hlower : Text.lower c.severity.name = c.severity.name := by cases c.severity <;> rfl
      exact .severity hlower
  | maxSummaryLineCount => exact .count (by simp) c.maxSummaryLineCount
  | minimalNumberOfParameters => exact .count (by simp) c.minimalNumberOfParameters

/-- A value that is taken changes the one setting. -/
theorem exists_set (c : Configuration) (h : s.Takes given w) :
    ∃ c', c.set s given = .ok c' ∧ c'.value s = w ∧ ∀ r, r ≠ s → c'.value r = c.value r := by
  cases h with
  | @severity _ grade h =>
      refine ⟨{ c with severity := grade }, ?_, rfl, ?_⟩
      · rw [set, readSeverity_eq_ok h]
        rfl
      · rintro (_ | _ | _) hr <;> first | rfl | exact absurd rfl hr
  | count hs n =>
      cases s with
      | severity => exact absurd rfl hs
      | maxSummaryLineCount =>
          refine ⟨{ c with maxSummaryLineCount := n }, rfl, rfl, ?_⟩
          rintro (_ | _ | _) hr <;> first | rfl | exact absurd rfl hr
      | minimalNumberOfParameters =>
          refine ⟨{ c with minimalNumberOfParameters := n }, rfl, rfl, ?_⟩
          rintro (_ | _ | _) hr <;> first | rfl | exact absurd rfl hr

theorem set_eq_error (c : Configuration) (h : s.Objects given e) : c.set s given = .error e := by
  cases s with
  | severity =>
      cases h with
      | severity h => rw [set, readSeverity_eq_error h]; rfl
      | notAnInteger hs => exact absurd rfl hs
      | negative hs => exact absurd rfl hs
  | maxSummaryLineCount => rw [set, readCount_eq_error (by simp) h]; rfl
  | minimalNumberOfParameters => rw [set, readCount_eq_error (by simp) h]; rfl

/-! ### One pair of a mapping -/

/-- The pair names a setting, and the setting takes the value. -/
def IsTaken (pair : Value × Value) : Prop :=
  ∃ s w, pair.1 = .text (Setting.name s) ∧ s.Takes pair.2 w

/-- Why a pair of a mapping is not taken. -/
inductive Objection : Value × Value → SettingError → Prop
  | unknown {key given : Value} (h : ∀ s, key ≠ .text (Setting.name s)) :
      Objection (key, given) (.unknownSetting key)
  | value {s : Setting} {given : Value} {e : SettingError} (h : s.Objects given e) :
      Objection (.text s.name, given) e

theorem isTaken_or_objection (pair : Value × Value) :
    IsTaken pair ∨ ∃ e, Objection pair e := by
  obtain ⟨key, given⟩ := pair
  by_cases hkey : ∃ s, key = .text (Setting.name s)
  · obtain ⟨s, rfl⟩ := hkey
    rcases s.takes_or_objects given with ⟨w, hw⟩ | ⟨e, he⟩
    · exact Or.inl ⟨s, w, rfl, hw⟩
    · exact Or.inr ⟨e, .value he⟩
  · exact Or.inr ⟨_, .unknown fun s hs => hkey ⟨s, hs⟩⟩

theorem applyPair_text (c : Configuration) (s : Setting) (given : Value) :
    c.applyPair (.text s.name, given) = c.set s given := by
  rw [applyPair, Setting.ofKey?_eq_some_iff.mpr rfl]

theorem applyPair_eq_error (c : Configuration) {pair : Value × Value} (h : Objection pair e) :
    c.applyPair pair = .error e := by
  cases h with
  | @unknown key given h =>
      unfold applyPair
      split
      · rename_i s hs
        exact absurd (Setting.ofKey?_eq_some_iff.mp hs) (h s)
      · rfl
  | value h => rw [applyPair_text, set_eq_error c h]

end Configuration

end DocLint
