/-
What the exit code of a check of files says.

A check looks for what is wrong in a fixed order, and the first thing that is wrong decides:
a path that leads nowhere, then the format, the configuration or the bound of the grade, and
then, if there should be none, a finding that is grave enough.  `promisedExitCode` is that
order without the run.  The exit code is the promised one unless loading the configuration
has no answer: then it is 1, as for a finding, where 2 is promised (`exitCode_run`).

How a report is handed over has no part in this.  Options that agree on what is checked
(`ChecksAlike`) lead to the same exit code, whatever format they ask for, how many files may be
done at a time, and what is shown of the log.

All this is so for any options, any readers of settings files and any console.  Of the console it is
asked that it shows the report (`Delivers`), and of the readers nothing.
-/
import DocLint.CommandLine.Run
import DocLint.Proofs.Config.Loading
import DocLint.Proofs.Lint.Parallel
import DocLint.Proofs.Lint.Stored
import DocLint.Report.Markup

namespace DocLint

/-! ### Long integers -/

namespace Json

variable {r : Text} (hdigits : ∀ d ∈ '9' :: r, isDigit d = true)
  (hlong : Text.maxDigits < ('9' :: r).length)

include hdigits hlong

/-- Digits behind a nine are an integer, and there may be too many of them. -/
theorem number_digits : number ('9' :: r) = .error (.tooManyDigits ('9' :: r).length) := by
  have hwhole : whole? ('9' :: r) = some ('9' :: r, []) := by
    rw [whole?, if_pos (by decide), List.takeWhile_eq_self_iff.mpr hdigits,
      List.dropWhile_eq_nil_iff.mpr hdigits]
    simp
  have hunsigned : unsigned false ('9' :: r) = .error (.tooManyDigits ('9' :: r).length) := by
    rw [unsigned, hwhole]
    exact if_pos hlong
  have hnan : after? "NaN".toList ('9' :: r) = none := rfl
  have hinfinity : after? "Infinity".toList ('9' :: r) = none := rfl
  rw [number, hnan, hinfinity]
  · exact hunsigned
  · simp

theorem read_digits : read ('9' :: r) = .error (.tooManyDigits ('9' :: r).length) := by
  have hskip : skipSpace ('9' :: r) = '9' :: r := rfl
  have hvalue : value 0 (2 * ('9' :: r).length + 2) ('9' :: r) = number ('9' :: r) := rfl
  rw [read, hskip, hvalue, number_digits hdigits hlong]
  rfl

end Json

namespace CommandLine

variable {δ : Type} {readers : Readers δ} {renderer : Renderer} {tree : FileTree}
  {environment : List (Text × Text)} {options : LintOptions}

/-! ### What decides -/

/-- The outcome of loading the configuration of a check. -/
def loaded (readers : Readers δ) (tree : FileTree) (environment : List (Text × Text))
    (options : LintOptions) : Except LoadError Configuration :=
  (Configuration.load readers tree options.config environment {}).result

/-- Some path leads nowhere. -/
def MissesPath (tree : FileTree) (options : LintOptions) : Prop :=
  ∃ p ∈ options.paths, tree.leadsSomewhere p = false

def KnownFormat (options : LintOptions) : Prop :=
  options.format ∈ ["console".toList, "json".toList, "xcode".toList]

/-- No bound is set, or its name is that of a grade in upper or lower case. -/
def KnownBound (options : LintOptions) : Prop :=
  options.minSeverity = [] ∨ ∃ s : Severity, s.name = Text.lower options.minSeverity

/-- There is a finding, and it is as grave as the bound if one is set. -/
def FindsViolation (readers : Readers δ) (tree : FileTree) (environment : List (Text × Text))
    (options : LintOptions) : Prop :=
  ∃ config, loaded readers tree environment options = .ok config ∧
    ∃ v ∈ (lintPaths tree (Registry.builtIn.allRules config) options.paths).violations,
      ∀ s : Severity, s.name = Text.lower options.minSeverity → v.severity.atLeast s = true

open Classical in
/-- The exit code that a check is to have. -/
noncomputable def promisedExitCode (readers : Readers δ) (tree : FileTree)
    (environment : List (Text × Text)) (options : LintOptions) : Nat :=
  if MissesPath tree options then 1
  else if ¬KnownFormat options ∨ (∀ config, loaded readers tree environment options ≠ .ok config) ∨
      ¬KnownBound options then 2
  else if options.isStrict = true ∧ FindsViolation readers tree environment options then 1
  else 0

/-- The report can be handed over: the console shows it, and the file for it can be written. -/
structure Delivers (readers : Readers δ) (renderer : Renderer) (tree : FileTree)
    (environment : List (Text × Text)) (options : LintOptions) : Prop where
  shown : options.format = "console".toList → ∀ config bound,
    loaded readers tree environment options = .ok config →
    bound? options.minSeverity = some bound →
    ((bounded bound (lintPaths tree (Registry.builtIn.allRules config)
      options.paths)).console renderer).failure = none
  written : ∀ path, options.output = some path → ∃ place, tree.writablePlace path = .ok place

/-! ### Paths, formats, bounds -/

theorem leadsSomewhere_of_lookupFailure? {p : Path} {error : FileError}
    (h : tree.lookupFailure? p = some error) : tree.leadsSomewhere p = false := by
  unfold FileTree.lookupFailure? at h
  split at h
  · rename_i hfind
    rw [FileTree.leadsSomewhere, hfind]
  · simp at h

/-- There is something wrong with the paths exactly if one of them leads nowhere. -/
theorem pathProblem?_eq_none_iff : pathProblem? tree options.paths = none ↔
    ¬MissesPath tree options := by
  unfold pathProblem? MissesPath
  rw [Option.or_eq_none_iff, List.findSome?_eq_none_iff, Option.map_eq_none_iff,
    List.find?_eq_none]
  constructor
  · rintro ⟨-, hfind⟩ ⟨p, hp, hmissing⟩
    exact absurd (hfind p hp) (by simp [hmissing])
  · intro hnone
    have hall : ∀ p ∈ options.paths, tree.leadsSomewhere p = true := by
      intro p hp
      by_contra hmissing
      exact hnone ⟨p, hp, by simpa using hmissing⟩
    refine ⟨fun p hp => ?_, fun p hp => by simp [hall p hp]⟩
    rw [Option.map_eq_none_iff]
    cases hfailure : tree.lookupFailure? p with
    | none => rfl
    | some error =>
        have hmissing := leadsSomewhere_of_lookupFailure? hfailure
        rw [hall p hp] at hmissing
        cases hmissing

theorem exitCode_of_pathProblem? {ending : Ending}
    (h : pathProblem? tree options.paths = some ending) : ending.exitCode = 1 := by
  unfold pathProblem? at h
  rcases Option.or_eq_some_iff.mp h with hfailure | ⟨-, hmissing⟩
  · obtain ⟨p, -, hp⟩ := List.exists_of_findSome?_eq_some hfailure
    obtain ⟨error, -, rfl⟩ := Option.map_eq_some_iff.mp hp
    rfl
  · obtain ⟨p, -, rfl⟩ := Option.map_eq_some_iff.mp hmissing
    rfl

theorem ofName?_eq_none_iff : ReportFormat.ofName? options.format = none ↔
    ¬KnownFormat options := by
  unfold ReportFormat.ofName? KnownFormat
  split
  · simp_all
  · split
    · simp_all
    · split <;> simp_all

theorem ofName?_eq_some_iff {t : Text} {s : Severity} :
    Severity.ofName? t = some s ↔ s.name = t := by
  unfold Severity.ofName? Severity.all
  constructor
  · intro h
    simpa using List.find?_some h
  · rintro rfl
    cases s with
    | warning => rfl
    | error => rfl

theorem bound?_eq_none_iff : bound? options.minSeverity = none ↔ ¬KnownBound options := by
  unfold bound? KnownBound
  cases hname : options.minSeverity with
  | nil => simp
  | cons c r =>
      rw [List.isEmpty_cons, if_neg (by simp), Option.map_eq_none_iff, Option.eq_none_iff_forall_ne_some]
      simp [ofName?_eq_some_iff]

/-- A bounded report holds the findings that are as grave as the bound. -/
theorem mem_bounded_iff {bound : Option Severity} (hbound : bound? options.minSeverity = some bound)
    {r : Report} {v : Violation} : v ∈ (bounded bound r).violations ↔ v ∈ r.violations ∧
      ∀ s : Severity, s.name = Text.lower options.minSeverity → v.severity.atLeast s = true := by
  unfold bound? at hbound
  split at hbound
  · rename_i hempty
    obtain rfl := Option.some.inj hbound
    rw [List.isEmpty_iff.mp hempty]
    refine ⟨fun hv => ⟨hv, fun s hs => ?_⟩, fun hv => hv.1⟩
    cases s <;> cases hs
  · obtain ⟨s, hs, rfl⟩ := Option.map_eq_some_iff.mp hbound
    have hname : ∀ s' : Severity, s'.name = Text.lower options.minSeverity ↔ s' = s := by
      intro s'
      rw [← ofName?_eq_some_iff, hs, Option.some_inj, eq_comm]
    simp only [hname, forall_eq]
    exact List.mem_filter

/-! ### The ending of a check -/

theorem exitCode_verdict (isStrict : Bool) (r : Report) :
    (verdict isStrict r).exitCode = if isStrict = true ∧ r.violations ≠ [] then 1 else 0 := by
  unfold verdict Report.hasViolations
  cases isStrict with
  | false => rfl
  | true =>
      cases hviolations : r.violations with
      | nil => simp [Ending.exitCode]
      | cons v more => simp [Ending.exitCode]

/-- A report that can be handed over is judged by its findings, in whatever format. -/
theorem ending_deliver {format : ReportFormat} {config : Configuration} {bound : Option Severity}
    (hdelivers : Delivers readers renderer tree environment options)
    (hformat : ReportFormat.ofName? options.format = some format)
    (hconfig : loaded readers tree environment options = .ok config)
    (hbound : bound? options.minSeverity = some bound) {r : Report}
    (hr : r = bounded bound (lintPaths tree (Registry.builtIn.allRules config) options.paths)) :
    (deliver renderer tree options format r).ending = verdict options.isStrict r := by
  have hsaved : ∀ document : Text, ∀ path, options.output = some path →
      (saveReport tree options.isStrict r document path).ending = verdict options.isStrict r := by
    intro document path hpath
    obtain ⟨place, hplace⟩ := hdelivers.written path hpath
    rw [saveReport, hplace]
  unfold deliver
  cases format with
  | console =>
      have hname : options.format = "console".toList := by
        unfold ReportFormat.ofName? at hformat
        split at hformat
        · assumption
        · split at hformat
          · cases hformat
          · split at hformat <;> cases hformat
      have hshown := hdelivers.shown hname config bound hconfig hbound
      rw [← hr] at hshown
      show (showReport renderer options.isStrict r).ending = _
      rw [showReport, hshown]
  | json =>
      cases houtput : options.output with
      | none => rfl
      | some path => exact hsaved _ path houtput
  | xcode =>
      cases houtput : options.output with
      | none => rfl
      | some path => exact hsaved _ path houtput

/-- There is a finding exactly if one is left in the bounded report. -/
theorem bounded_ne_nil_iff {config : Configuration} {bound : Option Severity}
    (hconfig : loaded readers tree environment options = .ok config)
    (hbound : bound? options.minSeverity = some bound) :
    (bounded bound (lintPaths tree (Registry.builtIn.allRules config) options.paths)).violations ≠ []
      ↔ FindsViolation readers tree environment options := by
  rw [ne_eq, List.eq_nil_iff_forall_not_mem]
  unfold FindsViolation
  simp only [not_forall, not_not, hconfig, Except.ok.injEq, mem_bounded_iff hbound]
  constructor
  · rintro ⟨v, hv⟩
    exact ⟨config, rfl, v, hv⟩
  · rintro ⟨_, rfl, v, hv⟩
    exact ⟨v, hv⟩

open Classical in
/-- Under a configuration the bound is looked at, and then the findings. -/
theorem exitCode_lintWith {format : ReportFormat} {config : Configuration}
    (hdelivers : Delivers readers renderer tree environment options)
    (hformat : ReportFormat.ofName? options.format = some format)
    (hconfig : loaded readers tree environment options = .ok config) :
    (lintWith renderer tree options format config).ending.exitCode =
      if ¬KnownBound options then 2
      else if options.isStrict = true ∧ FindsViolation readers tree environment options then 1
      else 0 := by
  unfold lintWith
  cases hbound : bound? options.minSeverity with
  | none => rw [if_pos (bound?_eq_none_iff.mp hbound)]; rfl
  | some bound =>
      have hknown : KnownBound options := by
        by_contra hunknown
        rw [bound?_eq_none_iff.mpr hunknown] at hbound
        cases hbound
      rw [if_neg (not_not_intro hknown)]
      show (deliver renderer tree options format _).ending.exitCode = _
      rw [ending_deliver hdelivers hformat hconfig hbound rfl, exitCode_verdict]
      simp only [bounded_ne_nil_iff hconfig hbound]

open Classical in
/-- **The first thing that is wrong decides.**  Only a configuration that is neither loaded nor
rejected ends a check in another way than is promised. -/
theorem exitCode_lint (hdelivers : Delivers readers renderer tree environment options) :
    (lint readers renderer tree environment options).ending.exitCode =
      if ¬MissesPath tree options ∧ KnownFormat options ∧
          ¬Configuration.Answered (loaded readers tree environment options) then 1
      else promisedExitCode readers tree environment options := by
  unfold lint promisedExitCode
  cases hproblem : pathProblem? tree options.paths with
  | some ending =>
      have hmisses : MissesPath tree options := by
        by_contra hnone
        rw [pathProblem?_eq_none_iff.mpr hnone] at hproblem
        cases hproblem
      rw [if_neg (fun h => h.1 hmisses), if_pos hmisses]
      exact exitCode_of_pathProblem? hproblem
  | none =>
      have hpaths := pathProblem?_eq_none_iff.mp hproblem
      cases hformat : ReportFormat.ofName? options.format with
      | none =>
          have hunknown := ofName?_eq_none_iff.mp hformat
          rw [if_neg (fun h => hunknown h.2.1), if_neg hpaths, if_pos (Or.inl hunknown)]
          rfl
      | some format =>
          have hknown : KnownFormat options := by
            by_contra hunknown
            rw [ofName?_eq_none_iff.mpr hunknown] at hformat
            cases hformat
          have hload : (Configuration.load readers tree options.config environment {}).result =
              loaded readers tree environment options := rfl
          rw [if_neg hpaths]
          simp only [hload, hknown, hpaths, not_true_eq_false, not_false_eq_true, true_and, false_or]
          cases hloaded : loaded readers tree environment options with
          | ok config =>
              have hanswered := Configuration.Answered.configured config
              have hsome : ¬∀ config', Except.ok config ≠ (.ok config' : Except LoadError _) :=
                fun h => h config rfl
              rw [if_neg (not_not_intro hanswered)]
              simp only [hsome, false_or]
              exact exitCode_lintWith hdelivers hformat hloaded
          | error e =>
              have hnone : ∀ config, (.error e : Except LoadError Configuration) ≠ .ok config :=
                fun _ h => by cases h
              rw [if_pos (Or.inl hnone)]
              cases e with
              | rejected error =>
                  rw [if_neg (not_not_intro (Configuration.Answered.rejected error))]
                  rfl
              | faulty fault =>
                  rw [if_pos (fun h => by cases h)]
                  rfl
              | unreadable path error =>
                  rw [if_pos (fun h => by cases h)]
                  rfl

/-! ### Runs -/

/-- The options agree on what is checked, and on what a finding means. -/
structure ChecksAlike (o o' : LintOptions) : Prop where
  paths : o.paths = o'.paths
  config : o.config = o'.config
  minSeverity : o.minSeverity = o'.minSeverity
  isStrict : o.isStrict = o'.isStrict

section ChecksAlike

variable {options' : LintOptions} (h : ChecksAlike options options')

include h

theorem ChecksAlike.missesPath_iff : MissesPath tree options' ↔ MissesPath tree options := by
  rw [MissesPath, MissesPath, h.paths]

theorem ChecksAlike.loaded_eq :
    loaded readers tree environment options' = loaded readers tree environment options := by
  rw [loaded, loaded, h.config]

theorem ChecksAlike.promisedExitCode_eq (hknown : KnownFormat options)
    (hknown' : KnownFormat options') :
    promisedExitCode readers tree environment options' =
      promisedExitCode readers tree environment options := by
  have hformat : KnownFormat options' = KnownFormat options := propext (iff_of_true hknown' hknown)
  unfold promisedExitCode FindsViolation KnownBound
  rw [h.loaded_eq, hformat, propext h.missesPath_iff, h.paths, h.minSeverity, h.isStrict]

end ChecksAlike

/-- Where loading has no answer, 2 is promised. -/
theorem promisedExitCode_of_not_answered (hpaths : ¬MissesPath tree options)
    (h : ¬Configuration.Answered (loaded readers tree environment options)) :
    promisedExitCode readers tree environment options = 2 := by
  have hnone : ∀ config, loaded readers tree environment options ≠ .ok config := by
    intro config hconfig
    rw [hconfig] at h
    exact h (Configuration.Answered.configured config)
  rw [promisedExitCode, if_neg hpaths, if_pos (Or.inr (Or.inl hnone))]

open Classical in
/-- **The exit code of a check is the promised one exactly if loading the configuration has an
answer** or is not come to; otherwise it is 1.  Options that check alike have the same exit code,
and for any number of workers their report is the one that is judged. -/
theorem exitCode_run (hdelivers : Delivers readers renderer tree environment options) :
    (run readers renderer tree environment (.ok (.lint options))).ending.exitCode =
        (if ¬MissesPath tree options ∧ KnownFormat options ∧
            ¬Configuration.Answered (loaded readers tree environment options) then 1
          else promisedExitCode readers tree environment options) ∧
      ((run readers renderer tree environment (.ok (.lint options))).ending.exitCode =
          promisedExitCode readers tree environment options ↔
        MissesPath tree options ∨ ¬KnownFormat options ∨
          Configuration.Answered (loaded readers tree environment options)) ∧
      (∀ options', Delivers readers renderer tree environment options' →
        ChecksAlike options options' → KnownFormat options → KnownFormat options' →
        (run readers renderer tree environment (.ok (.lint options'))).ending.exitCode =
          (run readers renderer tree environment (.ok (.lint options))).ending.exitCode) ∧
      (tree.WellNamed → (∀ p ∈ options.paths, p.WellFormed) → ∀ rules report,
        LintRun tree rules options.jobs options.paths (.ok report) →
        report = lintPaths tree rules options.paths) := by
  have hcode := exitCode_lint hdelivers
  refine ⟨hcode, ?_, ?_, ?_⟩
  · show (lint readers renderer tree environment options).ending.exitCode = _ ↔ _
    rw [hcode]
    by_cases hunanswered : ¬MissesPath tree options ∧ KnownFormat options ∧
        ¬Configuration.Answered (loaded readers tree environment options)
    · obtain ⟨hpaths, hknown, hloaded⟩ := hunanswered
      rw [if_pos ⟨hpaths, hknown, hloaded⟩, promisedExitCode_of_not_answered hpaths hloaded]
      refine iff_of_false (by decide) ?_
      rintro (hmisses | hunknown | hanswered)
      · exact hpaths hmisses
      · exact hunknown hknown
      · exact hloaded hanswered
    · rw [if_neg hunanswered]
      exact iff_of_true rfl (by tauto)
  · intro options' hdelivers' halike hknown hknown'
    show (lint readers renderer tree environment options').ending.exitCode =
      (lint readers renderer tree environment options).ending.exitCode
    rw [exitCode_lint hdelivers', hcode, halike.promisedExitCode_eq hknown hknown',
      halike.loaded_eq, propext halike.missesPath_iff, propext (iff_of_true hknown' hknown)]
  · intro hnamed hwell rules report hrun
    exact hrun.eq_lintPaths hnamed hwell (List.Perm.refl _)

/-! ### Two checks -/

/-- A strict check of a file, with a bound in upper case and a report for other programs. -/
def strictOptions : LintOptions :=
  { paths := [sourcePath], format := "xcode".toList, minSeverity := "WARNING".toList
    isStrict := true }

/-- Functions with one parameter are to be checked. -/
def strictEnvironment : List (Text × Text) :=
  [("STRUCTDOC_MINIMAL_NUMBER_OF_PARAMETERS".toList, "1".toList)]

theorem findsViolation_strict : FindsViolation Configuration.jsonReaders
    (treeWith (belowLine ['\n'])) strictEnvironment strictOptions := by
  have hrules : Registry.builtIn.allRules { minimalNumberOfParameters := 1 } = [parameterRule] := by
    simp [Registry.allRules, Registry.builtIn, parameterRule]
  refine ⟨{ minimalNumberOfParameters := 1 }, rfl, belowLineFinding, ?_, ?_⟩
  · rw [hrules]
    exact belowLineFinding_mem (by decide)
  · intro s hs
    cases s with
    | warning => rfl
    | error => exact absurd hs (by decide)

/-- The file has a finding, and there should be none. -/
theorem exitCode_run_strict :
    Delivers Configuration.jsonReaders Markup.renderer (treeWith (belowLine ['\n']))
        strictEnvironment strictOptions ∧
      (run Configuration.jsonReaders Markup.renderer (treeWith (belowLine ['\n']))
        strictEnvironment (.ok (.lint strictOptions))).ending.exitCode = 1 := by
  have hdelivers : Delivers Configuration.jsonReaders Markup.renderer
      (treeWith (belowLine ['\n'])) strictEnvironment strictOptions :=
    ⟨fun hformat => absurd hformat (by decide), fun path hpath => by cases hpath⟩
  have hpaths : ¬MissesPath (treeWith (belowLine ['\n'])) strictOptions :=
    pathProblem?_eq_none_iff.mp rfl
  have hloaded : loaded Configuration.jsonReaders (treeWith (belowLine ['\n'])) strictEnvironment
      strictOptions = .ok { minimalNumberOfParameters := 1 } := rfl
  have hanswered : Configuration.Answered (loaded Configuration.jsonReaders
      (treeWith (belowLine ['\n'])) strictEnvironment strictOptions) :=
    hloaded ▸ Configuration.Answered.configured _
  refine ⟨hdelivers, ?_⟩
  rw [(exitCode_run hdelivers).1, if_neg (fun h => h.2.2 hanswered), promisedExitCode,
    if_neg hpaths, if_neg, if_pos ⟨rfl, findsViolation_strict⟩]
  rintro (hunknown | hnone | hunknown)
  · exact hunknown (by simp [KnownFormat, strictOptions])
  · exact hnone _ hloaded
  · exact hunknown (Or.inr ⟨.warning, by decide⟩)

/-- A file to check, and a settings file. -/
def checkedWith (stored : Text) : FileTree :=
  ⟨[(["a.swift".toList], .file .empty),
    ([".structdoc.json".toList], .file stored.utf8.toByteArray)], []⟩

def checkedOptions : LintOptions := { paths := [sourcePath] }

theorem readText_checkedWith {stored : Text} (h : '\r' ∉ stored) :
    (checkedWith stored).readText (Configuration.pathOf ".structdoc.json".toList) = .ok stored := by
  have hbytes : (checkedWith stored).readBytes (Configuration.pathOf ".structdoc.json".toList) =
      .ok stored.utf8.toByteArray := rfl
  rw [Configuration.readText_eq hbytes, Text.ofUtf8?_eq_some_iff.mpr rfl]
  exact congrArg Except.ok (FileTree.lineFeeds_eq_self h)

/-- A fault in the settings file is all that loading comes to. -/
theorem loaded_checkedWith {stored : Text} {fault : Value.Fault}
    (htext : (checkedWith stored).readText (Configuration.pathOf ".structdoc.json".toList) =
      .ok stored) (hblank : Text.allBlank stored = false) (hread : Json.read stored = .error fault)
    (hfault : fault ≠ .malformed) :
    loaded Configuration.jsonReaders (checkedWith stored) [] checkedOptions =
      .error (.faulty fault) := by
  have htop : Configuration.jsonReaders.top? .json stored = .error fault := by
    rw [Readers.top?, if_neg (by simp [hblank])]
    show (Json.read stored).map _ = _
    rw [hread]
    rfl
  have hparse : Configuration.parse Configuration.jsonReaders
      (Configuration.pathOf ".structdoc.json".toList) stored = .error (.faulty fault) := by
    have hformat : ConfigFormat.ofSuffix? (Configuration.pathOf ".structdoc.json".toList).suffix =
        some .json := by decide
    rw [Configuration.parse, hformat]
    simp only [htop]
  refine Configuration.result_load_of_not_read [] {}
    (p := Configuration.pathOf ".structdoc.json".toList) rfl ?_
  rw [Configuration.fileSettings, htext]
  simp only [Except.mapError, bind, Except.bind, hparse]

/-- An integer of more digits than are read. -/
def longNumber : Text := '9' :: List.replicate Text.maxDigits '9'

theorem eq_nine_of_mem_longNumber {d : Char} (h : d ∈ longNumber) : d = '9' := by
  rcases List.mem_cons.mp h with rfl | hmem
  · rfl
  · exact List.eq_of_mem_replicate hmem

theorem readText_longNumber : (checkedWith longNumber).readText
    (Configuration.pathOf ".structdoc.json".toList) = .ok longNumber :=
  readText_checkedWith fun h => absurd (eq_nine_of_mem_longNumber h) (by decide)

theorem loaded_longNumber :
    loaded Configuration.jsonReaders (checkedWith longNumber) [] checkedOptions =
      .error (.faulty (.tooManyDigits longNumber.length)) := by
  have hread : Json.read longNumber = .error (.tooManyDigits longNumber.length) :=
    Json.read_digits (fun d hd => eq_nine_of_mem_longNumber hd ▸ rfl) (by simp)
  exact loaded_checkedWith readText_longNumber rfl hread (by simp)

/-- Reading the number fails in a way that is not foreseen, and the check ends as if it had found
something: without a configuration, and although it is not strict. -/
theorem exitCode_run_longNumber :
    Delivers Configuration.jsonReaders Markup.renderer (checkedWith longNumber) [] checkedOptions ∧
      (checkedWith longNumber).readText (Configuration.pathOf ".structdoc.json".toList) =
        .ok longNumber ∧
      ¬MissesPath (checkedWith longNumber) checkedOptions ∧ checkedOptions.isStrict = false ∧
      promisedExitCode Configuration.jsonReaders (checkedWith longNumber) [] checkedOptions = 2 ∧
      (run Configuration.jsonReaders Markup.renderer (checkedWith longNumber) []
        (.ok (.lint checkedOptions))).ending.exitCode = 1 := by
  have hdelivers : Delivers Configuration.jsonReaders Markup.renderer (checkedWith longNumber) []
      checkedOptions := by
    refine ⟨fun _ config bound hconfig => ?_, fun path hpath => by cases hpath⟩
    rw [loaded_longNumber] at hconfig
    cases hconfig
  have hpaths : ¬MissesPath (checkedWith longNumber) checkedOptions :=
    pathProblem?_eq_none_iff.mp rfl
  have hanswered : ¬Configuration.Answered
      (loaded Configuration.jsonReaders (checkedWith longNumber) [] checkedOptions) := by
    rw [loaded_longNumber]
    intro h
    cases h
  refine ⟨hdelivers, readText_longNumber, hpaths, rfl,
    promisedExitCode_of_not_answered hpaths hanswered, ?_⟩
  exact (exitCode_lint hdelivers).trans (if_pos ⟨hpaths, List.mem_cons_self, hanswered⟩)

end CommandLine

end DocLint
