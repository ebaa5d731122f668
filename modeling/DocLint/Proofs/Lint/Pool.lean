/-
Workers that share the files of a run.

Workers take up the files one after the other, no more of them at a time than there are jobs.
Any of them may be the next to be done, and the results are collected in any order.  A file
that cannot be read is skipped, unless the reason is that the system cannot be given its path:
this is not among the reasons that are looked for, so it ends the run (`Examined.raises`).

A step of the workers keeps what there is of each file (`Pool.Kept`) and leaves less to do
(`Pool.Step.work_lt`), and there is one as long as no result ends the run and not all are
collected (`Pool.exists_step`).  So a run collects the results of all files, in some order, or
it ends with a failure; which of the two it is depends on the paths alone.
-/
import Mathlib.Data.List.Perm.Basic
import Mathlib.Logic.Relation
import DocLint.Lint.Run

namespace DocLint

variable {t : FileTree} {rules : List Rule} {jobs : Int} {files paths : List Path}

/-! ### Results that end a run -/

namespace FileTree

theorem follow_ne_nullCharacter (place names : List Text) :
    t.follow place names ≠ .error .nullCharacter := by
  induction names generalizing place with
  | nil => simp [follow]
  | cons name more ih =>
      unfold follow
      cases t.entryAt? place with
      | none => simp
      | some entry =>
          cases entry with
          | file bytes => simp
          | device => simp
          | directory =>
              simp only
              split
              · simp
              · split
                · exact ih _
                · exact ih _

/-- Only what the path is can keep the system from looking for a file. -/
theorem find_eq_nullCharacter_iff {p : Path} :
    t.find p = .error .nullCharacter ↔ p.hasNull = true := by
  by_cases hnull : p.hasNull = true
  · have hplace : t.place p = .error .nullCharacter := by rw [place, if_pos hnull]
    simp [find, hplace, hnull, bind, Except.bind]
  · have hplace : t.place p ≠ .error .nullCharacter := by
      rw [place, if_neg hnull]
      split
      · simp
      · exact follow_ne_nullCharacter _ _
    simp only [hnull]
    unfold find
    cases hp : t.place p with
    | error e =>
        rw [hp] at hplace
        simpa [bind, Except.bind] using hplace
    | ok place =>
        cases hentry : t.entryAt? place with
        | none => simp [bind, Except.bind, hentry, throw, throwThe, MonadExceptOf.throw]
        | some entry => simp [bind, Except.bind, hentry, pure, Except.pure]

theorem readBytes_eq_nullCharacter_iff {p : Path} :
    t.readBytes p = .error .nullCharacter ↔ p.hasNull = true := by
  rw [← find_eq_nullCharacter_iff (t := t)]
  unfold readBytes
  cases t.find p with
  | error e => simp [bind, Except.bind]
  | ok found =>
      obtain ⟨place, entry⟩ := found
      cases entry with
      | file bytes => simp [bind, Except.bind, pure, Except.pure]
      | directory => simp [bind, Except.bind, throw, throwThe, MonadExceptOf.throw]
      | device => simp [bind, Except.bind, pure, Except.pure]

theorem readSource_eq_nullCharacter_iff {p : Path} :
    t.readSource p = .error .nullCharacter ↔ p.hasNull = true := by
  rw [← readBytes_eq_nullCharacter_iff (t := t)]
  unfold readSource readText
  cases t.readBytes p with
  | error e => simp [bind, Except.bind, Except.map]
  | ok bytes =>
      cases htext : Text.ofUtf8? bytes with
      | none => simp [bind, Except.bind, Except.map, htext, throw, throwThe, MonadExceptOf.throw]
      | some text => simp [bind, Except.bind, Except.map, htext, pure, Except.pure]

end FileTree

/-- Does the result end the run?  For every other reason a file that cannot be read is skipped. -/
def Examined.raises (e : Examined) : Bool :=
  match e.result with
  | .error .nullCharacter => true
  | _ => false

/-- It depends on the path whether the result ends the run. -/
theorem Examined.raises_examine (t : FileTree) (rules : List Rule) (p : Path) :
    (t.examine rules p).raises = p.hasNull := by
  rw [Bool.eq_iff_iff, ← FileTree.readSource_eq_nullCharacter_iff (t := t)]
  unfold FileTree.examine Examined.raises
  cases t.readSource p with
  | ok f => simp [Except.map]
  | error e => cases e <;> simp [Except.map]

/-- Results of files in some order are the results of files in that order. -/
theorem Examined.exists_files {collected : List Examined}
    (h : collected.Perm (files.map (t.examine rules))) :
    ∃ files' : List Path, files'.Perm files ∧ files'.map (t.examine rules) = collected := by
  have hpath : Examined.path ∘ t.examine rules = id := rfl
  refine ⟨collected.map Examined.path, ?_, ?_⟩
  · have hpaths := h.map Examined.path
    rwa [List.map_map, hpath, List.map_id] at hpaths
  · have hself : ∀ e ∈ collected, (t.examine rules ∘ Examined.path) e = id e := by
      intro e he
      obtain ⟨p, -, rfl⟩ := List.mem_map.mp (h.mem_iff.mp he)
      rfl
    rw [List.map_map, List.map_congr_left hself, List.map_id]

/-! ### Steps of the workers -/

/-- How far the workers are. -/
structure Pool where
  /-- The files that nobody has taken up. -/
  waiting : List Path
  /-- The files that are being examined. -/
  running : List Path := []
  /-- The results that have not been collected. -/
  finished : List Examined := []
  /-- The results so far, in the order they were collected. -/
  collected : List Examined := []

namespace Pool

variable {pool next : Pool}

/-- There is at least one worker, however few jobs are asked for. -/
inductive Step (t : FileTree) (rules : List Rule) (jobs : Int) : Pool → Pool → Prop
  | begin {path : Path} {waiting running : List Path} {finished collected : List Examined}
      (h : (running.length : Int) < max jobs 1) :
      Step t rules jobs ⟨path :: waiting, running, finished, collected⟩
        ⟨waiting, path :: running, finished, collected⟩
  | finish {path : Path} {waiting : List Path} (before : List Path) {after : List Path}
      {finished collected : List Examined} :
      Step t rules jobs ⟨waiting, before ++ path :: after, finished, collected⟩
        ⟨waiting, before ++ after, t.examine rules path :: finished, collected⟩
  | collect {e : Examined} {waiting running : List Path} (before : List Examined)
      {after collected : List Examined} (h : e.raises = false) :
      Step t rules jobs ⟨waiting, running, before ++ e :: after, collected⟩
        ⟨waiting, running, before ++ after, collected ++ [e]⟩

/-- Steps, as many as there may be. -/
def Run (t : FileTree) (rules : List Rule) (jobs : Int) : Pool → Pool → Prop :=
  Relation.ReflTransGen (Step t rules jobs)

/-- The results there are and those that there will be. -/
def results (t : FileTree) (rules : List Rule) (pool : Pool) : List Examined :=
  (pool.waiting ++ pool.running).map (t.examine rules) ++ (pool.finished ++ pool.collected)

/-- **A step loses no result and makes none up.** -/
theorem Step.results_perm (h : Step t rules jobs pool next) :
    (next.results t rules).Perm (pool.results t rules) := by
  cases h with
  | begin =>
      refine List.Perm.append_right _ (List.Perm.map _ ?_)
      exact List.perm_middle
  | finish =>
      simp only [results, List.map_append, List.map_cons, List.append_assoc, List.cons_append]
      refine List.Perm.append_left _ (List.Perm.append_left _ ?_)
      exact List.perm_middle
  | collect =>
      refine List.Perm.append_left _ ?_
      simp only [List.append_assoc, List.cons_append]
      refine List.Perm.append_left _ ?_
      rw [← List.append_assoc]
      exact List.perm_append_singleton _ _

/-- What holds of the workers of a run, however far they are. -/
structure Kept (t : FileTree) (rules : List Rule) (files : List Path) (pool : Pool) : Prop where
  results : (pool.results t rules).Perm (files.map (t.examine rules))
  collected : ∀ e ∈ pool.collected, e.raises = false

theorem kept_start : Kept t rules files { waiting := files } where
  results := by simp [Pool.results]
  collected := by simp

theorem Kept.step (hkept : Kept t rules files pool) (h : Step t rules jobs pool next) :
    Kept t rules files next where
  results := h.results_perm.trans hkept.results
  collected := by
    have hcollected := hkept.collected
    cases h with
    | begin => exact hcollected
    | finish => exact hcollected
    | collect hraises =>
        intro e he
        rcases List.mem_append.mp he with he | he
        · exact hcollected e he
        · rwa [List.mem_singleton.mp he]

/-- **It holds throughout a run.** -/
theorem Kept.run (hkept : Kept t rules files pool) (h : Run t rules jobs pool next) :
    Kept t rules files next := by
  induction h with
  | refl => exact hkept
  | tail _ hstep ih => exact ih.step hstep

/-- How many steps there are still to do. -/
def work (pool : Pool) : Nat :=
  3 * pool.waiting.length + 2 * pool.running.length + pool.finished.length

/-- **No run goes on for ever.** -/
theorem Step.work_lt (h : Step t rules jobs pool next) : next.work < pool.work := by
  cases h with
  | begin => simp only [work, List.length_cons]; omega
  | finish => simp only [work, List.length_append, List.length_cons]; omega
  | collect => simp only [work, List.length_append, List.length_cons]; omega

/-- Are the results of all files collected? -/
def isDone (pool : Pool) : Bool :=
  pool.waiting.isEmpty && pool.running.isEmpty && pool.finished.isEmpty

/-- Is there a result that ends the run? -/
def raises (pool : Pool) : Bool := pool.finished.any Examined.raises

/-- **The workers are never stuck.** -/
theorem exists_step (t : FileTree) (rules : List Rule) (jobs : Int) (pool : Pool)
    (hdone : pool.isDone = false) (hraises : pool.raises = false) :
    ∃ next, Step t rules jobs pool next := by
  obtain ⟨waiting, running, finished, collected⟩ := pool
  cases finished with
  | cons e more =>
      have he : e.raises = false := by
        simp only [raises, List.any_cons, Bool.or_eq_false_iff] at hraises
        exact hraises.1
      exact ⟨_, .collect [] he⟩
  | nil =>
      cases running with
      | cons path more => exact ⟨_, .finish []⟩
      | nil =>
          cases waiting with
          | cons path more =>
              refine ⟨_, .begin ?_⟩
              simp only [List.length_nil]
              omega
          | nil => simp [isDone] at hdone

/-- Wherever the workers are, they can come to an end. -/
theorem exists_end (t : FileTree) (rules : List Rule) (jobs : Int) (pool : Pool) :
    ∃ last, Run t rules jobs pool last ∧ (last.isDone = true ∨ last.raises = true) := by
  by_cases hdone : pool.isDone = true
  · exact ⟨pool, .refl, Or.inl hdone⟩
  by_cases hraises : pool.raises = true
  · exact ⟨pool, .refl, Or.inr hraises⟩
  obtain ⟨next, hstep⟩ := exists_step t rules jobs pool
    (Bool.eq_false_iff.mpr hdone) (Bool.eq_false_iff.mpr hraises)
  have hless := hstep.work_lt
  obtain ⟨last, hrun, hend⟩ := exists_end t rules jobs next
  exact ⟨last, hrun.head hstep, hend⟩
termination_by pool.work

end Pool

/-! ### Runs over the files that paths stand for -/

/-- The first of the paths of which it cannot be told whether it leads to something. -/
def FileTree.lookupProblem? (t : FileTree) (paths : List Path) : Option (Path × FileError) :=
  paths.findSome? fun p => (t.lookupFailure? p).map (p, ·)

/-- What may come out of a run: the report on the results as they were collected, or what ended
the run and for which path. -/
inductive LintRun (t : FileTree) (rules : List Rule) (jobs : Int) (paths : List Path) :
    Except (Path × FileError) Report → Prop
  | unfound {problem : Path × FileError} (h : t.lookupProblem? paths = some problem) :
      LintRun t rules jobs paths (.error problem)
  | raised {pool : Pool} {e : Examined} (h : t.lookupProblem? paths = none)
      (hrun : Pool.Run t rules jobs { waiting := t.swiftFilesOf paths } pool)
      (he : e ∈ pool.finished) (hraises : e.raises = true) :
      LintRun t rules jobs paths (.error (e.path, .nullCharacter))
  | done {collected : List Examined} (h : t.lookupProblem? paths = none)
      (hrun : Pool.Run t rules jobs { waiting := t.swiftFilesOf paths } ⟨[], [], [], collected⟩) :
      LintRun t rules jobs paths (.ok (.ofExamined collected))

/-- No path is too long for the system, and none of a file to check has a null character. -/
structure FileTree.Lintable (t : FileTree) (paths : List Path) : Prop where
  found : ∀ p ∈ paths, t.find p ≠ .error .nameTooLong
  readable : ∀ p ∈ t.swiftFilesOf paths, p.hasNull = false

theorem FileTree.lookupProblem?_eq_none_iff :
    t.lookupProblem? paths = none ↔ ∀ p ∈ paths, t.find p ≠ .error .nameTooLong := by
  unfold lookupProblem? lookupFailure?
  rw [List.findSome?_eq_none_iff]
  refine forall₂_congr fun p _ => ?_
  cases t.find p with
  | ok found => simp
  | error e => cases e <;> simp

/-- A run that the program makes succeeds under that condition alone. -/
theorem lintFailure?_eq_none_iff : lintFailure? t paths = none ↔ t.Lintable paths := by
  have hsplit : lintFailure? t paths = (t.lookupProblem? paths).or
      (((t.swiftFilesOf paths).find? Path.hasNull).map (·, .nullCharacter)) := rfl
  rw [hsplit, Option.or_eq_none_iff, FileTree.lookupProblem?_eq_none_iff]
  simp only [Option.map_eq_none_iff, List.find?_eq_none, Bool.not_eq_true]
  exact ⟨fun h => ⟨h.1, h.2⟩, fun h => ⟨h.found, h.readable⟩⟩

namespace LintRun

variable {outcome : Except (Path × FileError) Report}

/-- **A run comes to an end**, with whatever outcome. -/
theorem exists_outcome (t : FileTree) (rules : List Rule) (jobs : Int) (paths : List Path) :
    ∃ outcome, LintRun t rules jobs paths outcome := by
  cases hproblem : t.lookupProblem? paths with
  | some problem => exact ⟨_, .unfound hproblem⟩
  | none =>
      obtain ⟨last, hrun, hend⟩ := Pool.exists_end t rules jobs
        { waiting := t.swiftFilesOf paths }
      rcases hend with hdone | hraises
      · obtain ⟨waiting, running, finished, collected⟩ := last
        simp only [Pool.isDone, Bool.and_eq_true, List.isEmpty_iff] at hdone
        obtain ⟨⟨rfl, rfl⟩, rfl⟩ := hdone
        exact ⟨_, .done hproblem hrun⟩
      · obtain ⟨e, he, hraises⟩ := List.any_eq_true.mp hraises
        exact ⟨_, .raised hproblem hrun he hraises⟩

/-- **What a run reports on is every file, in some order**, and none of them ends a run. -/
theorem of_ok {report : Report} (h : LintRun t rules jobs paths (.ok report)) :
    t.Lintable paths ∧ ∃ files : List Path, files.Perm (t.swiftFilesOf paths) ∧
      report = .ofExamined (files.map (t.examine rules)) := by
  cases h with
  | @done collected hproblem hrun =>
      have hkept := Pool.kept_start.run hrun
      have hall : collected.Perm ((t.swiftFilesOf paths).map (t.examine rules)) := by
        simpa [Pool.results] using hkept.results
      refine ⟨⟨FileTree.lookupProblem?_eq_none_iff.mp hproblem, ?_⟩, ?_⟩
      · intro p hp
        rw [← Examined.raises_examine t rules]
        exact hkept.collected _ (hall.mem_iff.mpr (List.mem_map_of_mem hp))
      · obtain ⟨files, hfiles, rfl⟩ := Examined.exists_files hall
        exact ⟨files, hfiles, rfl⟩

/-- Under that condition a run does not fail. -/
theorem exists_report (hlintable : t.Lintable paths) (h : LintRun t rules jobs paths outcome) :
    ∃ report, outcome = .ok report := by
  cases h with
  | unfound hproblem =>
      rw [FileTree.lookupProblem?_eq_none_iff.mpr hlintable.found] at hproblem
      simp at hproblem
  | @raised pool e hproblem hrun he hraises =>
      have hresult : e ∈ (t.swiftFilesOf paths).map (t.examine rules) := by
        refine (Pool.kept_start.run hrun).results.mem_iff.mp ?_
        simp [Pool.results, he]
      obtain ⟨p, hp, rfl⟩ := List.mem_map.mp hresult
      rw [Examined.raises_examine, hlintable.readable p hp] at hraises
      simp at hraises
  | done => exact ⟨_, rfl⟩

end LintRun

end DocLint
