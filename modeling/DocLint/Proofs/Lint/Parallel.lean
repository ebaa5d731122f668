/-
Whoever is done first, the report is the same.

What a report says of the files is stated without the run (`ReportsOn`): the findings are the
one stable sort of those about each file that can be read, and the names of the others are in
order.  Findings that count as equal are about one path, and a path is that of one file
(`Path.text_injective`), so only the findings of one file stay in the order they came in.  That
order is the same whenever the file is examined, and if it is examined twice there is twice the
same.  Hence the report on files in another order is the same report (`ReportsOn.eq_of_perm`),
and so is that of workers, who collect the results of all files in some order.
-/
import DocLint.Proofs.Files.Path
import DocLint.Proofs.Lint.Pool
import DocLint.Proofs.Lint.Stored
import DocLint.Proofs.Report.StableSort

namespace DocLint

variable {t : FileTree} {rules : List Rule} {files files' : List Path}

/-! ### Findings of files -/

/-- The files that can be read, in the order they are found. -/
def FileTree.sourcesOf (t : FileTree) (files : List Path) : List SourceFile :=
  files.filterMap fun p => (t.readSource p).toOption

/-- The texts of the paths of the others. -/
def FileTree.unreadable (t : FileTree) (files : List Path) : List Text :=
  (files.filter fun p => !(t.readSource p).isOk).map Path.text

theorem FileTree.violations_examine (p : Path) :
    (t.examine rules p).violations = (t.readSource p).toOption.toList.flatMap fun f => f.lint rules := by
  unfold examine Examined.violations
  cases t.readSource p with
  | error e => rfl
  | ok f => simp [Except.map, Except.toOption]

theorem FileTree.flatMap_violations (files : List Path) :
    (files.map (t.examine rules)).flatMap Examined.violations =
      (t.sourcesOf files).flatMap fun f => f.lint rules := by
  rw [sourcesOf, List.filterMap_eq_flatMap_toList, List.flatMap_assoc, List.flatMap_map]
  simp only [violations_examine]

theorem FileTree.isSkipped_examine (p : Path) :
    (t.examine rules p).isSkipped = !(t.readSource p).isOk := by
  unfold examine Examined.isSkipped
  cases t.readSource p with
  | error e => rfl
  | ok f => rfl

theorem FileTree.skipped_eq (t : FileTree) (rules : List Rule) (files : List Path) :
    ((files.map (t.examine rules)).filter Examined.isSkipped).map (fun e => e.path.text) =
      t.unreadable files := by
  have hpath : (fun e : Examined => e.path.text) ∘ t.examine rules = Path.text := rfl
  have hskipped : Examined.isSkipped ∘ t.examine rules = fun p => !(t.readSource p).isOk :=
    funext isSkipped_examine
  rw [List.filter_map, List.map_map, hpath, hskipped, unreadable]

/-- Findings about a file are sorted under its path. -/
theorem FileTree.sortPath_of_mem {p : Path} {v : Violation}
    (hv : v ∈ (t.examine rules p).violations) : v.location.sortPath = p.text := by
  unfold examine Examined.violations at hv
  cases hread : t.readSource p with
  | error e => simp [hread, Except.map] at hv
  | ok f =>
      simp only [hread, Except.map] at hv
      obtain ⟨rule, -, hcheck⟩ := List.mem_flatMap.mp hv
      obtain ⟨d, hd, hfound⟩ := List.mem_filterMap.mp hcheck
      have hpath := (Rule.locatedIn_of_checkDeclaration hd hfound).path
      rw [(exists_stored_of_readSource hread).1] at hpath
      rw [Location.sortPath, hpath, Option.getD_some]

/-! ### The order of the files -/

/-- Findings that count as equal are all about the files of one path. -/
theorem filter_tied_flatMap (a : Violation) (files : List Path) :
    (files.flatMap fun p => (t.examine rules p).violations).filter (tied Violation.atMost a) =
      ((files.filter fun p => p.text = a.location.sortPath).flatMap fun p =>
        (t.examine rules p).violations).filter (tied Violation.atMost a) := by
  induction files with
  | nil => rfl
  | cons p files ih =>
      rw [List.flatMap_cons, List.filter_append, ih]
      by_cases hp : p.text = a.location.sortPath
      · rw [List.filter_cons_of_pos (by simpa using hp), List.flatMap_cons, List.filter_append]
      · rw [List.filter_cons_of_neg (by simpa using hp)]
        have hnone : ((t.examine rules p).violations).filter (tied Violation.atMost a) = [] := by
          refine List.filter_eq_nil_iff.mpr fun v hv htied => hp ?_
          rw [Violation.sortPath_eq_of_tied htied, FileTree.sortPath_of_mem hv]
        rw [hnone, List.nil_append]

/-- **The order of the files does not tell in what counts as equal.** -/
theorem filter_tied_of_perm (hperm : files.Perm files')
    (happart : ∀ p ∈ files, ∀ q ∈ files, p.text = q.text → p = q) (a : Violation) :
    ((t.sourcesOf files).flatMap fun f => f.lint rules).filter (tied Violation.atMost a) =
      ((t.sourcesOf files').flatMap fun f => f.lint rules).filter (tied Violation.atMost a) := by
  have hsame : files.filter (fun p => p.text = a.location.sortPath) =
      files'.filter fun p => p.text = a.location.sortPath := by
    -- The one is the other in another order, and all that is in them is one path.
    have hany : ∀ list : List Path, list.Pairwise fun _ _ => True :=
      fun _ => List.pairwise_of_forall fun _ _ => trivial
    refine List.Perm.eq_of_pairwise ?_ (hany _) (hany _) (hperm.filter _)
    intro p q hp hq _ _
    rw [List.mem_filter, decide_eq_true_eq] at hp hq
    exact happart p hp.1 q (hperm.mem_iff.mpr hq.1) (hp.2.trans hq.2.symm)
  rw [← FileTree.flatMap_violations, ← FileTree.flatMap_violations, List.flatMap_map,
    List.flatMap_map, filter_tied_flatMap, hsame, ← filter_tied_flatMap]

/-- What a report says of files, however it was made. -/
structure ReportsOn (t : FileTree) (rules : List Rule) (files : List Path) (r : Report) : Prop where
  violations : StableSort Violation.atMost ((t.sourcesOf files).flatMap fun f => f.lint rules)
    r.violations
  skipped : StableSort Text.atMost (t.unreadable files) r.skippedFiles
  count : r.filesChecked + r.skippedFiles.length = files.length

theorem reportsOn_ofExamined (t : FileTree) (rules : List Rule) (files : List Path) :
    ReportsOn t rules files (.ofExamined (files.map (t.examine rules))) := by
  unfold Report.ofExamined
  simp only [FileTree.flatMap_violations, FileTree.skipped_eq]
  refine ⟨stableSort_mergeSort Violation.atMost_trans Violation.atMost_total _,
    stableSort_mergeSort Text.atMost_trans Text.atMost_total _, ?_⟩
  have hlength : (t.unreadable files).length =
      ((files.map (t.examine rules)).filter Examined.isSkipped).length := by
    rw [← FileTree.skipped_eq t rules, List.length_map]
  have hle := List.length_filter_le Examined.isSkipped (files.map (t.examine rules))
  simp only [List.length_mergeSort, List.length_map] at hle ⊢
  omega

/-- **There is one report on the files, in whatever order they are.** -/
theorem ReportsOn.eq_of_perm {r r' : Report} (h : ReportsOn t rules files r)
    (h' : ReportsOn t rules files' r') (hperm : files.Perm files')
    (happart : ∀ p ∈ files, ∀ q ∈ files, p.text = q.text → p = q) : r = r' := by
  have hviolations : r.violations = r'.violations :=
    h.violations.unique Violation.atMost_total h'.violations (filter_tied_of_perm hperm happart)
  have hunreadable : (t.unreadable files).Perm (t.unreadable files') :=
    (hperm.filter _).map _
  have hskipped : r.skippedFiles = r'.skippedFiles := by
    refine List.Perm.eq_of_pairwise ?_ h.skipped.sorted h'.skipped.sorted
      (h.skipped.perm.trans (hunreadable.trans h'.skipped.perm.symm))
    intro a b _ _ hab hba
    exact Text.atMost_antisymm hab hba
  have hchecked : r.filesChecked = r'.filesChecked := by
    have hcount := h.count
    have hcount' := h'.count
    rw [hskipped, hperm.length_eq] at hcount
    omega
  obtain ⟨violations, checked, skipped⟩ := r
  obtain ⟨violations', checked', skipped'⟩ := r'
  simp only at hviolations hskipped hchecked
  rw [hviolations, hskipped, hchecked]

/-! ### Runs in other orders -/

variable {paths paths' : List Path} {jobs : Int}

theorem FileTree.swiftFilesOf_perm (h : paths'.Perm paths) :
    (t.swiftFilesOf paths').Perm (t.swiftFilesOf paths) :=
  h.flatMap_right _

theorem FileTree.Lintable.of_perm (h : t.Lintable paths) (hperm : paths'.Perm paths) :
    t.Lintable paths' where
  found := fun p hp => h.found p (hperm.mem_iff.mp hp)
  readable := fun p hp => h.readable p ((swiftFilesOf_perm hperm).mem_iff.mp hp)

/-- **Workers make the report of the program**, whoever is done first. -/
theorem LintRun.eq_lintPaths (ht : t.WellNamed) (hpaths : ∀ p ∈ paths, p.WellFormed)
    (hperm : paths'.Perm paths) {report : Report} (h : LintRun t rules jobs paths' (.ok report)) :
    report = lintPaths t rules paths := by
  obtain ⟨-, files, hfiles, rfl⟩ := h.of_ok
  have hall := hfiles.trans (FileTree.swiftFilesOf_perm hperm)
  refine (reportsOn_ofExamined t rules files).eq_of_perm (reportsOn_ofExamined t rules _) hall ?_
  intro p hp q hq
  exact Path.text_injective (FileTree.wellFormed_of_mem_swiftFilesOf ht hpaths (hall.mem_iff.mp hp))
    (FileTree.wellFormed_of_mem_swiftFilesOf ht hpaths (hall.mem_iff.mp hq))

/-- **A run in parallel gives the report of the program**, for every number of jobs and every
order of the paths and of the results.  There is none if a given path is too long to be looked up or
a file to check has a null character in its path, and in a `FileTree` for no other reason.  What a
search of a directory may stumble over (files whose paths have become too long below it, directories
that stand too deep) is no part of such a tree.  A report lists the files that cannot be read, and
what is found about the others is found without these too. -/
theorem lintRun_iff (ht : t.WellNamed) (hpaths : ∀ p ∈ paths, p.WellFormed) (rules : List Rule) :
    (∀ jobs, (∃ report, LintRun t rules jobs paths (.ok report)) ↔ t.Lintable paths) ∧
      (t.Lintable paths →
        ReportsOn t rules (t.swiftFilesOf paths) (lintPaths t rules paths) ∧
        (∀ paths', paths'.Perm paths → ∀ jobs outcome,
          LintRun t rules jobs paths' outcome ↔ outcome = .ok (lintPaths t rules paths)) ∧
        ∀ t' paths', FileTree.sourcesOf t' (t'.swiftFilesOf paths') =
            t.sourcesOf (t.swiftFilesOf paths) →
          (lintPaths t' rules paths').violations = (lintPaths t rules paths).violations) := by
  refine ⟨?_, fun hlintable => ⟨reportsOn_ofExamined t rules _, ?_, ?_⟩⟩
  · intro jobs
    constructor
    · rintro ⟨report, hrun⟩
      exact hrun.of_ok.1
    · intro hlintable
      obtain ⟨outcome, hrun⟩ := LintRun.exists_outcome t rules jobs paths
      obtain ⟨report, rfl⟩ := hrun.exists_report hlintable
      exact ⟨report, hrun⟩
  · intro paths' hperm jobs outcome
    have hsuccess : ∀ outcome, LintRun t rules jobs paths' outcome →
        outcome = .ok (lintPaths t rules paths) := by
      intro outcome hrun
      obtain ⟨report, rfl⟩ := hrun.exists_report (hlintable.of_perm hperm)
      rw [hrun.eq_lintPaths ht hpaths hperm]
    refine ⟨hsuccess outcome, ?_⟩
    rintro rfl
    obtain ⟨outcome, hrun⟩ := LintRun.exists_outcome t rules jobs paths'
    rwa [hsuccess outcome hrun] at hrun
  · intro t' paths' hsources
    refine (reportsOn_ofExamined t' rules _).violations.unique Violation.atMost_total
      (reportsOn_ofExamined t rules _).violations ?_
    intro a
    rw [hsources]

/-- The tree of one file, which lies in the directory that relative paths start from. -/
theorem wellNamed_treeWith (stored : Text) : (treeWith stored).WellNamed := by
  intro e he name hname
  obtain rfl := List.mem_singleton.mp he
  obtain rfl := List.mem_singleton.mp hname
  decide

/-- A path that is given twice, and one that leads to nothing. -/
def twicePaths : List Path := ["a.swift", "a.swift", "b.swift"].map fun s => Path.ofText s.toList

theorem wellFormed_twicePaths : ∀ p ∈ twicePaths, p.WellFormed := by
  intro p hp
  obtain ⟨s, -, rfl⟩ := List.mem_map.mp hp
  exact Path.wellFormed_ofText _

/-- In another order there is the same to say, whoever is done first. -/
theorem lintRun_iff_twice :
    ((treeWith (belowLine ['\n'])).WellNamed ∧ (∀ p ∈ twicePaths, p.WellFormed) ∧
      (treeWith (belowLine ['\n'])).Lintable twicePaths) ∧ ∀ jobs outcome,
      LintRun (treeWith (belowLine ['\n'])) [parameterRule] jobs twicePaths.reverse outcome ↔
        outcome = .ok (lintPaths (treeWith (belowLine ['\n'])) [parameterRule] twicePaths) := by
  have hlintable : (treeWith (belowLine ['\n'])).Lintable twicePaths :=
    lintFailure?_eq_none_iff.mp (by decide)
  obtain ⟨-, hsame⟩ := lintRun_iff (wellNamed_treeWith _) wellFormed_twicePaths [parameterRule]
  exact ⟨⟨wellNamed_treeWith _, wellFormed_twicePaths, hlintable⟩,
    (hsame hlintable).2.1 _ (List.reverse_perm _)⟩

/-- Beside the file that can be read, a path with a null character. -/
def nullPaths : List Path := ["a.swift", "b\x00.swift"].map fun s => Path.ofText s.toList

/-- Both are files to check, and no run gives a report on them. -/
theorem not_lintRun_nullPaths :
    (treeWith (belowLine ['\n'])).swiftFilesOf nullPaths = nullPaths ∧ ∀ jobs report,
      ¬ LintRun (treeWith (belowLine ['\n'])) [parameterRule] jobs nullPaths (.ok report) := by
  have hfound : (treeWith (belowLine ['\n'])).swiftFilesOf nullPaths = nullPaths := by decide
  refine ⟨hfound, fun jobs report hrun => ?_⟩
  have hreadable := hrun.of_ok.1.readable
  rw [hfound] at hreadable
  exact absurd (hreadable _ (List.mem_cons_of_mem _ (List.mem_singleton.mpr rfl))) (by decide)

end DocLint
