/-
Which files a directory stands for, and which of them can be named.

A directory stands for the files below it that have the ending of Swift files, less those with a
name on the way down that is left out.  It does not matter by which names the directory itself is
reached (`swiftFilesOf_directory`).

A file that is named is judged by the suffix of its name, and not by its ending.  The two are the
same but for one name: that of the ending alone, whose point is its first character and so begins
no suffix (`suffixOf_eq_swiftSuffix_iff`).  A file of this name is found below a directory and
passed over when it is named (`swiftFilesOf_named_iff`).
-/
import DocLint.Proofs.Files.Tree

namespace DocLint

/-! ### Names -/

namespace Discovery

variable {names : List Text}

/-- The last of the names ends as that of a Swift file. -/
def SwiftNamed (names : List Text) : Prop := ∃ above stem, names = above ++ [stem ++ swiftSuffix]

/-- No name is among those that are left out. -/
def Included (names : List Text) : Prop := ∀ name ∈ names, name ∉ excludedNames

/-- The last of the names has the suffix of Swift files. -/
def SuffixNamed (names : List Text) : Prop :=
  ∃ above stem, stem ≠ [] ∧ names = above ++ [stem ++ swiftSuffix]

theorem isSwiftName_iff : isSwiftName names = true ↔ SwiftNamed names := by
  unfold isSwiftName SwiftNamed
  rw [List.isSuffixOf_iff_suffix]
  constructor
  · rintro ⟨stem, hstem⟩
    cases hlast : names.getLast? with
    | none =>
        rw [hlast] at hstem
        simp [swiftSuffix] at hstem
    | some name =>
        rw [hlast, Option.getD_some] at hstem
        obtain ⟨above, rfl⟩ := List.getLast?_eq_some_iff.mp hlast
        exact ⟨above, stem, by rw [hstem]⟩
  · rintro ⟨above, stem, rfl⟩
    rw [List.getLast?_concat]
    exact ⟨stem, rfl⟩

theorem isIncluded_iff : isIncluded names = true ↔ Included names := by
  simp [isIncluded, Included]

theorem namesAtMost_iff {a b : List Text} : namesAtMost a b = true ↔ ¬ b < a := by
  unfold namesAtMost
  rw [Bool.not_eq_true', decide_eq_false_iff_not]

theorem namesAtMost_trans (a b c : List Text) (hab : namesAtMost a b = true)
    (hbc : namesAtMost b c = true) : namesAtMost a c = true := by
  rw [namesAtMost_iff, List.not_lt] at hab hbc ⊢
  exact List.le_trans hab hbc

theorem namesAtMost_total (a b : List Text) : (namesAtMost a b || namesAtMost b a) = true := by
  rw [Bool.or_eq_true, namesAtMost_iff, namesAtMost_iff, List.not_lt, List.not_lt]
  exact List.le_total a b

theorem lt_of_namesAtMost {a b : List Text} (h : namesAtMost a b = true) (hne : a ≠ b) : a < b := by
  rw [namesAtMost_iff, List.not_lt] at h
  by_contra hlt
  exact hne (List.le_antisymm h (List.not_lt.mp hlt))

/-- There is one name that has the ending and not the suffix. -/
theorem swiftNamed_iff :
    SwiftNamed names ↔ SuffixNamed names ∨ ∃ above, names = above ++ [swiftSuffix] := by
  constructor
  · rintro ⟨above, stem, rfl⟩
    by_cases hstem : stem = []
    · exact Or.inr ⟨above, by rw [hstem, List.nil_append]⟩
    · exact Or.inl ⟨above, stem, hstem, rfl⟩
  · rintro (⟨above, stem, -, rfl⟩ | ⟨above, rfl⟩)
    · exact ⟨above, stem, rfl⟩
    · exact ⟨above, [], rfl⟩

theorem included_swiftSuffix_iff {above : List Text} :
    Included (above ++ [swiftSuffix]) ↔ Included above := by
  have hsuffix : swiftSuffix ∉ excludedNames := by decide
  unfold Included
  rw [List.forall_mem_append, List.forall_mem_singleton]
  exact and_iff_left hsuffix

/-- The suffix of a name is that of Swift files if the name has this ending and more in front. -/
theorem suffixOf_eq_swiftSuffix_iff {name : Text} :
    Path.suffixOf name = swiftSuffix ↔ ∃ stem, stem ≠ [] ∧ name = stem ++ swiftSuffix := by
  unfold Path.suffixOf
  simp only
  constructor
  · intro h
    split at h
    · simp [swiftSuffix] at h
    · rename_i hlong
      refine ⟨_, ?_, (List.take_append_drop _ name).symm.trans (congrArg _ h)⟩
      rw [Bool.or_eq_true, decide_eq_true_eq, not_or] at hlong
      refine List.ne_nil_of_length_pos ?_
      rw [List.length_take]
      omega
  · rintro ⟨stem, hstem, rfl⟩
    have hending : ((stem ++ swiftSuffix).reverse.takeWhile (· != '.')).reverse =
        "swift".toList := by
      rw [List.reverse_append]
      rfl
    have hpos : 0 < stem.length := List.length_pos_iff.mpr hstem
    have hlength : (stem ++ swiftSuffix).length = stem.length + 6 := List.length_append
    have hshort : ¬(("swift".toList.isEmpty || decide ((stem ++ swiftSuffix).length ≤
        "swift".toList.length + 1)) = true) := by
      rw [hlength]
      simp
      omega
    rw [hending, if_neg hshort, hlength]
    exact List.drop_left' (by simp)

theorem suffixNamed_concat_iff {above : List Text} {name : Text} :
    SuffixNamed (above ++ [name]) ↔ Path.suffixOf name = swiftSuffix := by
  rw [suffixOf_eq_swiftSuffix_iff]
  constructor
  · rintro ⟨above', stem, hstem, h⟩
    obtain ⟨-, hname⟩ := List.append_inj' h rfl
    exact ⟨stem, hstem, List.singleton_inj.mp hname⟩
  · rintro ⟨stem, hstem, rfl⟩
    exact ⟨above, stem, hstem, rfl⟩

end Discovery

open Discovery

theorem Path.suffix_below (path : Path) (above : List Text) (name : Text) :
    (path.below (above ++ [name])).suffix = suffixOf name := by
  unfold suffix Path.name below
  rw [← List.append_assoc, List.getLast?_concat]
  rfl

theorem Path.below_injective (path : Path) : Function.Injective path.below := by
  intro names names' h
  exact List.append_cancel_left (congrArg parts h)

namespace FileTree

variable {t : FileTree} {path : Path} {place : List Text}

/-! ### Walking -/

theorem mem_swiftFilesBelow_iff (ht : t.Proper) {names : List Text} :
    names ∈ t.swiftFilesBelow place ↔
      t.HasFile (place ++ names) ∧ SwiftNamed names ∧ Included names := by
  unfold swiftFilesBelow
  rw [List.mem_mergeSort, List.mem_filter, Bool.and_eq_true, isSwiftName_iff, isIncluded_iff,
    ht.mem_filesBelow_iff]

theorem pairwise_swiftFilesBelow (ht : t.Proper) (place : List Text) :
    (t.swiftFilesBelow place).Pairwise (· < ·) := by
  have hnodup := (ht.nodup_filesBelow place).filter fun names =>
    isSwiftName names && isIncluded names
  refine pairwise_mergeSort_of_nodup namesAtMost_trans namesAtMost_total
    (fun _ _ => lt_of_namesAtMost) ?_
  rwa [List.map_id']

theorem swiftFilesOf_eq_map (h : t.find path = .ok (place, .directory)) :
    t.swiftFilesOf [path] = (t.swiftFilesBelow place).map path.below := by
  rw [swiftFilesOf, List.flatMap_singleton, swiftFiles, h]

theorem mem_swiftFilesOf_directory_iff (ht : t.Proper)
    (h : t.find path = .ok (place, .directory)) {found : Path} :
    found ∈ t.swiftFilesOf [path] ↔ ∃ names, found = path.below names ∧
      t.HasFile (place ++ names) ∧ SwiftNamed names ∧ Included names := by
  rw [swiftFilesOf_eq_map h, List.mem_map]
  simp only [mem_swiftFilesBelow_iff ht, and_comm, eq_comm]

/-- **A directory stands for the Swift files below it**, in strictly ascending order of their names
and so each of them once.  Only the names behind those of the directory are looked at. -/
theorem swiftFilesOf_directory (ht : t.Proper) (h : t.find path = .ok (place, .directory)) :
    (∀ found, found ∈ t.swiftFilesOf [path] ↔ ∃ names, found = path.below names ∧
      t.HasFile (place ++ names) ∧ SwiftNamed names ∧ Included names) ∧
    (t.swiftFilesOf [path]).Pairwise fun a b => a.parts < b.parts := by
  refine ⟨fun found => mem_swiftFilesOf_directory_iff ht h, ?_⟩
  rw [swiftFilesOf_eq_map h]
  refine List.pairwise_map.mpr ((pairwise_swiftFilesBelow ht place).imp ?_)
  intro a b hlt
  exact List.append_left_lt hlt

/-- A directory that is itself left out, and below it names in an order that is not that of their
texts, a directory with the ending of Swift files and another one that is left out. -/
def podsTree : FileTree :=
  ⟨[(["Pods".toList], .directory),
    (["Pods".toList, "a-b.swift".toList], .file .empty),
    (["Pods".toList, "a".toList], .directory),
    (["Pods".toList, "a".toList, "c.swift".toList], .file .empty),
    (["Pods".toList, ".git".toList], .directory),
    (["Pods".toList, ".git".toList, "d.swift".toList], .file .empty),
    (["Pods".toList, "e.swift".toList], .directory)], []⟩

theorem proper_podsTree : podsTree.Proper where
  unique := by decide
  noTop := by decide
  wellNamed := by
    unfold WellNamed
    decide
  noParent := by decide

/-- The files of that directory. -/
theorem swiftFilesOf_directory_pods :
    podsTree.find ⟨0, ["Pods".toList]⟩ = .ok (["Pods".toList], .directory) ∧
      (⟨0, ["Pods".toList, "a".toList, "c.swift".toList]⟩ : Path) ∈
        podsTree.swiftFilesOf [⟨0, ["Pods".toList]⟩] ∧
      (⟨0, ["Pods".toList, ".git".toList, "d.swift".toList]⟩ : Path) ∉
        podsTree.swiftFilesOf [⟨0, ["Pods".toList]⟩] ∧
      (podsTree.swiftFilesOf [⟨0, ["Pods".toList]⟩]).Pairwise fun a b => a.parts < b.parts := by
  have hfind : podsTree.find ⟨0, ["Pods".toList]⟩ = .ok (["Pods".toList], .directory) := rfl
  obtain ⟨hfound, hordered⟩ := swiftFilesOf_directory proper_podsTree hfind
  refine ⟨hfind, (hfound _).mpr ?_, ?_, hordered⟩
  · exact ⟨["a".toList, "c.swift".toList], rfl, ⟨_, rfl⟩, ⟨["a".toList], ['c'], rfl⟩,
      isIncluded_iff.mp (by decide)⟩
  · intro hmem
    obtain ⟨names, hnames, -, -, hincluded⟩ := (hfound _).mp hmem
    obtain rfl : [".git".toList, "d.swift".toList] = names :=
      Path.below_injective ⟨0, ["Pods".toList]⟩ hnames
    exact absurd (isIncluded_iff.mpr hincluded) (by decide)

/-! ### Naming -/

/-- A file that is named stands for itself, or for nothing. -/
theorem mem_swiftFiles_named_iff (ht : t.Proper) (h : t.find path = .ok (place, .directory))
    {names : List Text} (hfile : t.HasFile (place ++ names)) {found : Path} :
    found ∈ t.swiftFiles (path.below names) ↔ found = path.below names ∧ SuffixNamed names := by
  obtain ⟨-, hdirectory⟩ := find_eq_ok_iff.mp h
  obtain ⟨bytes, hmem⟩ := ht.hasFile_iff.mp hfile
  have hparent : ['.', '.'] ∉ names :=
    fun hname => ht.noParent _ hmem (List.mem_append_right place hname)
  unfold swiftFiles
  split
  · rename_i place' hfind
    obtain ⟨rfl, hentry⟩ := find_below h hparent hfind
    exact absurd hentry hfile.not_directory
  · rcases List.eq_nil_or_concat names with rfl | ⟨above, name, rfl⟩
    · rw [List.append_nil] at hfile
      exact absurd hdirectory hfile.not_directory
    · rw [List.concat_eq_append, suffixNamed_concat_iff, Path.suffix_below]
      by_cases hsuffix : Path.suffixOf name = swiftSuffix
      · rw [if_pos hsuffix, List.mem_singleton]
        exact (and_iff_left hsuffix).symm
      · rw [if_neg hsuffix]
        exact iff_of_false List.not_mem_nil fun hfound => hsuffix hfound.2

variable {files : List Path}

/-- These are the paths of the files below a directory, less those with a name that is left out. -/
def ListsFiles (t : FileTree) (path : Path) (place : List Text) (files : List Path) : Prop :=
  ∀ p, p ∈ files ↔ ∃ names, p = path.below names ∧ t.HasFile (place ++ names) ∧ Included names

theorem listsFiles_filesBelow (ht : t.Proper) (path : Path) (place : List Text) :
    t.ListsFiles path place (((t.filesBelow place).filter isIncluded).map path.below) := by
  intro p
  simp only [List.mem_map, List.mem_filter, isIncluded_iff, ht.mem_filesBelow_iff]
  constructor
  · rintro ⟨names, ⟨hfile, hincluded⟩, rfl⟩
    exact ⟨names, rfl, hfile, hincluded⟩
  · rintro ⟨names, rfl, hfile, hincluded⟩
    exact ⟨names, ⟨hfile, hincluded⟩, rfl⟩

theorem mem_swiftFilesOf_named_iff (ht : t.Proper) (h : t.find path = .ok (place, .directory))
    (hfiles : t.ListsFiles path place files) {found : Path} :
    found ∈ t.swiftFilesOf files ↔ ∃ names, found = path.below names ∧
      t.HasFile (place ++ names) ∧ SuffixNamed names ∧ Included names := by
  unfold swiftFilesOf
  rw [List.mem_flatMap]
  constructor
  · rintro ⟨p, hp, hfound⟩
    obtain ⟨names, rfl, hfile, hincluded⟩ := (hfiles p).mp hp
    obtain ⟨rfl, hnamed⟩ := (mem_swiftFiles_named_iff ht h hfile).mp hfound
    exact ⟨names, rfl, hfile, hnamed, hincluded⟩
  · rintro ⟨names, rfl, hfile, hnamed, hincluded⟩
    exact ⟨_, (hfiles _).mpr ⟨names, rfl, hfile, hincluded⟩,
      (mem_swiftFiles_named_iff ht h hfile).mpr ⟨rfl, hnamed⟩⟩

/-- What is found below a directory and not by name. -/
def IsPassedOver (t : FileTree) (place above : List Text) : Prop :=
  t.HasFile (place ++ (above ++ [swiftSuffix])) ∧ Included above

/-- **Naming the files below a directory finds what the directory stands for, less the files whose
name is the ending alone.**  So the two find the same files just if there is no such file. -/
theorem swiftFilesOf_named_iff (ht : t.Proper) (h : t.find path = .ok (place, .directory))
    (hfiles : t.ListsFiles path place files) :
    (∀ found, found ∈ t.swiftFilesOf [path] ↔ found ∈ t.swiftFilesOf files ∨
      ∃ above, found = path.below (above ++ [swiftSuffix]) ∧ t.IsPassedOver place above) ∧
    ((∀ found, found ∈ t.swiftFilesOf [path] ↔ found ∈ t.swiftFilesOf files) ↔
      ∀ above, ¬t.IsPassedOver place above) := by
  have hboth : ∀ found, found ∈ t.swiftFilesOf [path] ↔ found ∈ t.swiftFilesOf files ∨
      ∃ above, found = path.below (above ++ [swiftSuffix]) ∧ t.IsPassedOver place above := by
    intro found
    rw [mem_swiftFilesOf_directory_iff ht h, mem_swiftFilesOf_named_iff ht h hfiles]
    constructor
    · rintro ⟨names, hfound, hfile, hnamed, hincluded⟩
      rcases swiftNamed_iff.mp hnamed with hnamed | ⟨above, rfl⟩
      · exact Or.inl ⟨names, hfound, hfile, hnamed, hincluded⟩
      · exact Or.inr ⟨above, hfound, hfile, included_swiftSuffix_iff.mp hincluded⟩
    · rintro (⟨names, hfound, hfile, hnamed, hincluded⟩ | ⟨above, hfound, hfile, hincluded⟩)
      · exact ⟨names, hfound, hfile, swiftNamed_iff.mpr (Or.inl hnamed), hincluded⟩
      · exact ⟨_, hfound, hfile, swiftNamed_iff.mpr (Or.inr ⟨above, rfl⟩),
          included_swiftSuffix_iff.mpr hincluded⟩
  refine ⟨hboth, ?_, ?_⟩
  · intro hsame above hpassed
    have hfound := (hsame _).mp ((hboth _).mpr (Or.inr ⟨above, rfl, hpassed⟩))
    obtain ⟨names, hnames, -, hnamed, -⟩ := (mem_swiftFilesOf_named_iff ht h hfiles).mp hfound
    rw [← path.below_injective hnames, suffixNamed_concat_iff] at hnamed
    exact absurd hnamed (by decide)
  · intro hnone found
    rw [hboth]
    refine or_iff_left ?_
    rintro ⟨above, -, hpassed⟩
    exact hnone above hpassed

/-- The files of that directory have more in their names than the ending, so they are found when they
are named, too. -/
theorem swiftFilesOf_named_pods :
    podsTree.ListsFiles ⟨0, ["Pods".toList]⟩ ["Pods".toList]
        [⟨0, ["Pods".toList, "a-b.swift".toList]⟩,
          ⟨0, ["Pods".toList, "a".toList, "c.swift".toList]⟩] ∧
      ∀ found, found ∈ podsTree.swiftFilesOf [⟨0, ["Pods".toList]⟩] ↔
        found ∈ podsTree.swiftFilesOf [⟨0, ["Pods".toList, "a-b.swift".toList]⟩,
          ⟨0, ["Pods".toList, "a".toList, "c.swift".toList]⟩] := by
  have hfiles : podsTree.ListsFiles ⟨0, ["Pods".toList]⟩ ["Pods".toList]
      [⟨0, ["Pods".toList, "a-b.swift".toList]⟩,
        ⟨0, ["Pods".toList, "a".toList, "c.swift".toList]⟩] :=
    listsFiles_filesBelow proper_podsTree ⟨0, ["Pods".toList]⟩ ["Pods".toList]
  refine ⟨hfiles, (swiftFilesOf_named_iff proper_podsTree rfl hfiles).2.mpr ?_⟩
  rintro above ⟨hfile, -⟩
  have hnone : ∀ e ∈ podsTree.entries, e.1.getLast? ≠ some swiftSuffix := by decide
  obtain ⟨bytes, hmem⟩ := proper_podsTree.hasFile_iff.mp hfile
  refine hnone _ hmem ?_
  rw [← List.append_assoc, List.getLast?_concat]

/-- A tree with one file, whose name is the ending alone. -/
def bareTree : FileTree := ⟨[([swiftSuffix], .file .empty)], []⟩

/-- The file is below the directory and is not found by its name. -/
theorem not_swiftFilesOf_named_bare :
    bareTree.Proper ∧ bareTree.find ⟨0, []⟩ = .ok ([], .directory) ∧
      bareTree.ListsFiles ⟨0, []⟩ [] [⟨0, [swiftSuffix]⟩] ∧
      ¬∀ found, found ∈ bareTree.swiftFilesOf [⟨0, []⟩] ↔
        found ∈ bareTree.swiftFilesOf [⟨0, [swiftSuffix]⟩] := by
  have hproper : bareTree.Proper :=
    ⟨by decide, by decide, by unfold WellNamed; decide, by decide⟩
  refine ⟨hproper, rfl, listsFiles_filesBelow hproper ⟨0, []⟩ [], ?_⟩
  intro hsame
  have hwalked : (⟨0, [swiftSuffix]⟩ : Path) ∈ bareTree.swiftFilesOf [⟨0, []⟩] :=
    (mem_swiftFilesOf_directory_iff hproper rfl).mpr
      ⟨[swiftSuffix], rfl, ⟨_, rfl⟩, ⟨[], [], rfl⟩, isIncluded_iff.mp (by decide)⟩
  exact absurd ((hsame _).mp hwalked) (by decide)

end FileTree

end DocLint
