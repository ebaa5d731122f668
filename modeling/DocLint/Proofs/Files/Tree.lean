/-
What stands where in a tree of files.

A tree is a list of entries, and a list could tell two things of one place or have names that no
system gives.  `FileTree.Proper` rules this out.  In a proper tree the files below a place are
those that stand at the names behind it (`Proper.mem_filesBelow_iff`), each of them once
(`Proper.nodup_filesBelow`), and a path that goes on behind the place of another one leads to what
stands at its names (`find_below`).
-/
import DocLint.Proofs.Files.Path
import DocLint.Proofs.Keyed

namespace DocLint.FileTree

/-- A tree as a system keeps it. -/
structure Proper (t : FileTree) : Prop where
  /-- There is one thing at a place. -/
  unique : (t.entries.map (·.1)).Nodup
  /-- The top is a directory without saying. -/
  noTop : ∀ e ∈ t.entries, e.1 ≠ []
  wellNamed : t.WellNamed
  /-- Two points are no name: they lead back to the directory above. -/
  noParent : ∀ e ∈ t.entries, ['.', '.'] ∉ e.1

/-- There is a file at a place. -/
def HasFile (t : FileTree) (place : List Text) : Prop :=
  ∃ bytes, t.entryAt? place = some (.file bytes)

variable {t : FileTree} {place names front back found : List Text} {entry : FileEntry}

/-! ### Places -/

theorem Proper.entryAt?_eq_some_iff (ht : t.Proper) (h : place ≠ []) :
    t.entryAt? place = some entry ↔ (place, entry) ∈ t.entries := by
  have hentry : t.entryAt? place = (t.entries.find? fun e => e.1 == place).map (·.2) := by
    cases place with
    | nil => exact absurd rfl h
    | cons name more => rfl
  rw [hentry, Option.map_eq_some_iff]
  constructor
  · rintro ⟨e, hfind, rfl⟩
    obtain ⟨he, rfl⟩ := (find?_key_eq_some_iff_of_nodup ht.unique).mp hfind
    exact he
  · intro hmem
    exact ⟨_, (find?_key_eq_some_iff_of_nodup ht.unique).mpr ⟨hmem, rfl⟩, rfl⟩

theorem HasFile.not_directory (h : t.HasFile place) : t.entryAt? place ≠ some .directory := by
  obtain ⟨bytes, hbytes⟩ := h
  simp [hbytes]

theorem Proper.hasFile_iff (ht : t.Proper) :
    t.HasFile place ↔ ∃ bytes, (place, .file bytes) ∈ t.entries := by
  by_cases h : place = []
  · subst h
    constructor
    · intro hfile
      exact absurd rfl hfile.not_directory
    · rintro ⟨bytes, hmem⟩
      exact absurd rfl (ht.noTop _ hmem)
  · unfold HasFile
    simp only [ht.entryAt?_eq_some_iff h]

/-! ### Files below a place -/

theorem mem_filesBelow_iff :
    names ∈ t.filesBelow place ↔ ∃ bytes, (place ++ names, .file bytes) ∈ t.entries := by
  unfold filesBelow
  rw [List.mem_filterMap]
  constructor
  · rintro ⟨⟨whole, entry⟩, hmem, hbelow⟩
    cases entry with
    | file bytes =>
        simp only [Option.ite_none_right_eq_some, Option.some.injEq] at hbelow
        obtain ⟨hfront, rfl⟩ := hbelow
        obtain ⟨behind, rfl⟩ := List.isPrefixOf_iff_prefix.mp hfront
        exact ⟨bytes, by rwa [List.drop_left]⟩
    | directory => simp at hbelow
    | device => simp at hbelow
  · rintro ⟨bytes, hmem⟩
    exact ⟨_, hmem, by simp⟩

theorem Proper.mem_filesBelow_iff (ht : t.Proper) :
    names ∈ t.filesBelow place ↔ t.HasFile (place ++ names) := by
  rw [FileTree.mem_filesBelow_iff, ht.hasFile_iff]

/-- The files below a place, each with all its names, are some of the entries. -/
theorem sublist_filesBelow (t : FileTree) (place : List Text) :
    ((t.filesBelow place).map (place ++ ·)).Sublist (t.entries.map (·.1)) := by
  unfold filesBelow
  induction t.entries with
  | nil => exact List.Sublist.slnil
  | cons e entries ih =>
      obtain ⟨whole, entry⟩ := e
      cases entry with
      | directory => exact ih.cons whole
      | device => exact ih.cons whole
      | file bytes =>
          by_cases hfront : place.isPrefixOf whole = true
          · obtain ⟨behind, rfl⟩ := List.isPrefixOf_iff_prefix.mp hfront
            rw [List.filterMap_cons_some (b := behind) (by simp)]
            exact ih.cons_cons (place ++ behind)
          · rw [List.filterMap_cons_none (by simp [hfront])]
            exact ih.cons whole

theorem Proper.nodup_filesBelow (ht : t.Proper) (place : List Text) :
    (t.filesBelow place).Nodup :=
  List.Nodup.of_map _ (ht.unique.sublist (t.sublist_filesBelow place))

/-! ### Following names -/

/-- One step of a path. -/
theorem follow_cons_eq_ok_iff {name : Text} : t.follow place (name :: names) = .ok found ↔
    t.entryAt? place = some .directory ∧ Text.byteSize name ≤ maxNameSize ∧
      t.follow (if name = ['.', '.'] then place.dropLast else place ++ [name]) names = .ok found := by
  rw [follow]
  cases t.entryAt? place with
  | none => simp
  | some entry =>
      cases entry with
      | file bytes => simp
      | device => simp
      | directory =>
          by_cases hsize : maxNameSize < Text.byteSize name
          · simp [hsize, Nat.not_le.mpr hsize]
          · by_cases hparent : name = ['.', '.']
            · simp only [if_neg hsize, if_pos hparent, true_and, Nat.not_lt.mp hsize]
            · simp only [if_neg hsize, if_neg hparent, true_and, Nat.not_lt.mp hsize]

/-- A path passes the place that its first names lead to. -/
theorem exists_passed (h : t.follow place (front ++ back) = .ok found) :
    ∃ passed, t.follow place front = .ok passed ∧ t.follow passed back = .ok found := by
  induction front generalizing place with
  | nil => exact ⟨place, rfl, h⟩
  | cons name front ih =>
      obtain ⟨hdirectory, hsize, hmore⟩ := follow_cons_eq_ok_iff.mp h
      obtain ⟨passed, hfront, hback⟩ := ih hmore
      exact ⟨passed, follow_cons_eq_ok_iff.mpr ⟨hdirectory, hsize, hfront⟩, hback⟩

theorem eq_append_of_follow (h : ['.', '.'] ∉ names) (hfollow : t.follow place names = .ok found) :
    found = place ++ names := by
  induction names generalizing place with
  | nil =>
      obtain rfl := Except.ok.inj hfollow
      rw [List.append_nil]
  | cons name more ih =>
      rw [List.mem_cons, not_or] at h
      obtain ⟨-, -, hmore⟩ := follow_cons_eq_ok_iff.mp hfollow
      rw [if_neg (Ne.symm h.1)] at hmore
      rw [ih h.2 hmore, List.append_assoc, List.singleton_append]

theorem find_eq_ok_iff {p : Path} :
    t.find p = .ok (found, entry) ↔ t.place p = .ok found ∧ t.entryAt? found = some entry := by
  unfold find
  cases hplace : t.place p with
  | error e => simp [bind, Except.bind]
  | ok place =>
      cases hentry : t.entryAt? place with
      | none =>
          simp only [bind, Except.bind, hentry, Except.ok.injEq, throw, throwThe,
            MonadExceptOf.throw, reduceCtorEq, false_iff, not_and]
          rintro rfl
          simp [hentry]
      | some there =>
          simp only [bind, Except.bind, hentry, pure, Except.pure, Except.ok.injEq, Prod.mk.injEq]
          constructor
          · rintro ⟨rfl, rfl⟩
            exact ⟨rfl, hentry⟩
          · rintro ⟨rfl, hthere⟩
            rw [hentry] at hthere
            exact ⟨rfl, Option.some.inj hthere⟩

theorem follow_of_place {p : Path} (h : t.place p = .ok found) :
    t.follow (t.start p) p.parts = .ok found := by
  unfold FileTree.place at h
  split at h
  · simp at h
  · split at h
    · simp at h
    · exact h

/-- What a path leads to stands behind what the path is below. -/
theorem find_below {p : Path} {entry' : FileEntry} (hp : t.find p = .ok (place, entry))
    (hnames : ['.', '.'] ∉ names) (h : t.find (p.below names) = .ok (found, entry')) :
    found = place ++ names ∧ t.entryAt? found = some entry' := by
  obtain ⟨hplace, -⟩ := find_eq_ok_iff.mp hp
  obtain ⟨hfound, hentry⟩ := find_eq_ok_iff.mp h
  obtain ⟨passed, hfront, hback⟩ := exists_passed (follow_of_place hfound)
  have hpassed : t.follow (t.start p) p.parts = .ok passed := hfront
  rw [follow_of_place hplace] at hpassed
  obtain rfl := Except.ok.inj hpassed
  exact ⟨eq_append_of_follow hnames hback, hentry⟩

end DocLint.FileTree
