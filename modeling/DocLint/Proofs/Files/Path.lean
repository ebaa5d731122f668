/-
The text of a path tells it from all others.

A path that was read from a text has names without slashes, and none of them is empty or a
point (`wellFormed_ofText`).  Such a path is read back from its text (`ofText_text`), so two
files that are found under the same text are found under the same path.  What the names of a
tree are is up to the system that the tree is of; `FileTree.WellNamed` asks of it what every
file system gives.
-/
import DocLint.Lint.Discovery
import DocLint.Proofs.Text.Blank

namespace DocLint

/-! ### Pieces between slashes -/

namespace Text

variable {c : Char} {s : Text}

theorem splitChar_cons (t : Text) : splitChar c (c :: t) = [] :: splitChar c t := by
  rw [splitChar, if_pos rfl]

theorem splitChar_append (h : c ∉ s) (t : Text) :
    splitChar c (s ++ c :: t) = s :: splitChar c t := by
  induction s with
  | nil => exact splitChar_cons t
  | cons d s ih =>
      have hd : d ≠ c := fun hd => h (by simp [hd])
      rw [List.cons_append, splitChar, if_neg hd, ih fun hc => h (by simp [hc])]

theorem splitChar_of_not_mem (h : c ∉ s) : splitChar c s = [s] := by
  induction s with
  | nil => rfl
  | cons d s ih =>
      have hd : d ≠ c := fun hd => h (by simp [hd])
      rw [splitChar, if_neg hd, ih fun hc => h (by simp [hc])]

/-- The split undoes the joining. -/
theorem splitChar_join {name : Text} {more : List Text} (h : ∀ x ∈ name :: more, c ∉ x) :
    splitChar c (join [c] (name :: more)) = name :: more := by
  induction more generalizing name with
  | nil => exact splitChar_of_not_mem (h name (by simp))
  | cons next more ih =>
      have hjoin : join [c] (name :: next :: more) = name ++ c :: join [c] (next :: more) := by
        simp [join]
      rw [hjoin, splitChar_append (h name (by simp)), ih fun x hx => h x (by simp [hx])]

theorem splitChar_replicate (n : Nat) (t : Text) :
    splitChar c (List.replicate n c ++ t) = List.replicate n [] ++ splitChar c t := by
  induction n with
  | zero => rfl
  | succ n ih =>
      rw [List.replicate_succ, List.cons_append, splitChar_cons, ih]
      rfl

theorem not_mem_of_mem_splitChar {t piece : Text} (h : piece ∈ splitChar c t) : c ∉ piece := by
  induction t generalizing piece with
  | nil =>
      obtain rfl : piece = [] := by simpa [splitChar] using h
      simp
  | cons d t ih =>
      rw [splitChar] at h
      by_cases hd : d = c
      · rw [if_pos hd] at h
        rcases List.mem_cons.mp h with rfl | h
        · simp
        · exact ih h
      rw [if_neg hd] at h
      cases hsplit : splitChar c t with
      | nil =>
          rw [hsplit] at h
          obtain rfl : piece = [d] := by simpa using h
          simpa using Ne.symm hd
      | cons first more =>
          rw [hsplit] at h
          rcases List.mem_cons.mp h with rfl | h
          · have hfirst : c ∉ first := ih (by rw [hsplit]; simp)
            intro hmem
            rcases List.mem_cons.mp hmem with rfl | hmem
            · exact hd rfl
            · exact hfirst hmem
          · exact ih (by rw [hsplit]; simp [h])

end Text

/-! ### Paths and their texts -/

namespace Path

/-- Names lead somewhere and hold no slash, and there are no more slashes in front than count. -/
structure WellFormed (p : Path) : Prop where
  slashes_le : p.slashes ≤ 2
  names : ∀ name ∈ p.parts, isPart name = true ∧ '/' ∉ name

theorem wellFormed_ofText (t : Text) : (ofText t).WellFormed where
  slashes_le := by
    show (if _ = 2 then 2 else min _ 1) ≤ 2
    split
    · exact Nat.le_refl _
    · omega
  names := by
    intro name hname
    obtain ⟨hsplit, hpart⟩ := List.mem_filter.mp hname
    exact ⟨hpart, Text.not_mem_of_mem_splitChar hsplit⟩

theorem WellFormed.below {p : Path} (h : p.WellFormed) {names : List Text}
    (hnames : ∀ name ∈ names, isPart name = true ∧ '/' ∉ name) : (p.below names).WellFormed where
  slashes_le := h.slashes_le
  names := by
    intro name hname
    rcases List.mem_append.mp hname with hname | hname
    · exact h.names name hname
    · exact hnames name hname

theorem text_cons (slashes : Nat) (name : Text) (more : List Text) :
    text ⟨slashes, name :: more⟩ =
      List.replicate slashes '/' ++ Text.join ['/'] (name :: more) := by
  cases slashes with
  | zero => rfl
  | succ n => rfl

/-- The slashes in front are all that the text begins with. -/
theorem takeWhile_text {slashes : Nat} {name : Text} {more : List Text}
    (h : WellFormed ⟨slashes, name :: more⟩) :
    (text ⟨slashes, name :: more⟩).takeWhile (· == '/') = List.replicate slashes '/' := by
  obtain ⟨hpart, hslash⟩ := h.names name (by simp)
  rw [text_cons]
  refine takeWhile_append_of_stop ?_ ?_
  · intro c hc
    rw [(List.mem_replicate.mp hc).2]
    rfl
  · intro c hc
    cases hname : name with
    | nil =>
        rw [hname] at hpart
        simp [isPart] at hpart
    | cons d r =>
        have hd : d = c := by
          cases more with
          | nil => simpa [Text.join, hname] using hc
          | cons next more => simpa [Text.join, hname] using hc
        refine beq_false_of_ne ?_
        rintro rfl
        exact hslash (by rw [hname, hd]; simp)

/-- Between slashes the text has the names and nothing else that leads anywhere. -/
theorem splitChar_text {slashes : Nat} {name : Text} {more : List Text}
    (h : WellFormed ⟨slashes, name :: more⟩) :
    (Text.splitChar '/' (text ⟨slashes, name :: more⟩)).filter isPart = name :: more := by
  have hnone : (List.replicate slashes ([] : Text)).filter isPart = [] := by
    rw [List.filter_replicate]
    rfl
  rw [text_cons, Text.splitChar_replicate, Text.splitChar_join fun x hx => (h.names x hx).2,
    List.filter_append, hnone, List.nil_append, List.filter_eq_self]
  exact fun x hx => (h.names x hx).1

/-- **A path is read back from its text.** -/
theorem ofText_text {p : Path} (h : p.WellFormed) : ofText p.text = p := by
  obtain ⟨slashes, parts⟩ := p
  have hslashes : slashes ≤ 2 := h.slashes_le
  cases parts with
  | nil =>
      obtain rfl | rfl | rfl : slashes = 0 ∨ slashes = 1 ∨ slashes = 2 := by omega
      · rfl
      · rfl
      · rfl
  | cons name more =>
      unfold ofText
      simp only
      rw [takeWhile_text h, splitChar_text h, List.length_replicate]
      congr 1
      split
      · omega
      · omega

/-- **Paths of the same text are the same path.** -/
theorem text_injective {p q : Path} (hp : p.WellFormed) (hq : q.WellFormed)
    (h : p.text = q.text) : p = q := by
  rw [← ofText_text hp, h, ofText_text hq]

end Path

/-! ### Files that are found -/

namespace FileTree

/-- Every name in the tree is one that leads somewhere, and holds no slash. -/
def WellNamed (t : FileTree) : Prop :=
  ∀ e ∈ t.entries, ∀ name ∈ e.1, Path.isPart name = true ∧ '/' ∉ name

variable {t : FileTree}

theorem wellFormed_of_mem_swiftFiles (ht : t.WellNamed) {path found : Path} (hpath : path.WellFormed)
    (h : found ∈ t.swiftFiles path) : found.WellFormed := by
  unfold swiftFiles at h
  split at h
  · obtain ⟨names, hnames, rfl⟩ := List.mem_map.mp h
    refine hpath.below ?_
    unfold swiftFilesBelow at hnames
    rw [List.mem_mergeSort, List.mem_filter] at hnames
    obtain ⟨entry, hentry, hbelow⟩ := List.mem_filterMap.mp hnames.1
    intro name hname
    refine ht entry hentry name ?_
    obtain ⟨whole, contents⟩ := entry
    cases contents with
    | file bytes =>
        simp only at hbelow
        split at hbelow
        · obtain rfl := Option.some.inj hbelow
          exact List.mem_of_mem_drop hname
        · simp at hbelow
    | directory => simp at hbelow
    | device => simp at hbelow
  · split at h
    · obtain rfl := List.mem_singleton.mp h
      exact hpath
    · simp at h

theorem wellFormed_of_mem_swiftFilesOf (ht : t.WellNamed) {paths : List Path}
    (hpaths : ∀ p ∈ paths, p.WellFormed) {found : Path} (h : found ∈ t.swiftFilesOf paths) :
    found.WellFormed := by
  obtain ⟨path, hpath, hfound⟩ := List.mem_flatMap.mp h
  exact wellFormed_of_mem_swiftFiles ht (hpaths path hpath) hfound

end FileTree

end DocLint
