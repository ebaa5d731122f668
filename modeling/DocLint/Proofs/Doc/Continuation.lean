/-
Lines that a list of parameters does not look at.

A line that is deeper than the items continues the item above it, and behind the first run of
lines with text nothing belongs to the list any more.  `Continued` puts lines of the first kind
into a run, as many as one likes and wherever one likes below the first item, and `Padded` adds
any lines of the second kind.  The list that is read stays the same, and so does the line that is
to blame when none is (`ofLines_padded`).

What the items are does not have to be known for this: the reader passes over a deeper line
whether it has already met an item, a fault or the end of the list.  Where a nested list ends is
looked for first, and a line that is deeper than an item is deeper than the header, too.
-/
import DocLint.Proofs.Doc.ListGrammar

namespace DocLint

namespace Doc

/-! ### Lines put in -/

/-- Lines, and the same lines with others put in that have text and are deeper. -/
inductive Continued (indent : Nat) : List DocLine → List DocLine → Prop
  | nil : Continued indent [] []
  | keep {l : DocLine} {ls ms : List DocLine} (h : Continued indent ls ms) :
      Continued indent (l :: ls) (l :: ms)
  | insert {l : DocLine} {ls ms : List DocLine} (hblank : l.isBlank = false)
      (hdeeper : indent < l.indent) (h : Continued indent ls ms) : Continued indent ls (l :: ms)

/-- A run of lines, and the same run with lines put in below its first item that are deeper than
that. -/
inductive ContinuedBelow : List DocLine → List DocLine → Prop
  | none (run : List DocLine) : ContinuedBelow run run
  /-- The first line of a flat list is its first item. -/
  | flat {item : DocLine} {ls ms : List DocLine} (hheader : Text.trim item.content ≠ parametersHeader)
      (h : Continued item.indent ls ms) : ContinuedBelow (item :: ls) (item :: ms)
  /-- The first item of a nested list is the line below the header. -/
  | nested {header item : DocLine} {ls ms : List DocLine}
      (hheader : Text.trim header.content = parametersHeader) (hdeeper : header.indent < item.indent)
      (h : Continued item.indent ls ms) : ContinuedBelow (header :: item :: ls) (header :: item :: ms)

/-- A section with text, and the same section with continuations in its first run and any lines
behind a blank one at its end. -/
inductive Padded : List DocLine → List DocLine → Prop
  | intro {blanks run continued rest trailing : List DocLine}
      (hblanks : ∀ l ∈ blanks, l.isBlank = true) (hrun : ∀ l ∈ run, l.isBlank = false)
      (hne : run ≠ []) (hrest : ∀ l, rest.head? = some l → l.isBlank = true)
      (hcontinued : ContinuedBelow run continued)
      (htrailing : ∀ l, trailing.head? = some l → l.isBlank = true) :
      Padded (blanks ++ run ++ rest) (blanks ++ continued ++ (rest ++ trailing))

variable {form : ListForm} {indent : Nat} {ls ms : List DocLine}

theorem Continued.not_blank (h : Continued indent ls ms) (hls : ∀ l ∈ ls, l.isBlank = false) :
    ∀ l ∈ ms, l.isBlank = false := by
  induction h with
  | nil => exact hls
  | @keep l ls ms _ ih =>
      obtain ⟨hl, hmore⟩ := List.forall_mem_cons.mp hls
      exact List.forall_mem_cons.mpr ⟨hl, ih hmore⟩
  | insert hblank _ _ ih => exact List.forall_mem_cons.mpr ⟨hblank, ih hls⟩

theorem ContinuedBelow.not_blank (h : ContinuedBelow ls ms) (hls : ∀ l ∈ ls, l.isBlank = false) :
    ∀ l ∈ ms, l.isBlank = false := by
  cases h with
  | none => exact hls
  | flat _ h => exact h.keep.not_blank hls
  | nested _ _ h => exact h.keep.keep.not_blank hls

/-- **The reader passes over the lines put in.** -/
theorem readItems_continued (h : Continued indent ls ms) :
    readItems form indent ms = readItems form indent ls := by
  induction h with
  | nil => rfl
  | keep _ ih => rw [readItems, readItems, ih]
  | insert _ hdeeper _ ih => rw [readItems_deeper hdeeper, ih]

/-- The part of a run that is deeper than a header is continued where the run is. -/
theorem Continued.takeWhile (h : Continued indent ls ms) {bound : Nat} (hbound : bound ≤ indent) :
    Continued indent (ls.takeWhile fun l => decide (bound < l.indent))
      (ms.takeWhile fun l => decide (bound < l.indent)) := by
  induction h with
  | nil => exact .nil
  | @keep l ls ms _ ih =>
      by_cases hl : bound < l.indent
      · rw [List.takeWhile_cons_of_pos (by simpa using hl),
          List.takeWhile_cons_of_pos (by simpa using hl)]
        exact ih.keep
      · rw [List.takeWhile_cons_of_neg (by simpa using hl),
          List.takeWhile_cons_of_neg (by simpa using hl)]
        exact .nil
  | @insert l ls ms hblank hdeeper _ ih =>
      rw [List.takeWhile_cons_of_pos (by simpa using Nat.lt_of_le_of_lt hbound hdeeper)]
      exact ih.insert hblank hdeeper

end Doc

namespace ParameterList

open Doc

variable {lines run padded continued : List DocLine}

/-- A list is read from the first run of its section. -/
theorem ofLines_of_isFirstRun (h : IsFirstRun lines run) : ofLines lines = ofLines run := by
  unfold ofLines
  rw [h.firstRun_eq, firstRun_eq h.text]

/-- **A run with continuations is read as the run.** -/
theorem ofLines_continuedBelow (hrun : ∀ l ∈ run, l.isBlank = false)
    (h : ContinuedBelow run continued) : ofLines continued = ofLines run := by
  unfold ofLines
  rw [firstRun_eq hrun, firstRun_eq (h.not_blank hrun)]
  cases h with
  | none => rfl
  | flat hheader h =>
      simp only [if_neg hheader]
      rw [readItems_continued h.keep]
  | @nested header item ls ms hheader hdeeper h =>
      simp only [if_pos hheader]
      unfold nested
      rw [List.takeWhile_cons_of_pos (by simpa using hdeeper),
        List.takeWhile_cons_of_pos (by simpa using hdeeper)]
      simp only [List.head?_cons, Option.map_some, Option.getD_some]
      rw [readItems_continued (h.takeWhile (Nat.le_of_lt hdeeper)).keep]

/-- **Continuations and what follows the first run are inert.**  With any number of deeper lines
put in below the first item, and any lines added behind a blank one, a section is read as the same
list, or refused for the same fault of the same line. -/
theorem ofLines_padded (h : Padded lines padded) : ofLines padded = ofLines lines := by
  cases h with
  | @intro blanks run continued rest trailing hblanks hrun hne hrest hcontinued htrailing =>
      have hcontinuedRun := hcontinued.not_blank hrun
      have hcontinuedNe : continued ≠ [] := by
        cases hcontinued with
        | none => exact hne
        | flat _ _ => simp
        | nested _ _ _ => simp
      have hbehind : ∀ l, (rest ++ trailing).head? = some l → l.isBlank = true := by
        intro l hl
        cases rest with
        | nil => exact htrailing l hl
        | cons x rest => exact hrest l hl
      have hplain : IsFirstRun (blanks ++ run ++ rest) run :=
        ⟨hrun, blanks, rest, rfl, hblanks, hrest, fun hnil => absurd hnil hne⟩
      have hpadded : IsFirstRun (blanks ++ continued ++ (rest ++ trailing)) continued :=
        ⟨hcontinuedRun, blanks, rest ++ trailing, rfl, hblanks, hbehind,
          fun hnil => absurd hnil hcontinuedNe⟩
      rw [ofLines_of_isFirstRun hplain, ofLines_of_isFirstRun hpadded,
        ofLines_continuedBelow hrun hcontinued]

/-- A list of one parameter, which the next line of the section ends. -/
def endedList : List DocLine :=
  [⟨"- Parameters:".toList, 0, 14⟩, ⟨"  - a: The a,".toList, 14, 14⟩,
    ⟨"- Returns: One.".toList, 28, 16⟩]

/-- The same list with a second line of its item, an item behind its end, and more text. -/
def paddedList : List DocLine :=
  [⟨"- Parameters:".toList, 0, 14⟩, ⟨"  - a: The a,".toList, 14, 14⟩,
    ⟨"    which wraps.".toList, 90, 17⟩, ⟨"- Returns: One.".toList, 28, 16⟩,
    ⟨"   - b: The b.".toList, 107, 15⟩, ⟨[], 122, 1⟩, ⟨"- c: The c.".toList, 123, 12⟩]

theorem ofLines_paddedList : Padded endedList paddedList ∧ ofLines paddedList =
    .ok ⟨.nested, [⟨"a".toList, "a: The a,".toList, ⟨"  - a: The a,".toList, 14, 14⟩⟩]⟩ := by
  have hcontinued : ContinuedBelow endedList (paddedList.take 5) :=
    .nested (by decide) (by decide)
      (.insert (by decide) (by decide) (.keep (.insert (by decide) (by decide) .nil)))
  have hpadded : Padded ([] ++ endedList ++ []) ([] ++ paddedList.take 5 ++ ([] ++ paddedList.drop 5)) :=
    .intro (by decide) (by decide) (by decide) (by decide) hcontinued (by decide)
  have hread : ofLines ([] ++ endedList ++ []) =
      .ok ⟨.nested, [⟨"a".toList, "a: The a,".toList, ⟨"  - a: The a,".toList, 14, 14⟩⟩]⟩ := by
    decide
  exact ⟨hpadded, (ofLines_padded hpadded).trans hread⟩

end ParameterList

end DocLint
