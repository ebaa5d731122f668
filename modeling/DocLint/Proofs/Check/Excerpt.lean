/-
The verdict on a comment depends on the lines of the comment alone.

Comments that read alike get the same verdict for the same reason, in the places of related
lines (`comment_alike`).  A range of an excerpt covers the lines that it covers in the whole
text, so what stands around the excerpt has no influence but to move the place of the
verdict (`range_excerpt`).
-/
import DocLint.Check.Structure
import DocLint.Proofs.Doc.Alike
import DocLint.Proofs.Source.Excerpt

namespace DocLint

open Doc

/-- The same verdict for the same reason, at the beginning of both comments or on related lines. -/
inductive Outcome.Alike (R : DocLine → DocLine → Prop) (start start' : Int) : Outcome → Outcome → Prop
  | valid : Alike R start start' .valid .valid
  | start {defect defect' : Defect} (h : defect.message = defect'.message) :
      Alike R start start' (.invalid start defect) (.invalid start' defect')
  | line {l m : DocLine} {defect : Defect} (h : R l m) :
      Alike R start start' (.invalid l.offset defect) (.invalid m.offset defect)

namespace Check

/-! ### Comments that read alike -/

section Alike

variable {N : Text → Prop} {R : DocLine → DocLine → Prop} {es fs : List Entry} {names : List Text}
  {config : Configuration}

theorem firstMismatch?_alike (h : List.Forall₂ (Entry.Alike N R) es fs)
    (hnames : ∀ p ∈ names, N p) :
    Option.Rel (fun x y => x.1.Alike N R y.1 ∧ x.2 = y.2) (firstMismatch? es names)
      (firstMismatch? fs names) := by
  induction h generalizing names with
  | nil =>
      unfold firstMismatch?
      exact Option.Rel.none
  | @cons e f _ _ hef _ ih =>
      cases names with
      | nil =>
          unfold firstMismatch?
          exact Option.Rel.none
      | cons p names =>
          rw [firstMismatch?, firstMismatch?, hef.documents p (hnames p (by simp))]
          split
          · exact ih fun q hq => hnames q (by simp [hq])
          · exact Option.Rel.some ⟨hef, rfl⟩

theorem checkEntries_alike (h : List.Forall₂ (Entry.Alike N R) es fs) (hnames : ∀ p ∈ names, N p)
    (start start' : Int) :
    Outcome.Alike R start start' (checkEntries start es names) (checkEntries start' fs names) := by
  have hmismatch := firstMismatch?_alike h hnames
  unfold checkEntries
  rw [isEmpty_eq_of_forall₂ h, h.length_eq]
  split
  · exact Outcome.Alike.start rfl
  split
  · exact Outcome.Alike.start rfl
  · generalize firstMismatch? es names = x at hmismatch ⊢
    generalize firstMismatch? fs names = y at hmismatch ⊢
    cases hmismatch with
    | none => exact Outcome.Alike.valid
    | @some a b hab =>
        obtain ⟨e, p⟩ := a
        obtain ⟨f, q⟩ := b
        obtain ⟨hef, rfl⟩ := hab
        simp only
        rw [hef.name]
        exact Outcome.Alike.line hef.line

/-- Sections get the same verdict when their summaries have as many lines, whatever is written on
these, and their lists read alike. -/
theorem checkSections_alike (hR : ReadAlike N R) {s t : Sections}
    (hsummary : s.summary.length = t.summary.length)
    (hparameters : List.Forall₂ R s.parameters t.parameters) (hnames : ∀ p ∈ names, N p)
    (start start' : Int) : Outcome.Alike R start start' (checkSections config start s names)
      (checkSections config start' t names) := by
  have hlist := ofLines_alike hR hparameters
  have hempty : s.summary.isEmpty = t.summary.isEmpty := by
    rw [Bool.eq_iff_iff, List.isEmpty_iff_length_eq_zero, List.isEmpty_iff_length_eq_zero, hsummary]
  unfold checkSections
  rw [hempty, hsummary]
  split
  · exact Outcome.Alike.start rfl
  split
  · exact Outcome.Alike.start rfl
  generalize ParameterList.ofLines s.parameters = x at hlist ⊢
  generalize ParameterList.ofLines t.parameters = y at hlist ⊢
  cases hlist with
  | @error e f hef =>
      refine Outcome.Alike.start ?_
      show _ ++ e.fault.message = _ ++ f.fault.message
      rw [hef.fault]
  | ok hlists => exact checkEntries_alike hlists.entries hnames _ _

variable (hR : ∀ l m, R l m → l.content = m.content) {ls ms : List DocLine} {range range' : ByteRange}

include hR

/-- **Comments with related lines get the same verdict**, in related places. -/
theorem comment_alike (h : List.Forall₂ R ls ms) :
    Outcome.Alike R range.location range'.location (comment config names ⟨range, ls⟩)
      (comment config names ⟨range', ms⟩) := by
  have hread := readAlike_of_content hR fun _ => True
  have hsections := sections_alike hread h
  unfold comment
  split
  · exact Outcome.Alike.valid
  generalize Sections.ofLines ls = x at hsections ⊢
  generalize Sections.ofLines ms = y at hsections ⊢
  cases hsections with
  | error _ => exact Outcome.Alike.start rfl
  | ok hst =>
      exact checkSections_alike hread hst.summary.length_eq hst.parameters (fun _ _ => trivial) _ _

end Alike

/-- **Ranges that cover related lines get the same verdict**, or are refused in both tables. -/
theorem range_alike {R : Line → Line → Prop} (hR : ∀ l m, R l m → l.content = m.content)
    {table table' : LineTable} {range range' : ByteRange}
    (h : Agree (fun _ _ => True) (List.Forall₂ R) (table.linesInRange range)
      (table'.linesInRange range')) (config : Configuration) (names : List Text) :
    Agree (fun _ _ => True) (Outcome.Alike (PlacedAlike R) range.location range'.location)
      (Check.range config names table range) (Check.range config names table' range') := by
  unfold Check.range
  split
  · exact Agree.ok Outcome.Alike.valid
  · refine (slice_alike hR h).map ?_
    intro ls ms hlines
    exact comment_alike (fun _ _ hlm => hlm.content) hlines

/-! ### Excerpts -/

variable {a b c : Text} {config : Configuration} {names : List Text} {r : ByteRange}

theorem offset_of_movedBy {bytes : Nat} {l m : DocLine}
    (h : PlacedAlike (LineTable.MovedBy bytes) l m) : m.offset = l.offset + bytes := by
  obtain ⟨x, y, hmoved, hl, hm⟩ := h.places
  have htext := hmoved.textOffset_eq
  omega

/-- **The text around an excerpt has no influence on the check of a range inside.**  The check
fails in the whole exactly when it fails in the excerpt.  Otherwise it comes to the same verdict
for the same reason, in a place that is as far on as the excerpt. -/
theorem range_excerpt (config : Configuration) (names : List Text) (b : Text) (ha : a.EndsLine)
    (hc : c.EndsLine) (hlow : 0 ≤ r.location) (hhigh : r.stop ≤ c.byteSize) :
    ((∃ e, Check.range config names (.ofText c) r = .error e) ↔
      ∃ e, Check.range config names (.ofText (a ++ (c ++ b))) (r.shift a.byteSize) = .error e) ∧
    ∀ outcome outcome', Check.range config names (.ofText c) r = .ok outcome →
      Check.range config names (.ofText (a ++ (c ++ b))) (r.shift a.byteSize) = .ok outcome' →
      outcome'.isValid = outcome.isValid ∧ outcome'.reason? = outcome.reason? ∧
        outcome'.offset? = outcome.offset?.map (· + (a.byteSize : Int)) := by
  have hagree : Agree (fun _ _ => True) (Outcome.Alike (PlacedAlike (LineTable.MovedBy a.byteSize))
        r.location (r.shift a.byteSize).location)
      (Check.range config names (.ofText c) r)
      (Check.range config names (.ofText (a ++ (c ++ b))) (r.shift a.byteSize)) :=
    range_alike (fun _ _ hlm => hlm.1) (LineTable.linesInRange_excerpt ha hc hlow hhigh) config names
  refine ⟨hagree.error_iff, ?_⟩
  intro outcome outcome' hexcerpt hwhole
  rw [hexcerpt, hwhole] at hagree
  cases hagree with
  | ok halike =>
      cases halike with
      | valid => exact ⟨rfl, rfl, rfl⟩
      | start hmessage => exact ⟨rfl, congrArg some hmessage.symm, rfl⟩
      | line hline => exact ⟨rfl, rfl, congrArg some (offset_of_movedBy hline)⟩

/-- The text above an excerpt, and the text of a comment that documents a parameter. -/
def aboveExcerpt : Text := "é\n".toList

def excerpt : Text := "/// S\n///\n/// - a: x\r\n".toList

/-- The verdict on a comment that documents `a` for a function with a parameter `b`. -/
theorem range_excerpt_misnamed :
    (aboveExcerpt.EndsLine ∧ excerpt.EndsLine) ∧
    (Check.range { minimalNumberOfParameters := 1 } ["b".toList] (.ofText excerpt) ⟨0, 20⟩ =
        .ok (.invalid 10 (.misnamed "b".toList "a".toList)) ∧
      Check.range { minimalNumberOfParameters := 1 } ["b".toList]
          (.ofText (aboveExcerpt ++ (excerpt ++ "func f(b: Int) \x7b\x7d".toList))) ⟨3, 20⟩ =
        .ok (.invalid 13 (.misnamed "b".toList "a".toList))) ∧
    (some (13 : Int) = (some (10 : Int)).map (· + (aboveExcerpt.byteSize : Int))) := by
  have habove : aboveExcerpt.EndsLine := by decide
  have hexcerpt : excerpt.EndsLine := by decide
  have hinside : Check.range { minimalNumberOfParameters := 1 } ["b".toList] (.ofText excerpt) ⟨0, 20⟩ =
      .ok (.invalid 10 (.misnamed "b".toList "a".toList)) := by decide
  have hwhole : Check.range { minimalNumberOfParameters := 1 } ["b".toList]
      (.ofText (aboveExcerpt ++ (excerpt ++ "func f(b: Int) \x7b\x7d".toList))) ⟨3, 20⟩ =
      .ok (.invalid 13 (.misnamed "b".toList "a".toList)) := by decide
  refine ⟨⟨habove, hexcerpt⟩, ⟨hinside, hwhole⟩, ?_⟩
  exact ((range_excerpt { minimalNumberOfParameters := 1 } ["b".toList] _ habove hexcerpt
    (by decide) (by decide)).2 _ _ hinside hwhole).2.2

end Check

end DocLint
