/-
The wording of a comment has no influence on the verdict.

Of the summary only the number of its lines is looked at.  A line of the list is read up to
its first colon and no further: bullet, keyword, callout and name all stand before it, and
the comparison with a parameter stops right behind it.  So the text behind the colon may be
any (`readAlike_reworded`), and two comments that differ in nothing else, and in the lines
of their summaries, get the same verdict in the same place for the same reason.

The one line that is looked at as a whole is the header of a nested list.  It must stay as
it is, and no other line may become one.
-/
import DocLint.Proofs.Check.Excerpt
import DocLint.Proofs.Doc.ListGrammar
import DocLint.Proofs.Doc.Sections

namespace DocLint

namespace Doc

variable {front v w : Text}

/-! ### Texts up to a colon -/

/-- A bullet stands before the colon. -/
theorem bulletText?_append_colon (front v : Text) :
    bulletText? (front ++ ':' :: v) = (bulletText? front).map (· ++ ':' :: v) := by
  unfold bulletText?
  rw [Text.trimLeft_append_of_not front v (by decide)]
  match Text.trimLeft front with
  | [] => cases v <;> rfl
  | [bullet] => simp
  | bullet :: gap :: r =>
      simp only [List.cons_append]
      split
      · rw [Text.trimLeft_append_of_not r v (by decide)]
        rfl
      · rfl

/-- So does the keyword. -/
theorem withoutKeyword_append_colon (form : ListForm) (front v : Text) :
    withoutKeyword form (front ++ ':' :: v) = withoutKeyword form front ++ ':' :: v := by
  by_cases hkeyword : form = .flat ∧ "Parameter ".toList <+: front
  · obtain ⟨rfl, r, rfl⟩ := hkeyword
    rw [List.append_assoc, withoutKeyword_keyword, withoutKeyword_keyword,
      Text.trimLeft_append_of_not r v (by decide)]
  · have hfront : form = .flat → ¬"Parameter ".toList <+: front :=
      fun hflat hprefix => hkeyword ⟨hflat, hprefix⟩
    have hwhole : form = .flat → ¬"Parameter ".toList <+: front ++ ':' :: v := by
      intro hflat hprefix
      refine hfront hflat (prefix_of_prefix_append hprefix ?_)
      intro c hc
      obtain rfl : ':' = c := by simpa using hc
      decide
    rw [withoutKeyword_plain hfront, withoutKeyword_plain hwhole]

/-- Nothing is written that was not there. -/
theorem Bulleted.subset {content text : Text} (h : Bulleted content text) : text ⊆ content := by
  cases h with
  | intro _ _ _ _ _ =>
      intro c hc
      simp [hc]

theorem BehindKeyword.subset {form : ListForm} {text rest : Text}
    (h : BehindKeyword form text rest) : rest ⊆ text := by
  cases h with
  | keyword _ _ =>
      intro c hc
      simp [hc]
  | plain _ => exact List.Subset.refl _

/-- Items that differ behind their colon tell the same of parameters without a colon. -/
theorem itemAlike_append_colon (hfront : ':' ∉ front) (form : ListForm) (v w : Text) :
    ItemAlike (fun p => ':' ∉ p) form (front ++ ':' :: v) (front ++ ':' :: w) := by
  have hkeyword : ':' ∉ withoutKeyword form front := fun hmem =>
    hfront ((withoutKeyword_eq_iff.mp rfl : BehindKeyword form front _).subset hmem)
  refine ⟨?_, ?_, ?_, ?_⟩
  · unfold isCallout
    rw [Text.beforeChar_append hfront, Text.beforeChar_append hfront]
    simp
  · rw [withoutKeyword_append_colon, withoutKeyword_append_colon]
    simp
  · rw [withoutKeyword_append_colon, withoutKeyword_append_colon, Text.beforeChar_append hkeyword,
      Text.beforeChar_append hkeyword]
  · intro p hp
    rw [withoutKeyword_append_colon, withoutKeyword_append_colon, Bool.eq_iff_iff,
      List.isPrefixOf_iff_prefix, List.isPrefixOf_iff_prefix,
      Text.append_prefix_append_iff hp hkeyword, Text.append_prefix_append_iff hp hkeyword]

/-! ### Lines -/

/-- The lines have one place and one text, or texts that differ behind their first colon alone; a
line that is reworded neither is a header nor becomes one. -/
structure Reworded (l m : DocLine) : Prop where
  offset : l.offset = m.offset
  content : l.content = m.content ∨
    (Text.trim l.content ≠ parametersHeader ∧ Text.trim m.content ≠ parametersHeader ∧
      ∃ front v w, ':' ∉ front ∧ l.content = front ++ ':' :: v ∧ m.content = front ++ ':' :: w)

/-- **No question that is put to a line looks behind its first colon.** -/
theorem readAlike_reworded : ReadAlike (fun p => ':' ∉ p) Reworded where
  isBlank := by
    intro l m h
    unfold DocLine.isBlank
    rcases h.content with heq | ⟨-, -, front, v, w, -, hl, hm⟩
    · rw [heq]
    · have hcolon : ∀ v, Text.allBlank (front ++ ':' :: v) = false := fun v =>
        Text.allBlank_eq_false_of_mem (c := ':') (by simp) (by decide)
      rw [hl, hm, hcolon, hcolon]
  indent := by
    intro l m h
    unfold DocLine.indent Text.indent
    rcases h.content with heq | ⟨-, -, front, v, w, -, hl, hm⟩
    · rw [heq]
    · rw [hl, hm, Text.leadingBlanks_append_of_not _ _ (by decide),
        Text.leadingBlanks_append_of_not _ _ (by decide)]
  header := by
    intro l m h
    rcases h.content with heq | ⟨hl, hm, -⟩
    · rw [heq]
    · exact ⟨fun heq => absurd heq hl, fun heq => absurd heq hm⟩
  item := by
    intro l m h form
    rcases h.content with heq | ⟨-, -, front, v, w, hfront, hl, hm⟩
    · exact (readAlike_of_content (R := fun x y => x.content = y.content) (fun _ _ hxy => hxy)
        _).item heq form
    · rw [hl, hm, bulletText?_append_colon, bulletText?_append_colon]
      cases htext : bulletText? front with
      | none => exact Option.Rel.none
      | some text =>
          have hmem : ':' ∉ text := fun hmem =>
            hfront ((bulletText?_eq_some_iff.mp htext).subset hmem)
          exact Option.Rel.some (itemAlike_append_colon hmem form v w)

end Doc

open Doc

/-- A verdict on related lines in the same places is the same. -/
theorem Outcome.Alike.report_eq {R : DocLine → DocLine → Prop} {start : Int}
    {outcome outcome' : Outcome} (h : Outcome.Alike R start start outcome outcome')
    (hR : ∀ l m, R l m → l.offset = m.offset) : outcome'.isValid = outcome.isValid ∧
      outcome'.offset? = outcome.offset? ∧ outcome'.reason? = outcome.reason? := by
  cases h with
  | valid => exact ⟨rfl, rfl, rfl⟩
  | start hmessage => exact ⟨rfl, rfl, congrArg some hmessage.symm⟩
  | line hline => exact ⟨rfl, congrArg some (hR _ _ hline).symm, rfl⟩

namespace Check

variable {config : Configuration} {names : List Text} {range : ByteRange}
  {summary summary' lines lines' : List DocLine}

/-- Comments whose first lines are no boundaries part alike when they are as many and the lines
behind them part alike. -/
theorem sections_reworded (hsummary : ∀ l ∈ summary, isBoundary l = false)
    (hsummary' : ∀ l ∈ summary', isBoundary l = false) (hcount : summary.length = summary'.length)
    (hlines : List.Forall₂ Reworded lines lines') :
    Agree (fun _ _ => True) (fun s t : Sections => s.summary.length = t.summary.length ∧
        List.Forall₂ Reworded s.parameters t.parameters)
      (Sections.ofLines (summary ++ lines)) (Sections.ofLines (summary' ++ lines')) := by
  have hbehind := sections_alike readAlike_reworded hlines
  rw [Sections.ofLines_append_of_not hsummary, Sections.ofLines_append_of_not hsummary']
  generalize Sections.ofLines lines = x at hbehind ⊢
  generalize Sections.ofLines lines' = y at hbehind ⊢
  cases hbehind with
  | error _ => exact Agree.error trivial
  | ok hst =>
      refine Agree.ok ⟨?_, hst.parameters⟩
      show (summary ++ _).length = (summary' ++ _).length
      rw [List.length_append, List.length_append, hcount, hst.summary.length_eq]

/-- **The wording has no influence on the verdict.**  Two comments have summaries of as many
lines, none of which is a boundary, and behind them lines of which each has the place and the text
of the other comment's, at least up to its first colon and all of it in a header.  For parameters
without a colon in their names they get the same verdict, in the same place, for the same reason. -/
theorem comment_reworded (hnames : ∀ p ∈ names, ':' ∉ p)
    (hsummary : ∀ l ∈ summary, isBoundary l = false)
    (hsummary' : ∀ l ∈ summary', isBoundary l = false) (hcount : summary.length = summary'.length)
    (hlines : List.Forall₂ Reworded lines lines') :
    (comment config names ⟨range, summary' ++ lines'⟩).isValid =
        (comment config names ⟨range, summary ++ lines⟩).isValid ∧
      (comment config names ⟨range, summary' ++ lines'⟩).offset? =
        (comment config names ⟨range, summary ++ lines⟩).offset? ∧
      (comment config names ⟨range, summary' ++ lines'⟩).reason? =
        (comment config names ⟨range, summary ++ lines⟩).reason? := by
  have hsections := sections_reworded hsummary hsummary' hcount hlines
  have halike : Outcome.Alike Reworded range.location range.location
      (comment config names ⟨range, summary ++ lines⟩)
      (comment config names ⟨range, summary' ++ lines'⟩) := by
    unfold comment
    split
    · exact Outcome.Alike.valid
    simp only
    generalize Sections.ofLines (summary ++ lines) = x at hsections ⊢
    generalize Sections.ofLines (summary' ++ lines') = y at hsections ⊢
    cases hsections with
    | error _ => exact Outcome.Alike.start rfl
    | ok hst => exact checkSections_alike readAlike_reworded hst.1 hst.2 hnames _ _
  exact halike.report_eq fun _ _ hlm => hlm.offset

/-- What stands below a summary, with some words for either parameter. -/
def twoItems (first second : Text) : List DocLine :=
  [⟨[], 13, 4⟩, ⟨"- Parameter a:".toList ++ first, 17, 30⟩,
    ⟨"- Parameter c:".toList ++ second, 47, 30⟩]

theorem comment_reworded_twoItems :
    (comment { minimalNumberOfParameters := 2 } ["a".toList, "b".toList]
        ⟨⟨0, 76⟩, [⟨"- Is it a: list?".toList, 0, 13⟩] ++ twoItems [] " b: 2".toList⟩).reason? =
      (comment { minimalNumberOfParameters := 2 } ["a".toList, "b".toList]
        ⟨⟨0, 76⟩, [⟨"Sums up.".toList, 0, 13⟩] ++ twoItems " One.".toList " Two.".toList⟩).reason? ∧
    (comment { minimalNumberOfParameters := 2 } ["a".toList, "b".toList]
        ⟨⟨0, 76⟩, [⟨"Sums up.".toList, 0, 13⟩] ++ twoItems " One.".toList " Two.".toList⟩) =
      .invalid 47 (.misnamed "b".toList "c".toList) := by
  have hblank : Reworded ⟨[], 13, 4⟩ ⟨[], 13, 4⟩ := ⟨rfl, Or.inl rfl⟩
  have hfirst : Reworded ⟨"- Parameter a: One.".toList, 17, 30⟩ ⟨"- Parameter a:".toList, 17, 30⟩ :=
    ⟨rfl, Or.inr ⟨by decide, by decide, "- Parameter a".toList, " One.".toList, [], by decide, rfl, rfl⟩⟩
  have hsecond : Reworded ⟨"- Parameter c: Two.".toList, 47, 30⟩
      ⟨"- Parameter c: b: 2".toList, 47, 30⟩ :=
    ⟨rfl, Or.inr ⟨by decide, by decide, "- Parameter c".toList, " Two.".toList, " b: 2".toList,
      by decide, rfl, rfl⟩⟩
  have hlines : List.Forall₂ Reworded (twoItems " One.".toList " Two.".toList)
      (twoItems [] " b: 2".toList) := .cons hblank (.cons hfirst (.cons hsecond .nil))
  exact ⟨(comment_reworded (by decide) (by decide) (by decide) rfl hlines).2.2, by decide⟩

end Check

end DocLint
