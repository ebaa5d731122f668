/-
Which check decides.

Five questions are asked of a comment, one after the other, and the first that is
answered with "no" is the verdict.  `Counted` collects those that are asked of the comment
as a whole; the names are looked at only then.  So a verdict has its place at an entry
exactly when `Counted` holds, and at the beginning of the comment in every other case
(`range_decision`).
-/
import Mathlib.Data.List.Forall2
import DocLint.Check.Structure
import DocLint.Proofs.Doc.Sections
import DocLint.Proofs.Source.LineTable

namespace DocLint.Check

open Doc

variable {config : Configuration} {names : List Text} {lines : List DocLine}

/-! ### The names -/

/-- The entries document the parameters, each the one in its place. -/
def DocumentsAll (entries : List Entry) (names : List Text) : Prop :=
  List.Forall₂ (fun e p => p ++ [':'] <+: e.text) entries names

/-- The entry `e` is the first that does not document the parameter in its place, `p`. -/
def FirstMismatch (entries : List Entry) (names : List Text) (e : Entry) (p : Text) : Prop :=
  ∃ before after before' after', entries = before ++ e :: after ∧ names = before' ++ p :: after' ∧
    DocumentsAll before before' ∧ ¬p ++ [':'] <+: e.text

theorem documents_iff {e : Entry} {p : Text} : e.documents p = true ↔ p ++ [':'] <+: e.text :=
  List.isPrefixOf_iff_prefix

/-- The walk over the entries stops at the first mismatch. -/
theorem firstMismatch?_spec {entries : List Entry} (h : entries.length = names.length) :
    (firstMismatch? entries names = none ∧ DocumentsAll entries names) ∨
      ∃ e p, firstMismatch? entries names = some (e, p) ∧ FirstMismatch entries names e p := by
  induction entries generalizing names with
  | nil =>
      obtain rfl : names = [] := List.length_eq_zero_iff.mp h.symm
      exact Or.inl ⟨rfl, List.Forall₂.nil⟩
  | cons e entries ih =>
      obtain ⟨p, more, rfl⟩ : ∃ p more, names = p :: more := by
        cases names with
        | nil => simp at h
        | cons p more => exact ⟨p, more, rfl⟩
      rw [firstMismatch?]
      by_cases hdoc : e.documents p = true
      · rw [if_pos hdoc]
        rcases ih (by simpa using h) with ⟨hnone, hall⟩ | ⟨e', p', hsome, b, a, b', a', rfl, rfl, hb, hne⟩
        · exact Or.inl ⟨hnone, List.Forall₂.cons (documents_iff.mp hdoc) hall⟩
        · exact Or.inr ⟨e', p', hsome, e :: b, a, p :: b', a', rfl, rfl,
            List.Forall₂.cons (documents_iff.mp hdoc) hb, hne⟩
      · rw [if_neg hdoc]
        exact Or.inr ⟨e, p, rfl, [], entries, [], more, rfl, rfl, List.Forall₂.nil,
          fun hprefix => hdoc (documents_iff.mpr hprefix)⟩

theorem FirstMismatch.not_documentsAll {entries : List Entry} {e : Entry} {p : Text}
    (h : FirstMismatch entries names e p) : ¬DocumentsAll entries names := by
  obtain ⟨before, after, before', after', rfl, rfl, hbefore, hne⟩ := h
  intro hall
  unfold DocumentsAll at hall
  induction hbefore with
  | nil => exact hne (List.forall₂_cons.mp hall).1
  | cons _ _ ih => exact ih (List.forall₂_cons.mp hall).2

/-- The verdict on the entries of a list has three forms. -/
theorem checkEntries_cases (start : Int) (entries : List Entry) (names : List Text) :
    ((entries.isEmpty = false ∧ entries.length = names.length) ∧ DocumentsAll entries names ∧
        checkEntries start entries names = .valid) ∨
      ((entries.isEmpty = false ∧ entries.length = names.length) ∧
        ∃ e p, FirstMismatch entries names e p ∧
          checkEntries start entries names = .invalid e.line.offset (.misnamed p e.name)) ∨
      (¬(entries.isEmpty = false ∧ entries.length = names.length) ∧
        ∃ defect, (∀ p found, defect ≠ .misnamed p found) ∧
          checkEntries start entries names = .invalid start defect) := by
  unfold checkEntries
  cases hempty : entries.isEmpty with
  | true => exact Or.inr (Or.inr ⟨by simp, _, by simp, rfl⟩)
  | false =>
      rw [if_neg (by simp)]
      by_cases hcount : entries.length = names.length
      · rw [if_neg (by simpa using hcount)]
        rcases firstMismatch?_spec hcount with ⟨hnone, hall⟩ | ⟨e, p, hsome, hfirst⟩
        · rw [hnone]
          exact Or.inl ⟨⟨rfl, hcount⟩, hall, rfl⟩
        · rw [hsome]
          exact Or.inr (Or.inl ⟨⟨rfl, hcount⟩, e, p, hfirst, rfl⟩)
      · rw [if_pos hcount]
        exact Or.inr (Or.inr ⟨fun h => hcount h.2, _, by simp, rfl⟩)

/-- Entries that document all parameters are in order. -/
theorem DocumentsAll.checkEntries {entries : List Entry} (h : DocumentsAll entries names)
    (hne : entries ≠ []) (start : Int) : checkEntries start entries names = .valid := by
  have hcount := List.Forall₂.length_eq h
  rcases checkEntries_cases start entries names with
    ⟨-, -, hvalid⟩ | ⟨-, e, p, hfirst, -⟩ | ⟨hcount', -⟩
  · exact hvalid
  · exact absurd h hfirst.not_documentsAll
  · exact absurd ⟨by simpa using hne, hcount⟩ hcount'

theorem FirstMismatch.firstMismatch?_eq {entries : List Entry} {e : Entry} {p : Text}
    (h : FirstMismatch entries names e p) : firstMismatch? entries names = some (e, p) := by
  obtain ⟨before, after, before', after', rfl, rfl, hbefore, hne⟩ := h
  induction hbefore with
  | nil =>
      rw [List.nil_append, List.nil_append, firstMismatch?, if_neg]
      rw [documents_iff]
      exact hne
  | cons hdoc _ ih =>
      rw [List.cons_append, List.cons_append, firstMismatch?, if_pos (documents_iff.mpr hdoc), ih]

/-- The first mismatch is the defect, and shows on the line of its entry. -/
theorem FirstMismatch.checkEntries {entries : List Entry} {e : Entry} {p : Text}
    (h : FirstMismatch entries names e p) (hcount : entries.length = names.length) (start : Int) :
    checkEntries start entries names = .invalid e.line.offset (.misnamed p e.name) := by
  have hempty : entries.isEmpty = false := by
    obtain ⟨before, after, -, -, rfl, -⟩ := h
    simp
  unfold Check.checkEntries
  rw [hempty, if_neg (by simp), if_neg (by simpa using hcount), h.firstMismatch?_eq]

/-- Entries that are too few or too many are the defect, whatever their names. -/
theorem checkEntries_of_count {entries : List Entry} (hne : entries ≠ [])
    (hcount : entries.length ≠ names.length) (start : Int) :
    checkEntries start entries names = .invalid start (.wrongCount entries.length names.length) := by
  unfold checkEntries
  rw [if_neg (by simpa using hne), if_pos hcount]

/-! ### The comment as a whole -/

/-- The lines pass every check up to the number of the entries, and `entries` are what is read. -/
structure Counted (config : Configuration) (names : List Text) (lines : List DocLine)
    (entries : List Entry) : Prop where
  /-- There is a boundary with a summary before it, not too long, and a list behind it. -/
  parts : ∃ summary parameters list, PartsInto lines summary parameters ∧ 1 ≤ summary.length ∧
    (config.maxSummaryLineCount = 0 ∨ summary.length ≤ config.maxSummaryLineCount) ∧
    ParameterList.ofLines parameters = .ok list ∧ list.entries = entries
  nonempty : entries ≠ []
  count : entries.length = names.length

/-- Of lines that part the checks of the whole look at the two sections. -/
theorem counted_iff {summary parameters : List DocLine} {entries : List Entry}
    (h : PartsInto lines summary parameters) :
    Counted config names lines entries ↔
      summary.isEmpty = false ∧ isTooLong config summary.length = false ∧
        (∃ list, ParameterList.ofLines parameters = .ok list ∧ list.entries = entries) ∧
        entries.isEmpty = false ∧ entries.length = names.length := by
  have hlong : isTooLong config summary.length = false ↔
      config.maxSummaryLineCount = 0 ∨ summary.length ≤ config.maxSummaryLineCount := by
    simp only [isTooLong, Bool.and_eq_false_iff, decide_eq_false_iff_not]
    omega
  have hempty : summary.isEmpty = false ↔ 1 ≤ summary.length := by
    rw [List.isEmpty_eq_false_iff, ← List.length_pos_iff]
    exact Iff.rfl
  rw [hlong, hempty, List.isEmpty_eq_false_iff]
  constructor
  · intro hcounted
    obtain ⟨summary', parameters', list, hparts, hpos, hmax, hlist, hentries⟩ := hcounted.parts
    obtain ⟨rfl, rfl⟩ := h.unique hparts
    exact ⟨hpos, hmax, ⟨list, hlist, hentries⟩, hcounted.nonempty, hcounted.count⟩
  · rintro ⟨hpos, hmax, ⟨list, hlist, hentries⟩, hnonempty, hcount⟩
    exact ⟨⟨summary, parameters, list, h, hpos, hmax, hlist, hentries⟩, hnonempty, hcount⟩

theorem Counted.unique {entries entries' : List Entry} (h : Counted config names lines entries)
    (h' : Counted config names lines entries') : entries = entries' := by
  obtain ⟨summary, parameters, list, hparts, -, -, hlist, rfl⟩ := h.parts
  obtain ⟨-, -, ⟨list', hlist', rfl⟩, -, -⟩ := (counted_iff hparts).mp h'
  rw [hlist] at hlist'
  rw [Except.ok.inj hlist']

/-- **The verdict on a comment has three forms**, told apart by the checks of the whole. -/
theorem comment_cases (range : ByteRange) (lines : List DocLine)
    (hnames : config.minimalNumberOfParameters ≤ names.length) :
    (∃ entries, Counted config names lines entries ∧ DocumentsAll entries names ∧
        comment config names ⟨range, lines⟩ = .valid) ∨
      (∃ entries e p, Counted config names lines entries ∧ FirstMismatch entries names e p ∧
        comment config names ⟨range, lines⟩ = .invalid e.line.offset (.misnamed p e.name)) ∨
      ((¬∃ entries, Counted config names lines entries) ∧
        ∃ defect, (∀ p found, defect ≠ .misnamed p found) ∧
          comment config names ⟨range, lines⟩ = .invalid range.location defect) := by
  have hexempt : isExempt config names = false := by
    simp [isExempt]
    omega
  unfold comment
  rw [if_neg (by simp [hexempt])]
  cases hsections : Sections.ofLines lines with
  | error e =>
      have hnone := Sections.ofLines_eq_error_iff.mp ⟨e, hsections⟩
      refine Or.inr (Or.inr ⟨?_, _, by simp, rfl⟩)
      rintro ⟨entries, hcounted⟩
      obtain ⟨summary, parameters, -, hparts, -⟩ := hcounted.parts
      exact hnone ⟨summary, parameters, hparts⟩
  | ok sections =>
      have hparts := Sections.ofLines_eq_ok_iff.mp ⟨sections.separator, hsections⟩
      simp only
      unfold checkSections
      simp only [counted_iff hparts]
      -- The checks in their order; each that fails is one of the conjuncts.
      cases hempty : sections.summary.isEmpty with
      | true => exact Or.inr (Or.inr ⟨by simp, _, by simp, rfl⟩)
      | false =>
      cases hlong : isTooLong config sections.summary.length with
      | true => exact Or.inr (Or.inr ⟨by simp, _, by simp, rfl⟩)
      | false =>
      cases hlist : ParameterList.ofLines sections.parameters with
      | error e => exact Or.inr (Or.inr ⟨by simp, _, by simp, rfl⟩)
      | ok list =>
          rcases checkEntries_cases range.location list.entries names with
            ⟨hcount, hall, hvalid⟩ | ⟨hcount, e, p, hfirst, hinvalid⟩ | ⟨hcount, hinvalid⟩
          · exact Or.inl ⟨list.entries, ⟨rfl, rfl, ⟨list, rfl, rfl⟩, hcount⟩, hall, hvalid⟩
          · exact Or.inr (Or.inl
              ⟨list.entries, e, p, ⟨rfl, rfl, ⟨list, rfl, rfl⟩, hcount⟩, hfirst, hinvalid⟩)
          · refine Or.inr (Or.inr ⟨?_, hinvalid⟩)
            rintro ⟨entries, -, -, ⟨list', hlist', rfl⟩, hcount'⟩
            rw [← Except.ok.inj hlist'] at hcount'
            exact hcount hcount'

/-- A comment is valid when it passes the checks of the whole and documents all parameters. -/
theorem comment_eq_valid_iff (range : ByteRange) (lines : List DocLine)
    (hnames : config.minimalNumberOfParameters ≤ names.length) :
    comment config names ⟨range, lines⟩ = .valid ↔
      ∃ entries, Counted config names lines entries ∧ DocumentsAll entries names := by
  rcases comment_cases range lines hnames with
    ⟨entries, hcounted, hall, hverdict⟩ | ⟨entries, e, p, hcounted, hfirst, hverdict⟩ |
      ⟨hnone, defect, -, hverdict⟩
  · rw [hverdict]
    simpa using ⟨entries, hcounted, hall⟩
  · rw [hverdict]
    constructor
    · intro h
      simp at h
    · rintro ⟨entries', hcounted', hall⟩
      rw [hcounted'.unique hcounted] at hall
      exact absurd hall hfirst.not_documentsAll
  · rw [hverdict]
    constructor
    · intro h
      simp at h
    · rintro ⟨entries, hcounted, -⟩
      exact absurd ⟨entries, hcounted⟩ hnone

/-- A verdict has its place at the first mismatch when only the names are wrong, at the beginning
of the range otherwise. -/
theorem offset_of_comment_eq_invalid {range : ByteRange} {lines : List DocLine}
    (hnames : config.minimalNumberOfParameters ≤ names.length) {offset : Int} {defect : Defect}
    (h : comment config names ⟨range, lines⟩ = .invalid offset defect) :
    (∀ entries, Counted config names lines entries →
      ∃ e p, FirstMismatch entries names e p ∧ offset = e.line.offset) ∧
    ((¬∃ entries, Counted config names lines entries) → offset = range.location) := by
  rcases comment_cases range lines hnames with
    ⟨entries, hcounted, hall, hverdict⟩ | ⟨entries, e, p, hcounted, hfirst, hverdict⟩ |
      ⟨hnone, defect', -, hverdict⟩
  · rw [hverdict] at h
    simp at h
  · rw [hverdict, Outcome.invalid.injEq] at h
    refine ⟨?_, fun hnone => absurd ⟨entries, hcounted⟩ hnone⟩
    intro entries' hcounted'
    rw [hcounted'.unique hcounted]
    exact ⟨e, p, hfirst, h.1.symm⟩
  · rw [hverdict, Outcome.invalid.injEq] at h
    exact ⟨fun entries hcounted => absurd ⟨entries, hcounted⟩ hnone, fun _ => h.1.symm⟩

/-- **A name is objected to only in the entry of the first mismatch.** -/
theorem comment_eq_misnamed_iff {range : ByteRange} {lines : List DocLine} {offset : Int}
    {p found : Text} :
    comment config names ⟨range, lines⟩ = .invalid offset (.misnamed p found) ↔
      config.minimalNumberOfParameters ≤ names.length ∧
        ∃ entries e, Counted config names lines entries ∧ FirstMismatch entries names e p ∧
          e.name = found ∧ e.line.offset = offset := by
  by_cases hnames : config.minimalNumberOfParameters ≤ names.length
  · rcases comment_cases range lines hnames with
      ⟨entries, hcounted, hall, hverdict⟩ | ⟨entries, e, q, hcounted, hfirst, hverdict⟩ |
        ⟨hnone, defect, hdefect, hverdict⟩
    · rw [hverdict]
      constructor
      · intro h
        simp at h
      · rintro ⟨-, entries', e, hcounted', hfirst, -⟩
        rw [hcounted'.unique hcounted] at hfirst
        exact absurd hall hfirst.not_documentsAll
    · rw [hverdict]
      constructor
      · intro h
        simp only [Outcome.invalid.injEq, Defect.misnamed.injEq] at h
        obtain ⟨hoffset, rfl, hname⟩ := h
        exact ⟨hnames, entries, e, hcounted, hfirst, hname, hoffset⟩
      · rintro ⟨-, entries', e', hcounted', hfirst', rfl, rfl⟩
        rw [hcounted'.unique hcounted] at hfirst'
        have hsame := hfirst.firstMismatch?_eq.symm.trans hfirst'.firstMismatch?_eq
        obtain ⟨rfl, rfl⟩ := Prod.mk.inj (Option.some.inj hsame)
        rfl
    · rw [hverdict]
      constructor
      · intro h
        exact absurd (Outcome.invalid.inj h).2 (hdefect p found)
      · rintro ⟨-, entries, e, hcounted, -⟩
        exact absurd ⟨entries, hcounted⟩ hnone
  · have hexempt : comment config names ⟨range, lines⟩ = .valid := by
      unfold comment
      rw [if_pos (by simpa [isExempt] using hnames)]
    rw [hexempt]
    constructor
    · intro h
      simp at h
    · exact fun h => absurd h.1 hnames

theorem range_eq (hnames : config.minimalNumberOfParameters ≤ names.length) (table : LineTable)
    (r : ByteRange) :
    Check.range config names table r =
      (slice r table).map fun lines => comment config names ⟨r, lines⟩ := by
  unfold Check.range
  rw [if_neg (by simp [isExempt]; omega)]

/-- **Which check decides.**  A function with few parameters is never objected to, whatever the
range.  For any other the range is sliced, which is the only thing that can fail: inside the file
the two lookups of slicing find their lines.  Then the comment is valid exactly when it passes all
checks, and a verdict has its place at the first mismatch when only the names are wrong, at the
beginning of the range otherwise. -/
theorem range_decision (config : Configuration) (names : List Text) (t : Text) (range : ByteRange) :
    (names.length < config.minimalNumberOfParameters →
      Check.range config names (.ofText t) range = .ok .valid) ∧
    (config.minimalNumberOfParameters ≤ names.length →
      (∀ e, Check.range config names (.ofText t) range = .error e ↔
        slice range (.ofText t) = .error e) ∧
      (0 < range.length → 0 ≤ range.location → range.stop ≤ (LineTable.ofText t).size →
        ∃ first last, (LineTable.ofText t).lineAt range.location = .ok first ∧
          (LineTable.ofText t).lineAt (range.stop - 1) = .ok last) ∧
      ∀ lines, slice range (.ofText t) = .ok lines →
        (Check.range config names (.ofText t) range = .ok .valid ↔
          ∃ entries, Counted config names lines entries ∧ DocumentsAll entries names) ∧
        ∀ offset defect, Check.range config names (.ofText t) range = .ok (.invalid offset defect) →
          (∀ entries, Counted config names lines entries →
            ∃ e p, FirstMismatch entries names e p ∧ offset = e.line.offset) ∧
          ((¬∃ entries, Counted config names lines entries) → offset = range.location)) := by
  refine ⟨?_, ?_⟩
  · intro hfew
    unfold Check.range
    rw [if_pos (by simpa [isExempt] using hfew)]
  intro hnames
  have hrange := range_eq hnames (.ofText t) range
  refine ⟨?_, ?_, ?_⟩
  · intro e
    rw [hrange]
    cases slice range (.ofText t) with
    | error e' => simp [Except.map]
    | ok lines => simp [Except.map]
  · intro hlength hlow hhigh
    have hstop : range.stop = range.location + range.length := rfl
    obtain ⟨first, -, hfirst, -⟩ := LineTable.exists_lineAt (t := t) (x := range.location)
      hlow (by omega)
    obtain ⟨last, -, hlast, -⟩ := LineTable.exists_lineAt (t := t) (x := range.stop - 1)
      (by omega) (by omega)
    exact ⟨first, last, hfirst, hlast⟩
  intro lines hslice
  rw [hrange, hslice]
  simp only [Except.map, Except.ok.injEq]
  refine ⟨comment_eq_valid_iff range lines hnames, ?_⟩
  intro offset defect hinvalid
  exact offset_of_comment_eq_invalid hnames hinvalid

/-- The comment of a function with one parameter passes all checks. -/
theorem range_decision_valid :
    Check.range { minimalNumberOfParameters := 1 } ["a".toList]
      (.ofText "/// S\n///\n/// - a: x".toList) ⟨0, 20⟩ = .ok .valid := by
  have hslice : slice ⟨0, 20⟩ (.ofText "/// S\n///\n/// - a: x".toList) =
      .ok [⟨"S".toList, 0, 6⟩, ⟨[], 6, 4⟩, ⟨"- a: x".toList, 10, 10⟩] := by decide
  have hlist : ParameterList.ofLines [⟨"- a: x".toList, 10, 10⟩] =
      .ok ⟨.flat, [⟨"a".toList, "a: x".toList, ⟨"- a: x".toList, 10, 10⟩⟩]⟩ := by decide
  have hparts : PartsInto ([⟨"S".toList, 0, 6⟩] ++ ⟨[], 6, 4⟩ :: [⟨"- a: x".toList, 10, 10⟩])
      [⟨"S".toList, 0, 6⟩] [⟨"- a: x".toList, 10, 10⟩] := PartsInto.blank (by decide) rfl
  have hcounted : Counted { minimalNumberOfParameters := 1 } ["a".toList]
      [⟨"S".toList, 0, 6⟩, ⟨[], 6, 4⟩, ⟨"- a: x".toList, 10, 10⟩]
      [⟨"a".toList, "a: x".toList, ⟨"- a: x".toList, 10, 10⟩⟩] :=
    ⟨⟨_, _, _, hparts, by decide, Or.inr (by decide), hlist, rfl⟩, by decide, rfl⟩
  exact (((range_decision _ _ _ _).2 (by decide)).2.2 _ hslice).1.mpr
    ⟨_, hcounted, List.Forall₂.cons (by decide) List.Forall₂.nil⟩

end DocLint.Check
