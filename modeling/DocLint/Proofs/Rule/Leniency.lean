/-
A more lenient configuration finds no more.

A configuration is relaxed by exempting more functions and by allowing longer summaries.  Zero
sets no limit to a summary, so among the limits it is the most lenient one and not the least.
What passes the checks of the whole comment passes them when they are relaxed
(`Relaxes.counted`), and the names are compared in the same way under every configuration.  So
a comment that is objected to under the relaxed configuration is objected to under the other
one, in the same place or earlier, at its beginning (`Relaxes.range_invalid`).

The grade is no part of any check.  It is written into the findings and changes nothing else.
-/
import DocLint.Proofs.Rule.Located
import DocLint.Rule.StructuredDoc

namespace DocLint

/-- The configuration checks nothing that `strict` does not check, and allows what it allows. -/
structure Configuration.Relaxes (lenient strict : Configuration) : Prop where
  parameters : strict.minimalNumberOfParameters ≤ lenient.minimalNumberOfParameters
  /-- Zero sets no limit. -/
  summary : lenient.maxSummaryLineCount = 0 ∨
    (0 < strict.maxSummaryLineCount ∧ strict.maxSummaryLineCount ≤ lenient.maxSummaryLineCount)

namespace Configuration.Relaxes

open Doc Check

variable {strict lenient : Configuration} {names : List Text} {lines : List DocLine}

/-! ### Verdicts -/

/-- What passes the checks of the whole passes them when they are relaxed. -/
theorem counted (h : lenient.Relaxes strict) {entries : List Entry}
    (hcounted : Counted strict names lines entries) : Counted lenient names lines entries := by
  obtain ⟨summary, parameters, list, hparts, hpos, hmax, hlist, hentries⟩ := hcounted.parts
  refine ⟨⟨summary, parameters, list, hparts, hpos, ?_, hlist, hentries⟩, hcounted.nonempty,
    hcounted.count⟩
  rcases h.summary with hfree | ⟨hlimit, hle⟩
  · exact Or.inl hfree
  · rcases hmax with hzero | hshort
    · omega
    · exact Or.inr (by omega)

/-- **A comment that is objected to when the checks are relaxed is objected to**, in the same place
or at its beginning. -/
theorem comment_invalid (h : lenient.Relaxes strict) {range : ByteRange} {offset : Int}
    {defect : Defect} (hnames : lenient.minimalNumberOfParameters ≤ names.length)
    (hinvalid : comment lenient names ⟨range, lines⟩ = .invalid offset defect) :
    ∃ offset' defect', comment strict names ⟨range, lines⟩ = .invalid offset' defect' ∧
      (offset' = offset ∨ offset' = range.location) := by
  have hnames' : strict.minimalNumberOfParameters ≤ names.length := Nat.le_trans h.parameters hnames
  have hplace := (offset_of_comment_eq_invalid hnames hinvalid).1
  rcases comment_cases range lines hnames' with
    ⟨entries, hcounted, hall, -⟩ | ⟨entries, e, p, hcounted, hfirst, hverdict⟩ |
      ⟨-, defect', -, hverdict⟩
  · -- All checks pass, so they pass when they are relaxed.
    have hvalid := (comment_eq_valid_iff range lines hnames).mpr ⟨entries, h.counted hcounted, hall⟩
    rw [hinvalid] at hvalid
    simp at hvalid
  · -- The names alone are wrong, and the walk over the entries stops at the same one.
    obtain ⟨e', p', hfirst', hoffset⟩ := hplace entries (h.counted hcounted)
    have hsame := hfirst.firstMismatch?_eq.symm.trans hfirst'.firstMismatch?_eq
    obtain ⟨rfl, rfl⟩ := Prod.mk.inj (Option.some.inj hsame)
    exact ⟨_, _, hverdict, Or.inl hoffset.symm⟩
  · exact ⟨_, _, hverdict, Or.inr rfl⟩

/-- A range that is objected to has been sliced, and no configuration has a part in that. -/
theorem range_invalid (h : lenient.Relaxes strict) {table : LineTable} {range : ByteRange}
    {offset : Int} {defect : Defect}
    (hinvalid : Check.range lenient names table range = .ok (.invalid offset defect)) :
    ∃ offset' defect', Check.range strict names table range = .ok (.invalid offset' defect') ∧
      (offset' = offset ∨ offset' = range.location) := by
  have hnames : lenient.minimalNumberOfParameters ≤ names.length := by
    by_contra hfew
    unfold Check.range at hinvalid
    rw [if_pos (by simpa [isExempt] using hfew)] at hinvalid
    simp at hinvalid
  rw [range_eq hnames] at hinvalid
  rw [range_eq (Nat.le_trans h.parameters hnames)]
  cases hslice : slice range table with
  | error e =>
      rw [hslice] at hinvalid
      simp [Except.map] at hinvalid
  | ok lines =>
      rw [hslice] at hinvalid
      obtain ⟨offset', defect', hverdict, hplace⟩ := h.comment_invalid hnames (Except.ok.inj hinvalid)
      exact ⟨offset', defect', congrArg Except.ok hverdict, hplace⟩

end Configuration.Relaxes

/-! ### Findings -/

namespace Rule

/-- Where a function is defined another one is too: in order, one of the results of the other belongs
to each of its results. -/
theorem exists_sublist_filterMap {α β : Type} {g g' : α → Option β} {R : α → β → β → Prop}
    {list : List α} (h : ∀ a ∈ list, ∀ b, g' a = some b → ∃ c, g a = some c ∧ R a c b) :
    ∃ found, found.Sublist (list.filterMap g) ∧
      List.Forall₂ (fun c b => ∃ a ∈ list, g a = some c ∧ g' a = some b ∧ R a c b) found
        (list.filterMap g') := by
  induction list with
  | nil => exact ⟨[], List.Sublist.slnil, List.Forall₂.nil⟩
  | cons a list ih =>
      obtain ⟨found, hsub, hall⟩ := ih fun x hx => h x (List.mem_cons_of_mem _ hx)
      have hwider : List.Forall₂ (fun c b => ∃ x ∈ a :: list, g x = some c ∧ g' x = some b ∧ R x c b)
          found (list.filterMap g') := by
        refine hall.imp ?_
        rintro c b ⟨x, hx, hcb⟩
        exact ⟨x, List.mem_cons_of_mem _ hx, hcb⟩
      cases hb : g' a with
      | none =>
          rw [List.filterMap_cons_none hb]
          exact ⟨found, hsub.trans ((List.sublist_cons_self a list).filterMap g), hwider⟩
      | some b =>
          obtain ⟨c, hc, hR⟩ := h a (by simp) b hb
          rw [List.filterMap_cons_some hb, List.filterMap_cons_some hc]
          exact ⟨c :: found, hsub.cons_cons c, List.Forall₂.cons ⟨a, by simp, hc, hb, hR⟩ hwider⟩

variable {strict lenient : Configuration} {f : SourceFile} {d : Declaration}

/-- One finding about a declaration stands where another one does, or at the beginning of the
comment. -/
def NoLaterIn (d : Declaration) (w v : Violation) : Prop :=
  ∃ range, d.docRange = some range ∧
    (w.location.byteOffset = v.location.byteOffset ∨ w.location.byteOffset = range.location)

/-- What is found about a declaration under the relaxed configuration is found under the other. -/
theorem exists_noLaterIn (description : RuleDescription) (h : lenient.Relaxes strict)
    (hd : d ∈ f.declarations) {v : Violation}
    (hv : checkDeclaration ⟨description, lenient⟩ f.path f.table d = some v) :
    ∃ w, checkDeclaration ⟨description, strict⟩ f.path f.table d = some w ∧ NoLaterIn d w v := by
  cases settled ⟨description, lenient⟩ hd with
  | undocumented _ hnone => simp [hv] at hnone
  | refused _ _ hnone => simp [hv] at hnone
  | accepted _ hnone => simp [hv] at hnone
  | @reported offset defect v' hverdict hsome hoffset _ =>
      rw [hv] at hsome
      obtain rfl := Option.some.inj hsome
      unfold verdict? at hverdict
      rw [Option.map_eq_some_iff] at hverdict
      obtain ⟨range, hrange, hcheck⟩ := hverdict
      obtain ⟨offset', defect', hcheck', hplace⟩ := h.range_invalid hcheck
      have hverdict' : verdict? ⟨description, strict⟩ f.table d =
          some (.ok (.invalid offset' defect')) := by
        unfold verdict?
        rw [hrange, Option.map_some, hcheck']
      obtain ⟨w, hw, hoffset', -⟩ := exists_violation hd hverdict'
      refine ⟨w, hw, range, hrange, ?_⟩
      rw [hoffset, hoffset']
      exact hplace

/-- The grade is written into a finding and changes nothing else. -/
theorem checkDeclaration_severity (description : RuleDescription) (c : Configuration) (s : Severity)
    (path : Option Text) (table : LineTable) (d : Declaration) :
    checkDeclaration ⟨description, { c with severity := s }⟩ path table d =
      (checkDeclaration ⟨description, c⟩ path table d).map fun v => { v with severity := s } := by
  have hverdict : verdict? ⟨description, { c with severity := s }⟩ table d =
      verdict? ⟨description, c⟩ table d := rfl
  unfold checkDeclaration
  rw [hverdict]
  split
  · unfold violation?
    split
    · rfl
    · rfl
  · rfl

/-- **A more lenient configuration finds no more.**  Every declaration with a finding under the
relaxed configuration has one under the other, in the same place or at the beginning of the
comment.  So the findings of the one run belong, one each and in order, to findings of the other
about the same declarations.  The grade has no influence on what is found, and about which
declaration. -/
theorem check_relaxed (description : RuleDescription) (h : lenient.Relaxes strict) (f : SourceFile) :
    (∀ d ∈ f.declarations, ∀ v,
      checkDeclaration ⟨description, lenient⟩ f.path f.table d = some v →
        ∃ w, checkDeclaration ⟨description, strict⟩ f.path f.table d = some w ∧ NoLaterIn d w v) ∧
      (∃ found, found.Sublist (check ⟨description, strict⟩ f) ∧
        List.Forall₂ (fun w v => ∃ d ∈ f.declarations,
          checkDeclaration ⟨description, strict⟩ f.path f.table d = some w ∧
            checkDeclaration ⟨description, lenient⟩ f.path f.table d = some v ∧ NoLaterIn d w v)
          found (check ⟨description, lenient⟩ f)) ∧
      ∀ (c : Configuration) (s : Severity), ∀ d ∈ f.declarations,
        checkDeclaration ⟨description, { c with severity := s }⟩ f.path f.table d =
          (checkDeclaration ⟨description, c⟩ f.path f.table d).map fun v => { v with severity := s } := by
  have hfound : ∀ d ∈ f.declarations, ∀ v,
      checkDeclaration ⟨description, lenient⟩ f.path f.table d = some v →
        ∃ w, checkDeclaration ⟨description, strict⟩ f.path f.table d = some w ∧ NoLaterIn d w v :=
    fun d hd v hv => exists_noLaterIn description h hd hv
  refine ⟨hfound, exists_sublist_filterMap hfound, ?_⟩
  intro c s d _
  exact checkDeclaration_severity description c s f.path f.table d

/-- A function with a summary of two lines and an item for another parameter. -/
def longAndMisnamed : SourceFile := ⟨"/// A\n/// B\n///\n/// - b: x\nfunc f(a: Int)".toList, none⟩

/-- Without a limit to the summary the item is found, and with a limit the summary. -/
theorem check_relaxed_longAndMisnamed :
    Configuration.Relaxes ⟨.error, 0, 1⟩ ⟨.warning, 1, 0⟩ ∧
      (check ⟨structuredFunctionDoc, ⟨.error, 0, 1⟩⟩ longAndMisnamed).map (·.location.byteOffset) =
        [16] ∧
      ∃ w, checkDeclaration ⟨structuredFunctionDoc, ⟨.warning, 1, 0⟩⟩ none longAndMisnamed.table
          ⟨⟨.function, "f".toList⟩, 27, ["a".toList], some ⟨0, 26⟩⟩ = some w ∧
        NoLaterIn ⟨⟨.function, "f".toList⟩, 27, ["a".toList], some ⟨0, 26⟩⟩ w
          ⟨structuredFunctionDoc, .error, ⟨none, 4, 1, 16⟩,
            Defect.message (.misnamed "a".toList "b".toList)⟩ := by
  have hrelaxes : Configuration.Relaxes ⟨.error, 0, 1⟩ ⟨.warning, 1, 0⟩ := ⟨by decide, Or.inl rfl⟩
  have hdeclarations : longAndMisnamed.declarations =
      [⟨⟨.function, "f".toList⟩, 27, ["a".toList], some ⟨0, 26⟩⟩] := by cbv
  refine ⟨hrelaxes, ?_, ?_⟩
  · unfold check
    rw [hdeclarations]
    rfl
  · refine (check_relaxed structuredFunctionDoc hrelaxes longAndMisnamed).1 _ ?_ _ ?_
    · rw [hdeclarations]
      exact List.mem_singleton.mpr rfl
    · rfl

end Rule

end DocLint
