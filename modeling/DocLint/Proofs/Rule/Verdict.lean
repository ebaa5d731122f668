/-
What a rule finds about a function that was written down.

When the names of the comment are those of the function nothing is found.  When they are
as many, the finding is on the line of the first that differs, and when they are not, it
is on the first line of the comment (`check_text`).  The style of the comment and that of
its list do not matter, and neither do texts and indentations.
-/
import DocLint.Proofs.Rule.Reading
import DocLint.Rule.Basic
import DocLint.Rule.StructuredDoc

namespace DocLint.DocumentedFunction

open Doc Swift

variable {g : DocumentedFunction} {w : g.Placement}

/-- The finding on a line of the comment. -/
def finding (g : DocumentedFunction) (rule : Rule) (path : Option Text) (line : Nat)
    (defect : Defect) : Violation :=
  ⟨rule.description, rule.configuration.severity, g.location path line, defect.message⟩

/-! ### Places -/

theorem exists_append_of_getElem? {α : Type} {list : List α} {k : Nat} {a : α}
    (h : list[k]? = some a) : ∃ before after, list = before ++ a :: after ∧ before.length = k := by
  obtain ⟨hk, hget⟩ := List.getElem?_eq_some_iff.mp h
  refine ⟨list.take k, list.drop (k + 1), ?_, ?_⟩
  · rw [← hget, ← List.drop_eq_getElem_cons hk, List.take_append_drop]
  · rw [List.length_take, Nat.min_eq_left (Nat.le_of_lt hk)]

/-- The first text on a line of the comment has the place that was foreseen. -/
theorem Placement.location_eq (w : g.Placement) (path : Option Text) {k : Nat} {l : Line}
    (hl : w.comment[k]? = some l) (hblank : Text.allBlank l.content = false) :
    Location.ofOffset path (.ofText g.text) l.textOffset = .ok (g.location path k) := by
  obtain ⟨before, after, hsplit, hlength⟩ := exists_append_of_getElem? hl
  have hlines : (LineTable.ofText g.text).lines = before ++ l :: (after ++ [w.function]) := by
    rw [w.lines_eq, hsplit]
    simp
  obtain ⟨hindex, hoffset⟩ := LineTable.offset_eq_unlines hlines
    fun x hx => w.ending_eq x (by simp [hsplit, hx])
  have hmem : l ∈ (LineTable.ofText g.text).lines := by
    rw [hlines]
    simp
  have hcontent : g.commentLines[k]? = some l.content := by
    rw [← w.content_eq, List.getElem?_map, hl]
    rfl
  have hbefore : before.map Line.content = g.commentLines.take k := by
    rw [← w.content_eq, hsplit, List.map_append, List.take_left' (by rw [List.length_map, hlength])]
  rw [hlength] at hindex
  rw [hbefore] at hoffset
  unfold Location.ofOffset location
  rw [LineTable.position_textOffset hmem hblank, hcontent]
  simp only [Except.map, Option.getD_some]
  unfold Line.textOffset
  rw [hblank, if_neg (by simp), hindex, hoffset]
  simp

/-- The item of an entry stands on its line. -/
theorem Division.comment_entryLine {q : Rows w} (d : Division q) {k : Nat} {r : Row}
    (hr : d.items[k]? = some r) : w.comment[g.entryLine k]? = some r.line := by
  have hcomment := q.comment_eq
  have hsummary : d.summary.length = g.summary.length := by
    have h := congrArg List.length d.summary_written
    simpa using h
  have hheader : d.header.length = g.header.length := by
    have h := congrArg List.length d.header_written
    simpa using h
  have hfront : q.front.length = if g.layout.style = .lines then 0 else 1 := by
    rcases q.marks with ⟨hstyle, hfront, -⟩ | ⟨hstyle, first, last, hfront, -⟩
    · rw [hfront, if_pos hstyle]
      rfl
    · rw [hfront, if_neg hstyle]
      rfl
  obtain ⟨before, after, hitems, hbefore⟩ := exists_append_of_getElem? hr
  rw [d.rows_eq, hitems] at hcomment
  have hsplit : w.comment =
      (q.front ++ d.summary.map Row.line ++ d.blank.line :: d.header.map Row.line
        ++ before.map Row.line) ++ r.line :: (after.map Row.line ++ q.back) := by
    rw [hcomment]
    simp
  have hlength : g.entryLine k =
      (q.front ++ d.summary.map Row.line ++ d.blank.line :: d.header.map Row.line
        ++ before.map Row.line).length := by
    unfold entryLine
    rw [← hsummary, ← hheader, ← hfront, ← hbefore]
    simp only [List.length_append, List.length_cons, List.length_map]
    omega
  rw [hsplit, hlength, List.getElem?_append_right (Nat.le_refl _), Nat.sub_self]
  rfl

theorem Division.allBlank_item {q : Rows w} (d : Division q) {k : Nat} {r : Row}
    (hr : d.items[k]? = some r) : Text.allBlank r.line.content = false := by
  have hmem := List.mem_of_getElem? hr
  have hwritten : r.written ∈ g.entries.map fun e => some (g.item e) := by
    rw [← d.items_written]
    exact List.mem_map_of_mem hmem
  obtain ⟨e, -, hitem⟩ := List.mem_map.mp hwritten
  have hcontent : r.line.content = g.layout.line r.written :=
    q.content_eq r (by rw [d.rows_eq]; simp [hmem])
  rw [hcontent, ← hitem]
  refine Text.allBlank_eq_false_of_mem (c := '-') ?_ (by decide)
  unfold Layout.line Layout.spaced item
  simp

/-- A defect on a line of the comment is found in the place that was foreseen. -/
theorem Placement.violation?_eq (w : g.Placement) (rule : Rule) (path : Option Text) {k : Nat}
    {l : Line} (hl : w.comment[k]? = some l) (hblank : Text.allBlank l.content = false)
    (defect : Defect) :
    rule.violation? path (.ofText g.text) l.textOffset defect =
      some (g.finding rule path k defect) := by
  unfold Rule.violation?
  rw [w.location_eq path hl hblank]
  rfl

/-- A defect of an entry is found on its line. -/
theorem Division.violation?_eq {q : Rows w} (d : Division q) (rule : Rule) (path : Option Text)
    {read : List Entry} (hline : read.map Entry.line = d.items.map g.layout.docLine) {k : Nat}
    {e : Entry} (he : read[k]? = some e) (defect : Defect) :
    rule.violation? path (.ofText g.text) e.line.offset defect =
      some (g.finding rule path (g.entryLine k) defect) := by
  obtain ⟨r, hr, heline⟩ : ∃ r, d.items[k]? = some r ∧ g.layout.docLine r = e.line := by
    have h := congrArg (·[k]?) hline
    simp only [List.getElem?_map, he, Option.map_some] at h
    exact Option.map_eq_some_iff.mp h.symm
  rw [← heline]
  exact w.violation?_eq rule path (d.comment_entryLine hr) (d.allBlank_item hr) defect

/-! ### The check of the one comment -/

/-- The findings about the comment, from the verdict on it. -/
def findings (g : DocumentedFunction) (rule : Rule) (path : Option Text) : Outcome → List Violation
  | .valid => []
  | .invalid offset defect => (rule.violation? path (.ofText g.text) offset defect).toList

/-- What the rule finds is what the check of the one comment finds. -/
theorem check_eq_findings (rule : Rule) (path : Option Text) (q : Rows w)
    (hmin : rule.configuration.minimalNumberOfParameters ≤ g.parameters.length) :
    ∃ first range, w.comment[0]? = some first ∧ Text.allBlank first.content = false ∧
      range.location = first.textOffset ∧
      rule.check ⟨g.text, path⟩ = g.findings rule path
        (Check.comment rule.configuration g.parameters ⟨range, q.rows.map g.layout.docLine⟩) := by
  obtain ⟨offset, hdeclarations⟩ := w.declarations_eq path
  obtain ⟨first, last, hfirst, hdoc, hslice⟩ := q.docRange_slice
  refine ⟨first, rangeOfLines first last, by rw [← hfirst, List.head?_eq_getElem?],
    q.commentRun.first_not_blank first (by simpa using hfirst), rfl, ?_⟩
  have hrange : Check.range rule.configuration g.parameters (.ofText g.text)
      (rangeOfLines first last) = .ok (Check.comment rule.configuration g.parameters
        ⟨rangeOfLines first last, q.rows.map g.layout.docLine⟩) := by
    rw [Check.range_eq hmin, hslice]
    rfl
  unfold Rule.check
  rw [hdeclarations]
  unfold Rule.checkDeclaration Rule.verdict? SourceFile.table
  simp only [List.filterMap_cons, List.filterMap_nil, hdoc, Option.map_some, hrange]
  cases Check.comment rule.configuration g.parameters
      ⟨rangeOfLines first last, q.rows.map g.layout.docLine⟩ with
  | valid => rfl
  | invalid offset defect =>
      unfold findings
      simp only
      cases rule.violation? path (.ofText g.text) offset defect with
      | none => rfl
      | some v => rfl

/-! ### Names -/

theorem documentsAll_of_names {style : ListStyle} {indent : Nat} {read : List Entry}
    {names : List Text} (hitems : ∀ e ∈ read, IsItem style indent e.line e)
    (hnames : ∀ p ∈ names, Text.isIdentifier p = true) (h : read.map Entry.name = names) :
    Check.DocumentsAll read names := by
  induction read generalizing names with
  | nil =>
      obtain rfl : names = [] := h.symm
      exact List.Forall₂.nil
  | cons e read ih =>
      subst h
      have hp := hnames _ List.mem_cons_self
      refine List.Forall₂.cons ?_ ?_
      · exact Check.documents_iff.mp (((hitems e (by simp)).documents_iff hp).mpr rfl)
      · exact ih (fun x hx => hitems x (by simp [hx]))
          (fun p hp => hnames p (List.mem_cons_of_mem _ hp)) rfl

/-- The first name that differs is the first mismatch. -/
theorem firstMismatch_of_names {style : ListStyle} {indent : Nat} {read : List Entry}
    {names : List Text} (hitems : ∀ e ∈ read, IsItem style indent e.line e)
    (hnames : ∀ p ∈ names, Text.isIdentifier p = true) {k : Nat} {e : Entry} {p : Text}
    (htake : (read.map Entry.name).take k = names.take k) (he : read[k]? = some e)
    (hp : names[k]? = some p) (hne : e.name ≠ p) : Check.FirstMismatch read names e p := by
  obtain ⟨before, after, rfl, rfl⟩ := exists_append_of_getElem? he
  obtain ⟨before', after', rfl, hlength⟩ := exists_append_of_getElem? hp
  rw [List.map_append, List.take_left' (List.length_map _), List.take_left' hlength] at htake
  refine ⟨before, after, before', after', rfl, rfl, ?_, ?_⟩
  · exact documentsAll_of_names (fun x hx => hitems x (by simp [hx]))
      (fun x hx => hnames x (by simp [hx])) htake
  · rw [← Check.documents_iff, (hitems e (by simp)).documents_iff (hnames p (by simp))]
    exact hne

/-! ### The verdict -/

/-- **What a rule finds about a documented function.**  Nothing if the names of the comment are
those of the function, a wrong name on the line of the first that differs if they are as many, and
a wrong count on the first line of the comment if they are not. -/
theorem check_text (rule : Rule) (path : Option Text) (g : DocumentedFunction)
    (hread : g.IsReadable)
    (hmin : rule.configuration.minimalNumberOfParameters ≤ g.parameters.length)
    (hmax : rule.configuration.maxSummaryLineCount = 0 ∨
      g.summary.length ≤ rule.configuration.maxSummaryLineCount) :
    (g.documented = g.parameters → rule.check ⟨g.text, path⟩ = []) ∧
    (g.documented.length = g.parameters.length → ∀ k name p,
      g.documented.take k = g.parameters.take k → g.documented[k]? = some name →
      g.parameters[k]? = some p → name ≠ p →
      rule.check ⟨g.text, path⟩ = [g.finding rule path (g.entryLine k) (.misnamed p name)]) ∧
    (g.documented.length ≠ g.parameters.length →
      rule.check ⟨g.text, path⟩ =
        [g.finding rule path 0 (.wrongCount g.documented.length g.parameters.length)]) := by
  obtain ⟨w⟩ := g.exists_placement
  obtain ⟨q⟩ := w.exists_rows
  obtain ⟨d⟩ := exists_division q
  obtain ⟨first, range, hfirst, hblank, hlocation, hcheck⟩ := check_eq_findings rule path q hmin
  obtain ⟨form, read, hlist, hitems, hname, hline⟩ := d.exists_list hread
  rw [d.comment_eq hread.summary hlist hmin hmax, hlocation] at hcheck
  have hne : read ≠ [] := by
    rintro rfl
    have hnil := List.map_eq_nil_iff.mp hname.symm
    exact g.entries_ne hnil
  have hlength : g.documented.length = read.length := by
    rw [← hname, List.length_map]
  have hentries := isItem_of_mem hitems
  refine ⟨?_, ?_, ?_⟩
  · intro heq
    have hall := documentsAll_of_names hentries g.parameters_name (hname.trans heq)
    rw [hall.checkEntries hne] at hcheck
    exact hcheck
  · intro hcount k name p htake hk hp hdiffer
    obtain ⟨e, he, rfl⟩ : ∃ e, read[k]? = some e ∧ e.name = name := by
      rw [← hname, List.getElem?_map, Option.map_eq_some_iff] at hk
      exact hk
    rw [← hname] at htake
    have hmismatch := firstMismatch_of_names hentries g.parameters_name htake he hp hdiffer
    rw [hmismatch.checkEntries (hlength.symm.trans hcount)] at hcheck
    rw [hcheck]
    exact congrArg Option.toList (d.violation?_eq rule path hline he _)
  · intro hcount
    rw [hlength] at hcount ⊢
    rw [Check.checkEntries_of_count hne hcount] at hcheck
    rw [hcheck]
    exact congrArg Option.toList (w.violation?_eq rule path hfirst hblank _)

/-- A function with two parameters, the second of which is documented under another name. -/
def misnamed : DocumentedFunction where
  layout := ⟨.gutter, 2, 0, 0, 3⟩
  listStyle := .nested
  nesting := 1
  summary := ["Moves.".toList]
  entries := [("x".toList, "Right.".toList), ("z".toList, "Up.".toList)]
  functionIndent := 2
  parameters := ["x".toList, "y".toList]
  finalBreak := true
  summary_ne := by decide
  summary_writable := by decide
  summary_text := by decide
  entries_ne := by decide
  entries_name := by decide
  entries_writable := by decide
  entries_callout := by decide
  parameters_name := by decide

/-- The finding is on the sixth line, behind the blanks of its gutter. -/
theorem check_text_misnamed :
    (misnamed.IsReadable ∧ misnamed.documented.length = misnamed.parameters.length) ∧
      (Rule.mk structuredFunctionDoc { minimalNumberOfParameters := 2 }).check
        ⟨misnamed.text, none⟩ =
          [⟨structuredFunctionDoc, .warning, ⟨none, 6, 4, 64⟩,
            "Expected parameter 'y', found 'z'".toList⟩] := by
  have hread : misnamed.IsReadable := ⟨by decide, by simp [misnamed]⟩
  refine ⟨⟨hread, rfl⟩, ?_⟩
  have hcheck := check_text ⟨structuredFunctionDoc, { minimalNumberOfParameters := 2 }⟩ none misnamed
    hread (by decide) (by decide)
  exact hcheck.2.1 rfl 1 "z".toList "y".toList rfl rfl rfl (by decide)

/-! ### Lines that are taken for a header -/

/-- A first item that reads like the header leaves a list without entries. -/
theorem check_itemLikeHeader (rule : Rule) (path : Option Text) (g : DocumentedFunction)
    (hread : ∀ s ∈ g.summary, Text.trim (expandTabs g.layout.gap s) ≠ parametersHeader)
    (hstyle : g.listStyle = .bare) {e : Text × Text} (he : g.entries.head? = some e)
    (hname : e.1 = "Parameters".toList) (hblank : Text.allBlank e.2 = true)
    (hmin : rule.configuration.minimalNumberOfParameters ≤ g.parameters.length)
    (hmax : rule.configuration.maxSummaryLineCount = 0 ∨
      g.summary.length ≤ rule.configuration.maxSummaryLineCount) :
    rule.check ⟨g.text, path⟩ = [g.finding rule path 0 .emptyList] := by
  obtain ⟨w⟩ := g.exists_placement
  obtain ⟨q⟩ := w.exists_rows
  obtain ⟨d⟩ := exists_division q
  obtain ⟨first, range, hfirst, hblank', hlocation, hcheck⟩ := check_eq_findings rule path q hmin
  rw [d.comment_eq hread (d.ofLines_itemLikeHeader hstyle he hname hblank) hmin hmax,
    hlocation] at hcheck
  rw [hcheck]
  exact congrArg Option.toList (w.violation?_eq rule path hfirst hblank' _)

/-- A summary that begins with a line like the header is none. -/
theorem check_summaryLikeHeader (rule : Rule) (path : Option Text) (g : DocumentedFunction)
    {s : Text} (hs : g.summary.head? = some s)
    (hheader : Text.trim (expandTabs g.layout.gap s) = parametersHeader)
    (hmin : rule.configuration.minimalNumberOfParameters ≤ g.parameters.length) :
    rule.check ⟨g.text, path⟩ = [g.finding rule path 0 .noSummary] := by
  obtain ⟨w⟩ := g.exists_placement
  obtain ⟨q⟩ := w.exists_rows
  obtain ⟨d⟩ := exists_division q
  obtain ⟨first, range, hfirst, hblank, hlocation, hcheck⟩ := check_eq_findings rule path q hmin
  rw [d.comment_summaryLikeHeader hs hheader hmin, hlocation] at hcheck
  rw [hcheck]
  exact congrArg Option.toList (w.violation?_eq rule path hfirst hblank _)

/-- A function whose first parameter has the name of the header, and no description. -/
def itemLikeHeader : DocumentedFunction where
  layout := ⟨.lines, 0, 0, 0, 0⟩
  listStyle := .bare
  nesting := 0
  summary := ["Sums up.".toList]
  entries := [("Parameters".toList, []), ("b".toList, "x".toList)]
  functionIndent := 0
  parameters := ["Parameters".toList, "b".toList]
  finalBreak := true
  summary_ne := by decide
  summary_writable := by decide
  summary_text := by decide
  entries_ne := by decide
  entries_name := by decide
  entries_writable := by decide
  entries_callout := by decide
  parameters_name := by decide

/-- A function whose summary is the header with a tab in it, which leads to the next column. -/
def summaryLikeHeader : DocumentedFunction where
  layout := ⟨.lines, 0, 5, 0, 0⟩
  listStyle := .keyword
  nesting := 0
  summary := ["-\tParameters:".toList]
  entries := [("a".toList, "x".toList)]
  functionIndent := 0
  parameters := ["a".toList]
  finalBreak := true
  summary_ne := by decide
  summary_writable := by decide
  summary_text := by decide
  entries_ne := by decide
  entries_name := by decide
  entries_writable := by decide
  entries_callout := by decide
  parameters_name := by decide

/-- Something is found about either, though the names are the same and no limit is set. -/
theorem check_ne_nil_likeHeader :
    (itemLikeHeader.documented = itemLikeHeader.parameters ∧
      (Rule.mk structuredFunctionDoc ⟨.warning, 0, 0⟩).check ⟨itemLikeHeader.text, none⟩ ≠ []) ∧
    (summaryLikeHeader.documented = summaryLikeHeader.parameters ∧
      (Rule.mk structuredFunctionDoc ⟨.warning, 0, 0⟩).check ⟨summaryLikeHeader.text, none⟩ ≠ []) := by
  refine ⟨⟨rfl, ?_⟩, rfl, ?_⟩
  · rw [check_itemLikeHeader ⟨structuredFunctionDoc, ⟨.warning, 0, 0⟩⟩ none itemLikeHeader
      (by decide) rfl rfl rfl rfl (by decide) (by decide)]
    simp
  · rw [check_summaryLikeHeader ⟨structuredFunctionDoc, ⟨.warning, 0, 0⟩⟩ none summaryLikeHeader
      rfl (by decide) (by decide)]
    simp

end DocLint.DocumentedFunction
