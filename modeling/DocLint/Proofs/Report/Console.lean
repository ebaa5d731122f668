/-
The table of findings on the console.

There is a row for each finding, the errors first, then by path and place, and findings that count
as equal in the order they came in.  The cells are handed to the console as they are, and it reads
them as markup.  So a row says what the finding says just if the console shows its place and its
reason as they are, and one text that the console cannot read leaves no table at all.

This is so for every console that reads markup, whatever else it knows (`showsAll_iff`).
-/
import DocLint.Proofs.Agree
import DocLint.Proofs.Report.Markup
import DocLint.Proofs.Report.StableSort
import DocLint.Proofs.Text.Identifier
import DocLint.Report.Console

namespace DocLint

/-! ### Text without markup -/

/-- Two texts stay free of markup together if there is no colon in the second. -/
theorem MarkupFree.append {s t : Text} (hs : MarkupFree s) (ht : MarkupFree t) (hcolon : ':' ∉ t) :
    MarkupFree (s ++ t) := by
  refine ⟨fun c hc => ?_, ?_⟩
  · rcases List.mem_append.mp hc with hmem | hmem
    · exact hs.chars c hmem
    · exact ht.chars c hmem
  · rw [List.count_append, List.count_eq_zero.mpr hcolon]
    exact hs.colons

theorem colon_notMem_ofNat (n : Nat) : ':' ∉ Text.ofNat n :=
  fun h => absurd (Text.isDigit_of_mem_ofNat h) (by decide)

theorem markupFree_ofNat (n : Nat) : MarkupFree (Text.ofNat n) := by
  refine ⟨fun c hc => ?_, ?_⟩
  · have hdigit := Text.isDigit_of_mem_ofNat hc
    refine ⟨?_, ?_, ?_⟩
    · rintro rfl
      exact absurd hdigit (by decide)
    · rintro rfl
      exact absurd hdigit (by decide)
    · simp only [Char.isDigit, Bool.and_eq_true, decide_eq_true_eq] at hdigit
      exact Char.le_trans (show ' ' ≤ '0' by decide) hdigit.1
  · rw [List.count_eq_zero.mpr (colon_notMem_ofNat n)]
    exact Nat.zero_le _

/-- A text may go on with a number and words behind it. -/
theorem MarkupFree.append_ofNat {s t : Text} (hs : MarkupFree s) (n : Nat) (ht : MarkupFree t)
    (hcolon : ':' ∉ t) : MarkupFree (s ++ Text.ofNat n ++ t) :=
  (hs.append (markupFree_ofNat n) (colon_notMem_ofNat n)).append ht hcolon

/-! ### Output -/

/-- What has been made of something can be had just if that can. -/
theorem exists_map_eq_ok_iff {ε α β : Type} {x : Except ε α} {f : α → β} :
    (∃ b, x.map f = .ok b) ↔ ∃ a, x = .ok a := by
  cases x <;> simp [Except.map]

namespace Renderer

variable {renderer : Renderer} {prints front more : List Print} {shown : List (List Text)}

/-- The console can read the text. -/
def IsShown (renderer : Renderer) (t : Text) : Prop := ∃ s, renderer.shown t = .ok s

theorem output_append (h : front.mapM renderer.linesOf = .ok shown) :
    renderer.output (front ++ more) =
      { renderer.output more with
        text := Report.printed shown.flatten ++ (renderer.output more).text } := by
  have hall := mapM_eq_ok_iff.mp h
  induction hall with
  | nil => rfl
  | @cons print lines _ shown hprint hall ih =>
      rw [List.cons_append, output, hprint, ih (mapM_eq_ok_iff.mpr hall)]
      simp [Report.printed]

/-- Something goes wrong on the console just if there is something that it cannot show. -/
theorem failure_output_iff : (renderer.output prints).failure = none ↔
    ∀ print ∈ prints, ∃ lines, renderer.linesOf print = .ok lines := by
  induction prints with
  | nil => simp [output]
  | cons print more ih =>
      rw [List.forall_mem_cons, output]
      cases hprint : renderer.linesOf print with
      | error e => simp
      | ok lines => simpa using ih

/-- The console can show texts that it can read. -/
theorem exists_linesOf_of_isShown {texts : List Text} (h : ∀ t ∈ texts, renderer.IsShown t) :
    ∀ print ∈ texts.map Print.text, ∃ lines, renderer.linesOf print = .ok lines :=
  List.forall_mem_map.mpr fun t ht => exists_map_eq_ok_iff.mpr (h t ht)

theorem exists_linesOf_table_iff {columns : List Column} :
    (∃ lines, renderer.linesOf (.table columns) = .ok lines) ↔
      ∃ table, renderer.table columns = .ok table := exists_map_eq_ok_iff

/-! ### Tables -/

theorem column_eq_ok_iff {c c' : Column} : renderer.column c = .ok c' ↔ ∃ header cells,
    renderer.shown c.header = .ok header ∧ c.cells.mapM renderer.shown = .ok cells ∧
      c' = { c with header, cells } := by
  unfold column
  cases renderer.shown c.header with
  | error e => simp [bind, Except.bind]
  | ok header =>
      cases c.cells.mapM renderer.shown with
      | error e => simp [bind, Except.bind]
      | ok cells => simp [bind, Except.bind, pure, Except.pure, eq_comm]

theorem table_eq_ok_iff {columns : List Column} {table : Table} :
    renderer.table columns = .ok table ↔ columns.mapM renderer.column = .ok table.columns := by
  unfold Renderer.table
  cases columns.mapM renderer.column with
  | error e => simp [bind, Except.bind]
  | ok columns =>
      obtain ⟨columns'⟩ := table
      simp [bind, Except.bind, pure, Except.pure]

theorem exists_column_iff {c : Column} : (∃ c', renderer.column c = .ok c') ↔
    renderer.IsShown c.header ∧ ∀ t ∈ c.cells, renderer.IsShown t := by
  unfold IsShown
  rw [← exists_mapM_iff]
  simp only [column_eq_ok_iff]
  constructor
  · rintro ⟨_, header, cells, hheader, hcells, -⟩
    exact ⟨⟨header, hheader⟩, cells, hcells⟩
  · rintro ⟨⟨header, hheader⟩, cells, hcells⟩
    exact ⟨_, header, cells, hheader, hcells, rfl⟩

/-- There is a table just if the console can read every header and every cell. -/
theorem exists_table_iff {columns : List Column} : (∃ table, renderer.table columns = .ok table) ↔
    ∀ c ∈ columns, renderer.IsShown c.header ∧ ∀ t ∈ c.cells, renderer.IsShown t := by
  simp only [table_eq_ok_iff, ← exists_column_iff]
  refine Iff.trans ?_ exists_mapM_iff
  exact ⟨fun ⟨_, h⟩ => ⟨_, h⟩, fun ⟨columns, h⟩ => ⟨⟨columns⟩, h⟩⟩

end Renderer

namespace Report

variable {a b : Violation} {r : Report} {renderer : Renderer} {table : Table}

/-! ### Order -/

/-- Errors come before warnings, and findings of one grade in the order of a report. -/
theorem consoleOrder_iff : consoleOrder a b = true ↔
    a.severity = .error ∧ b.severity = .warning ∨
      a.severity = b.severity ∧ Violation.atMost a b = true := by
  unfold consoleOrder
  cases a.severity <;> cases b.severity <;> simp [Severity.atLeast, Severity.rank]

theorem consoleOrder_trans (a b c : Violation) (hab : consoleOrder a b = true)
    (hbc : consoleOrder b c = true) : consoleOrder a c = true := by
  rw [consoleOrder_iff] at hab hbc ⊢
  rcases hab with ⟨ha, hb⟩ | ⟨hab, hle⟩
  · rcases hbc with ⟨hb', -⟩ | ⟨hbc, -⟩
    · rw [hb] at hb'
      simp at hb'
    · exact Or.inl ⟨ha, hbc ▸ hb⟩
  · rcases hbc with ⟨hb, hc⟩ | ⟨hbc, hle'⟩
    · exact Or.inl ⟨hab.trans hb, hc⟩
    · exact Or.inr ⟨hab.trans hbc, Violation.atMost_trans a b c hle hle'⟩

theorem consoleOrder_total (a b : Violation) : (consoleOrder a b || consoleOrder b a) = true := by
  rw [Bool.or_eq_true, consoleOrder_iff, consoleOrder_iff]
  have htotal := Violation.atMost_total a b
  rw [Bool.or_eq_true] at htotal
  cases ha : a.severity <;> cases hb : b.severity <;> simp [htotal]

/-- **The rows are the findings in a stable order.** -/
theorem stableSort_consoleViolations (r : Report) :
    StableSort consoleOrder r.violations r.consoleViolations :=
  stableSort_mergeSort consoleOrder_trans consoleOrder_total _

theorem mem_consoleViolations {v : Violation} : v ∈ r.consoleViolations ↔ v ∈ r.violations :=
  (stableSort_consoleViolations r).perm.mem_iff

/-! ### What is the same in every report -/

section ReadsMarkup

variable (hmarkup : renderer.ReadsMarkup)

include hmarkup

theorem isShown_of_markupFree {t : Text} (h : MarkupFree t) : renderer.IsShown t :=
  ⟨t, hmarkup.plain h⟩

/-- The grade is shown in its style, and the style is not shown. -/
theorem shown_grade (s : Severity) : renderer.shown (styled (style s) s.name) = .ok s.name := by
  cases s with
  | warning => exact hmarkup.pair (.mk (by decide) (by decide)) (by decide)
  | error => exact hmarkup.pair (.mk (by decide) (by decide)) (by decide)

theorem isShown_heading : ∀ t ∈ heading, renderer.IsShown t := by
  refine List.forall_mem_cons.mpr ⟨isShown_of_markupFree hmarkup (by decide), ?_⟩
  refine List.forall_mem_cons.mpr ⟨⟨_, hmarkup.pair (.mk (by decide) (by decide)) (by decide)⟩, ?_⟩
  exact List.forall_mem_singleton.mpr (isShown_of_markupFree hmarkup (by decide))

theorem isShown_noViolations (r : Report) : renderer.IsShown r.noViolations :=
  ⟨_, hmarkup.pair (.mk (by decide) (by decide))
    (MarkupFree.append_ofNat (by decide) _ (by decide) (by decide))⟩

theorem isShown_summary (r : Report) : ∀ t ∈ r.summary, renderer.IsShown t := by
  have hfront : MarkupFree "Summary: ".toList := by decide
  have hcounts : MarkupFree ("Summary: ".toList ++ Text.ofNat r.violations.length
      ++ " violations found in ".toList ++ Text.ofNat r.filesWithViolations ++ " of ".toList
      ++ Text.ofNat r.filesChecked ++ " files".toList) :=
    (((hfront.append_ofNat _ (by decide) (by decide)).append_ofNat _ (by decide)
      (by decide)).append_ofNat _ (by decide) (by decide))
  have hskipped : MarkupFree ("Skipped ".toList ++ Text.ofNat r.skippedFiles.length
      ++ " unreadable files".toList) :=
    MarkupFree.append_ofNat (by decide) _ (by decide) (by decide)
  intro t ht
  simp only [summary, List.mem_append, List.mem_cons, List.not_mem_nil, or_false] at ht
  rcases ht with ((rfl | rfl) | ht) | rfl
  · exact isShown_of_markupFree hmarkup (by decide)
  · exact isShown_of_markupFree hmarkup hcounts
  · split at ht
    · simp at ht
    · obtain rfl := List.mem_singleton.mp ht
      exact ⟨_, hmarkup.pair (.mk (by decide) (by decide)) hskipped⟩
  · exact isShown_of_markupFree hmarkup (by decide)

/-! ### Cells -/

/-- There is a table just if the console can read every place, rule and reason. -/
theorem exists_table_iff : (∃ table, renderer.table r.columns = .ok table) ↔ ∀ v ∈ r.violations,
    renderer.IsShown v.location.text ∧ renderer.IsShown v.rule.identifier ∧
      renderer.IsShown v.reason := by
  have hheader : ∀ t : Text, MarkupFree t → renderer.IsShown t :=
    fun _ => isShown_of_markupFree hmarkup
  rw [Renderer.exists_table_iff]
  simp only [columns, List.forall_mem_cons, List.forall_mem_map, mem_consoleViolations]
  constructor
  · rintro ⟨⟨-, hplace⟩, ⟨-, hrule⟩, ⟨-, hreason⟩, -⟩ v hv
    exact ⟨hplace v hv, hrule v hv, hreason v hv⟩
  · intro h
    exact ⟨⟨hheader _ (by decide), fun v hv => (h v hv).1⟩,
      ⟨hheader _ (by decide), fun v hv => (h v hv).2.1⟩,
      ⟨hheader _ (by decide), fun v hv => (h v hv).2.2⟩,
      ⟨hheader _ (by decide), fun v _ => ⟨_, shown_grade hmarkup v.severity⟩⟩, by simp⟩

/-- **A row of a table** is what is shown of a finding, and there are no other rows. -/
theorem rows_of_table (h : renderer.table r.columns = .ok table) :
    table.height = r.violations.length ∧
    ∀ (i : Nat) v, r.consoleViolations[i]? = some v → ∃ place rule reason,
      renderer.shown v.location.text = .ok place ∧ renderer.shown v.rule.identifier = .ok rule ∧
        renderer.shown v.reason = .ok reason ∧
        table.row i = [place, rule, reason, v.severity.name] := by
  obtain ⟨columns⟩ := table
  have hcolumns := mapM_eq_ok_iff.mp (Renderer.table_eq_ok_iff.mp h)
  simp only [Report.columns, List.forall₂_cons_left_iff, List.forall₂_nil_left_iff,
    Renderer.column_eq_ok_iff, mapM_eq_ok_iff, List.forall₂_map_left_iff] at hcolumns
  obtain ⟨_, _, ⟨_, places, -, hplaces, rfl⟩, ⟨_, _, ⟨_, rules, -, hrules, rfl⟩,
    ⟨_, _, ⟨_, reasons, -, hreasons, rfl⟩, ⟨_, _, ⟨_, grades, -, hgrades, rfl⟩, rfl, rfl⟩, rfl⟩,
    rfl⟩, rfl⟩ := hcolumns
  have hlength : r.consoleViolations.length = r.violations.length :=
    (stableSort_consoleViolations r).perm.length_eq
  refine ⟨?_, ?_⟩
  · simp [Table.height, ← hlength, ← hplaces.length_eq, ← hrules.length_eq, ← hreasons.length_eq,
      ← hgrades.length_eq]
  · intro i v hi
    obtain ⟨place, hplace, hshownPlace⟩ := exists_getElem?_of_forall₂ hplaces hi
    obtain ⟨rule, hrule, hshownRule⟩ := exists_getElem?_of_forall₂ hrules hi
    obtain ⟨reason, hreason, hshownReason⟩ := exists_getElem?_of_forall₂ hreasons hi
    obtain ⟨grade, hgrade, hshownGrade⟩ := exists_getElem?_of_forall₂ hgrades hi
    obtain rfl := Except.ok.inj (hshownGrade.symm.trans (shown_grade hmarkup v.severity))
    refine ⟨place, rule, reason, hshownPlace, hshownRule, hshownReason, ?_⟩
    simp [Table.row, hplace, hrule, hreason, hgrade]

/-! ### The console -/

/-- Something goes wrong on the console just if there is no table. -/
theorem failure_console_iff : (r.console renderer).failure = none ↔
    ∃ table, renderer.table r.columns = .ok table := by
  have hheading := Renderer.exists_linesOf_of_isShown (isShown_heading hmarkup)
  have hsummary := Renderer.exists_linesOf_of_isShown (isShown_summary hmarkup r)
  rw [console, Renderer.failure_output_iff, prints, List.forall_mem_append]
  by_cases hne : r.violations = []
  · have hnone : ∀ t ∈ [r.noViolations, []], renderer.IsShown t :=
      List.forall_mem_cons.mpr ⟨isShown_noViolations hmarkup r,
        List.forall_mem_singleton.mpr (isShown_of_markupFree hmarkup (by decide))⟩
    rw [if_pos (by simp [hne]), exists_table_iff hmarkup]
    exact iff_of_true ⟨hheading, Renderer.exists_linesOf_of_isShown hnone⟩ (by simp [hne])
  · rw [if_neg (by simpa using hne), List.forall_mem_cons, Renderer.exists_linesOf_table_iff]
    exact ⟨fun h => h.2.1, fun h => ⟨hheading, h, hsummary⟩⟩

/-- The table stands between other lines. -/
theorem console_of_table (h : renderer.table r.columns = .ok table) (hne : r.violations ≠ []) :
    ∃ above below, r.console renderer =
      ⟨printed (above ++ renderer.lines table ++ below), none⟩ := by
  obtain ⟨above, habove⟩ :=
    exists_mapM_iff.mpr (Renderer.exists_linesOf_of_isShown (isShown_heading hmarkup))
  obtain ⟨below, hbelow⟩ :=
    exists_mapM_iff.mpr (Renderer.exists_linesOf_of_isShown (isShown_summary hmarkup r))
  have hlines : renderer.linesOf (.table r.columns) = .ok (renderer.lines table) := by
    rw [Renderer.linesOf, h]
    rfl
  have hend := @Renderer.output_append renderer _ [] _ hbelow
  rw [List.append_nil] at hend
  refine ⟨above.flatten, below.flatten, ?_⟩
  rw [console, prints, if_neg (by simpa using hne), Renderer.output_append habove, Renderer.output,
    hlines, hend]
  simp [Renderer.output, printed]

end ReadsMarkup

/-! ### What the console shows -/

/-- Nothing goes wrong on the console, and the table has a row for each finding, in which its place
and its reason stand as they are. -/
structure ShowsAll (renderer : Renderer) (r : Report) (table : Table) : Prop where
  isTable : renderer.table r.columns = .ok table
  failure : (r.console renderer).failure = none
  isPrinted : r.violations ≠ [] → ∃ above below,
    (r.console renderer).text = printed (above ++ renderer.lines table ++ below)
  height : table.height = r.violations.length
  row : ∀ (i : Nat) v, r.consoleViolations[i]? = some v → ∃ rule,
    renderer.shown v.rule.identifier = .ok rule ∧
      table.row i = [v.location.text, rule, v.reason, v.severity.name]

section ReadsMarkup

variable (hmarkup : renderer.ReadsMarkup)

include hmarkup

/-- Every finding is shown as it is just if the console shows its place and its reason so. -/
theorem exists_showsAll_iff : (∃ table, r.ShowsAll renderer table) ↔ ∀ v ∈ r.violations,
    renderer.shown v.location.text = .ok v.location.text ∧ renderer.IsShown v.rule.identifier ∧
      renderer.shown v.reason = .ok v.reason := by
  constructor
  · rintro ⟨table, hall⟩ v hv
    obtain ⟨i, hi⟩ := List.mem_iff_getElem?.mp (mem_consoleViolations.mpr hv)
    obtain ⟨place, rule, reason, hplace, hrule, hreason, hrow⟩ :=
      (rows_of_table hmarkup hall.isTable).2 i v hi
    obtain ⟨rule', -, hrow'⟩ := hall.row i v hi
    -- The row is what is shown of the finding, and it is the finding.
    obtain ⟨rfl, -, rfl, -⟩ := by simpa using hrow.symm.trans hrow'
    exact ⟨hplace, ⟨rule, hrule⟩, hreason⟩
  · intro h
    have htable : ∃ table, renderer.table r.columns = .ok table :=
      (exists_table_iff hmarkup).mpr fun v hv =>
        ⟨⟨_, (h v hv).1⟩, (h v hv).2.1, ⟨_, (h v hv).2.2⟩⟩
    have hfailure := (failure_console_iff hmarkup).mpr htable
    obtain ⟨table, htable⟩ := htable
    obtain ⟨hheight, hrows⟩ := rows_of_table hmarkup htable
    refine ⟨table, htable, hfailure, fun hne => ?_, hheight, fun i v hi => ?_⟩
    · obtain ⟨above, below, hconsole⟩ := console_of_table hmarkup htable hne
      exact ⟨above, below, congrArg ConsoleOutput.text hconsole⟩
    · have hv := mem_consoleViolations.mp (List.mem_of_getElem? hi)
      obtain ⟨place, rule, reason, hplace, hrule, hreason, hrow⟩ := hrows i v hi
      obtain rfl := Except.ok.inj (hplace.symm.trans (h v hv).1)
      obtain rfl := Except.ok.inj (hreason.symm.trans (h v hv).2.2)
      exact ⟨rule, hrule, hrow⟩

variable {v : Violation} {name front back : Text} (hv : v ∈ r.violations) (hname : IsStyle name)
  (hfront : MarkupFree front) (hback : MarkupFree back)

include hv hname hfront hback

/-- A reason with the name of a style in brackets is shown without it. -/
theorem not_showsAll_of_opening (h : v.reason = front ++ '[' :: name ++ ']' :: back) :
    ¬∃ table, r.ShowsAll renderer table := by
  intro hall
  have hshown := ((exists_showsAll_iff hmarkup).mp hall v hv).2.2
  rw [h, hmarkup.opening hname hfront hback] at hshown
  have hlength := congrArg List.length (Except.ok.inj hshown)
  simp only [List.length_append, List.length_cons] at hlength
  omega

/-- A reason that ends a style leaves no table. -/
theorem failure_of_closing (h : v.reason = front ++ "[/".toList ++ name ++ ']' :: back) :
    (r.console renderer).failure ≠ none := by
  intro hnone
  have htable := (failure_console_iff hmarkup).mp hnone
  obtain ⟨s, hs⟩ := ((exists_table_iff hmarkup).mp htable v hv).2.2
  obtain ⟨e, he⟩ := hmarkup.closing hname hfront hback
  rw [h, he] at hs
  cases hs

end ReadsMarkup

/-- **The console shows every finding as it is** just if it can read the names of their rules and
shows their places and reasons as they are.  The rows come in a stable order, in which errors are
first and then path and place decide.  It is not so where a reason holds the name of a style in
brackets, and with a slash before the name something goes wrong. -/
theorem showsAll_iff (hmarkup : renderer.ReadsMarkup) (r : Report) :
    StableSort consoleOrder r.violations r.consoleViolations ∧
    (∀ a b, consoleOrder a b = true ↔ a.severity = .error ∧ b.severity = .warning ∨
      a.severity = b.severity ∧ (a.location.sortPath < b.location.sortPath ∨
        a.location.sortPath = b.location.sortPath ∧
          a.location.byteOffset ≤ b.location.byteOffset)) ∧
    ((∃ table, r.ShowsAll renderer table) ↔ ∀ v ∈ r.violations,
      renderer.shown v.location.text = .ok v.location.text ∧ renderer.IsShown v.rule.identifier ∧
        renderer.shown v.reason = .ok v.reason) ∧
    ∀ v ∈ r.violations, ∀ name front back, IsStyle name → MarkupFree front → MarkupFree back →
      (v.reason = front ++ '[' :: name ++ ']' :: back → ¬∃ table, r.ShowsAll renderer table) ∧
      (v.reason = front ++ "[/".toList ++ name ++ ']' :: back →
        (r.console renderer).failure ≠ none) := by
  refine ⟨stableSort_consoleViolations r, ?_, exists_showsAll_iff hmarkup, ?_⟩
  · intro a b
    rw [consoleOrder_iff, Violation.atMost_iff]
  · intro v hv name front back hname hfront hback
    exact ⟨not_showsAll_of_opening hmarkup hv hname hfront hback,
      failure_of_closing hmarkup hv hname hfront hback⟩

/-- A report of one finding, about a parameter that is documented under another name. -/
def misnamed (name : Text) : Report :=
  { violations := [⟨structuredFunctionDoc, .warning, ⟨some "a.swift".toList, 1, 1, 0⟩,
      "Expected parameter 'a', found '".toList ++ name ++ "'".toList⟩]
    filesChecked := 1 }

/-- A name of letters is shown. -/
theorem showsAll_misnamed : Markup.renderer.ReadsMarkup ∧
    ∃ table, (misnamed "b".toList).ShowsAll Markup.renderer table := by
  refine ⟨Markup.readsMarkup_renderer, (showsAll_iff Markup.readsMarkup_renderer _).2.2.1.mpr ?_⟩
  have hrule : Markup.renderer.IsShown structuredFunctionDoc.identifier := ⟨_, rfl⟩
  exact List.forall_mem_singleton.mpr
    ⟨by decide, hrule, Markup.readsMarkup_renderer.plain (by decide)⟩

/-- **No console that reads markup shows a name in brackets**, and on none is there a table where
the name has a slash. -/
theorem not_showsAll_misnamed :
    Markup.renderer.ReadsMarkup ∧ ∀ renderer : Renderer, renderer.ReadsMarkup →
      renderer.shown "Expected parameter 'a', found '[x]'".toList =
        .ok "Expected parameter 'a', found ''".toList ∧
      (¬∃ table, (misnamed "[x]".toList).ShowsAll renderer table) ∧
      ((misnamed "[/x]".toList).console renderer).failure ≠ none ∧
      ¬∃ table, (misnamed "[/x]".toList).ShowsAll renderer table := by
  refine ⟨Markup.readsMarkup_renderer, fun renderer hmarkup => ?_⟩
  have hstyle : IsStyle "x".toList := .mk (by decide) (by decide)
  have hfront : MarkupFree "Expected parameter 'a', found '".toList := by decide
  have hback : MarkupFree "'".toList := by decide
  have hfailure : ((misnamed "[/x]".toList).console renderer).failure ≠ none :=
    failure_of_closing hmarkup (List.mem_singleton.mpr rfl) hstyle hfront hback (by decide)
  refine ⟨hmarkup.opening hstyle hfront hback, ?_, hfailure, fun ⟨_, hall⟩ => hfailure hall.failure⟩
  exact not_showsAll_of_opening hmarkup (List.mem_singleton.mpr rfl) hstyle hfront hback (by decide)

end Report

end DocLint
