/-
What is read in the comment of a function that was written down.

The rows of the comment divide as they were written (`Division`).  The lines of the
summary part from the list at the blank line between them (`partsInto`), and the list is
read as the names that were written there (`exists_list`), with two exceptions: a line of
the summary may read like the header of a list once spaces stand for its tabs, and so may
the first item of a list without keyword.  `IsReadable` excludes both, and then the
verdict on the comment is the one on the entries (`comment_eq`).
-/
import DocLint.Proofs.Check.Decision
import DocLint.Proofs.Rule.Scan

namespace DocLint.DocumentedFunction

open Doc

variable {g : DocumentedFunction}

/-! ### Items -/

/-- The entry of an item that is written on a row. -/
def entryOn (g : DocumentedFunction) (r : Row) (e : Text × Text) : Entry :=
  ⟨e.1, e.1 ++ ':' :: Text.trimRight (expandTabs (g.layout.gap + (g.itemFront e).length) (' ' :: e.2)),
    g.layout.docLine r⟩

/-- No tab stands before the description, and no blank before it is the last of the line. -/
theorem content_item {e : Text × Text} (he : e ∈ g.entries) {r : Row}
    (h : r.written = some (g.item e)) :
    (g.layout.docLine r).content = List.replicate g.itemIndent ' ' ++ '-' :: ' ' ::
      (g.listStyle.beforeName ++ (g.entryOn r e).text) := by
  have htab : '\t' ∉ g.itemFront e := fun hmem =>
    Text.ne_of_isPlain (g.isPlain_itemFront he _ hmem) rfl rfl
  have hcolon := Text.trimRight_append_of_not
    (List.replicate g.itemIndent ' ' ++ '-' :: ' ' :: (g.listStyle.beforeName ++ e.1))
    (expandTabs (g.layout.gap + (g.itemFront e).length) (' ' :: e.2))
    (show Text.isBlank ':' = false by decide)
  rw [Layout.docLine_content h, item_eq, Layout.expandTabs_append htab]
  simp only [itemFront, entryOn, List.append_assoc, List.cons_append, List.nil_append] at hcolon ⊢
  exact hcolon

theorem isItem_entryOn {e : Text × Text} (he : e ∈ g.entries) {r : Row}
    (h : r.written = some (g.item e)) :
    IsItem g.listStyle g.itemIndent (g.layout.docLine r) (g.entryOn r e) where
  content := content_item he h
  text := ⟨_, rfl⟩
  name := g.entries_name e he
  line := rfl
  callout := fun hstyle => g.entries_callout hstyle e he

/-- The items on some rows, one after the other, are read as the entries written there. -/
theorem exists_entries {entries : List (Text × Text)} (hentries : ∀ e ∈ entries, e ∈ g.entries)
    {items : List Row} (h : items.map Row.written = entries.map fun e => some (g.item e)) :
    ∃ read : List Entry,
      List.Forall₂ (IsItem g.listStyle g.itemIndent) (items.map g.layout.docLine) read ∧
      read.map Entry.name = entries.map Prod.fst ∧
      read.map Entry.line = items.map g.layout.docLine := by
  induction entries generalizing items with
  | nil =>
      obtain rfl : items = [] := List.map_eq_nil_iff.mp h
      exact ⟨[], List.Forall₂.nil, rfl, rfl⟩
  | cons e entries ih =>
      obtain ⟨r, more, rfl, hr, hmore⟩ := List.map_eq_cons_iff.mp h
      obtain ⟨read, hread, hname, hline⟩ := ih (fun x hx => hentries x (by simp [hx])) hmore
      have hitem := isItem_entryOn (hentries e (by simp)) hr
      refine ⟨g.entryOn r e :: read, List.Forall₂.cons hitem hread, ?_, ?_⟩
      · rw [List.map_cons, List.map_cons, hname]
        rfl
      · rw [List.map_cons, List.map_cons, hline]
        rfl

/-! ### The division of the rows -/

/-- The rows of a comment in the order in which they were written. -/
structure Division {w : g.Placement} (q : Rows w) where
  summary : List Row
  blank : Row
  header : List Row
  items : List Row
  rows_eq : q.rows = summary ++ blank :: (header ++ items)
  summary_written : summary.map Row.written = g.summary.map some
  blank_written : blank.written = none
  header_written : header.map Row.written = g.header.map some
  items_written : items.map Row.written = g.entries.map fun e => some (g.item e)

variable {w : g.Placement} {q : Rows w}

theorem exists_division (q : Rows w) : Nonempty (Division q) := by
  have hwritten := q.written_eq
  unfold written list at hwritten
  rw [List.map_append] at hwritten
  obtain ⟨summary, more, hrows, hsummary, hmore⟩ := List.map_eq_append_iff.mp hwritten
  obtain ⟨blank, rest, rfl, hblank, hrest⟩ := List.map_eq_cons_iff.mp hmore
  obtain ⟨header, items, rfl, hheader, hitems⟩ := List.map_eq_append_iff.mp hrest
  rw [List.map_map] at hitems
  exact ⟨⟨summary, blank, header, items, hrows, hsummary, hblank, hheader, hitems⟩⟩

namespace Division

/-- **The summary parts from the list at the blank line between them.** -/
theorem partsInto (d : Division q)
    (hread : ∀ s ∈ g.summary, Text.trim (expandTabs g.layout.gap s) ≠ parametersHeader) :
    PartsInto (q.rows.map g.layout.docLine) (d.summary.map g.layout.docLine)
      ((d.header ++ d.items).map g.layout.docLine) := by
  have hsummary : ∀ l ∈ d.summary.map g.layout.docLine, isBoundary l = false := by
    intro l hl
    obtain ⟨r, hr, rfl⟩ := List.mem_map.mp hl
    have hmem : r.written ∈ g.summary.map some := by
      rw [← d.summary_written]
      exact List.mem_map_of_mem hr
    obtain ⟨s, hs, hwritten⟩ := List.mem_map.mp hmem
    rw [← Bool.not_eq_true, isBoundary_iff, Layout.isBlank_docLine hwritten.symm,
      Layout.trim_docLine hwritten.symm, (g.summary_text s hs).1]
    simpa using hread s hs
  have hblank : (g.layout.docLine d.blank).isBlank = true := by
    unfold Layout.docLine
    rw [d.blank_written]
    rfl
  rw [d.rows_eq, List.map_append, List.map_cons]
  exact PartsInto.blank hsummary hblank

/-- A list under a header is read. -/
theorem ofLines_nested (d : Division q) (hstyle : g.listStyle = .nested) {read : List Entry}
    (h : List.Forall₂ (IsItem g.listStyle g.itemIndent) (d.items.map g.layout.docLine) read) :
    ParameterList.ofLines ((d.header ++ d.items).map g.layout.docLine) = .ok ⟨.nested, read⟩ := by
  have hheader := d.header_written
  rw [header_nested hstyle] at hheader
  obtain ⟨r, rest, hrow, hwritten, hrest⟩ := List.map_eq_cons_iff.mp hheader
  obtain rfl : rest = [] := List.map_eq_nil_iff.mp hrest
  have hcontent : (g.layout.docLine r).content = parametersHeader := by
    have htab : '\t' ∉ parametersHeader := by decide
    rw [Layout.docLine_content hwritten, Layout.expandTabs_of_not_mem htab]
    rfl
  rw [hstyle, itemIndent_nested hstyle] at h
  rw [hrow, List.map_append]
  refine ParameterList.ofLines_nested ?_ ?_ ?_ h
  · rw [hcontent]
    rfl
  · unfold DocLine.isBlank
    rw [hcontent]
    rfl
  · unfold DocLine.indent
    rw [hcontent]
    exact Nat.succ_pos _

/-- A list without header is read, its first item not being taken for one. -/
theorem ofLines_flat (d : Division q) (hread : g.IsReadable) (hstyle : g.listStyle ≠ .nested)
    {read : List Entry}
    (h : List.Forall₂ (IsItem g.listStyle g.itemIndent) (d.items.map g.layout.docLine) read) :
    ParameterList.ofLines ((d.header ++ d.items).map g.layout.docLine) = .ok ⟨.flat, read⟩ := by
  have hheader := d.header_written
  rw [header_of_flat hstyle] at hheader
  obtain ⟨e, entries, hentries⟩ := List.exists_cons_of_ne_nil g.entries_ne
  have hwritten := d.items_written
  rw [hentries] at hwritten
  obtain ⟨r, more, hrows, hfirst, -⟩ := List.map_eq_cons_iff.mp hwritten
  have hitem := isItem_entryOn (r := r) (by rw [hentries]; simp) hfirst
  rw [hrows] at h
  rw [List.map_eq_nil_iff.mp hheader, hrows]
  cases hcase : g.listStyle with
  | nested => exact absurd hcase hstyle
  | keyword =>
      rw [hcase] at h hitem
      exact ParameterList.ofLines_flat rfl hitem.trim_ne_header h
  | bare =>
      rw [hcase] at h hitem
      refine ParameterList.ofLines_flat rfl ?_ h
      intro heq
      obtain ⟨hname, hblank⟩ := hitem.eq_of_trim_eq_header heq
      have hdescription := hblank _ rfl
      rw [Text.allBlank_trimRight, Layout.allBlank_expandTabs] at hdescription
      exact hread.first hcase e (by rw [hentries]; rfl) ⟨hname, hdescription⟩

/-- **The list is read as the names that were written there.** -/
theorem exists_list (d : Division q) (hread : g.IsReadable) : ∃ form read,
    ParameterList.ofLines ((d.header ++ d.items).map g.layout.docLine) = .ok ⟨form, read⟩ ∧
      List.Forall₂ (IsItem g.listStyle g.itemIndent) (d.items.map g.layout.docLine) read ∧
      read.map Entry.name = g.documented ∧ read.map Entry.line = d.items.map g.layout.docLine := by
  obtain ⟨read, hitems, hname, hline⟩ := exists_entries (fun _ he => he) d.items_written
  by_cases hstyle : g.listStyle = .nested
  · exact ⟨.nested, read, d.ofLines_nested hstyle hitems, hitems, hname, hline⟩
  · exact ⟨.flat, read, d.ofLines_flat hread hstyle hitems, hitems, hname, hline⟩

/-- **The verdict on the comment is the one on its entries**, once they are known. -/
theorem comment_eq (d : Division q)
    (hread : ∀ s ∈ g.summary, Text.trim (expandTabs g.layout.gap s) ≠ parametersHeader)
    {list : ParameterList}
    (hlist : ParameterList.ofLines ((d.header ++ d.items).map g.layout.docLine) = .ok list)
    {config : Configuration} (hmin : config.minimalNumberOfParameters ≤ g.parameters.length)
    (hmax : config.maxSummaryLineCount = 0 ∨ g.summary.length ≤ config.maxSummaryLineCount)
    (range : ByteRange) :
    Check.comment config g.parameters ⟨range, q.rows.map g.layout.docLine⟩ =
      Check.checkEntries range.location list.entries g.parameters := by
  obtain ⟨separator, hsections⟩ := Sections.ofLines_eq_ok_iff.mpr (d.partsInto hread)
  have hlength : (d.summary.map g.layout.docLine).length = g.summary.length := by
    have h := congrArg List.length d.summary_written
    simpa using h
  have hne : (d.summary.map g.layout.docLine).isEmpty = false := by
    rw [List.isEmpty_eq_false_iff, ← List.length_pos_iff, hlength, List.length_pos_iff]
    exact g.summary_ne
  have hlong : Check.isTooLong config g.summary.length = false := by
    simp only [Check.isTooLong, Bool.and_eq_false_iff, decide_eq_false_iff_not]
    omega
  unfold Check.comment
  rw [if_neg (by simp [Check.isExempt]; omega), hsections]
  simp only
  unfold Check.checkSections
  simp only [hne, hlength, hlong, hlist]
  rfl

/-! ### Lines that are taken for a header -/

/-- A first item that reads like the header is taken for it, and the items behind it are not deep
enough to be its list. -/
theorem ofLines_itemLikeHeader (d : Division q) (hstyle : g.listStyle = .bare)
    {e : Text × Text} (he : g.entries.head? = some e) (hname : e.1 = "Parameters".toList)
    (hblank : Text.allBlank e.2 = true) :
    ParameterList.ofLines ((d.header ++ d.items).map g.layout.docLine) = .ok ⟨.nested, []⟩ := by
  have hflat : g.listStyle ≠ .nested := by
    rw [hstyle]
    decide
  have hheader := d.header_written
  rw [header_of_flat hflat] at hheader
  obtain ⟨entries, hentries⟩ := List.head?_eq_some_iff.mp he
  obtain ⟨read, hitems, -, -⟩ := exists_entries (fun _ he => he) d.items_written
  have hwritten := d.items_written
  rw [hentries] at hwritten
  obtain ⟨r, more, hrows, hfirst, -⟩ := List.map_eq_cons_iff.mp hwritten
  have hcontent : (g.layout.docLine r).content = parametersHeader := by
    have hdescription : Text.trimRight (expandTabs (g.layout.gap + (g.itemFront e).length)
        (' ' :: e.2)) = [] := by
      refine Text.trimRight_eq_nil ?_
      rw [Layout.allBlank_expandTabs]
      exact hblank
    rw [content_item (by rw [hentries]; simp) hfirst, itemIndent_of_flat hflat, hstyle, entryOn,
      hdescription, hname]
    rfl
  have hindent : ∀ l ∈ d.items.map g.layout.docLine, l.indent = 0 := by
    intro l hl
    obtain ⟨x, hitem⟩ := exists_isItem hitems l hl
    rw [hitem.indent_eq, itemIndent_of_flat hflat]
  rw [hrows] at hindent
  rw [List.map_eq_nil_iff.mp hheader, hrows]
  refine ParameterList.ofLines_header ?_ ?_ ?_
  · rw [hcontent]
    rfl
  · unfold DocLine.isBlank
    rw [hcontent]
    rfl
  · intro l hl
    rw [hindent l (List.mem_cons_of_mem _ (List.mem_of_head? hl))]
    exact Nat.zero_le _

/-- When the first line of the summary reads like the header nothing stands before the list. -/
theorem comment_summaryLikeHeader (d : Division q) {s : Text} (hs : g.summary.head? = some s)
    (hheader : Text.trim (expandTabs g.layout.gap s) = parametersHeader)
    {config : Configuration} (hmin : config.minimalNumberOfParameters ≤ g.parameters.length)
    (range : ByteRange) :
    Check.comment config g.parameters ⟨range, q.rows.map g.layout.docLine⟩ =
      .invalid range.location .noSummary := by
  obtain ⟨more, hmore⟩ := List.head?_eq_some_iff.mp hs
  have hwritten := d.summary_written
  rw [hmore] at hwritten
  obtain ⟨r, rest, hrest, hr, -⟩ := List.map_eq_cons_iff.mp hwritten
  have htrim : Text.trim (g.layout.docLine r).content = parametersHeader := by
    rw [Layout.trim_docLine hr, hheader]
  have hparts : PartsInto ([] ++ g.layout.docLine r :: (rest ++ d.blank :: (d.header
      ++ d.items)).map g.layout.docLine) [] _ := PartsInto.header (by simp) htrim
  obtain ⟨separator, hsections⟩ := Sections.ofLines_eq_ok_iff.mpr hparts
  have hlines : q.rows.map g.layout.docLine =
      g.layout.docLine r :: (rest ++ d.blank :: (d.header ++ d.items)).map g.layout.docLine := by
    rw [d.rows_eq, hrest]
    rfl
  unfold Check.comment
  rw [if_neg (by simp [Check.isExempt]; omega), hlines]
  simp only
  rw [List.nil_append] at hsections
  rw [hsections]
  rfl

end Division

end DocLint.DocumentedFunction
