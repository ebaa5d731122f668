/-
Lists of parameters that are written down are read back.

There are three styles: nested under a header, flat with a keyword, flat without.  In each
an item is a bullet, perhaps the keyword, a name, a colon and any text.  `IsItem` says so
of a line, `IsItem.reads` that the grammar of lists agrees, and `readItems_of_isItem` that
such lines are read as the entries they were written for.  Two things can be mistaken in
the style without keyword: a name that is a callout ends the list, and an item that reads
like the header is taken for it.
-/
import DocLint.Proofs.Doc.ListGrammar

namespace DocLint

namespace Doc

/-- The ways in which a list of parameters is written. -/
inductive ListStyle where
  | nested
  | keyword
  | bare
  deriving Repr, DecidableEq

namespace ListStyle

def form : ListStyle → ListForm
  | nested => .nested
  | keyword => .flat
  | bare => .flat

/-- What stands before the name in an item. -/
def beforeName : ListStyle → Text
  | nested => []
  | keyword => parameterKeyword ++ [' ']
  | bare => []

@[simp] theorem beforeName_nested : beforeName nested = [] := rfl

@[simp] theorem beforeName_keyword : beforeName keyword = parameterKeyword ++ [' '] := rfl

@[simp] theorem beforeName_bare : beforeName bare = [] := rfl

end ListStyle

/-- The line is an item of the style, at an indentation, and stands for the entry. -/
structure IsItem (style : ListStyle) (indent : Nat) (l : DocLine) (e : Entry) : Prop where
  content : l.content = List.replicate indent ' ' ++ '-' :: ' ' :: (style.beforeName ++ e.text)
  text : ∃ w, e.text = e.name ++ ':' :: w
  name : Text.isIdentifier e.name = true
  line : e.line = l
  /-- Without a keyword the name is told from a callout by its being none. -/
  callout : style = .bare → e.name ∉ callouts

namespace IsItem

variable {style : ListStyle} {indent : Nat} {l : DocLine} {e : Entry}

theorem isBlank_eq (h : IsItem style indent l e) : l.isBlank = false := by
  unfold DocLine.isBlank
  rw [h.content]
  exact Text.allBlank_eq_false_of_mem (c := '-') (by simp) (by decide)

theorem indent_eq (h : IsItem style indent l e) : l.indent = indent := by
  unfold DocLine.indent Text.indent
  rw [h.content, Text.leadingBlanks_spaces_append _ _ (by decide), List.length_replicate]

theorem exists_name_cons (h : IsItem style indent l e) :
    ∃ c r, e.name = c :: r ∧ Text.isBlank c = false := by
  obtain ⟨c, r, hname, -⟩ := Text.exists_cons_of_isIdentifier h.name
  exact ⟨c, r, hname, Text.not_blank_of_isIdentifier h.name c (by simp [hname])⟩

theorem flush_text (h : IsItem style indent l e) : e.text.Flush := by
  obtain ⟨w, hw⟩ := h.text
  obtain ⟨c, r, hname, hc⟩ := h.exists_name_cons
  rw [hw, hname]
  exact Text.flush_cons.mpr hc

/-- The bullet of an item is its dash. -/
theorem bulleted (h : IsItem style indent l e) : Bulleted l.content (style.beforeName ++ e.text) := by
  have hflush : Text.Flush (style.beforeName ++ e.text) := by
    cases style with
    | nested => exact h.flush_text
    | keyword => exact Text.flush_cons.mpr (by decide)
    | bare => exact h.flush_text
  rw [h.content]
  show Bulleted (List.replicate indent ' ' ++ '-' :: ' ' :: ([] ++ (style.beforeName ++ e.text))) _
  exact Bulleted.intro (Text.allBlank_spaces indent) (Or.inl rfl) (Or.inl rfl) rfl hflush

theorem behindKeyword (h : IsItem style indent l e) :
    BehindKeyword style.form (style.beforeName ++ e.text) e.text := by
  cases style with
  | nested => exact BehindKeyword.plain (by simp [ListStyle.form])
  | keyword =>
      show BehindKeyword .flat ("Parameter ".toList ++ ([] ++ e.text)) e.text
      exact BehindKeyword.keyword rfl h.flush_text
  | bare =>
      obtain ⟨w, hw⟩ := h.text
      refine BehindKeyword.plain fun _ hprefix => ?_
      -- The colon is not in the keyword, so its blank would stand in the name.
      change "Parameter ".toList <+: e.text at hprefix
      rw [hw] at hprefix
      have hname := prefix_of_prefix_append hprefix (by
        intro c hc
        obtain rfl : ':' = c := by simpa using hc
        decide)
      exact Text.not_mem_of_isIdentifier h.name (x := ' ') rfl (hname.subset (by decide))

/-- **An item is read as the entry it was written for.** -/
theorem reads (h : IsItem style indent l e) : Reads style.form l e := by
  obtain ⟨w, hw⟩ := h.text
  obtain ⟨c, r, hname, hc⟩ := h.exists_name_cons
  refine ⟨h.line, ⟨_, h.bulleted, h.behindKeyword⟩, e.name, w, hw, ?_, ?_, ?_⟩
  · exact Text.not_mem_of_isIdentifier h.name rfl
  · rw [hname, Text.allBlank_cons, hc, Bool.false_and]
  · exact (Text.trim_of_not_blank (Text.not_blank_of_isIdentifier h.name)).symm

theorem beforeChar_colon (h : IsItem style indent l e) :
    Text.beforeChar ':' (style.beforeName ++ e.text) = style.beforeName ++ e.name := by
  obtain ⟨w, hw⟩ := h.text
  rw [hw, ← List.append_assoc]
  refine Text.beforeChar_append ?_ w
  intro hmem
  rcases List.mem_append.mp hmem with hmem | hmem
  · cases style with
    | nested => simp at hmem
    | keyword => exact absurd hmem (by decide)
    | bare => simp at hmem
  · exact Text.not_mem_of_isIdentifier h.name (x := ':') rfl hmem

/-- No callout has a blank inside, so the keyword keeps an item from being one. -/
theorem isCallout_eq (h : IsItem style indent l e) (hflat : style ≠ .nested) :
    isCallout (style.beforeName ++ e.text) = false := by
  have hblank := Text.not_blank_of_isIdentifier h.name
  unfold isCallout
  rw [h.beforeChar_colon, Bool.and_eq_false_iff]
  refine Or.inr ?_
  rw [List.contains_eq_mem, decide_eq_false_iff_not]
  cases style with
  | nested => exact absurd rfl hflat
  | bare =>
      rw [ListStyle.beforeName_bare, List.nil_append, Text.trim_of_not_blank hblank]
      exact h.callout rfl
  | keyword =>
      have hspace : ∀ t ∈ callouts, ' ' ∉ t := by decide
      intro hmem
      refine hspace _ hmem ?_
      -- Trimming takes away neither the keyword nor the blank behind it.
      have hne : e.name ≠ [] := by
        intro hnil
        have hname := h.name
        rw [hnil] at hname
        exact absurd hname (by decide)
      obtain ⟨s, c, hname⟩ := List.eq_nil_or_concat e.name |>.resolve_left hne
      rw [List.concat_eq_append] at hname
      have hlast := Text.trimRight_append_of_not (parameterKeyword ++ [' '] ++ s) []
        (hblank c (by simp [hname]))
      have htrim : Text.trim (parameterKeyword ++ [' '] ++ e.name) =
          parameterKeyword ++ [' '] ++ e.name := by
        unfold Text.trim
        have hleft : Text.trimLeft (parameterKeyword ++ [' '] ++ e.name) =
            parameterKeyword ++ [' '] ++ e.name := Text.trimLeft_cons_of_not _ (by decide)
        rw [hleft, hname, ← List.append_assoc, hlast]
        rfl
      rw [ListStyle.beforeName_keyword, htrim]
      simp

theorem not_isCalloutAt (h : IsItem style indent l e) (hflat : style.form = .flat) :
    ¬IsCalloutAt indent l := by
  rintro ⟨-, front, rest, hbullet, hcolon, hmem⟩
  have hcallout : isCallout (front ++ ':' :: rest) = true :=
    isCallout_iff.mpr ⟨front, rest, rfl, hcolon, hmem⟩
  have htext := bulletText?_eq_some_iff.mpr hbullet
  rw [bulletText?_eq_some_iff.mpr h.bulleted] at htext
  rw [← Option.some.inj htext, h.isCallout_eq (by rintro rfl; simp [ListStyle.form] at hflat)]
    at hcallout
  simp at hcallout

/-- With the keyword no item reads like the header. -/
theorem trim_ne_header (h : IsItem .keyword indent l e) :
    Text.trim l.content ≠ parametersHeader := by
  obtain ⟨w, hw⟩ := h.text
  obtain ⟨c, r, hname, hblank⟩ := h.exists_name_cons
  have hright := Text.trimRight_append_of_not ("- Parameter ".toList) (r ++ ':' :: w) hblank
  have htrim : Text.trim l.content = "- Parameter ".toList ++ c :: Text.trimRight (r ++ ':' :: w) := by
    unfold Text.trim
    rw [h.content, Text.trimLeft_append_of_allBlank _ (Text.allBlank_spaces indent),
      Text.trimLeft_cons_of_not _ (by decide), hw, hname]
    exact hright
  rw [htrim]
  intro heq
  have htake := congrArg (List.take 12) heq
  rw [List.take_left' (by decide)] at htake
  exact absurd htake (by decide)

/-- Without it the one item that does has the name of the header and no text behind the colon. -/
theorem eq_of_trim_eq_header (h : IsItem .bare indent l e)
    (heq : Text.trim l.content = parametersHeader) :
    e.name = "Parameters".toList ∧ ∀ w, e.text = e.name ++ ':' :: w → Text.allBlank w = true := by
  have hcolon := Text.not_mem_of_isIdentifier h.name (x := ':') rfl
  have htrim : ∀ w, e.text = e.name ++ ':' :: w →
      e.name ++ ':' :: Text.trimRight w = "Parameters".toList ++ ':' :: [] := by
    intro w hw
    have hright := Text.trimRight_append_of_not ('-' :: ' ' :: e.name) w
      (show Text.isBlank ':' = false by decide)
    have hcontent : Text.trim l.content = '-' :: ' ' :: e.name ++ ':' :: Text.trimRight w := by
      unfold Text.trim
      rw [h.content, Text.trimLeft_append_of_allBlank _ (Text.allBlank_spaces indent),
        Text.trimLeft_cons_of_not _ (by decide), hw]
      exact hright
    rw [hcontent] at heq
    have hdrop := congrArg (List.drop 2) heq
    exact hdrop
  obtain ⟨w, hw⟩ := h.text
  have hname : e.name = "Parameters".toList := by
    have hbefore := congrArg (Text.beforeChar ':') (htrim w hw)
    rw [Text.beforeChar_append hcolon, Text.beforeChar_append (by decide)] at hbefore
    exact hbefore
  refine ⟨hname, ?_⟩
  intro w hw
  have hcut := htrim w hw
  rw [hname] at hcut
  have hnil := (List.cons.inj (List.append_cancel_left hcut)).2
  rw [← Text.allBlank_trimRight, hnil]
  rfl

/-- An item documents the parameter of its name and no other. -/
theorem documents_iff (h : IsItem style indent l e) {p : Text} (hp : Text.isIdentifier p = true) :
    e.documents p = true ↔ e.name = p := by
  obtain ⟨w, hw⟩ := h.text
  unfold Entry.documents
  rw [hw, List.isPrefixOf_iff_prefix, Text.append_prefix_append_iff
    (Text.not_mem_of_isIdentifier hp rfl) (Text.not_mem_of_isIdentifier h.name rfl)]
  exact eq_comm

end IsItem

/-! ### Lists -/

variable {style : ListStyle} {indent : Nat} {lines : List DocLine} {entries : List Entry}

/-- **Items are read as the entries they were written for.** -/
theorem readItems_of_isItem (h : List.Forall₂ (IsItem style indent) lines entries) :
    readItems style.form indent lines = .ok entries := by
  induction h with
  | nil => rfl
  | @cons l e lines entries hitem _ ih =>
      rw [readItems_item hitem.indent_eq hitem.reads hitem.not_isCalloutAt, ih]
      rfl

theorem exists_isItem (h : List.Forall₂ (IsItem style indent) lines entries) :
    ∀ l ∈ lines, ∃ e, IsItem style indent l e := by
  intro l hl
  obtain ⟨e, -, hitem⟩ := exists_right_of_mem h hl
  exact ⟨e, hitem⟩

/-- The entries are those of their lines. -/
theorem isItem_of_mem (h : List.Forall₂ (IsItem style indent) lines entries) :
    ∀ e ∈ entries, IsItem style indent e.line e := by
  intro e he
  obtain ⟨l, -, hitem⟩ := exists_left_of_mem h he
  rw [hitem.line]
  exact hitem

end Doc

namespace ParameterList

open Doc

variable {style : ListStyle} {indent : Nat} {lines : List DocLine} {entries : List Entry}

/-- **A list under a header is read back.** -/
theorem ofLines_nested {header : DocLine} (hheader : Text.trim header.content = parametersHeader)
    (hblank : header.isBlank = false) (hdeeper : header.indent < indent)
    (h : List.Forall₂ (IsItem .nested indent) lines entries) :
    ofLines (header :: lines) = .ok ⟨.nested, entries⟩ := by
  have hall : ∀ l ∈ header :: lines, l.isBlank = false := by
    intro l hl
    rcases List.mem_cons.mp hl with rfl | hl
    · exact hblank
    · obtain ⟨e, hitem⟩ := exists_isItem h l hl
      exact hitem.isBlank_eq
  have hindent : ∀ l ∈ lines, l.indent = indent := by
    intro l hl
    obtain ⟨e, hitem⟩ := exists_isItem h l hl
    exact hitem.indent_eq
  have hbody : lines.takeWhile (fun l => decide (header.indent < l.indent)) = lines := by
    rw [List.takeWhile_eq_self_iff]
    intro l hl
    rw [hindent l hl]
    simpa using hdeeper
  have hread := readItems_of_isItem h
  change readItems .nested indent lines = _ at hread
  unfold ofLines
  rw [firstRun_eq hall]
  simp only [hheader, if_true]
  unfold nested
  simp only [hbody]
  cases h with
  | nil => rfl
  | @cons l e lines entries hitem hmore =>
      simp only [List.head?_cons, Option.map_some, Option.getD_some, hitem.indent_eq]
      rw [hread]
      rfl

/-- A header has no list when the next line is not deeper. -/
theorem ofLines_header {header : DocLine} (hheader : Text.trim header.content = parametersHeader)
    (hblank : header.isBlank = false)
    (hnext : ∀ l, lines.head? = some l → l.indent ≤ header.indent) :
    ofLines (header :: lines) = .ok ⟨.nested, []⟩ := by
  have hrun : firstRun (header :: lines) = header :: lines.takeWhile fun l => !l.isBlank := by
    unfold firstRun
    rw [List.dropWhile_cons_of_neg (by simp [hblank]), List.takeWhile_cons_of_pos (by simp [hblank])]
  have hbody : (lines.takeWhile fun l => !l.isBlank).takeWhile
      (fun l => decide (header.indent < l.indent)) = [] := by
    cases lines with
    | nil => rfl
    | cons l more =>
        have hle := hnext l rfl
        cases hl : l.isBlank with
        | true => rw [List.takeWhile_cons_of_neg (by simp [hl]), List.takeWhile_nil]
        | false =>
            rw [List.takeWhile_cons_of_pos (by simp [hl]), List.takeWhile_cons_of_neg]
            simpa using hle
  unfold ofLines
  rw [hrun]
  simp only [hheader, if_true]
  unfold nested
  simp only [hbody]
  rfl

/-- **A flat list is read back**, unless its first item reads like the header. -/
theorem ofLines_flat {first : DocLine} (hstyle : style.form = .flat)
    (hheader : Text.trim first.content ≠ parametersHeader)
    (h : List.Forall₂ (IsItem style indent) (first :: lines) entries) :
    ofLines (first :: lines) = .ok ⟨.flat, entries⟩ := by
  have hread := readItems_of_isItem h
  have hindent : first.indent = indent := by
    cases h with
    | cons hitem _ => exact hitem.indent_eq
  have hall : ∀ l ∈ first :: lines, l.isBlank = false := by
    intro l hl
    obtain ⟨e, hitem⟩ := exists_isItem h l hl
    exact hitem.isBlank_eq
  unfold ofLines
  rw [firstRun_eq hall]
  simp only [if_neg hheader]
  rw [hindent, ← hstyle, hread]
  rfl

end ParameterList

end DocLint
