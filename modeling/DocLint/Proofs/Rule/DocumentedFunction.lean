/-
Functions with a comment above them, written down.

A `DocumentedFunction` is a comment in one of the layouts, with a summary, a blank line
and a list in one of the styles, and right below it a function on one line.  Its fields
hold what is written and the promise that no text breaks a line or marks a block comment.
The parameters of the list and those of the function need not be the same: what becomes
of the difference is the matter of the verdict.
-/
import DocLint.Proofs.Doc.Items
import DocLint.Proofs.Doc.Layout
import DocLint.Proofs.Swift.Comment
import DocLint.Proofs.Swift.Function
import DocLint.Rule.Violation

namespace DocLint

open Doc Swift

/-- The text can stand on a line of a comment. -/
structure Text.Writable (t : Text) : Prop where
  unbroken : t.Unbroken
  unmarked : t.Unmarked

instance (t : Text) : Decidable t.Writable :=
  decidable_of_iff (t.Unbroken ∧ t.Unmarked)
    ⟨fun h => ⟨h.1, h.2⟩, fun h => ⟨h.unbroken, h.unmarked⟩⟩

/-- A function below its comment. -/
structure DocumentedFunction where
  layout : Layout
  listStyle : ListStyle
  /-- How much deeper than its header a nested list stands, less one. -/
  nesting : Nat
  summary : List Text
  /-- The names that are documented, each with its description. -/
  entries : List (Text × Text)
  functionIndent : Nat
  parameters : List Text
  /-- Does a line feed end the last line? -/
  finalBreak : Bool
  summary_ne : summary ≠ []
  summary_writable : ∀ s ∈ summary, s.Writable
  summary_text : ∀ s ∈ summary, Text.allBlank s = false ∧ Text.trim s ≠ parametersHeader
  entries_ne : entries ≠ []
  entries_name : ∀ e ∈ entries, Text.isIdentifier e.1 = true
  entries_writable : ∀ e ∈ entries, e.2.Writable
  entries_callout : listStyle = .bare → ∀ e ∈ entries, e.1 ∉ callouts
  parameters_name : ∀ p ∈ parameters, Text.isIdentifier p = true

namespace DocumentedFunction

/-! ### The text -/

def documented (g : DocumentedFunction) : List Text := g.entries.map Prod.fst

/-- The spaces before an item, in addition to those before the text. -/
def itemIndent (g : DocumentedFunction) : Nat :=
  match g.listStyle with
  | .nested => g.nesting + 1
  | _ => 0

def item (g : DocumentedFunction) (e : Text × Text) : Text :=
  List.replicate g.itemIndent ' ' ++ '-' :: ' ' :: (g.listStyle.beforeName
    ++ (e.1 ++ ':' :: ' ' :: e.2))

def header (g : DocumentedFunction) : List Text :=
  match g.listStyle with
  | .nested => [parametersHeader]
  | _ => []

def list (g : DocumentedFunction) : List Text := g.header ++ g.entries.map g.item

/-- What is written on the lines of the comment. -/
def written (g : DocumentedFunction) : List (Option Text) :=
  g.summary.map some ++ none :: g.list.map some

def commentLines (g : DocumentedFunction) : List Text := g.layout.comment g.written

/-- What stands between the parentheses. -/
def clause (g : DocumentedFunction) : Text :=
  Text.join ", ".toList (g.parameters.map simpleParameter)

def functionLine (g : DocumentedFunction) : Text :=
  List.replicate g.functionIndent ' ' ++ ("func f(".toList ++ (g.clause ++ ')' :: " \x7b\x7d".toList))

def text (g : DocumentedFunction) : Text :=
  Text.unlines g.commentLines ++ (g.functionLine ++ if g.finalBreak then ['\n'] else [])

/-- The place of the first text on a line of the comment. -/
def location (g : DocumentedFunction) (path : Option Text) (line : Nat) : Location :=
  let content := (g.commentLines[line]?).getD []
  ⟨path, line + 1, Text.indent content + 1,
    Text.byteSize (Text.unlines (g.commentLines.take line))
      + Text.byteSize (Text.leadingBlanks content)⟩

/-- The line of the comment on which an entry stands. -/
def entryLine (g : DocumentedFunction) (k : Nat) : Nat :=
  (if g.layout.style = .lines then 0 else 1) + g.summary.length + 1 + g.header.length + k

/-- No line is taken for the header that is not it: no line of the summary reads like it once
spaces stand for its tabs, and neither does the first item of a list without keyword. -/
structure IsReadable (g : DocumentedFunction) : Prop where
  summary : ∀ s ∈ g.summary, Text.trim (expandTabs g.layout.gap s) ≠ parametersHeader
  first : g.listStyle = .bare → ∀ e, g.entries.head? = some e →
    ¬(e.1 = "Parameters".toList ∧ Text.allBlank e.2 = true)

theorem header_nested {g : DocumentedFunction} (h : g.listStyle = .nested) :
    g.header = [parametersHeader] := by
  unfold header
  rw [h]

theorem header_of_flat {g : DocumentedFunction} (h : g.listStyle ≠ .nested) : g.header = [] := by
  unfold header
  cases hstyle : g.listStyle with
  | nested => exact absurd hstyle h
  | keyword => rfl
  | bare => rfl

theorem itemIndent_nested {g : DocumentedFunction} (h : g.listStyle = .nested) :
    g.itemIndent = g.nesting + 1 := by
  unfold itemIndent
  rw [h]

theorem itemIndent_of_flat {g : DocumentedFunction} (h : g.listStyle ≠ .nested) :
    g.itemIndent = 0 := by
  unfold itemIndent
  cases hstyle : g.listStyle with
  | nested => exact absurd hstyle h
  | keyword => rfl
  | bare => rfl

/-! ### What no line holds -/

variable (g : DocumentedFunction)

/-- The part of an item up to the colon. -/
def itemFront (e : Text × Text) : Text :=
  List.replicate g.itemIndent ' ' ++ '-' :: ' ' :: (g.listStyle.beforeName ++ (e.1 ++ [':']))

theorem item_eq (e : Text × Text) : g.item e = g.itemFront e ++ ' ' :: e.2 := by
  simp [item, itemFront]

theorem isPlain_itemFront {e : Text × Text} (he : e ∈ g.entries) :
    ∀ c ∈ g.itemFront e, Text.isPlain c = true := by
  have hbefore : ∀ c ∈ g.listStyle.beforeName, Text.isPlain c = true := by
    cases g.listStyle with
    | nested => simp
    | keyword => decide
    | bare => simp
  intro c hc
  simp only [itemFront, List.mem_append, List.mem_cons, List.mem_replicate, List.not_mem_nil,
    or_false] at hc
  rcases hc with ⟨-, rfl⟩ | rfl | rfl | hc | hc | rfl
  · rfl
  · rfl
  · rfl
  · exact hbefore c hc
  · exact Text.isPlain_of_mem (g.entries_name e he) hc
  · rfl

theorem isPlain_clause : ∀ c ∈ g.clause, Text.isPlain c = true := by
  have hjoin : ∀ names : List Text, (∀ n ∈ names, Text.isIdentifier n = true) →
      ∀ c ∈ Text.join ", ".toList (names.map simpleParameter), Text.isPlain c = true := by
    intro names hnames
    have hone : ∀ n ∈ names, ∀ c ∈ simpleParameter n, Text.isPlain c = true := by
      intro n hn c hc
      rcases List.mem_append.mp hc with hc | hc
      · exact Text.isPlain_of_mem (hnames n hn) hc
      · have hall : ∀ c ∈ ": Int".toList, Text.isPlain c = true := by decide
        exact hall c hc
    induction names with
    | nil => simp [Text.join]
    | cons n more ih =>
        have hmore := ih (fun x hx => hnames x (by simp [hx])) fun x hx => hone x (by simp [hx])
        cases more with
        | nil =>
            intro c hc
            exact hone n (by simp) c hc
        | cons m more =>
            have hsep : ∀ c ∈ ", ".toList, Text.isPlain c = true := by decide
            intro c hc
            rw [List.map_cons, List.map_cons, Text.join] at hc
            · rcases List.mem_append.mp hc with hc | hc
              · rcases List.mem_append.mp hc with hc | hc
                · exact hone n (by simp) c hc
                · exact hsep c hc
              · exact hmore c hc
            · simp
  exact hjoin g.parameters g.parameters_name

theorem writable_append {u t : Text} (h : t.Writable) (hu : ∀ c ∈ u, Text.isPlain c = true) :
    Text.Writable (u ++ t) := by
  refine ⟨Text.Unbroken.append ?_ h.unbroken, h.unmarked.append ?_⟩
  · intro c hc
    exact ⟨Text.ne_of_isPlain (hu c hc) rfl, Text.ne_of_isPlain (hu c hc) rfl⟩
  · intro c hc
    exact ⟨Text.ne_of_isPlain (hu c hc) rfl, Text.ne_of_isPlain (hu c hc) rfl⟩

theorem writable_nil : Text.Writable [] := ⟨fun _ hc => absurd hc (by simp), Text.unmarked_nil⟩

theorem isPlain_spaces (n : Nat) : ∀ c ∈ List.replicate n ' ', Text.isPlain c = true := by
  intro c hc
  rw [(List.mem_replicate.mp hc).2]
  rfl

theorem written_writable : ∀ t, some t ∈ g.written → t.Writable := by
  intro t ht
  simp only [written, list, List.mem_append, List.mem_cons, List.mem_map, reduceCtorEq, false_or,
    Option.some.injEq, exists_eq_right] at ht
  rcases ht with ht | ht | ⟨e, he, rfl⟩
  · exact g.summary_writable t ht
  · have hplain : ∀ c ∈ t, Text.isPlain c = true := by
      by_cases hstyle : g.listStyle = .nested
      · rw [header_nested hstyle] at ht
        obtain rfl : t = parametersHeader := by simpa using ht
        decide
      · rw [header_of_flat hstyle] at ht
        simp at ht
    have h := writable_append writable_nil hplain
    rwa [List.append_nil] at h
  · have hspace : ∀ c ∈ [' '], Text.isPlain c = true := by decide
    have htail := writable_append (g.entries_writable e he) hspace
    rw [item_eq]
    exact writable_append htail (g.isPlain_itemFront he)

theorem spaced_writable {c : Option Text} (hc : c ∈ g.written) : (g.layout.spaced c).Writable := by
  cases c with
  | none =>
      have h := writable_append writable_nil (isPlain_spaces g.layout.trail)
      rwa [List.append_nil] at h
  | some t => exact writable_append (g.written_writable t hc) (isPlain_spaces _)

theorem unbroken_spaces (n : Nat) : Text.Unbroken (List.replicate n ' ') := by
  intro c hc
  rw [(List.mem_replicate.mp hc).2]
  decide

theorem unbroken_line {c : Option Text} (hc : c ∈ g.written) : (g.layout.line c).Unbroken := by
  refine Text.Unbroken.append ?_ (g.spaced_writable hc).unbroken
  unfold Layout.mark
  cases g.layout.style with
  | lines => exact (unbroken_spaces _).append (by unfold Text.Unbroken; decide)
  | block => exact writable_nil.unbroken
  | gutter => exact (unbroken_spaces _).append (by unfold Text.Unbroken; decide)

/-- Inside a block no line marks a comment. -/
theorem unmarked_line (h : g.layout.style ≠ .lines) {c : Option Text} (hc : c ∈ g.written) :
    (g.layout.line c).Unmarked := by
  have hspaced := (g.spaced_writable hc).unmarked
  cases hstyle : g.layout.style with
  | lines => exact absurd hstyle h
  | block =>
      have hline : g.layout.line c = g.layout.spaced c := by
        unfold Layout.line Layout.mark
        rw [hstyle]
        rfl
      rw [hline]
      exact hspaced
  | gutter =>
      have hhead := Layout.spaced_head (y := g.layout) (by rw [hstyle]; decide) c
      have hline : g.layout.line c = List.replicate (g.layout.indent + 1) ' ' ++ '*' :: g.layout.spaced c := by
        unfold Layout.line Layout.mark
        rw [hstyle]
        simp
      rw [hline]
      refine Text.Unmarked.append ?_ fun x hx => ?_
      · cases hcons : g.layout.spaced c with
        | nil => exact ⟨rfl, rfl⟩
        | cons x u =>
            rw [hcons] at hhead hspaced
            obtain rfl := hhead x rfl
            exact hspaced.star
      · rw [(List.mem_replicate.mp hx).2]
        decide

theorem commentLines_of_block (h : g.layout.style ≠ .lines) :
    g.commentLines = (List.replicate g.layout.indent ' ' ++ blockOpen) :: g.written.map g.layout.line
      ++ [List.replicate g.layout.close ' ' ++ blockClose] :=
  Layout.comment_block h g.written

theorem commentLines_of_lines (h : g.layout.style = .lines) :
    g.commentLines = g.written.map g.layout.line :=
  Layout.comment_lines h g.written

theorem commentLines_unbroken : ∀ l ∈ g.commentLines, l.Unbroken := by
  have hlines : ∀ l ∈ g.written.map g.layout.line, l.Unbroken := by
    intro l hl
    obtain ⟨c, hc, rfl⟩ := List.mem_map.mp hl
    exact g.unbroken_line hc
  by_cases hstyle : g.layout.style = .lines
  · rw [g.commentLines_of_lines hstyle]
    exact hlines
  · rw [g.commentLines_of_block hstyle]
    intro l hl
    simp only [List.cons_append, List.mem_cons, List.mem_append, List.not_mem_nil, or_false] at hl
    rcases hl with rfl | hl | rfl
    · exact (unbroken_spaces _).append (by unfold Text.Unbroken; decide)
    · exact hlines l hl
    · exact (unbroken_spaces _).append (by unfold Text.Unbroken; decide)

end DocumentedFunction

end DocLint
