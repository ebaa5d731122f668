/-
The list of parameters of a comment.

A list is nested under a header or stands flat:

    - Parameters:                     - Parameter source: The text.
      - source: The text.             - Parameter limit: The most matches.
      - limit: The most matches.

The keyword of the flat form may be left out.  Only the lines at the indentation of the
first item are items; deeper ones continue the item above.  The list ends with its first
run of lines that are not blank, the nested one also at a line that is not deeper than
the header, the flat one at a callout such as `- Returns:`.
-/
import DocLint.Text.Quoted
import DocLint.Doc.Sections

namespace DocLint.Doc

/-! ### Bullets -/

def isBullet (c : Char) : Bool := c == '-' || c == '*' || c == '+'

/-- The text after the bullet that a line begins with; a space or a tab has to follow it. -/
def bulletText? (content : Text) : Option Text :=
  match Text.trimLeft content with
  | bullet :: gap :: r =>
    if isBullet bullet && (gap == ' ' || gap == '\t') then some (Text.trimLeft r) else none
  | _ => none

/-- The callouts that may follow a list of parameters. -/
def callouts : List Text :=
  ["Attention", "Author", "Authors", "Bug", "Complexity", "Copyright", "Date", "Experiment",
   "Important", "Invariant", "Note", "Postcondition", "Precondition", "Remark", "Remarks",
   "Requires", "Returns", "SeeAlso", "Since", "Throws", "ToDo", "Version",
   "Warning"].map String.toList

/-- Does the text of an item begin with a callout and a colon? -/
def isCallout (text : Text) : Bool :=
  text.contains ':' && callouts.contains (Text.trim (Text.beforeChar ':' text))

/-! ### Entries -/

/-- The two ways to write a list. -/
inductive ListForm where
  | nested
  | flat
  deriving Repr, DecidableEq

/-- A documented parameter: its name, the text of the item from the name on, and its line. -/
structure Entry where
  name : Text
  text : Text
  line : DocLine
  deriving Repr, DecidableEq

/-- Does the entry document the parameter?  Its text has to begin with the name and a colon. -/
def Entry.documents (e : Entry) (parameter : Text) : Bool :=
  (parameter ++ [':']).isPrefixOf e.text

/-- What is wrong with a line of a list. -/
inductive ListFault where
  | noColon
  | noName
  | notAnItem
  | uneven (form : ListForm)
  deriving Repr, DecidableEq

def ListFault.message : ListFault → Text
  | .noColon => "Parameter entry without a colon".toList
  | .noName => "Parameter entry without a name".toList
  | .notAnItem => "Expected a list item".toList
  | .uneven .nested => "Inconsistent indentation in nested list".toList
  | .uneven .flat => "Inconsistent indentation in parameter list".toList

/-- A list that cannot be read, and the line that is to blame. -/
structure ListError where
  fault : ListFault
  line : DocLine
  deriving Repr, DecidableEq

/-- The full message shows the line. -/
def ListError.message (e : ListError) : Text :=
  e.fault.message ++ ": ".toList ++ Text.quoted (Text.trim e.line.content)

/-- The keyword that items of the flat form may begin with. -/
def parameterKeyword : Text := "Parameter".toList

/-- The text of an item without the keyword, where one may stand. -/
def withoutKeyword (form : ListForm) (text : Text) : Text :=
  if form = .flat ∧ (parameterKeyword ++ [' ']).isPrefixOf text then
    Text.trimLeft (text.drop parameterKeyword.length)
  else text

/-- The entry of an item. -/
def readEntry (form : ListForm) (line : DocLine) (text : Text) : Except ListError Entry :=
  let text := withoutKeyword form text
  let name := Text.trim (Text.beforeChar ':' text)
  if !text.contains ':' then .error ⟨.noColon, line⟩
  else if name.isEmpty then .error ⟨.noName, line⟩
  else .ok ⟨name, text, line⟩

/-- The entries of the lines of a list whose items stand at an indentation. -/
def readItems (form : ListForm) (indent : Nat) : List DocLine → Except ListError (List Entry)
  | [] => .ok []
  | l :: more =>
    if l.indent < indent then .error ⟨.uneven form, l⟩
    else if indent < l.indent then readItems form indent more
    else match bulletText? l.content with
      | none => .error ⟨.notAnItem, l⟩
      | some text =>
        if form = .flat ∧ isCallout text then .ok []
        else do
          let entry ← readEntry form l text
          return entry :: (← readItems form indent more)

end DocLint.Doc

namespace DocLint

/-! ### Lists -/

/-- A list of parameters that has been read. -/
structure ParameterList where
  form : Doc.ListForm
  entries : List Doc.Entry
  deriving Repr, DecidableEq

namespace ParameterList

open Doc

/-- The first run of lines that are not blank. -/
def firstRun (lines : List DocLine) : List DocLine :=
  (lines.dropWhile DocLine.isBlank).takeWhile fun l => !l.isBlank

/-- The list under a header: the lines deeper than it, the first of which sets the indentation of
the items. -/
def nested (header : DocLine) (more : List DocLine) : Except ListError ParameterList := do
  let body := more.takeWhile fun l => decide (header.indent < l.indent)
  let indent := (body.head?.map DocLine.indent).getD 0
  return ⟨.nested, ← readItems .nested indent body⟩

/-- Read the list of a section.  A section without text is a list without entries. -/
def ofLines (lines : List DocLine) : Except ListError ParameterList :=
  match firstRun lines with
  | [] => .ok ⟨.flat, []⟩
  | first :: more =>
    if Text.trim first.content = parametersHeader then nested first more
    else (readItems .flat first.indent (first :: more)).map fun entries => ⟨.flat, entries⟩

end ParameterList

end DocLint
