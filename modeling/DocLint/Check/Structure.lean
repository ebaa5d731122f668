/-
The check itself: does a comment document the parameters of its function?

A function with few parameters is exempt.  Otherwise the comment has to consist of a
summary, not too long, and a list that documents every parameter in the order of the
declaration.  The questions are asked in that order and the first "no" is the verdict.
A wrong name is reported on the line of its entry, every other defect at the beginning
of the comment.
-/
import DocLint.Check.Outcome
import DocLint.Config.Configuration
import DocLint.Doc.Slice

namespace DocLint

/-- A comment: where it stands in the file, and its lines. -/
structure DocComment where
  range : ByteRange
  lines : List DocLine
  deriving Repr, DecidableEq

namespace Check

/-- Is a function with these parameters left unchecked? -/
def isExempt (config : Configuration) (parameters : List Text) : Bool :=
  parameters.length < config.minimalNumberOfParameters

/-- Does a summary of so many lines exceed the limit? -/
def isTooLong (config : Configuration) (lines : Nat) : Bool :=
  0 < config.maxSummaryLineCount && config.maxSummaryLineCount < lines

/-- The first entry that does not document the parameter in its place. -/
def firstMismatch? : List Doc.Entry → List Text → Option (Doc.Entry × Text)
  | e :: entries, p :: parameters =>
    if e.documents p then firstMismatch? entries parameters else some (e, p)
  | _, _ => none

/-- The verdict on the entries of a list. -/
def checkEntries (start : Int) (entries : List Doc.Entry) (parameters : List Text) : Outcome :=
  if entries.isEmpty then .invalid start .emptyList
  else if entries.length ≠ parameters.length then
    .invalid start (.wrongCount entries.length parameters.length)
  else match firstMismatch? entries parameters with
    | some (entry, parameter) => .invalid entry.line.offset (.misnamed parameter entry.name)
    | none => .valid

/-- The verdict on a comment whose sections are known. -/
def checkSections (config : Configuration) (start : Int) (sections : Doc.Sections)
    (parameters : List Text) : Outcome :=
  if sections.summary.isEmpty then .invalid start .noSummary
  else if isTooLong config sections.summary.length then
    .invalid start (.longSummary sections.summary.length config.maxSummaryLineCount)
  else match ParameterList.ofLines sections.parameters with
    | .error error => .invalid start (.malformedList error)
    | .ok list => checkEntries start list.entries parameters

/-- The verdict on a comment. -/
def comment (config : Configuration) (parameters : List Text) (doc : DocComment) : Outcome :=
  if isExempt config parameters then .valid
  else match Doc.Sections.ofLines doc.lines with
    | .error _ => .invalid doc.range.location .noParametersSection
    | .ok sections => checkSections config doc.range.location sections parameters

/-- The verdict on the comment that a range covers.  The range is looked at only for a function
that is not exempt. -/
def range (config : Configuration) (parameters : List Text) (table : LineTable)
    (range : ByteRange) : Except RangeError Outcome :=
  if isExempt config parameters then .ok .valid
  else (Doc.slice range table).map fun lines => comment config parameters ⟨range, lines⟩

end Check

end DocLint
