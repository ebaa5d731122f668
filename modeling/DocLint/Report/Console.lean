/-
The report as a console shows it.

The findings stand in a table, errors first, then by path and place.  Whatever is handed to
the console is text with markup in it, and what is shown of that is for the console to say
(`Renderer`).  Where it cannot show something the output ends.
-/
import DocLint.Lint.Run
import DocLint.Report.Table

namespace DocLint

/-! ### Consoles -/

/-- The markup of a text cannot be read. -/
structure MarkupError where
  message : Text
  deriving Repr, DecidableEq

/-- How a console shows what is handed to it. -/
structure Renderer where
  /-- What is shown of a text with markup in it. -/
  shown : Text → Except MarkupError Text
  /-- A table that is drawn, line by line. -/
  lines : Table → List Text

/-- What can be handed to a console. -/
inductive Print where
  | text (t : Text)
  | table (columns : List Column)

/-- What a console shows, and what ended it early. -/
structure ConsoleOutput where
  text : Text := []
  failure : Option MarkupError := none
  deriving Repr, DecidableEq

/-- Lines, each with its end. -/
def Report.printed (lines : List Text) : Text := lines.flatMap (· ++ ['\n'])

namespace Renderer

variable (renderer : Renderer)

def column (c : Column) : Except MarkupError Column := do
  return { c with header := ← renderer.shown c.header, cells := ← c.cells.mapM renderer.shown }

/-- The table that is drawn for columns of text with markup. -/
def table (columns : List Column) : Except MarkupError Table := do
  return ⟨← columns.mapM renderer.column⟩

def linesOf : Print → Except MarkupError (List Text)
  | .text t => (renderer.shown t).map ([·])
  | .table columns => (renderer.table columns).map renderer.lines

/-- What is shown of one print after the other. -/
def output : List Print → ConsoleOutput
  | [] => {}
  | print :: more =>
    match renderer.linesOf print with
    | .ok lines =>
      let rest := output more
      { rest with text := Report.printed lines ++ rest.text }
    | .error failure => { failure := some failure }

end Renderer

/-- A text in a style. -/
def styled (style t : Text) : Text :=
  ['['] ++ style ++ [']'] ++ t ++ "[/".toList ++ style ++ [']']

namespace Report

/-! ### The table -/

/-- Order by gravity, the gravest first, and then by path and place. -/
def consoleOrder (a b : Violation) : Bool :=
  if a.severity = b.severity then Violation.atMost a b else a.severity.atLeast b.severity

/-- The findings in the order of the table. -/
def consoleViolations (r : Report) : List Violation := r.violations.mergeSort consoleOrder

/-- The style of a grade. -/
def style : Severity → Text
  | .warning => "yellow".toList
  | .error => "bold red".toList

/-- The columns of the table. -/
def columns (r : Report) : List Column :=
  let column := fun (header : String) (isCentred : Bool) (cell : Violation → Text) =>
    (⟨header.toList, r.consoleViolations.map cell, isCentred⟩ : Column)
  [column "Location" false fun v => v.location.text,
    column "Rule" false fun v => v.rule.identifier,
    column "Reason" false fun v => v.reason,
    column "Severity" true fun v => styled (style v.severity) v.severity.name]

/-! ### Prints -/

/-- In how many files there are findings. -/
def filesWithViolations (r : Report) : Nat :=
  (r.violations.map fun v => v.location.path).eraseDups.length

/-- What is said above the findings. -/
def heading : List Text :=
  [[], styled "bold".toList "structdoc Report".toList, List.replicate 52 '━']

/-- What is said where there are no findings. -/
def noViolations (r : Report) : Text :=
  styled "green".toList
    ("✓ No violations found in ".toList ++ Text.ofNat r.filesChecked ++ " files".toList)

/-- What is said below the findings. -/
def summary (r : Report) : List Text :=
  let skipped := r.skippedFiles.length
  [[], "Summary: ".toList ++ Text.ofNat r.violations.length ++ " violations found in ".toList
      ++ Text.ofNat r.filesWithViolations ++ " of ".toList ++ Text.ofNat r.filesChecked
      ++ " files".toList]
    ++ (if skipped = 0 then []
      else [styled "dim".toList
        ("Skipped ".toList ++ Text.ofNat skipped ++ " unreadable files".toList)])
    ++ [[]]

/-- What is handed to the console. -/
def prints (r : Report) : List Print :=
  heading.map .text ++
    if r.violations.isEmpty then [.text r.noViolations, .text []]
    else .table r.columns :: r.summary.map .text

/-- What a console shows of the report. -/
def console (renderer : Renderer) (r : Report) : ConsoleOutput := renderer.output r.prints

end Report

end DocLint
