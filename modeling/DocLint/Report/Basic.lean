/-
Reports: the findings of a run, and which files they come from.
-/
import DocLint.Json.Writer
import DocLint.Rule.Violation

namespace DocLint

/-- What a run has found. -/
structure Report where
  violations : List Violation := []
  /-- How many files were checked. -/
  filesChecked : Nat := 0
  /-- The files that could not be read. -/
  skippedFiles : List Text := []
  deriving Repr, DecidableEq

namespace Report

/-- Is there a finding? -/
def hasViolations (r : Report) : Bool := !r.violations.isEmpty

/-- Is there a finding of the gravest grade? -/
def hasErrors (r : Report) : Bool := r.violations.any fun v => v.severity == .error

/-- The report with those findings alone that are grave enough. -/
def atLeast (r : Report) (bound : Severity) : Report :=
  { r with violations := r.violations.filter fun v => v.severity.atLeast bound }

def toValue (r : Report) : Value :=
  .record [("files_checked".toList, .int r.filesChecked),
    ("skipped_files".toList, .list (r.skippedFiles.map .text)),
    ("violation_count".toList, .int r.violations.length),
    ("violations".toList, .list (r.violations.map Violation.toValue))]

/-- The report in JSON, on one line when no width of indentation is given. -/
def toJson (r : Report) (width : Option Nat := some 2) : Text := Json.write width r.toValue

/-- The findings, each on a line. -/
def toXcode (r : Report) : Text := Text.join ['\n'] (r.violations.map Violation.toXcode)

end Report

end DocLint
