/-
Findings and the places they point at.
-/
import DocLint.Rule.Description
import DocLint.Severity
import DocLint.Source.LineTable

namespace DocLint

/-- A place in a file: line and character counted from one, and the byte offset. -/
structure Location where
  path : Option Text
  line : Int
  character : Int
  byteOffset : Int
  deriving Repr, DecidableEq

namespace Location

/-- The place of a byte offset. -/
def ofOffset (path : Option Text) (table : LineTable) (offset : Int) :
    Except LookupError Location :=
  (table.position offset).map fun p => ⟨path, p.line, p.character, offset⟩

/-- The name of the file; text without a path comes from standard input. -/
def fileName (l : Location) : Text :=
  match l.path.getD [] with
  | [] => "<stdin>".toList
  | path => path

/-- The path for sorting; a missing one comes first. -/
def sortPath (l : Location) : Text := l.path.getD []

/-- File, line and character with colons between. -/
def text (l : Location) : Text :=
  l.fileName ++ [':'] ++ Text.ofInt l.line ++ [':'] ++ Text.ofInt l.character

end Location

/-- A finding of a rule. -/
structure Violation where
  rule : RuleDescription
  severity : Severity
  location : Location
  reason : Text
  deriving Repr, DecidableEq

namespace Violation

/-- The finding as a value. -/
def toValue (v : Violation) : Value :=
  .record [("rule_id".toList, .text v.rule.identifier), ("rule".toList, .text v.rule.name),
    ("severity".toList, .text v.severity.name),
    ("file".toList, (v.location.path.map Value.text).getD .null),
    ("line".toList, .int v.location.line), ("character".toList, .int v.location.character),
    ("byte_offset".toList, .int v.location.byteOffset), ("reason".toList, .text v.reason)]

/-- The finding on one line, in the form that editors take as a diagnostic. -/
def toXcode (v : Violation) : Text :=
  v.location.text ++ ": ".toList ++ v.severity.name ++ ": ".toList ++ v.rule.name
    ++ " Violation: ".toList ++ v.reason ++ " (".toList ++ v.rule.identifier ++ ")".toList

end Violation

end DocLint
