/-
Rules at work on a file.

A rule is a description with a configuration.  It asks of every documented declaration
whether its comment is in order.  A declaration without a comment is passed over, and so
is one whose comment cannot be sliced.
-/
import DocLint.Check.Structure
import DocLint.Log
import DocLint.Rule.Violation
import DocLint.Swift.SourceFile

namespace DocLint

/-- A rule with its settings. -/
structure Rule where
  description : RuleDescription
  configuration : Configuration := {}
  deriving Repr, DecidableEq

namespace Rule

/-- The verdict on the comment of a declaration, if it has one. -/
def verdict? (rule : Rule) (table : LineTable) (d : Declaration) :
    Option (Except RangeError Outcome) :=
  d.docRange.map fun range => Check.range rule.configuration d.parameterNames table range

/-- The finding at an offset of a file; no verdict names an offset outside it. -/
def violation? (rule : Rule) (path : Option Text) (table : LineTable) (offset : Int)
    (defect : Defect) : Option Violation :=
  match Location.ofOffset path table offset with
  | .ok location =>
    some ⟨rule.description, rule.configuration.severity, location, defect.message⟩
  | .error _ => none

/-- The finding about a declaration, if there is one. -/
def checkDeclaration (rule : Rule) (path : Option Text) (table : LineTable) (d : Declaration) :
    Option Violation :=
  match rule.verdict? table d with
  | some (.ok (.invalid offset defect)) => rule.violation? path table offset defect
  | _ => none

/-- The findings about the declarations of a file, in order. -/
def check (rule : Rule) (file : SourceFile) : List Violation :=
  let table := file.table
  file.declarations.filterMap (rule.checkDeclaration file.path table)

/-! ### The log -/

/-- What there is to say about the check of a declaration. -/
def declarationLog (rule : Rule) (table : LineTable) (d : Declaration) : List LogEntry :=
  match rule.verdict? table d with
  | some (.error error) =>
    [⟨.debug, .rule rule.description.identifier,
      "Skipping '".toList ++ d.signature.name ++ "': ".toList ++ error.message⟩]
  | some (.ok (.invalid offset (.malformedList error))) =>
    [⟨.debug, .matcher, "Unparseable parameters section at offset ".toList ++ Text.ofInt offset
      ++ ": ".toList ++ error.message⟩]
  | _ => []

/-- What there is to say about the check of a file. -/
def log (rule : Rule) (file : SourceFile) : List LogEntry :=
  let table := file.table
  file.declarations.flatMap (rule.declarationLog table)

end Rule

/-- What there is to say about the heads of a file: which are not balanced. -/
def SourceFile.log (f : SourceFile) : List LogEntry :=
  (f.heads.filter fun h => h.clause.isNone).map fun h =>
    ⟨.debug, .swift, "Unbalanced parameter clause at character ".toList ++ Text.ofNat h.parenthesis⟩

end DocLint
