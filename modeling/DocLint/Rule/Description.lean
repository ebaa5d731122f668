/-
What a rule says about itself.
-/
import DocLint.Rule.Example
import DocLint.Value

namespace DocLint

inductive RuleKind where
  | lint
  deriving Repr, DecidableEq

def RuleKind.name : RuleKind → Text
  | .lint => "lint".toList

/-- A rule's identifier, its name and purpose, and code that shows what it finds. -/
structure RuleDescription where
  identifier : Text
  name : Text
  purpose : Text
  kind : RuleKind := .lint
  /-- Code without a finding. -/
  nonTriggering : List Example := []
  /-- Code with findings where the arrows stand. -/
  triggering : List Example := []
  deriving Repr, DecidableEq

/-- The description without its examples, as a value. -/
def RuleDescription.toValue (d : RuleDescription) : Value :=
  .record [("identifier".toList, .text d.identifier), ("name".toList, .text d.name),
    ("description".toList, .text d.purpose), ("kind".toList, .text d.kind.name)]

end DocLint
