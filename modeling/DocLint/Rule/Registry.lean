/-
The registry of rules.

Each identifier has a place, that of its first registration, and the description that
was registered last.  The library's own rule is always there.
-/
import DocLint.Rule.Basic
import DocLint.Rule.StructuredDoc

namespace DocLint

/-- The registered rules, in the order of their first registration. -/
structure Registry where
  entries : List (Text × RuleDescription)
  deriving Repr, DecidableEq

/-- A rule that is not registered was asked for. -/
structure UnknownRule where
  identifier : Text
  /-- The identifiers that are registered, in ascending order. -/
  available : List Text
  deriving Repr, DecidableEq

def UnknownRule.message (e : UnknownRule) : Text :=
  "Unknown rule: ".toList ++ e.identifier ++ ". Available: ".toList
    ++ Text.join ", ".toList e.available

namespace Registry

/-- The entries with one replaced in its place, or added at the end. -/
def put (identifier : Text) (d : RuleDescription) :
    List (Text × RuleDescription) → List (Text × RuleDescription)
  | [] => [(identifier, d)]
  | e :: more =>
    if e.1 = identifier then (identifier, d) :: more else e :: put identifier d more

/-- The registry with a rule registered under its identifier. -/
def register (r : Registry) (d : RuleDescription) : Registry := ⟨put d.identifier d r.entries⟩

/-- The registry that holds the library's own rule. -/
def builtIn : Registry := ⟨[(structuredFunctionDoc.identifier, structuredFunctionDoc)]⟩

/-- The identifiers in the order of their first registration. -/
def identifiers (r : Registry) : List Text := r.entries.map (·.1)

/-- How many rules are registered. -/
def size (r : Registry) : Nat := r.entries.length

/-- Is a rule registered under the identifier? -/
def contains (r : Registry) (identifier : Text) : Bool := r.identifiers.contains identifier

def get (r : Registry) (identifier : Text) : Except UnknownRule RuleDescription :=
  match r.entries.find? fun e => e.1 == identifier with
  | some e => .ok e.2
  | none => .error ⟨identifier, r.identifiers.mergeSort Text.atMost⟩

/-- All rules with a configuration, in ascending order of identifiers. -/
def allRules (r : Registry) (configuration : Configuration) : List Rule :=
  (r.entries.mergeSort fun a b => Text.atMost a.1 b.1).map fun e => ⟨e.2, configuration⟩

/-- The rules that are asked for, in the order in which they are, with a configuration.  To ask
for none is to ask for all. -/
def createRules (r : Registry) (configuration : Configuration) (only : List Text) :
    Except UnknownRule (List Rule) :=
  match only with
  | [] => .ok (r.allRules configuration)
  | _ => only.mapM fun identifier => (r.get identifier).map fun d => ⟨d, configuration⟩

end Registry

end DocLint
