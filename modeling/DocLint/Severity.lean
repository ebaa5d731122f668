/-
How grave a finding is.
-/
import DocLint.Text.Basic

namespace DocLint

/-- The grades, the lesser one first. -/
inductive Severity where
  | warning
  | error
  deriving Repr, DecidableEq

namespace Severity

/-- All grades in order. -/
def all : List Severity := [.warning, .error]

def name : Severity → Text
  | .warning => "warning".toList
  | .error => "error".toList

/-- The grade of a name, spelled exactly. -/
def ofName? (t : Text) : Option Severity := all.find? fun s => s.name == t

/-- The place of a grade among the others. -/
def rank : Severity → Nat
  | .warning => 0
  | .error => 1

/-- Is the grade at least as grave as `bound`? -/
def atLeast (s bound : Severity) : Bool := decide (bound.rank ≤ s.rank)

end Severity

end DocLint
