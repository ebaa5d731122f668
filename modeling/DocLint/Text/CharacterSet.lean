/-
Sets of characters, given by the code points where membership changes.

A property such as "is a letter" holds on runs of code points.  The ascending list of
the points where it starts and stops holding describes it without repetition, and a
character is in the set exactly when an odd number of those points lie at or below it.
-/
import DocLint.Text.Basic

namespace DocLint.Text

/-- A set of code points: it begins with the first switch, pauses at the second, and so on. -/
structure CharacterSet where
  switches : List Nat

/-- An odd number of switches lies at or below the character. -/
def CharacterSet.contains (s : CharacterSet) (c : Char) : Bool :=
  (s.switches.takeWhile (· ≤ c.toNat)).length % 2 == 1

/-- Each switch lies above the one before, so that no run is empty. -/
def CharacterSet.ascending (s : CharacterSet) : Bool :=
  (s.switches.zip s.switches.tail).all fun p => decide (p.1 < p.2)

end DocLint.Text
