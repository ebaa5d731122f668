/-
Parameter names: from the text between the parentheses of a declaration to the names
by which the body of the function knows its parameters.

The clause is split at the commas that stand outside all brackets.  Angle brackets are
brackets in the type of a parameter; after the equals sign of a default value they
compare, and in an arrow they never close.  The name is the last word before the colon.
-/
import DocLint.Text.Blank

namespace DocLint.Swift

/-- What the split of a clause knows at a character. -/
structure ClauseState where
  /-- How many brackets are open; more can be closed than were opened. -/
  depth : Int := 0
  /-- Is the default value of a parameter being read? -/
  inDefault : Bool := false
  /-- The character before. -/
  previous : Option Char := none
  deriving Repr, DecidableEq

/-- What it knows after the character. -/
def ClauseState.step (s : ClauseState) (c : Char) : ClauseState :=
  let depth :=
    if c = '(' ∨ c = '[' then s.depth + 1
    else if c = ')' ∨ c = ']' then s.depth - 1
    else if c = '<' ∧ !s.inDefault then s.depth + 1
    else if c = '>' ∧ !s.inDefault ∧ s.previous ≠ some '-' ∧ 0 < s.depth then s.depth - 1
    else s.depth
  let inDefault := s.inDefault || (c == '=' && s.depth == 0)
  ⟨depth, inDefault, some c⟩

/-- Does the character part two parameters? -/
def ClauseState.parts (s : ClauseState) (c : Char) : Bool := c == ',' && s.depth == 0

/-- The pieces of a clause between the commas that part parameters. -/
def pieces (s : ClauseState) : Text → List Text
  | [] => [[]]
  | c :: r =>
    if s.parts c then [] :: pieces { s.step c with inDefault := false } r
    else match pieces (s.step c) r with
      | [] => [[c]]
      | piece :: more => (c :: piece) :: more

/-- The parameters of a clause, without blanks around them; an empty piece is none. -/
def parameterTexts (clause : Text) : List Text :=
  ((pieces {} clause).map Text.trim).filter fun p => !p.isEmpty

/-- Without the backticks at both ends. -/
def withoutBackticks (t : Text) : Text :=
  Text.dropEndWhile (· == '\x60') (t.dropWhile (· == '\x60'))

/-- The name of a parameter, if there is a word before the colon. -/
def parameterName? (parameter : Text) : Option Text :=
  (Text.lastWord? (Text.beforeChar ':' parameter)).map withoutBackticks

/-- The names of the parameters of a clause, in order. -/
def parameterNames (clause : Text) : List Text := (parameterTexts clause).filterMap parameterName?

end DocLint.Swift
