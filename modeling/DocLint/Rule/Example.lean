/-
Examples of a rule: code in which arrows mark the places of the findings.

An arrow is no part of the code.  `source` leaves the arrows out, and `markerOffsets`
says in bytes of that source where they stood.
-/
import DocLint.Text.Basic

namespace DocLint

/-- Code with an arrow before every place where a finding is expected. -/
structure Example where
  code : Text
  deriving Repr, DecidableEq

namespace Example

/-- The arrow. -/
def marker : Char := '↓'

/-- The code without arrows. -/
def source (e : Example) : Text := e.code.filter (· != marker)

/-- Where the arrows of a code stand, when its source begins at a byte offset. -/
def offsetsFrom (offset : Nat) : Text → List Nat
  | [] => []
  | c :: r =>
    if c = marker then offset :: offsetsFrom offset r else offsetsFrom (offset + c.utf8Size) r

/-- Where in the source, in bytes, the arrows stood. -/
def markerOffsets (e : Example) : List Nat := offsetsFrom 0 e.code

/-- The example of these lines, each of them ended by a line feed. -/
def ofLines (lines : List String) : Example := ⟨lines.flatMap fun l => l.toList ++ ['\n']⟩

end Example

end DocLint
