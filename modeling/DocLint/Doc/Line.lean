/-
Lines of a documentation comment, freed of the comment's marks.

A line keeps the place that it has in the file, so that a finding about the text can
point at the line it was found on.
-/
import DocLint.Source.LineTable

namespace DocLint

/-- A line of a comment: its text without marker and common indentation, the byte offset of its
first character in the file, and the bytes from there through the line's terminator. -/
structure DocLine where
  content : Text
  offset : Int
  length : Int
  deriving Repr, DecidableEq

namespace DocLine

/-- A line with nothing to read on it. -/
def isBlank (l : DocLine) : Bool := Text.allBlank l.content

/-- How many blank characters the line begins with. -/
def indent (l : DocLine) : Nat := Text.indent l.content

/-- The text of a line of the file, blanks at its end aside, in the place of that line. -/
def ofLine (l : Line) (content : Text) : DocLine :=
  ⟨Text.trimRight content, l.textOffset, (l.stop : Int) - l.textOffset⟩

end DocLine

end DocLint
