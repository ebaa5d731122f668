/-
A cursor in a YAML text: what is still to be read, and the place of it.

YAML tells structure by indentation, so reading needs the column of each character; it
ends lines at more characters than other formats do.  `Cursor.advance` is the one way
to go on, and keeps place and text together.
-/
import DocLint.Text.Basic

namespace DocLint.Yaml

/-! ### Characters -/

/-- May the character stand in a YAML text? -/
def isAllowed (c : Char) : Bool :=
  let n := c.toNat
  n == 0x09 || n == 0x0A || n == 0x0D || (0x20 ≤ n && n ≤ 0x7E) || n == 0x85
    || (0xA0 ≤ n && n ≤ 0xFFFD) || 0x10000 ≤ n

/-- Does the character end a line? -/
def isBreak (c : Char) : Bool :=
  c == '\n' || c == '\r' || c == '\u0085' || c == '\u2028' || c == '\u2029'

/-- Is the character a line break, or is there none? -/
def isBreakOrEnd : Option Char → Bool
  | none => true
  | some c => isBreak c

/-- Is the character a space, a tab or a line break, or is there none? -/
def isGap : Option Char → Bool
  | none => true
  | some c => c == ' ' || c == '\t' || isBreak c

/-- May the character stand in the name of an anchor? -/
def isNameChar (c : Char) : Bool := c.isAlphanum || c == '-' || c == '_'

/-! ### Cursors -/

/-- The rest of a text, and the place where it begins. -/
structure Cursor where
  rest : Text
  /-- How many characters the rest has. -/
  left : Nat
  index : Nat := 0
  line : Nat := 0
  column : Nat := 0

namespace Cursor

/-- The cursor at the beginning of a text. -/
def ofText (t : Text) : Cursor := { rest := t, left := t.length }

/-- The next character, if there is one. -/
def head (c : Cursor) : Option Char := c.rest.head?

/-- The character after so many others. -/
def ahead (c : Cursor) (n : Nat) : Option Char := c.rest[n]?

/-- The cursor behind the next character.  A carriage return before a line feed ends no line, and
a byte order mark takes no column. -/
def step (c : Cursor) : Cursor :=
  match c.rest with
  | [] => c
  | ch :: r =>
    if isBreak ch && !(ch == '\r' && r.head? == some '\n') then
      ⟨r, c.left - 1, c.index + 1, c.line + 1, 0⟩
    else if ch == '\uFEFF' then ⟨r, c.left - 1, c.index + 1, c.line, c.column⟩
    else ⟨r, c.left - 1, c.index + 1, c.line, c.column + 1⟩

/-- The cursor behind so many characters. -/
def advance : Nat → Cursor → Cursor
  | 0, c => c
  | n + 1, c => advance n c.step

/-- The characters up to the first that does not satisfy `p`, and the cursor there. -/
def takeWhile (c : Cursor) (p : Char → Bool) : Text × Cursor :=
  let taken := c.rest.takeWhile p
  (taken, advance taken.length c)

/-- The cursor at the first character that does not satisfy `p`. -/
def skipWhile (c : Cursor) (p : Char → Bool) : Cursor := (c.takeWhile p).2

/-- The line break at the cursor, if there is one.  All that end a line count as a line feed, but
for the two separators of Unicode. -/
def lineBreak? (c : Cursor) : Option (Text × Cursor) :=
  match c.rest with
  | '\r' :: '\n' :: _ => some (['\n'], c.step.step)
  | ch :: _ =>
    if ch == '\n' || ch == '\r' || ch == '\u0085' then some (['\n'], c.step)
    else if ch == '\u2028' || ch == '\u2029' then some ([ch], c.step)
    else none
  | [] => none

/-- Do three of a character and a gap stand at the cursor? -/
def atMark (mark : Char) (c : Cursor) : Bool :=
  [mark, mark, mark].isPrefixOf c.rest && isGap (c.ahead 3)

/-- Does a mark between documents stand at the cursor? -/
def atDocumentMark (c : Cursor) : Bool := c.atMark '-' || c.atMark '.'

end Cursor

end DocLint.Yaml
