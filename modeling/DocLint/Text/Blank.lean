/-
Blank characters, and the trimming that goes with them.

Three classes are in use.  `isBlank` is the white space of all scripts, together with
the four information separators; it decides what a blank line is and how far a line
is indented.  `isNumberBlank` leaves the separators out; it decides what may surround a
number.  `isBlankByte` is the ASCII class; it decides what may stand before a comment on
its first line, where the file is looked at as bytes.
-/
import DocLint.Text.Basic

namespace DocLint.Text

/-- White space of every script, and the separators U+001C to U+001F. -/
def isBlank (c : Char) : Bool :=
  let n := c.toNat
  (0x09 ≤ n && n ≤ 0x0D) || (0x1C ≤ n && n ≤ 0x20) || n == 0x85 || n == 0xA0 || n == 0x1680
    || (0x2000 ≤ n && n ≤ 0x200A) || n == 0x2028 || n == 0x2029 || n == 0x202F || n == 0x205F
    || n == 0x3000

/-- White space of every script. -/
def isNumberBlank (c : Char) : Bool := isBlank c && !(0x1C ≤ c.toNat && c.toNat < 0x20)

/-- White space among single bytes: tab, line feed, vertical tab, form feed, carriage return
and space. -/
def isBlankByte (b : UInt8) : Bool := (0x09 ≤ b && b ≤ 0x0D) || b == 0x20

/-- A text of blank characters only; the empty one counts. -/
def allBlank (t : Text) : Bool := t.all isBlank

/-- Without the blank characters at the front. -/
def trimLeft (t : Text) : Text := t.dropWhile isBlank

/-- Without the blank characters at the end. -/
def trimRight (t : Text) : Text := dropEndWhile isBlank t

/-- Without the blank characters at both ends. -/
def trim (t : Text) : Text := trimRight (trimLeft t)

/-- Without the blanks around a number. -/
def trimNumber (t : Text) : Text := dropEndWhile isNumberBlank (t.dropWhile isNumberBlank)

/-- The blank characters at the front. -/
def leadingBlanks (t : Text) : Text := t.takeWhile isBlank

/-- How many blank characters stand at the front. -/
def indent (t : Text) : Nat := (leadingBlanks t).length

/-- Indentation and the rest make up the text. -/
theorem leadingBlanks_append_trimLeft (t : Text) : leadingBlanks t ++ trimLeft t = t :=
  List.takeWhile_append_dropWhile

/-- The last run of characters that are not blank, if there is any. -/
def lastWord? (t : Text) : Option Text :=
  match ((t.reverse.dropWhile isBlank).takeWhile (fun c => !isBlank c)).reverse with
  | [] => none
  | word => some word

end DocLint.Text
