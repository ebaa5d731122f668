/-
The line table: the physical lines of a text, addressed by byte offset.

A line ends at CR LF, at LF or at a lone CR.  `splitLines` cuts a text into lines,
each with its terminator, so that the pieces put together again are the text;
`LineTable.ofText` numbers them and gives each its byte offset.  The questions asked
of a table (`lineAt`, `byteOffset`, `position`, `linesInRange`) take any integer and
say what is wrong with one that makes no sense.
-/
import DocLint.Text.Blank
import DocLint.Source.ByteRange

namespace DocLint

/-! ### Lines and their terminators -/

/-- What ends a line. -/
inductive LineEnd where
  | crlf
  | lf
  | cr
  deriving Repr, DecidableEq

def LineEnd.text : LineEnd → Text
  | .crlf => ['\r', '\n']
  | .lf => ['\n']
  | .cr => ['\r']

/-- A piece of a text up to and with its terminator; only the last piece may lack one. -/
structure RawLine where
  content : Text
  ending : Option LineEnd
  deriving Repr, DecidableEq

/-- The characters of the terminator, none when there is none. -/
def RawLine.endingText (l : RawLine) : Text := (l.ending.map LineEnd.text).getD []

/-- The piece as it stands in the text. -/
def RawLine.text (l : RawLine) : Text := l.content ++ l.endingText

/-- Cut a text into lines.  A CR followed by LF is one terminator. -/
def splitLines : Text → List RawLine
  | [] => []
  | '\r' :: '\n' :: r => ⟨[], some .crlf⟩ :: splitLines r
  | '\r' :: r => ⟨[], some .cr⟩ :: splitLines r
  | '\n' :: r => ⟨[], some .lf⟩ :: splitLines r
  | c :: r =>
    match splitLines r with
    | [] => [⟨[c], none⟩]
    | l :: more => { l with content := c :: l.content } :: more

/-- A line of a file: its place in the table and in the file, and its text. -/
structure Line where
  index : Nat
  offset : Nat
  content : Text
  ending : Option LineEnd
  deriving Repr, DecidableEq

namespace Line

/-- The line as a piece of the text. -/
def raw (l : Line) : RawLine := ⟨l.content, l.ending⟩

def contentLength (l : Line) : Nat := l.content.byteSize

/-- The bytes of the content and the terminator. -/
def length (l : Line) : Nat := l.raw.text.byteSize

/-- Where the content stops. -/
def contentEnd (l : Line) : Nat := l.offset + l.contentLength

/-- Where the next line begins. -/
def stop (l : Line) : Nat := l.offset + l.length

/-- The place of the first character that is not blank, of the line start in a blank line. -/
def textOffset (l : Line) : Nat :=
  if Text.allBlank l.content then l.offset
  else l.offset + Text.byteSize (Text.leadingBlanks l.content)

end Line

/-! ### The table -/

/-- The lines of a file in order. -/
structure LineTable where
  lines : List Line
  deriving Repr, DecidableEq

/-- A question about a place that is not in the table. -/
inductive LookupError where
  | noSuchLine
  | outsideFile (offset : Int) (size : Nat)
  deriving Repr, DecidableEq

def LookupError.message : LookupError → Text
  | .noSuchLine => "list index out of range".toList
  | .outsideFile offset size =>
    "Byte offset ".toList ++ Text.ofInt offset ++ " outside of file (size ".toList
      ++ Text.ofNat size ++ ")".toList

/-- A line and a character in it, both counted from one. -/
structure Position where
  line : Nat
  character : Nat
  deriving Repr, DecidableEq

namespace LineTable

/-- Number the lines from `index` on and lay them out from byte `offset` on. -/
def layOut (index offset : Nat) : List RawLine → List Line
  | [] => []
  | l :: more => ⟨index, offset, l.content, l.ending⟩
      :: layOut (index + 1) (offset + l.text.byteSize) more

def ofText (t : Text) : LineTable := ⟨layOut 0 0 (splitLines t)⟩

/-- The text the table was made of. -/
def text (table : LineTable) : Text := table.lines.flatMap fun l => l.raw.text

/-- Where the last line stops: the bytes of the whole text. -/
def size (table : LineTable) : Nat := (table.lines.getLast?.map Line.stop).getD 0

/-- The line of an index; a negative index counts from the end. -/
def line (table : LineTable) (index : Int) : Except LookupError Line :=
  let place := if index < 0 then index + table.lines.length else index
  match if place < 0 then none else table.lines[place.toNat]? with
  | some l => .ok l
  | none => .error .noSuchLine

/-- The line that holds a byte offset: the last one that starts at or before it.  The end of
the file belongs to the last line. -/
def lineAt (table : LineTable) (offset : Int) : Except LookupError Line :=
  let fail := .error (.outsideFile offset table.size)
  if offset < 0 ∨ table.size < offset then fail
  else match (table.lines.takeWhile fun l => (l.offset : Int) ≤ offset).getLast? with
    | some l => .ok l
    | none => fail

/-- The part of a line before a column; a negative column counts from the end. -/
def beforeColumn (content : Text) (column : Int) : Text :=
  if column < 0 then content.take (content.length - column.natAbs) else content.take column.toNat

/-- The byte offset of a column of a line; columns beyond the content are its end. -/
def byteOffset (table : LineTable) (index column : Int) : Except LookupError Nat := do
  let l ← table.line index
  return l.offset + (beforeColumn l.content column).byteSize

/-- Where lines start in characters, the first one at `place`.  Of a terminator the bytes are
counted. -/
def lineStarts (place : Nat) : List Line → List Nat
  | [] => []
  | l :: more =>
    place :: lineStarts (place + (l.content.length + (l.length - l.contentLength))) more

/-- The line of a character, which is the last one that does not start behind it, and its column. -/
def lineAndColumn (table : LineTable) (i : Nat) : Nat × Nat :=
  let starts := (lineStarts 0 table.lines).takeWhile (· ≤ i)
  (starts.length - 1, i - starts.getLast?.getD 0)

/-- The byte offset of a character, by its line and column. -/
def characterOffset (table : LineTable) (i : Nat) : Except LookupError Nat :=
  let (index, column) := table.lineAndColumn i
  table.byteOffset index column

/-- The place of a byte offset.  Inside a character it is that of the character, and inside or
after a terminator it is the end of the content. -/
def position (table : LineTable) (offset : Int) : Except LookupError Position := do
  let l ← table.lineAt offset
  let before := Text.takeBytes (offset - l.offset).toNat l.content
  return ⟨l.index + 1, before.length + 1⟩

/-- The whole lines that a range covers.  It has to start at the first text of a line, only
ASCII blanks before it, and to end where a content or a line ends. -/
def linesInRange (table : LineTable) (range : ByteRange) : Except RangeError (List Line) :=
  let fail := fun reason => .error ⟨range, reason⟩
  if range.length ≤ 0 then fail .empty
  else if range.location < 0 ∨ table.size < range.stop then fail (.outsideFile table.size)
  else match table.lineAt range.location, table.lineAt (range.stop - 1) with
    | .ok first, .ok last =>
      let before := first.content.utf8.take (range.location - first.offset).toNat
      if !before.all Text.isBlankByte then fail .startsInsideLine
      else if range.stop ≠ last.contentEnd ∧ range.stop ≠ last.stop then fail .endsInsideLine
      else .ok ((table.lines.drop first.index).take (last.index + 1 - first.index))
    | _, _ => fail (.outsideFile table.size)

end LineTable

end DocLint
