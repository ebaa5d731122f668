/-
Writing JSON.

Only the characters from the space to the tilde stand for themselves; all others are
escaped, those beyond U+FFFF as a pair of surrogates.  With a width of indentation each
item and each entry has a line of its own; without one all is on one line.
-/
import DocLint.Value

namespace DocLint.Json

def unitEscape (unit : Nat) : Text := ['\\', 'u'] ++ Text.ofHex 4 unit

def writeChar (c : Char) : Text :=
  if c = '\"' ∨ c = '\\' then ['\\', c]
  else if ' ' ≤ c ∧ c ≤ '~' then [c]
  else match c with
    | '\n' => ['\\', 'n']
    | '\r' => ['\\', 'r']
    | '\t' => ['\\', 't']
    | '\x08' => ['\\', 'b']
    | '\x0c' => ['\\', 'f']
    | _ =>
      let n := c.toNat
      if n < 0x10000 then unitEscape n
      else unitEscape (0xD800 + (n - 0x10000) / 0x400) ++ unitEscape (0xDC00 + (n - 0x10000) % 0x400)

/-- A text in quotation marks. -/
def writeText (t : Text) : Text := ['\"'] ++ t.flatMap writeChar ++ ['\"']

/-- A number with a fraction; those without digits have names. -/
def writeFloat (x : Float) : Text :=
  if x.isNaN then "NaN".toList
  else if x.isInf then (if x < 0.0 then "-Infinity".toList else "Infinity".toList)
  else Decimal.text x

/-- The break before an item at a depth, when items have lines of their own. -/
def lineBreak (width : Option Nat) (depth : Nat) : Text :=
  match width with
  | none => []
  | some w => '\n' :: List.replicate (w * depth) ' '

/-- The members of a list or map between its brackets, one level deeper than `depth`. -/
def enclose (width : Option Nat) (depth : Nat) (opening closing : Char) (members : List Text) :
    Text :=
  match members with
  | [] => [opening, closing]
  | _ =>
    let separator := match width with
      | none => ", ".toList
      | some _ => ',' :: lineBreak width (depth + 1)
    [opening] ++ lineBreak width (depth + 1) ++ Text.join separator members
      ++ lineBreak width depth ++ [closing]

mutual

/-- A value at a depth of nesting.  What JSON has no form for is written as a text. -/
def writeAt (width : Option Nat) (depth : Nat) : Value → Text
  | .null => "null".toList
  | .bool true => "true".toList
  | .bool false => "false".toList
  | .int n => Text.ofInt n
  | .float x => writeFloat x
  | .text t => writeText t
  | .list items => enclose width depth '[' ']' (writeItems width (depth + 1) items)
  | .map entries => enclose width depth '\x7b' '\x7d' (writeEntries width (depth + 1) entries)
  | other => writeText other.plain

def writeItems (width : Option Nat) (depth : Nat) : List Value → List Text
  | [] => []
  | v :: more => writeAt width depth v :: writeItems width depth more

/-- The entries of a map, each with its key. -/
def writeEntries (width : Option Nat) (depth : Nat) : List (Value × Value) → List Text
  | [] => []
  | (k, v) :: more =>
    (writeText k.plain ++ ": ".toList ++ writeAt width depth v) :: writeEntries width depth more

end

def write (width : Option Nat) (v : Value) : Text := writeAt width 0 v

end DocLint.Json
