/-
Reading JSON.

The grammar is the strict one, with three additions for numbers: `NaN`, `Infinity` and
`-Infinity`.  A number with a point or an exponent is a float, any other an integer.
Of several entries with one key the last value counts, in the place of the first.
Control characters inside texts, comments and trailing commas are refused.
-/
import DocLint.Value
import DocLint.Value.Fault

namespace DocLint.Json

/-- White space between tokens. -/
def isSpace (c : Char) : Bool := c == ' ' || c == '\t' || c == '\n' || c == '\r'

/-- The text after the white space at its front. -/
def skipSpace (t : Text) : Text := t.dropWhile isSpace

/-- The text after `word`, if it begins with it. -/
def after? (word t : Text) : Option Text :=
  if word.isPrefixOf t then some (t.drop word.length) else none

/-! ### Numbers -/

def isDigit (c : Char) : Bool := '0' ≤ c && c ≤ '9'

/-- The number that ASCII digits stand for. -/
def digitsValue (t : Text) : Nat := Text.valueOf 10 (t.map fun c => c.toNat - '0'.toNat)

/-- The digits after a point; there has to be one. -/
def fraction? : Text → Option (Text × Text)
  | '.' :: r =>
    match r.takeWhile isDigit with
    | [] => none
    | digits => some (digits, r.dropWhile isDigit)
  | _ => none

/-- The exponent and what follows it. -/
def exponent? : Text → Option (Int × Text)
  | c :: r =>
    if c = 'e' ∨ c = 'E' then
      let (negative, body) := match r with
        | '+' :: b => (false, b)
        | '-' :: b => (true, b)
        | b => (false, b)
      match body.takeWhile isDigit with
      | [] => none
      | digits =>
        let size : Int := digitsValue digits
        some (if negative then -size else size, body.dropWhile isDigit)
    else none
  | [] => none

/-- The digits before the point: a zero alone, or digits that do not begin with zero. -/
def whole? (t : Text) : Option (Text × Text) :=
  match t with
  | '0' :: r => some (['0'], r)
  | c :: _ => if isDigit c then some (t.takeWhile isDigit, t.dropWhile isDigit) else none
  | [] => none

/-- A number without its sign. -/
def unsigned (negative : Bool) (t : Text) : Reading (Value × Text) :=
  match whole? t with
  | none => .error .malformed
  | some (whole, r) =>
    let (fraction, r, hasFraction) := match fraction? r with
      | some (digits, r) => (digits, r, true)
      | none => ([], r, false)
    let (exponent, r, hasExponent) := match exponent? r with
      | some (e, r) => (e, r, true)
      | none => (0, r, false)
    let digits := digitsValue (whole ++ fraction)
    if hasFraction || hasExponent then
      .ok (.float (Decimal.nearest negative digits (exponent - fraction.length)), r)
    else if Text.maxDigits < whole.length then .error (.tooManyDigits whole.length)
    else .ok (.int (if negative then -(digits : Int) else digits), r)

/-- A number, or the name of one that has no digits. -/
def number (t : Text) : Reading (Value × Text) :=
  match t with
  | '-' :: r =>
    match after? "Infinity".toList r with
    | some r => .ok (.float (-Decimal.infinity), r)
    | none => unsigned true r
  | _ =>
    match after? "NaN".toList t, after? "Infinity".toList t with
    | some r, _ => .ok (.float (0.0 / 0.0), r)
    | none, some r => .ok (.float Decimal.infinity, r)
    | none, none => unsigned false t

/-! ### Texts -/

/-- Four hexadecimal digits. -/
def hex4 : Text → Reading (Nat × Text)
  | a :: b :: c :: d :: r =>
    match [a, b, c, d].mapM Text.hexValue? with
    | some digits => .ok (Text.valueOf 16 digits, r)
    | none => .error .malformed
  | _ => .error .malformed

/-- The code point of the digits of an escape.  A high surrogate makes one character with the low
one that follows it; any other half of a pair stands for itself. -/
def joined (code : Nat) (r : Text) : Nat × Text :=
  let low? := match r with
    | '\\' :: 'u' :: r => (hex4 r).toOption
    | _ => none
  match low? with
  | some (low, rest) =>
    if 0xD800 ≤ code ∧ code ≤ 0xDBFF ∧ 0xDC00 ≤ low ∧ low ≤ 0xDFFF then
      (0x10000 + (code - 0xD800) * 0x400 + (low - 0xDC00), rest)
    else (code, r)
  | none => (code, r)

/-- The character that a letter after a backslash stands for. -/
def escapeLetter? : Char → Option Char
  | '\"' => some '\"'
  | '\\' => some '\\'
  | '/' => some '/'
  | 'b' => some '\x08'
  | 'f' => some '\x0c'
  | 'n' => some '\n'
  | 'r' => some '\r'
  | 't' => some '\t'
  | _ => none

/-- The code points up to the closing quote, and what follows.  Each step takes a character at
least, so the length of the input is fuel enough. -/
def codes : Nat → Text → Reading (List Nat × Text)
  | 0, _ => .error .malformed
  | _ + 1, [] => .error .malformed
  | fuel + 1, c :: r =>
    if c = '\"' then .ok ([], r)
    else if c = '\\' then
      match r with
      | 'u' :: r => do
        let (code, r) ← hex4 r
        let (code, r) := joined code r
        let (more, r) ← codes fuel r
        return (code :: more, r)
      | letter :: r =>
        match escapeLetter? letter with
        | some escaped => do
          let (more, r) ← codes fuel r
          return (escaped.toNat :: more, r)
        | none => .error .malformed
      | [] => .error .malformed
    else if c.toNat < 0x20 then .error .malformed
    else do
      let (more, r) ← codes fuel r
      return (c.toNat :: more, r)

/-- A text after its opening quote. -/
def text (t : Text) : Reading (Value × Text) :=
  (codes (t.length + 1) t).map fun (codes, r) => (Value.ofCodes codes, r)

/-! ### Values -/

/-- How many lists and maps may stand one within another. -/
def maxDepth : Nat := 987

mutual

/-- A value at the front of the text, and what follows it. -/
def value (depth : Nat) : Nat → Text → Reading (Value × Text)
  | 0, _ => .error .malformed
  | fuel + 1, t =>
    match t with
    | '\"' :: r => text r
    | '[' :: r =>
      if maxDepth ≤ depth then .error (.tooDeep .list)
      else match skipSpace r with
        | ']' :: r => .ok (.list [], r)
        | r => (items (depth + 1) fuel r).map fun (items, r) => (.list items, r)
    | '\x7b' :: r =>
      if maxDepth ≤ depth then .error (.tooDeep .map)
      else match skipSpace r with
        | '\x7d' :: r => .ok (.map [], r)
        | r => (entries (depth + 1) fuel [] r).map fun (entries, r) => (.map entries, r)
    | _ =>
      match after? "null".toList t, after? "true".toList t, after? "false".toList t with
      | some r, _, _ => .ok (.null, r)
      | _, some r, _ => .ok (.bool true, r)
      | _, _, some r => .ok (.bool false, r)
      | none, none, none => number t

/-- The items of a list up to its closing bracket; there is at least one. -/
def items (depth : Nat) : Nat → Text → Reading (List Value × Text)
  | 0, _ => .error .malformed
  | fuel + 1, t => do
    let (item, r) ← value depth fuel t
    match skipSpace r with
    | ']' :: r => return ([item], r)
    | ',' :: r =>
      let (more, r) ← items depth fuel (skipSpace r)
      return (item :: more, r)
    | _ => throw .malformed

/-- The entries of a map up to its closing brace, after those in `seen`. -/
def entries (depth : Nat) : Nat → List (Value × Value) → Text → Reading (List (Value × Value) × Text)
  | 0, _, _ => .error .malformed
  | fuel + 1, seen, t =>
    match t with
    | '\"' :: r => do
      let (key, r) ← text r
      match skipSpace r with
      | ':' :: r =>
        let (value, r) ← value depth fuel (skipSpace r)
        let seen := Value.put key value seen
        match skipSpace r with
        | '\x7d' :: r => return (seen, r)
        | ',' :: r => entries depth fuel seen (skipSpace r)
        | _ => throw .malformed
      | _ => throw .malformed
    | _ => .error .malformed

end

/-- The value of a whole text.  Two steps at most go by without taking a character, so twice
the length is fuel enough. -/
def read (t : Text) : Reading Value := do
  let (value, r) ← value 0 (2 * t.length + 2) (skipSpace t)
  if (skipSpace r).isEmpty then return value else throw .malformed

end DocLint.Json
