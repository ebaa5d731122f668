/-
Scalars of a YAML text: plain, quoted, and in blocks.

A scalar may go on over several lines.  A single line break in it is folded into a
space, and of several breaks in a row all but the first are kept; blocks can keep all.
The functions here find the end of a scalar and the text that it stands for.
-/
import DocLint.Value.Fault
import DocLint.Yaml.Cursor

namespace DocLint.Yaml

/-- A line break and those that follow it, folded. -/
def folded (first more : Text) : Text :=
  if first ≠ ['\n'] then first ++ more
  else if more.isEmpty then [' '] else more

/-! ### Plain scalars -/

/-- May a plain scalar begin with the character, seen the one after it? -/
def beginsPlain (inFlow : Bool) (c : Char) (next : Option Char) : Bool :=
  !(isGap (some c) || "-?:,[]\x7b\x7d#&*!|>'\"%@`".toList.contains c)
    || (!isGap next && (c == '-' || (!inFlow && (c == '?' || c == ':'))))

/-- Does a plain scalar end before the character, seen the one after it? -/
def endsPlain (inFlow : Bool) (c : Char) (next : Option Char) : Bool :=
  isGap (some c)
    || (c == ':' && (isGap next || (inFlow && next.any fun n => ",[]\x7b\x7d".toList.contains n)))
    || (inFlow && ",?[]\x7b\x7d".toList.contains c)

/-- The length of the word of a plain scalar. -/
def plainLength (inFlow : Bool) : Text → Nat
  | [] => 0
  | c :: r => if endsPlain inFlow c r.head? then 0 else plainLength inFlow r + 1

/-- The line breaks at the cursor, spaces among them aside, unless a mark between documents
follows one. -/
def plainBreaks : Nat → Cursor → Option Text × Cursor
  | 0, c => (some [], c)
  | fuel + 1, c =>
    if c.head == some ' ' then plainBreaks fuel c.step
    else match c.lineBreak? with
      | none => (some [], c)
      | some (text, c) =>
        if c.atDocumentMark then (none, c)
        else
          let (more, c) := plainBreaks fuel c
          (more.map (text ++ ·), c)

/-- What stands between two words of a plain scalar. -/
structure PlainGap where
  /-- The gap in the text of the scalar; it is empty where the scalar has to end. -/
  text : Text
  /-- Is there a line break in it? -/
  hasBreak : Bool
  cursor : Cursor

/-- The gap after a word of a plain scalar. -/
def plainGap (c : Cursor) : PlainGap :=
  let (spaces, c) := c.takeWhile (· == ' ')
  match c.lineBreak? with
  | none => ⟨spaces, false, c⟩
  | some (first, c) =>
    if c.atDocumentMark then ⟨[], true, c⟩
    else
      let (more, c) := plainBreaks (c.left + 1) c
      ⟨(more.map (folded first)).getD [], true, c⟩

/-- A scalar that has been read. -/
structure ScannedScalar where
  text : Text
  cursor : Cursor
  /-- Did a line end behind its last word? -/
  hasBreak : Bool

/-- The words of a plain scalar whose lines are indented by `indent` at least. -/
def plainWords (inFlow : Bool) (indent : Int) : Nat → Text → Bool → Cursor → ScannedScalar
  | 0, _, hasBreak, c => ⟨[], c, hasBreak⟩
  | fuel + 1, gap, hasBreak, c =>
    let length := plainLength inFlow c.rest
    if c.head == some '#' || length == 0 then ⟨[], c, hasBreak⟩
    else
      let word := gap ++ c.rest.take length
      let next := plainGap (Cursor.advance length c)
      let outside := !inFlow && decide ((next.cursor.column : Int) < indent)
      if next.text.isEmpty || next.cursor.head == some '#' || outside then
        ⟨word, next.cursor, next.hasBreak⟩
      else
        let more := plainWords inFlow indent fuel next.text next.hasBreak next.cursor
        { more with text := word ++ more.text }

def plainScalar (inFlow : Bool) (indent : Int) (c : Cursor) : ScannedScalar :=
  plainWords inFlow indent (c.left + 1) [] false c

/-! ### Quoted scalars -/

/-- The character that a letter after a backslash stands for. -/
def escapeLetter? : Char → Option Char
  | '0' => some '\x00'
  | 'a' => some '\x07'
  | 'b' => some '\x08'
  | 't' => some '\t'
  | '\t' => some '\t'
  | 'n' => some '\n'
  | 'v' => some '\x0b'
  | 'f' => some '\x0c'
  | 'r' => some '\r'
  | 'e' => some '\x1b'
  | ' ' => some ' '
  | '\"' => some '\"'
  | '\\' => some '\\'
  | '/' => some '/'
  | 'N' => some '\u0085'
  | '_' => some '\u00a0'
  | 'L' => some '\u2028'
  | 'P' => some '\u2029'
  | _ => none

/-- How many hexadecimal digits follow a letter after a backslash. -/
def escapeDigits? : Char → Option Nat
  | 'x' => some 2
  | 'u' => some 4
  | 'U' => some 8
  | _ => none

/-- The line breaks at the cursor, spaces and tabs among them aside.  A mark between documents
must not stand in a quoted scalar. -/
def quotedBreaks : Nat → Cursor → Reading (Text × Cursor)
  | 0, _ => .error .malformed
  | fuel + 1, c =>
    if c.atDocumentMark then .error .malformed
    else
      let c := c.skipWhile fun ch => ch == ' ' || ch == '\t'
      match c.lineBreak? with
      | none => .ok ([], c)
      | some (text, c) => (quotedBreaks fuel c).map fun (more, c) => (text ++ more, c)

/-- The code point that so many hexadecimal digits at the cursor stand for. -/
def escapedCode (count : Nat) (c : Cursor) : Reading (Nat × Cursor) := do
  let digits := c.rest.take count
  let values ← Reading.ofOption (digits.mapM Text.hexValue?)
  let code := Text.valueOf 16 values
  if digits.length < count then throw .malformed
  else if 0x110000 ≤ code then throw (.noSuchCharacter code)
  else return (code, Cursor.advance count c)

/-- The code points of an escape, the cursor being behind the backslash. -/
def escape (c : Cursor) : Reading (List Nat × Cursor) := do
  let letter ← Reading.ofOption c.head
  match escapeLetter? letter, escapeDigits? letter with
  | some ch, _ => return ([ch.toNat], c.step)
  | none, some count =>
    let (code, c) ← escapedCode count c.step
    return ([code], c)
  | none, none =>
    let (_, c) ← Reading.ofOption c.lineBreak?
    let (breaks, c) ← quotedBreaks (c.left + 1) c
    return (Text.codes breaks, c)

/-- The gap at the cursor within quotes. -/
def quotedGap (c : Cursor) : Reading (Text × Cursor) :=
  let (spaces, c) := c.takeWhile fun ch => ch == ' ' || ch == '\t'
  match c.rest, c.lineBreak? with
  | [], _ => .error .malformed
  | _, none => .ok (spaces, c)
  | _, some (first, c) =>
    (quotedBreaks (c.left + 1) c).map fun (more, c) => (folded first more, c)

/-- The code points at the cursor within quotes, up to the next piece. -/
def quotedPiece (isDouble : Bool) (c : Cursor) (ch : Char) (next : Option Char) :
    Reading (List Nat × Cursor) :=
  if isGap (some ch) then (quotedGap c).map fun (gap, c) => (Text.codes gap, c)
  else if isDouble && ch == '\\' then escape c.step
  else if !isDouble && ch == '\'' && next == some '\'' then .ok (['\''.toNat], c.step.step)
  else .ok ([ch.toNat], c.step)

/-- The code points up to the closing quote, and the cursor behind it. -/
def quotedBody (isDouble : Bool) : Nat → Cursor → Reading (List Nat × Cursor)
  | 0, _ => .error .malformed
  | fuel + 1, c =>
    match c.rest with
    | [] => .error .malformed
    | ch :: r =>
      let closes := if isDouble then ch == '\"' else ch == '\'' && r.head? != some '\''
      if closes then .ok ([], c.step)
      else do
        let (piece, c) ← quotedPiece isDouble c ch r.head?
        let (more, c) ← quotedBody isDouble fuel c
        return (piece ++ more, c)

/-- A quoted scalar, the cursor being at its opening quote. -/
def quotedScalar (isDouble : Bool) (c : Cursor) : Reading (List Nat × Cursor) :=
  quotedBody isDouble (c.left + 1) c.step

/-! ### Block scalars -/

/-- What becomes of the line breaks at the end of a block. -/
inductive Chomping where
  | strip
  | clip
  | keep
  deriving DecidableEq

/-- The chomping that a sign asks for. -/
def chomping? : Char → Option Chomping
  | '+' => some .keep
  | '-' => some .strip
  | _ => none

/-- The indentation that a digit asks for. -/
def indentation? (c : Char) : Option Nat :=
  if '1' ≤ c ∧ c ≤ '9' then some (c.toNat - '0'.toNat) else none

/-- The indicators of a block, in either order, and the cursor behind them. -/
def blockIndicators? (c : Cursor) : Option (Chomping × Option Nat × Cursor) :=
  let sign := c.head.bind chomping?
  let digit := c.head.bind indentation?
  let (sign, digit, c) := match sign, digit with
    | some s, _ => (s, c.step.head.bind indentation?,
        if (c.step.head.bind indentation?).isSome then c.step.step else c.step)
    | none, some d => ((c.step.head.bind chomping?).getD .clip, some d,
        if (c.step.head.bind chomping?).isSome then c.step.step else c.step)
    | none, none => (.clip, none, c)
  if c.head == none || c.head == some ' ' || isBreakOrEnd c.head then some (sign, digit, c) else none

/-- The cursor behind the spaces and the comment that may end a line. -/
def endOfLine? (c : Cursor) : Option Cursor :=
  let c := c.skipWhile (· == ' ')
  let c := if c.head == some '#' then c.skipWhile fun ch => !isBreak ch else c
  match c.lineBreak? with
  | some (_, c) => some c
  | none => if c.rest.isEmpty then some c else none

/-- The empty lines at the beginning of a block, and the deepest of their columns. -/
def leadingBreaks : Nat → Nat → Cursor → Text × Nat × Cursor
  | 0, deepest, c => ([], deepest, c)
  | fuel + 1, deepest, c =>
    if c.head == some ' ' then leadingBreaks fuel (max deepest c.step.column) c.step
    else match c.lineBreak? with
      | none => ([], deepest, c)
      | some (text, c) =>
        let (more, deepest, c) := leadingBreaks fuel deepest c
        (text ++ more, deepest, c)

/-- The cursor behind spaces, but not beyond a column. -/
def skipIndent (indent : Nat) (c : Cursor) : Cursor :=
  Cursor.advance (min (indent - c.column) (c.rest.takeWhile (· == ' ')).length) c

/-- The empty lines within a block. -/
def blockBreaks (indent : Nat) : Nat → Cursor → Text × Cursor
  | 0, c => ([], c)
  | fuel + 1, c =>
    let c := skipIndent indent c
    match c.lineBreak? with
    | none => ([], c)
    | some (text, c) =>
      let (more, c) := blockBreaks indent fuel c
      (text ++ more, c)

/-- The lines of a block from the cursor on, after empty lines `breaks`; the text so far, the last
line break, and the empty lines at the end. -/
def blockLines (isFolded : Bool) (indent : Nat) :
    Nat → Text → Text → Text → Cursor → Text × Text × Text × Cursor
  | 0, text, last, breaks, c => (text, last, breaks, c)
  | fuel + 1, text, last, breaks, c =>
    if c.column ≠ indent || c.rest.isEmpty then (text, last, breaks, c)
    else
      let isMore := fun (c : Cursor) => c.head == some ' ' || c.head == some '\t'
      let (body, after) := c.takeWhile fun ch => !isBreak ch
      let (last, after) := (after.lineBreak?).getD ([], after)
      let (next, after) := blockBreaks indent (after.left + 1) after
      let text := text ++ breaks ++ body
      if after.column ≠ indent || after.rest.isEmpty then (text, last, next, after)
      else
        let joint :=
          if isFolded && last == ['\n'] && !isMore c && !isMore after then
            (if next.isEmpty then [' '] else [])
          else last
        blockLines isFolded indent fuel (text ++ joint) last next after

/-- A block scalar in a node of indentation `outer`, the cursor being at its indicator. -/
def blockScalar? (isFolded : Bool) (outer : Int) (c : Cursor) : Option (Text × Cursor) := do
  let (chomping, digit, c) ← blockIndicators? c.step
  let c ← endOfLine? c
  let least := max 1 (outer + 1).toNat
  let (breaks, indent, c) := match digit with
    | none =>
      let (breaks, deepest, c) := leadingBreaks (c.left + 1) 0 c
      (breaks, max least deepest, c)
    | some d =>
      let indent := least + d - 1
      let (breaks, c) := blockBreaks indent (c.left + 1) c
      (breaks, indent, c)
  let (text, last, tail, c) := blockLines isFolded indent (c.left + 1) [] [] breaks c
  return (match chomping with
    | .strip => text
    | .clip => text ++ last
    | .keep => text ++ last ++ tail, c)

end DocLint.Yaml
