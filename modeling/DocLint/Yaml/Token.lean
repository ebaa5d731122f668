/-
The tokens of a YAML text.

Block collections are told by columns alone, so the scan adds tokens that no character
stands for: where a collection begins, where it ends, and where a key was.  A key without
a question mark is known as one only at its colon.  Its place is kept until then, and the
token for it is put in afterwards; it has to be on the line of the colon, not too far
before it.
-/
import DocLint.Yaml.Scalar

namespace DocLint.Yaml

/-- A part of a YAML text. -/
inductive Token where
  /-- The version of YAML that a text is written in, by its first number. -/
  | version (major : Nat)
  /-- What a handle in front of tags is short for. -/
  | handle (handle whole : Text)
  /-- Some other directive. -/
  | directive
  | documentStart
  | documentEnd
  | sequenceStart
  | mappingStart
  /-- The end of a collection that is told by its columns. -/
  | blockEnd
  | flowSequenceStart
  | flowSequenceEnd
  | flowMappingStart
  | flowMappingEnd
  /-- The hyphen before an item. -/
  | entry
  /-- The comma between items. -/
  | separator
  | key
  | value
  | anchor (name : Text)
  | alias (name : Text)
  /-- A tag; one without handle is written in full. -/
  | tag (handle : Option Text) (name : Text)
  | scalar (isPlain : Bool) (codes : List Nat)
  deriving Repr, DecidableEq

/-! ### Names and tags -/

/-- Does a space or the end of the line stand at the cursor? -/
def atSpaceOrEnd (c : Cursor) : Bool := c.head == some ' ' || isBreakOrEnd c.head

/-- The name of an anchor or alias, the cursor being at its sign. -/
def name (c : Cursor) : Reading (Text × Cursor) :=
  let (name, c) := c.step.takeWhile isNameChar
  let ends := isGap c.head || c.head.any fun ch => "?:,]\x7d%@\x60".toList.contains ch
  if name.isEmpty || !ends then .error .malformed else .ok (name, c)

/-- May the character stand in the name of a tag? -/
def isTagChar (c : Char) : Bool := c.isAlphanum || "-;/?:@&=+$,_.!~*'()[]".toList.contains c

/-- The bytes that are written with percent signs at the cursor. -/
def percentBytes : Nat → Cursor → Reading (List UInt8 × Cursor)
  | 0, c => .ok ([], c)
  | fuel + 1, c =>
    match c.rest with
    | '%' :: a :: b :: _ => do
      let digits ← Reading.ofOption ([a, b].mapM Text.hexValue?)
      let (more, c) ← percentBytes fuel (c.advance 3)
      return ((Text.valueOf 16 digits).toUInt8 :: more, c)
    | '%' :: _ => .error .malformed
    | _ => .ok ([], c)

/-- The characters of a tag at the cursor; some may be written as bytes. -/
def tagChars : Nat → Cursor → Reading (Text × Cursor)
  | 0, c => .ok ([], c)
  | fuel + 1, c => do
    let (plain, c) := c.takeWhile isTagChar
    let (bytes, after) ← percentBytes (c.left + 1) c
    if bytes.isEmpty then return (plain, c)
    else
      let escaped ← Reading.ofOption (Text.ofUtf8? ⟨⟨bytes⟩⟩)
      let (more, c) ← tagChars fuel after
      return (plain ++ escaped ++ more, c)

/-- The name of a tag, which must not be empty. -/
def tagName (c : Cursor) : Reading (Text × Cursor) := do
  let (name, c) ← tagChars (c.left + 1) c
  if name.isEmpty then throw .malformed else return (name, c)

/-- A handle of tags, the cursor being at its exclamation mark. -/
def tagHandle (c : Cursor) : Reading (Text × Cursor) :=
  if c.head != some '!' then .error .malformed
  else if c.ahead 1 == some ' ' then .ok (['!'], c.step)
  else
    let (name, after) := c.step.takeWhile isNameChar
    if after.head == some '!' then .ok (['!'] ++ name ++ ['!'], after.step)
    else .error .malformed

/-- A tag, the cursor being at its exclamation mark. -/
def tag (c : Cursor) : Reading (Token × Cursor) := do
  let word := (c.rest.drop 1).takeWhile fun ch => ch != ' ' && !isBreak ch
  let (token, c) ←
    if c.ahead 1 == some '<' then do
      let (name, c) ← tagName c.step.step
      if c.head == some '>' then pure (Token.tag none name, c.step) else throw .malformed
    else if isGap (c.ahead 1) then pure (Token.tag none ['!'], c.step)
    else do
      let (handle, c) ← if word.contains '!' then tagHandle c else pure (['!'], c.step)
      let (name, c) ← tagName c
      pure (Token.tag (some handle) name, c)
  if atSpaceOrEnd c then return (token, c) else throw .malformed

/-! ### Directives -/

def number (c : Cursor) : Reading (Nat × Cursor) :=
  match c.takeWhile Char.isDigit with
  | ([], _) => .error .malformed
  | (digits, c) =>
    match Text.naturalIn 10 digits with
    | .ok n => .ok (n, c)
    | .error fault => .error (.ofInteger 10 digits fault)

/-- The version in a directive, and the cursor behind it. -/
def version (c : Cursor) : Reading (Nat × Cursor) := do
  let (major, c) ← number (c.skipWhile (· == ' '))
  if c.head == some '.' then
    let (_, c) ← number c.step
    if atSpaceOrEnd c then return (major, c) else throw .malformed
  else throw .malformed

/-- The declaration of a handle, and the cursor behind it. -/
def declaredHandle (c : Cursor) : Reading (Token × Cursor) := do
  let (handle, c) ← tagHandle (c.skipWhile (· == ' '))
  if c.head == some ' ' then
    let (whole, c) ← tagName (c.skipWhile (· == ' '))
    if atSpaceOrEnd c then return (.handle handle whole, c) else throw .malformed
  else throw .malformed

/-- A directive, the cursor being at its percent sign. -/
def directive (c : Cursor) : Reading (Token × Cursor) := do
  let (name, c) := c.step.takeWhile isNameChar
  if name.isEmpty || !atSpaceOrEnd c then throw .malformed
  else
    let (token, c) ←
      if name == "YAML".toList then do
        let (major, c) ← version c
        pure (Token.version major, c)
      else if name == "TAG".toList then declaredHandle c
      else pure (Token.directive, c.skipWhile fun ch => !isBreak ch)
    return (token, ← Reading.ofOption (endOfLine? c))

/-! ### The state of a scan -/

/-- How far from its colon a key may begin. -/
def keyReach : Nat := 1024

/-- A place where a key may have begun. -/
structure KeyPlace where
  /-- How many tokens came before. -/
  token : Nat
  cursor : Cursor
  /-- Nothing but a key can stand here. -/
  isRequired : Bool

/-- How far a scan has come. -/
structure Scan where
  cursor : Cursor
  tokens : Array Token := #[]
  /-- The columns of the open block collections, innermost first. -/
  indents : List Nat := []
  /-- May a key begin here? -/
  mayKey : Bool := true
  /-- Where a key may have begun on this level of brackets. -/
  key : Option KeyPlace := none
  /-- Where one may have begun on the levels around it, innermost first. -/
  outerKeys : List (Option KeyPlace) := []

namespace Scan

/-- Is the cursor between brackets? -/
def inFlow (s : Scan) : Bool := !s.outerKeys.isEmpty

/-- The column of the innermost block collection. -/
def indent (s : Scan) : Int :=
  match s.indents with
  | [] => -1
  | column :: _ => column

/-- The scan with a token added and the cursor behind it. -/
def emit (s : Scan) (token : Token) (cursor : Cursor) : Scan :=
  { s with tokens := s.tokens.push token, cursor := cursor }

/-- The scan with a token put in before the tokens from a number on. -/
def insert (s : Scan) (number : Nat) (token : Token) : Scan :=
  { s with tokens := s.tokens.insertIdxIfInBounds number token }

/-! ### Keys -/

/-- The place of a key that need not be one is forgotten. -/
def forgetKey (s : Scan) : Reading Scan :=
  if s.key.any (·.isRequired) then .error .malformed else .ok { s with key := none }

/-- Is the key too far away for the cursor to be at its colon? -/
def isStale (cursor : Cursor) (k : KeyPlace) : Bool :=
  k.cursor.line != cursor.line || k.cursor.index + keyReach < cursor.index

/-- The places of keys that are too far away are forgotten. -/
def forgetStale (s : Scan) : Reading Scan :=
  let stale := fun (k : Option KeyPlace) => k.any (isStale s.cursor)
  if (s.key :: s.outerKeys).any fun k => stale k && k.any (·.isRequired) then .error .malformed
  else
    let kept := fun (k : Option KeyPlace) => if stale k then none else k
    .ok { s with key := kept s.key, outerKeys := s.outerKeys.map kept }

/-- The place of the cursor is kept, if a key may begin here. -/
def placeKey (s : Scan) : Reading Scan := do
  if s.mayKey then
    let s ← s.forgetKey
    let isRequired := !s.inFlow && s.indent == s.cursor.column
    return { s with key := some ⟨s.tokens.size, s.cursor, isRequired⟩ }
  else return s

/-! ### Block collections -/

/-- Block collections deeper than a column end. -/
def closeDeeper (s : Scan) (column : Int) : Scan :=
  if s.inFlow then s
  else
    let (closed, kept) := s.indents.span fun (n : Nat) => decide (column < n)
    { s with indents := kept, tokens := s.tokens ++ closed.map fun _ => Token.blockEnd }

/-- A block collection begins, unless one of this column is open. -/
def openAt (s : Scan) (column number : Nat) (start : Token) : Scan :=
  if s.indent < column then
    { s with indents := column :: s.indents }.insert number start
  else s

/-- The cursor goes on over spaces, comments and line breaks.  Beyond a line break a key may
begin. -/
def skipBlank : Nat → Scan → Scan
  | 0, s => s
  | fuel + 1, s =>
    let c := s.cursor.skipWhile (· == ' ')
    let c := if c.head == some '#' then c.skipWhile fun ch => !isBreak ch else c
    match c.lineBreak? with
    | none => { s with cursor := c }
    | some (_, c) => skipBlank fuel { s with cursor := c, mayKey := s.mayKey || !s.inFlow }

/-! ### Tokens -/

/-- A mark or a directive between documents. -/
def documentMark (s : Scan) (token : Token) (cursor : Cursor) : Reading Scan := do
  let s ← (s.closeDeeper (-1)).forgetKey
  return { s with mayKey := false }.emit token cursor

def openBracket (s : Scan) (token : Token) : Reading Scan := do
  let s ← s.placeKey
  return { s with key := none, outerKeys := s.key :: s.outerKeys, mayKey := true }.emit token
    s.cursor.step

def closeBracket (s : Scan) (token : Token) : Reading Scan := do
  let s ← s.forgetKey
  match s.outerKeys with
  | [] => throw .malformed
  | key :: outer =>
    return { s with key := key, outerKeys := outer, mayKey := false }.emit token s.cursor.step

/-- A comma. -/
def separator (s : Scan) : Reading Scan := do
  let s ← s.forgetKey
  return { s with mayKey := true }.emit .separator s.cursor.step

/-- A hyphen before an item. -/
def entry (s : Scan) : Reading Scan := do
  if !s.inFlow && !s.mayKey then throw .malformed
  else
    let s := if s.inFlow then s else s.openAt s.cursor.column s.tokens.size .sequenceStart
    let s ← s.forgetKey
    return { s with mayKey := true }.emit .entry s.cursor.step

/-- A question mark before a key, or a colon that stands for itself. -/
def mark (s : Scan) (token : Token) : Reading Scan := do
  if !s.inFlow && !s.mayKey then throw .malformed
  else
    let s := if s.inFlow then s else s.openAt s.cursor.column s.tokens.size .mappingStart
    let s ← s.forgetKey
    return { s with mayKey := !s.inFlow }.emit token s.cursor.step

/-- A colon. -/
def value (s : Scan) : Reading Scan :=
  match s.key with
  | none => s.mark .value
  | some place =>
    let s := { s with key := none, mayKey := false }.insert place.token .key
    let s := if s.inFlow then s else s.openAt place.cursor.column place.token .mappingStart
    .ok (s.emit .value s.cursor.step)

/-- What may be a key itself: a name, a tag, a quoted scalar. -/
def item (s : Scan) (piece : Reading (Token × Cursor)) : Reading Scan := do
  let s ← s.placeKey
  let (token, cursor) ← piece
  return { s with mayKey := false }.emit token cursor

/-- A block scalar. -/
def block (s : Scan) (isFolded : Bool) : Reading Scan := do
  let s ← s.forgetKey
  let (text, cursor) ← Reading.ofOption (blockScalar? isFolded s.indent s.cursor)
  return { s with mayKey := true }.emit (.scalar false (Text.codes text)) cursor

/-- A plain scalar. -/
def plain (s : Scan) : Reading Scan := do
  let s ← s.placeKey
  let scalar := plainScalar s.inFlow (s.indent + 1) s.cursor
  return { s with mayKey := scalar.hasBreak }.emit (.scalar true (Text.codes scalar.text))
    scalar.cursor

/-- The token at the cursor. -/
def token (s : Scan) (ch : Char) (next : Option Char) : Reading Scan :=
  let c := s.cursor
  let named := fun (token : Text → Token) => (name c).map fun (name, c) => (token name, c)
  let quoted := fun (isDouble : Bool) =>
    (quotedScalar isDouble c).map fun (codes, c) => (Token.scalar false codes, c)
  if c.column == 0 && ch == '%' then (directive c).bind fun (token, c) => s.documentMark token c
  else if c.column == 0 && c.atMark '-' then s.documentMark .documentStart (c.advance 3)
  else if c.column == 0 && c.atMark '.' then s.documentMark .documentEnd (c.advance 3)
  else if ch == '[' then s.openBracket .flowSequenceStart
  else if ch == '\x7b' then s.openBracket .flowMappingStart
  else if ch == ']' then s.closeBracket .flowSequenceEnd
  else if ch == '\x7d' then s.closeBracket .flowMappingEnd
  else if ch == ',' then s.separator
  else if ch == '-' && isGap next then s.entry
  else if ch == '?' && (s.inFlow || isGap next) then s.mark .key
  else if ch == ':' && (s.inFlow || isGap next) then s.value
  else if ch == '*' then s.item (named .alias)
  else if ch == '&' then s.item (named .anchor)
  else if ch == '!' then s.item (tag c)
  else if ch == '|' && !s.inFlow then s.block false
  else if ch == '>' && !s.inFlow then s.block true
  else if ch == '\'' then s.item (quoted false)
  else if ch == '\"' then s.item (quoted true)
  else if beginsPlain s.inFlow ch next then s.plain
  else .error .malformed

/-- The scan at the next character that stands for a token. -/
def atNext (s : Scan) : Reading Scan :=
  (s.skipBlank (s.cursor.left + 1)).forgetStale.map fun s => s.closeDeeper s.cursor.column

/-- The tokens that can be told for certain: those before the first place where a key may have
begun. -/
def settled (s : Scan) : List Token :=
  let places := (s.key :: s.outerKeys).filterMap fun k => k.map KeyPlace.token
  (s.tokens.take (places.foldl min s.tokens.size)).toList

end Scan

/-- The tokens of a text, up to the first fault in it. -/
structure Tokens where
  tokens : List Token
  fault : Option Value.Fault := none

namespace Scan

/-- The tokens that have been found when a fault is met. -/
def failed (s : Scan) (fault : Value.Fault) : Tokens := ⟨s.settled, some fault⟩

/-- The tokens from the cursor to the end of the text.  Each takes a character at least, so the
length of the text is fuel enough. -/
def run : Nat → Scan → Tokens
  | 0, s => s.failed .malformed
  | fuel + 1, s =>
    match s.atNext with
    | .error fault => s.failed fault
    | .ok s =>
      match s.cursor.rest with
      | [] =>
        match (s.closeDeeper (-1)).forgetKey with
        | .ok s => ⟨s.tokens.toList, none⟩
        | .error fault => s.failed fault
      | ch :: r =>
        match s.token ch r.head? with
        | .ok s => run fuel s
        | .error fault => s.failed fault

end Scan

/-- The tokens of a text.  A byte order mark at its beginning does not count. -/
def Tokens.scan (t : Text) : Tokens :=
  if t.all isAllowed then
    let start := Cursor.ofText t
    Scan.run (start.left + 1) { cursor := if start.head == some '\uFEFF' then start.step else start }
  else ⟨[], some .malformed⟩

end DocLint.Yaml
