/-
The values of scalars.

A tag says what a scalar has to be, whatever its form.  So a scalar may fail to be what its
tag promises, and then the fault tells what was found instead.
-/
import DocLint.Text.Base64
import DocLint.Yaml.Tag

namespace DocLint.Yaml

/-- The digits of a number without the underscores. -/
def dropGaps (t : Text) : Text := t.filter (· != '_')

/-- The sign of a number, and the digits behind it. -/
def signed : Text → Reading (Bool × Text)
  | [] => .error .noDigits
  | '-' :: r => .ok (true, r)
  | '+' :: r => .ok (false, r)
  | t => .ok (false, t)

/-! ### Integers -/

/-- The integer that a text stands for in a base. -/
def integerIn (base : Nat) (t : Text) : Reading Int :=
  (Text.integerIn base t).mapError (.ofInteger base t)

/-- An integer without its sign. -/
def magnitude (t : Text) : Reading Int :=
  match t with
  | [] => .error .noDigits
  | ['0'] => .ok 0
  | '0' :: 'b' :: r => integerIn 2 r
  | '0' :: 'x' :: r => integerIn 16 r
  | '0' :: _ => integerIn 8 t
  | _ =>
    match Text.splitChar ':' t with
    | [_] => integerIn 10 t
    | parts => (parts.mapM (integerIn 10)).map fun ns => ns.foldl (fun total n => total * 60 + n) 0

/-- The integer of a scalar. -/
def integer (t : Text) : Reading Int := do
  let (isNegative, body) ← signed (dropGaps t)
  let size ← magnitude body
  return if isNegative then -size else size

/-! ### Numbers with a fraction -/

/-- The number that a text stands for in base ten. -/
def decimal (t : Text) : Reading Float :=
  match Decimal.ofText? t with
  | some x => .ok x
  | none => .error (.notANumber t)

/-- The first power of sixty that no number with a fraction can hold. -/
def leastTooLarge : Nat := 174

/-- The number of parts in base sixty, summed up from the last one. -/
def sixtyfold (parts : List Float) : Reading Float :=
  parts.reverse.zipIdx.foldlM (fun total (part, place) =>
    if leastTooLarge ≤ place then .error .tooLarge
    else .ok (total + part * Decimal.nearest false (Nat.pow 60 place) 0)) 0.0

/-- The number of a scalar. -/
def fraction (t : Text) : Reading Float := do
  let (isNegative, body) ← signed (Text.lower (dropGaps t))
  let size ←
    if body = ".inf".toList then pure Decimal.infinity
    else if body = ".nan".toList then pure (0.0 / 0.0)
    else match Text.splitChar ':' body with
      | [_] => decimal body
      | parts => do sixtyfold (← parts.mapM decimal)
  return if isNegative then -size else size

/-! ### Other scalars -/

def truthValue (t : Text) : Reading Bool :=
  let word := Text.lower t
  match truthValue? word with
  | some b => .ok b
  | none => .error (.notATruthValue word)

/-- The bytes of a scalar. -/
def bytes (t : Text) : Reading (List UInt8) :=
  Reading.ofOption (if t.all fun c => c.toNat < 0x80 then Text.base64? t else none)

/-- The date or the moment of a scalar. -/
def moment (t : Text) : Reading Value :=
  match Timestamp.ofText? (dropFinalBreak t) with
  | some s => s.value
  | none => .error .notAMoment

/-- The value of a scalar of a tag. -/
def Tag.value (tag : Tag) (codes : List Nat) : Reading Value :=
  let t := Text.ofCodes codes
  match tag with
  | .null => .ok .null
  | .bool => (truthValue t).map .bool
  | .int => (integer t).map .int
  | .float => (fraction t).map .float
  | .binary => (bytes t).map .bytes
  | .timestamp => moment t
  | .str => .ok (.ofCodes codes)
  | _ => .error .malformed

end DocLint.Yaml
