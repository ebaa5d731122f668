/-
Why a text of a format is not read.

Most texts that are not read are malformed.  Beside that there are texts that keep to the
grammar and hold what no value can be made of: numbers that are too long, dates that are
none, words that are no truth values, and collections that are nested too deep.
-/
import DocLint.Text.Integer
import DocLint.Text.Quoted
import DocLint.Value

namespace DocLint.Value

/-- What is nested too deep. -/
inductive Nesting where
  | list
  | map
  | node
  /-- A value that is to be shown. -/
  | shown
  deriving Repr, DecidableEq

/-- Why a text is not read. -/
inductive Fault where
  | malformed
  | notAnInteger (base : Nat) (t : Text)
  | tooManyDigits (count : Nat)
  | notANumber (t : Text)
  /-- A number was promised and nothing is written. -/
  | noDigits
  /-- The number is beyond what a number with a fraction can hold. -/
  | tooLarge
  | notATruthValue (t : Text)
  | notAMoment
  /-- A moment was promised and a mapping stands there. -/
  | momentOfMapping
  | calendar (fault : CalendarFault)
  /-- The code of an escape is beyond the last character. -/
  | noSuchCharacter (code : Nat)
  | tooDeep (nesting : Nesting)
  /-- There is an integer in a message that has too many digits to be written. -/
  | unwritable
  deriving Repr, DecidableEq

/-- The place where nesting has gone too deep. -/
def Nesting.message : Nesting → Text
  | .list => " while decoding a JSON array from a unicode string".toList
  | .map => " while decoding a JSON object from a unicode string".toList
  | .node => []
  | .shown => " while getting the repr of an object".toList

def Fault.message : Fault → Text
  | .malformed => "malformed".toList
  | .notAnInteger base t =>
    "invalid literal for int() with base ".toList ++ Text.ofNat base ++ ": ".toList
      ++ Text.clipped 200 t
  | .tooManyDigits count =>
    "Exceeds the limit (4300 digits) for integer string conversion: value has ".toList
      ++ Text.ofNat count
      ++ " digits; use sys.set_int_max_str_digits() to increase the limit".toList
  | .notANumber t => "could not convert string to float: ".toList ++ Text.quoted t
  | .noDigits => "string index out of range".toList
  | .tooLarge => "int too large to convert to float".toList
  | .notATruthValue t => Text.quoted t
  | .notAMoment => "'NoneType' object has no attribute 'groupdict'".toList
  | .momentOfMapping => "expected string or bytes-like object, got 'list'".toList
  | .calendar fault => fault.message
  | .noSuchCharacter code =>
    if code < Nat.pow 2 31 then "chr() arg not in range(0x110000)".toList
    else "Python int too large to convert to C int".toList
  | .tooDeep nesting => "maximum recursion depth exceeded".toList ++ nesting.message
  | .unwritable =>
    "Exceeds the limit (4300 digits) for integer string conversion; ".toList
      ++ "use sys.set_int_max_str_digits() to increase the limit".toList

/-- The fault of a text that is no integer of a base. -/
def Fault.ofInteger (base : Nat) (t : Text) : Text.IntegerFault → Fault
  | .notANumber => .notAnInteger base t
  | .tooManyDigits count => .tooManyDigits count

/-! ### Writing -/

/-- Has an integer few enough digits to be written? -/
def isWritableInt (n : Int) : Bool := n.natAbs < Nat.pow 10 Text.maxDigits

mutual

/-- Why a value cannot be shown where so many more may stand one within another: the first thing in
it that cannot.  The members of a set are shown as those of a list within it. -/
def showFault? : Nat → Value → Option Fault
  | 0, _ => some (.tooDeep .shown)
  | room + 1, v =>
    match v with
    | int n => if isWritableInt n then none else some .unwritable
    | list items => showFaultAmong? room items
    | pair a b => (showFault? room a).or (showFault? room b)
    | set [] => none
    | set members => if room = 0 then some (.tooDeep .shown) else showFaultAmong? (room - 1) members
    | map entries => showFaultInEntries? room entries
    | _ => none

/-- Why one of some values cannot be shown. -/
def showFaultAmong? (room : Nat) : List Value → Option Fault
  | [] => none
  | v :: more => (showFault? room v).or (showFaultAmong? room more)

/-- Why one of the entries of a map cannot be shown. -/
def showFaultInEntries? (room : Nat) : List (Value × Value) → Option Fault
  | [] => none
  | (k, v) :: more =>
    ((showFault? room k).or (showFault? room v)).or (showFaultInEntries? room more)

end

end DocLint.Value

namespace DocLint

/-- What is read, unless there is a fault in the text. -/
abbrev Reading := Except Value.Fault

/-- What is there has been read; where there is nothing the text is malformed. -/
def Reading.ofOption {α : Type} : Option α → Reading α
  | some a => .ok a
  | none => .error .malformed

end DocLint
