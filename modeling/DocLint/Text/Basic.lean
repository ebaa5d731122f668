/-
Text: characters in order, measured in UTF-8 bytes.

Every part of the library speaks about a text as the list of its characters, and
about a position in a file as a number of bytes.  This module holds the bridge
between the two: `byteSize` is the measure, `utf8` the bytes themselves, and
`takeBytes` goes back from bytes to characters, rounding down to a whole character.
-/
namespace DocLint

/-- A text is the list of its characters (Unicode scalar values). -/
abbrev Text := List Char

instance : Coe String Text := ⟨String.toList⟩

namespace Text

/-! ### Bytes -/

def utf8 (t : Text) : List UInt8 := t.flatMap String.utf8EncodeChar

/-- The number of bytes of the UTF-8 encoding. -/
def byteSize : Text → Nat
  | [] => 0
  | c :: r => c.utf8Size + byteSize r

@[simp] theorem byteSize_nil : byteSize [] = 0 := rfl

@[simp] theorem byteSize_cons (c : Char) (t : Text) :
    byteSize (c :: t) = c.utf8Size + byteSize t := rfl

@[simp] theorem byteSize_append (s t : Text) : byteSize (s ++ t) = byteSize s + byteSize t := by
  induction s with
  | nil => simp
  | cons c r ih => simp [ih, Nat.add_assoc]

/-- The measure counts the bytes of the encoding. -/
theorem length_utf8 (t : Text) : (utf8 t).length = byteSize t := by
  induction t with
  | nil => rfl
  | cons c r ih => simp [utf8, String.length_utf8EncodeChar] at ih ⊢; omega

/-- The longest run of whole characters at the front that fits `budget` bytes. -/
def takeBytes : Nat → Text → Text
  | _, [] => []
  | budget, c :: r => if c.utf8Size ≤ budget then c :: takeBytes (budget - c.utf8Size) r else []

def ofUtf8? (bytes : ByteArray) : Option Text := (String.fromUTF8? bytes).map String.toList

/-- The text of code points; one that is no character is replaced. -/
def ofCodes (codes : List Nat) : Text :=
  codes.map fun n => if n.isValidChar then Char.ofNat n else '\uFFFD'

def codes (t : Text) : List Nat := t.map Char.toNat

/-! ### Searching and cutting -/

/-- Does `part` stand somewhere in the text? -/
def hasPart (part : Text) : Text → Bool
  | [] => part.isEmpty
  | c :: r => part.isPrefixOf (c :: r) || hasPart part r

/-- What comes before the first occurrence of `sep` (all of the text when there is none). -/
def beforeChar (sep : Char) (t : Text) : Text := t.takeWhile (· != sep)

/-- The pieces between the occurrences of `sep`, one more than there are occurrences. -/
def splitChar (sep : Char) : Text → List Text
  | [] => [[]]
  | c :: r =>
    if c = sep then [] :: splitChar sep r
    else match splitChar sep r with
      | [] => [[c]]
      | piece :: more => (c :: piece) :: more

/-- The texts in order with `sep` between neighbours. -/
def join (sep : Text) : List Text → Text
  | [] => []
  | [t] => t
  | t :: more => t ++ sep ++ join sep more

/-- Without the run of characters `p` at the end. -/
def dropEndWhile (p : Char → Bool) (t : Text) : Text := (t.reverse.dropWhile p).reverse

/-- Order by code point, as for dictionaries. -/
def precedes (s t : Text) : Bool := decide (s < t)

/-- `s` comes before `t` or is `t`. -/
def atMost (s t : Text) : Bool := !precedes t s

/-! ### Numbers in base ten -/

/-- The decimal digits of a number. -/
def ofNat (n : Nat) : Text := Nat.toDigits 10 n

/-- The decimal digits of an integer, after a minus sign when it is negative. -/
def ofInt : Int → Text
  | .ofNat n => ofNat n
  | .negSucc n => '-' :: ofNat (n + 1)

/-- The value of a row of digit values in a base. -/
def valueOf (base : Nat) (digits : List Nat) : Nat :=
  digits.foldl (fun total d => total * base + d) 0

/-- The value of an ASCII hexadecimal digit. -/
def hexValue? (c : Char) : Option Nat :=
  if '0' ≤ c ∧ c ≤ '9' then some (c.toNat - '0'.toNat)
  else if 'a' ≤ c ∧ c ≤ 'f' then some (c.toNat - 'a'.toNat + 10)
  else if 'A' ≤ c ∧ c ≤ 'F' then some (c.toNat - 'A'.toNat + 10)
  else none

/-- A number in base sixteen, lower case, with at least `width` digits. -/
def ofHex (width n : Nat) : Text :=
  let digits := Nat.toDigits 16 n
  List.replicate (width - digits.length) '0' ++ digits

end Text

end DocLint
