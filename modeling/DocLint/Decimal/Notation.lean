/-
How a number with a fraction is written and read.

Written, it has the fewest digits that identify it: positionally when its first digit
stands between the fourth place after the point and the sixteenth before it, with a
signed exponent of at least two digits otherwise, and always with a point or an
exponent, so that it is never taken for an integer.  Read, it is the nearest binary
number to the decimal.
-/
import DocLint.Text.Blank
import DocLint.Text.DecimalDigit
import DocLint.Decimal.Shortest

namespace DocLint.Decimal

/-- The exponents of the first digit for which a number is written without exponent. -/
def positionalFrom : Int := -4

def positionalBelow : Int := 16

/-- Digits with the point `before` digits after their beginning. -/
def placePoint (digits : Text) (before : Int) : Text :=
  if before ≤ 0 then "0.".toList ++ List.replicate before.natAbs '0' ++ digits
  else
    let n := before.toNat
    let whole := digits.take n ++ List.replicate (n - digits.length) '0'
    match digits.drop n with
    | [] => whole ++ ".0".toList
    | fraction => whole ++ ['.'] ++ fraction

/-- One digit, a point when there are more, and the exponent with its sign. -/
def withExponent (digits : Text) (exponent : Int) : Text :=
  let sign := if exponent < 0 then '-' else '+'
  let size := Text.ofNat exponent.natAbs
  let fraction := match digits.drop 1 with
    | [] => []
    | more => '.' :: more
  digits.take 1 ++ fraction ++ ['e', sign]
    ++ List.replicate (2 - size.length) '0' ++ size

/-- The text of a decimal that is not zero. -/
def Scaled.text (d : Scaled) : Text :=
  let digits := Text.ofNat d.digits
  let leading := d.exponent + digits.length - 1
  if positionalFrom ≤ leading ∧ leading < positionalBelow then placePoint digits (leading + 1)
  else withExponent digits leading

/-- The text of a number. -/
def text (x : Float) : Text :=
  if x.isNaN then "nan".toList
  else
    let sign : Text := if x.toBits >>> 63 == 1 then ['-'] else []
    let size :=
      if x.isInf then "inf".toList
      else
        let b := Binary.ofBits (x.toBits &&& 0x7FFFFFFFFFFFFFFF)
        if b.mantissa = 0 then "0.0".toList else b.shortest.text
    sign ++ size

/-- The integer that a number is equal to, if there is one. -/
def toInt? (x : Float) : Option Int :=
  if x.isNaN || x.isInf then none
  else
    let size := (Binary.ofBits (x.toBits &&& 0x7FFFFFFFFFFFFFFF)).toNat?
    size.map fun n => if x.toBits >>> 63 == 1 then -(n : Int) else n

/-- The number nearest to `digits * 10^exponent`.  Beyond the exponents that the format can
hold the answer is infinite or zero, and no power of ten is computed. -/
def nearest (negative : Bool) (digits : Nat) (exponent : Int) : Float :=
  let leading := exponent + (Text.ofNat digits).length
  let size : Float :=
    if digits = 0 ∨ leading < -400 then 0.0
    else if 400 < leading then Float.ofBits 0x7FF0000000000000
    else Float.ofScientific digits (exponent < 0) exponent.natAbs
  if negative then -size else size

/-! ### Reading -/

def infinity : Float := Float.ofBits 0x7FF0000000000000

/-- The digits at the front of a text, of any script, and what follows them. -/
def leadingDigits (t : Text) : List Nat × Text :=
  let isDigit := fun c => (Text.digitValue? c).isSome
  ((t.takeWhile isDigit).filterMap Text.digitValue?, t.dropWhile isDigit)

/-- The sign at the front of a text, and what follows it. -/
def leadingSign : Text → Bool × Text
  | '-' :: r => (true, r)
  | '+' :: r => (false, r)
  | t => (false, t)

/-- The exponent that ends a number; none at all stands for zero. -/
def exponent? : Text → Option Int
  | [] => some 0
  | e :: r =>
    let (isNegative, body) := leadingSign r
    match leadingDigits body with
    | (d :: more, []) =>
      let size := Text.valueOf 10 (d :: more)
      if e = 'e' ∨ e = 'E' then some (if isNegative then -(size : Int) else size) else none
    | _ => none

/-- The number of a text without sign: digits with or without point and exponent. -/
def unsigned? (isNegative : Bool) (t : Text) : Option Float :=
  let (whole, r) := leadingDigits t
  let (fraction, r) := match r with
    | '.' :: r => leadingDigits r
    | _ => ([], r)
  if whole.isEmpty && fraction.isEmpty then none
  else (exponent? r).map fun exponent =>
    nearest isNegative (Text.valueOf 10 (whole ++ fraction)) (exponent - fraction.length)

/-- The number that a text stands for, blanks around it aside.  Words for what no digits can say
are read in any case. -/
def ofText? (t : Text) : Option Float :=
  let (isNegative, body) := leadingSign (Text.trimNumber t)
  let word := body.map Char.toLower
  if word = "inf".toList ∨ word = "infinity".toList then
    some (if isNegative then -infinity else infinity)
  else if word = "nan".toList then some (0.0 / 0.0)
  else unsigned? isNegative body

end DocLint.Decimal
