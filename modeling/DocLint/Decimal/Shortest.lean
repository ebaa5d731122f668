/-
The shortest decimal that identifies a binary number.

A finite binary64 number is `m * 2^q`.  The reals that round to it form an interval
from halfway to the neighbour below to halfway to the neighbour above, ends included
when `m` is even.  Of the decimals in that interval the shortest is chosen, and of two
equally short ones the closer.  All arithmetic is exact, on naturals.
-/
namespace DocLint.Decimal

/-- A finite binary number without its sign, `mantissa * 2^exponent`. -/
structure Binary where
  mantissa : Nat
  exponent : Int
  /-- The gap to the number below is half as wide as the gap to the number above. -/
  narrowBelow : Bool

/-- The value of the bits of a number that is neither infinite nor undefined. -/
def Binary.ofBits (bits : UInt64) : Binary :=
  let field := ((bits >>> 52) &&& 0x7FF).toNat
  let fraction := (bits &&& 0xFFFFFFFFFFFFF).toNat
  if field = 0 then ⟨fraction, -1074, false⟩
  else ⟨Nat.pow 2 52 + fraction, (field : Int) - 1075, fraction = 0 && 1 < field⟩

/-- The integer that a binary number is equal to, if there is one. -/
def Binary.toNat? (x : Binary) : Option Nat :=
  if 0 ≤ x.exponent then some (x.mantissa * Nat.pow 2 x.exponent.toNat)
  else
    let unit := Nat.pow 2 x.exponent.natAbs
    if x.mantissa % unit = 0 then some (x.mantissa / unit) else none

/-- A decimal number, `digits * 10^exponent`. -/
structure Scaled where
  digits : Nat
  exponent : Int
  deriving Repr, DecidableEq

/-- Compare `a * 10^i` with `b * 2^j`, exactly. -/
def compareScaled (a : Nat) (i : Int) (b : Nat) (j : Int) : Ordering :=
  compare (a * Nat.pow 10 i.toNat * Nat.pow 2 (-j).toNat)
    (b * Nat.pow 2 j.toNat * Nat.pow 10 (-i).toNat)

/-- Does the decimal lie among the reals that round to the binary number? -/
def Binary.readsBack (x : Binary) (d : Scaled) : Bool :=
  let low := if x.narrowBelow then 4 * x.mantissa - 1 else 4 * x.mantissa - 2
  let high := 4 * x.mantissa + 2
  let closed := x.mantissa % 2 == 0
  let above := compareScaled d.digits d.exponent low (x.exponent - 2)
  let below := compareScaled d.digits d.exponent high (x.exponent - 2)
  (above == .gt || (closed && above == .eq)) && (below == .lt || (closed && below == .eq))

/-- The greatest multiple of `10^place` that is not above the number, counted in that unit. -/
def Binary.floorAt (x : Binary) (place : Int) : Nat :=
  (x.mantissa * Nat.pow 2 x.exponent.toNat * Nat.pow 10 (-place).toNat)
    / (Nat.pow 2 (-x.exponent).toNat * Nat.pow 10 place.toNat)

/-- The better of the two neighbours of the number among the multiples of `10^place`, if one
of them reads back: the closer one, and the even one of two that are equally close. -/
def Binary.atPlace? (x : Binary) (place : Int) : Option Scaled :=
  let n := x.floorAt place
  let down : Scaled := ⟨n, place⟩
  let up : Scaled := ⟨n + 1, place⟩
  match x.readsBack down, x.readsBack up with
  | true, false => some down
  | false, true => some up
  | false, false => none
  | true, true =>
    match compareScaled (2 * n + 1) place (2 * x.mantissa) x.exponent with
    | .gt => some down
    | .lt => some up
    | .eq => some (if n % 2 = 0 then down else up)

/-- The number of decimal digits before the point, for a number that is not zero: the least
`k` with the number below `10^k`. -/
def Binary.magnitude (x : Binary) : Int :=
  let start : Int := ((x.mantissa.log2 : Int) + x.exponent) * 30103 / 100000
  let candidates := [start - 1, start, start + 1, start + 2]
  (candidates.find? fun k => compareScaled 1 k x.mantissa x.exponent == .gt).getD (start + 3)

/-- Move zeros at the end of the digits into the exponent. -/
def stripZeros : Nat → Scaled → Scaled
  | 0, d => d
  | fuel + 1, d =>
    if d.digits ≠ 0 ∧ d.digits % 10 = 0 then stripZeros fuel ⟨d.digits / 10, d.exponent + 1⟩
    else d

/-- The shortest decimal of a number that is not zero.  Seventeen digits are enough for each. -/
def Binary.shortest (x : Binary) : Scaled :=
  let places := (List.range 17).map fun (n : Nat) => x.magnitude - ((n : Int) + 1)
  stripZeros 20 ((places.findSome? x.atPlace?).getD ⟨x.floorAt (x.magnitude - 17), x.magnitude - 17⟩)

end DocLint.Decimal
