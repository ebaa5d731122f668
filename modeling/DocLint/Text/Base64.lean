/-
Bytes written in letters: base 64.

Four letters stand for three bytes, and equals signs fill up the last four.  All other
characters are passed over.  What follows the fill is not read, and a last group without
it is refused.
-/
import DocLint.Text.Basic

namespace DocLint.Text

/-- The value of a letter of the alphabet. -/
def base64Value? (c : Char) : Option Nat :=
  if c.isUpper then some (c.toNat - 'A'.toNat)
  else if c.isLower then some (c.toNat - 'a'.toNat + 26)
  else if c.isDigit then some (c.toNat - '0'.toNat + 52)
  else if c = '+' then some 62
  else if c = '/' then some 63
  else none

/-- Reads on within a group: `count` letters of it have been read, `bits` are those of them that
make no byte yet, and `pads` signs of its fill. -/
def base64From (count bits pads : Nat) : Text → Option (List UInt8)
  | [] => if count = 0 then some [] else none
  | c :: r =>
    if c = '=' ∧ 2 ≤ count then
      if 4 ≤ count + pads + 1 then some [] else base64From count bits (pads + 1) r
    else match base64Value? c with
      | none => base64From count bits pads r
      | some value =>
        let total := bits * 64 + value
        match count with
        | 0 => base64From 1 total 0 r
        | 1 => (base64From 2 (total % 16) 0 r).map ((total / 16).toUInt8 :: ·)
        | 2 => (base64From 3 (total % 4) 0 r).map ((total / 4).toUInt8 :: ·)
        | _ => (base64From 0 0 0 r).map (total.toUInt8 :: ·)

/-- The bytes that a text stands for. -/
def base64? (t : Text) : Option (List UInt8) := base64From 0 0 0 t

end DocLint.Text
