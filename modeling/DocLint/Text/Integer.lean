/-
Integers, as people write them in settings and on the command line.

In settings a sign may come first, the digits may be of any script, and single
underscores may separate them; a base other than ten may be named in front of the digits.
In base ten a number of more than 4300 digits is not read: it takes too long.  On the
command line a count has ASCII digits only, and may have a fraction of zeros.
-/
import DocLint.Text.Blank
import DocLint.Text.DecimalDigit

namespace DocLint.Text

/-- The most digits that an integer may have in base ten. -/
def maxDigits : Nat := 4300

/-- Why a text is not read as an integer. -/
inductive IntegerFault where
  | notANumber
  | tooManyDigits (count : Nat)
  deriving Repr, DecidableEq

/-! ### Digits -/

/-- The value of a character as a digit of a base: a decimal digit of any script, or a letter. -/
def digitIn? (base : Nat) (c : Char) : Option Nat :=
  (digitValue? c <|> hexValue? c).filter (· < base)

/-- The digit values of a text of digits in which single underscores may stand between two. -/
def groupedDigits? (base : Nat) : Text → Option (List Nat)
  | [] => none
  | [c] => (digitIn? base c).map ([·])
  | c :: '_' :: r => do
    let d ← digitIn? base c
    return d :: (← groupedDigits? base r)
  | c :: r => do
    let d ← digitIn? base c
    return d :: (← groupedDigits? base r)

/-- How many digits a text begins with, underscores among them aside. -/
def leadingDigits (base : Nat) (t : Text) : Nat :=
  ((t.takeWhile fun c => c == '_' || (digitIn? base c).isSome).filter (· != '_')).length

/-! ### Settings -/

/-- The letter that names a base after a zero. -/
def baseLetter? : Nat → Option Char
  | 2 => some 'b'
  | 8 => some 'o'
  | 16 => some 'x'
  | _ => none

/-- The digits behind the name of their base, if it is given. -/
def dropBase (base : Nat) : Text → Text
  | '0' :: c :: r => if (baseLetter? base).any (· == c.toLower) then r else '0' :: c :: r
  | t => t

/-- A number without a sign. -/
def naturalIn (base : Nat) (t : Text) : Except IntegerFault Nat :=
  let digits := dropBase base t
  let count := leadingDigits base digits
  if base = 10 ∧ maxDigits < count then .error (.tooManyDigits count)
  else match groupedDigits? base digits with
    | some values => .ok (valueOf base values)
    | none => .error .notANumber

/-- The integer that a text stands for in a base, blanks around it aside. -/
def integerIn (base : Nat) (t : Text) : Except IntegerFault Int :=
  match trimNumber t with
  | '-' :: digits => (naturalIn base digits).map fun n => -(n : Int)
  | '+' :: digits => (naturalIn base digits).map fun n => (n : Int)
  | digits => (naturalIn base digits).map fun n => (n : Int)

/-- The integer that the value of a setting stands for. -/
def toInt? (t : Text) : Option Int := (integerIn 10 (trim t)).toOption

/-! ### The command line -/

/-- The digits before a fraction of zeros, or all when there is no point. -/
def dropZeroFraction? (t : Text) : Option Text :=
  match t.span (· != '.') with
  | (whole, []) => some whole
  | (whole, _ :: zeros) => if !zeros.isEmpty && zeros.all (· == '0') then some whole else none

/-- A count that is not zero.  A plus sign and zeros may stand in front, and blanks around it. -/
def count? (t : Text) : Option Nat := do
  let body := match trimNumber t with
    | '+' :: r => r
    | r => r
  let body := if body.head? == some '0' then body.dropWhile fun c => c == '0' || c == '_' else body
  let whole ← dropZeroFraction? body
  if whole.head?.any Char.isDigit && whole.all fun c => c.isDigit || c == '_' then
    (naturalIn 10 whole).toOption
  else none

end DocLint.Text
