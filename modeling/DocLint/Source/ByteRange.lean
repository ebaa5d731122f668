/-
Byte ranges of a file, and the ways in which one can fail to be a comment.

A range is asked about before it is known to make sense, so both of its numbers may
be any integers.  `RangeError` says what is wrong with a range, one constructor for
each thing that can be; the wording is in `Reason.message`.
-/
import DocLint.Text.Basic

namespace DocLint

/-- The bytes from `location` up to, not including, `location + length`. -/
structure ByteRange where
  location : Int
  length : Int
  deriving Repr, DecidableEq

namespace ByteRange

def stop (r : ByteRange) : Int := r.location + r.length

end ByteRange

/-- Why a range does not hold whole comment lines. -/
inductive RangeError.Reason where
  | empty
  | outsideFile (size : Nat)
  | startsInsideLine
  | endsInsideLine
  | notLineComment (lineNumber : Nat)
  | unclosedBlock
  | noMarker
  deriving Repr, DecidableEq

/-- A range that was refused, and why. -/
structure RangeError where
  range : ByteRange
  reason : RangeError.Reason
  deriving Repr, DecidableEq

namespace RangeError

def Reason.message : Reason → Text
  | .empty => "empty range".toList
  | .outsideFile size => "outside of file (size ".toList ++ Text.ofNat size ++ ")".toList
  | .startsInsideLine => "range starts in the middle of a line".toList
  | .endsInsideLine => "range ends in the middle of a line".toList
  | .notLineComment n => "line ".toList ++ Text.ofNat n ++ " is not a '///' comment".toList
  | .unclosedBlock => "block comment is not closed".toList
  | .noMarker => "range does not start with a doc comment marker".toList

/-- The full message names the range as a half-open interval. -/
def message (e : RangeError) : Text :=
  "Malformed doc range [".toList ++ Text.ofInt e.range.location ++ ", ".toList
    ++ Text.ofInt e.range.stop ++ "): ".toList ++ e.reason.message

end RangeError

end DocLint
