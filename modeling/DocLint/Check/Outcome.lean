/-
What the check of a comment can find.

A comment is in order, or it has a defect and a place where the defect shows.
-/
import DocLint.Doc.ParameterList

namespace DocLint

/-- What is wrong with the structure of a comment. -/
inductive Defect where
  | noParametersSection
  | noSummary
  | longSummary (lines limit : Nat)
  | malformedList (error : Doc.ListError)
  | emptyList
  | wrongCount (documented actual : Nat)
  | misnamed (expected found : Text)
  deriving Repr, DecidableEq

def Defect.message : Defect → Text
  | .noParametersSection => "Doc comment has no parameters section".toList
  | .noSummary => "Doc comment has no summary".toList
  | .longSummary lines limit =>
    "Summary has ".toList ++ Text.ofNat lines ++ " lines, at most ".toList ++ Text.ofNat limit
      ++ " allowed".toList
  | .malformedList error => "Malformed parameters section: ".toList ++ error.fault.message
  | .emptyList => "Parameters section lists no parameters".toList
  | .wrongCount documented actual =>
    "Documents ".toList ++ Text.ofNat documented ++ " parameters, function has ".toList
      ++ Text.ofNat actual
  | .misnamed expected found =>
    "Expected parameter '".toList ++ expected ++ "', found '".toList ++ found ++ "'".toList

/-- The verdict on a comment. -/
inductive Outcome where
  | valid
  | invalid (offset : Int) (defect : Defect)
  deriving Repr, DecidableEq

namespace Outcome

def isValid : Outcome → Bool
  | valid => true
  | invalid _ _ => false

/-- Where the defect shows. -/
def offset? : Outcome → Option Int
  | valid => none
  | invalid offset _ => some offset

/-- What the defect is, in words. -/
def reason? : Outcome → Option Text
  | valid => none
  | invalid _ defect => some defect.message

end Outcome

end DocLint
