/-
The two sections of a documentation comment: a summary, then the parameters.

They part at the first line that is blank or is the header of a list of parameters.
A blank line belongs to neither section; a header begins the second one.
-/
import DocLint.Doc.Line

namespace DocLint.Doc

/-- The header of a nested list of parameters. -/
def parametersHeader : Text := "- Parameters:".toList

/-- Does the line end the summary? -/
def isBoundary (l : DocLine) : Bool :=
  l.isBlank || Text.trim l.content == parametersHeader

/-- The parts of a comment, in order. -/
structure Sections where
  /-- The lines before the boundary; there are none when the comment begins with it. -/
  summary : List DocLine
  /-- The blank line between the sections, unless a header parts them. -/
  separator : Option DocLine
  parameters : List DocLine
  deriving Repr, DecidableEq

/-- The summary, if the comment has one. -/
def Sections.summary? (s : Sections) : Option (List DocLine) :=
  if s.summary.isEmpty then none else some s.summary

/-- The comment has no boundary. -/
structure NoBoundary where
  lineCount : Nat
  deriving Repr, DecidableEq

def NoBoundary.message (e : NoBoundary) : Text :=
  "No blank line or '".toList ++ parametersHeader ++ "' header in ".toList
    ++ Text.ofNat e.lineCount ++ " line(s)".toList

/-- Part the lines of a comment at the first boundary. -/
def Sections.ofLines (lines : List DocLine) : Except NoBoundary Sections :=
  let summary := lines.takeWhile fun l => !isBoundary l
  match lines.dropWhile fun l => !isBoundary l with
  | [] => .error ⟨lines.length⟩
  | boundary :: rest =>
    if boundary.isBlank then .ok ⟨summary, some boundary, rest⟩
    else .ok ⟨summary, none, boundary :: rest⟩

end DocLint.Doc
