/-
Paths: the slashes in front and the names after them.

Empty names and single points say nothing and are left out, so that two texts of the
same path are one path here.  Two points are kept: where they lead depends on the files.
-/
import DocLint.Text.Basic

namespace DocLint

/-- A path, relative unless it begins with a slash. -/
structure Path where
  /-- How many slashes it begins with; three or more are one, but two are not. -/
  slashes : Nat := 0
  parts : List Text
  deriving Repr, DecidableEq

namespace Path

/-- Does a name between slashes lead anywhere? -/
def isPart (name : Text) : Bool := !name.isEmpty && name != ['.']

/-- The path that a text is written for. -/
def ofText (t : Text) : Path :=
  let leading := (t.takeWhile (· == '/')).length
  ⟨if leading = 2 then 2 else min leading 1, (Text.splitChar '/' t).filter isPart⟩

/-- The text of a path; that of one without parts is a point. -/
def text (p : Path) : Text :=
  match p.slashes, p.parts with
  | 0, [] => ['.']
  | _, _ => List.replicate p.slashes '/' ++ Text.join ['/'] p.parts

/-- Is there a null character in the path? -/
def hasNull (p : Path) : Bool := p.parts.any fun name => name.contains '\x00'

def name (p : Path) : Text := p.parts.getLast?.getD []

/-- The end of a name from its last point on, unless the point is the first or the last of its
characters. -/
def suffixOf (name : Text) : Text :=
  let ending := (name.reverse.takeWhile (· != '.')).reverse
  let length := ending.length + 1
  if ending.isEmpty || name.length ≤ length then [] else name.drop (name.length - length)

/-- The end of the last name. -/
def suffix (p : Path) : Text := suffixOf p.name

def below (p : Path) (parts : List Text) : Path := { p with parts := p.parts ++ parts }

end Path

end DocLint
