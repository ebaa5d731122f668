/-
The marks that make a comment a documentation comment.

A line comment documents when it begins with three slashes and not with four, which
would be a ruler.  A block comment documents when it opens with a slash and two stars.
-/
import DocLint.Text.Blank

namespace DocLint.Doc

/-- What a documentation line begins with. -/
def lineMarker : Text := ['/', '/', '/']

def blockOpen : Text := ['/', '*', '*']

def commentOpen : Text := ['/', '*']

def blockClose : Text := ['*', '/']

/-- Is the line a documentation line?  Blanks may stand before the marker. -/
def isLineDoc (t : Text) : Bool :=
  let body := Text.trimLeft t
  lineMarker.isPrefixOf body && !(lineMarker ++ ['/']).isPrefixOf body

end DocLint.Doc
