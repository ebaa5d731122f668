/-
Attachment: which comment documents the declaration below it.

The lines above a declaration are looked at from the nearest one up.  Attributes on
lines of their own are passed over, also those whose arguments take several lines.  The
next line decides: a documentation line belongs to a run of such lines, and a line at
whose end a block comment closes belongs to the block that opens on it or on the
nearest line above with an opening.
-/
import DocLint.Doc.Marker
import DocLint.Source.LineTable

namespace DocLint.Swift

/-- A line of a file, and its content in the mask. -/
structure MaskedLine where
  line : Line
  masked : Text
  deriving Repr, DecidableEq

/-- The lines of a file beside those of its mask. -/
def maskedLines (table : LineTable) (masked : Text) : List MaskedLine :=
  table.lines.zipWith (fun line m => ⟨line, m.content⟩) (LineTable.ofText masked).lines

/-- How many more parentheses are closed on the line than opened. -/
def MaskedLine.surplus (l : MaskedLine) : Int :=
  (l.masked.count ')' : Int) - l.masked.count '('

/-- The lines above an attribute that ends on the first of the given lines, nearest first, when
`balance` parentheses are to be opened yet. -/
def aboveAttribute? (balance : Int) : List MaskedLine → Option (List MaskedLine)
  | [] => none
  | l :: above =>
    if balance + l.surplus ≤ 0 then
      if ['@'].isPrefixOf (Text.trimLeft l.masked) then some above else none
    else aboveAttribute? (balance + l.surplus) above

/-- An attribute takes one line at least. -/
theorem length_aboveAttribute?_lt {balance : Int} {lines above : List MaskedLine}
    (h : aboveAttribute? balance lines = some above) : above.length < lines.length := by
  fun_induction aboveAttribute? balance lines with
  | case1 => simp at h
  | case2 balance l above' _ _ => simp_all
  | case3 => simp at h
  | case4 balance l above' _ ih => have := ih h; simp; omega

/-- The lines without the attributes at their beginning, nearest first. -/
def dropAttributes (lines : List MaskedLine) : List MaskedLine :=
  match _found : aboveAttribute? 0 lines with
  | some above => dropAttributes above
  | none => lines
termination_by lines.length
decreasing_by exact length_aboveAttribute?_lt _found

/-- The range from the first text of a line to the end of the content of another. -/
def rangeOfLines (first last : Line) : ByteRange :=
  ⟨first.textOffset, (last.contentEnd : Int) - first.textOffset⟩

/-- The range of the run of documentation lines that ends on a line. -/
def lineDocRange (last : Line) (above : List MaskedLine) : ByteRange :=
  let run := (above.map MaskedLine.line).takeWhile fun l => Doc.isLineDoc l.content
  rangeOfLines (run.getLast?.getD last) last

/-- The range of the documentation block that closes on a line. -/
def blockDocRange? (last : Line) (above : List MaskedLine) : Option ByteRange := do
  let first ← (last :: above.map MaskedLine.line).find? fun l =>
    Text.hasPart Doc.commentOpen l.content
  let body := Text.trimLeft first.content
  if Doc.blockOpen.isPrefixOf body && !(Doc.blockOpen ++ ['/']).isPrefixOf body then
    some (rangeOfLines first last)
  else none

/-- The range of the comment that documents a declaration below the given lines, nearest
first. -/
def docRange? (above : List MaskedLine) : Option ByteRange :=
  match dropAttributes above with
  | [] => none
  | l :: more =>
    if Doc.isLineDoc l.line.content then some (lineDocRange l.line more)
    else if Doc.blockClose.isSuffixOf (Text.trim l.line.content) then blockDocRange? l.line more
    else none

end DocLint.Swift
