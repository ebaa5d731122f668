/-
Slicing: from the byte range of a documentation comment to its lines of text.

The marks go, and so does the indentation that all lines share; nothing else does.
Each style of comment is first brought into one form, a `Body`: the text that shares a
line with the opening of a block, which has no indentation of its own, and the lines
below, whose indentation says how lists nest.  `Body.docLines` then removes the common
indentation.  Lines that hold nothing but an opening or a closing are left out.
-/
import DocLint.Doc.Marker
import DocLint.Doc.Line

namespace DocLint.Doc

/-! ### Marks -/

/-- A line of a comment, and what is left of its text. -/
structure Stripped where
  line : Line
  text : Text
  deriving Repr, DecidableEq

/-- The text of a comment without its marks. -/
structure Body where
  /-- The text on the line of the opening of a block, if there is any. -/
  opening : Option Stripped
  /-- The lines whose indentation counts. -/
  rest : List Stripped
  deriving Repr, DecidableEq

/-- A line of a line comment without its marker. -/
def stripLineMarker (range : ByteRange) (l : Line) : Except RangeError Stripped :=
  let body := Text.trimLeft l.content
  if isLineDoc body then .ok ⟨l, body.drop lineMarker.length⟩
  else .error ⟨range, .notLineComment (l.index + 1)⟩

/-- Every line of a line comment carries the marker. -/
def lineBody (range : ByteRange) (lines : List Line) : Except RangeError Body :=
  (lines.mapM (stripLineMarker range)).map fun stripped => ⟨none, stripped⟩

/-- Take the closing off the last line; blanks may follow it. -/
def closeLast? : List Stripped → Option (List Stripped)
  | [] => none
  | [s] =>
    let body := Text.trimRight s.text
    if blockClose.isSuffixOf body then
      some [{ s with text := body.take (body.length - blockClose.length) }]
    else none
  | s :: more => (closeLast? more).map (s :: ·)

/-- Leave out the last line when there is nothing on it. -/
def dropBlankLast : List Stripped → List Stripped
  | [] => []
  | [s] => if Text.allBlank s.text then [] else [s]
  | s :: more => s :: dropBlankLast more

/-- Does each line that is not blank begin with a star, and is there such a line? -/
def hasGutter (lines : List Stripped) : Bool :=
  let texts := (lines.filter fun s => !Text.allBlank s.text).map fun s => Text.trimLeft s.text
  !texts.isEmpty && texts.all fun t => ['*'].isPrefixOf t && !blockClose.isPrefixOf t

/-- A line of a gutter without its star. -/
def dropStar (s : Stripped) : Stripped :=
  match Text.trimLeft s.text with
  | '*' :: r => { s with text := r }
  | _ => s

/-- The text of a block comment.  The line of the opening and that of the closing are kept when
there is text on them; a comment of a single line always keeps it. -/
def blockBody? (head : Line) (more : List Line) : Option Body := do
  let first : Stripped := ⟨head, (Text.trimLeft head.content).drop blockOpen.length⟩
  match ← closeLast? (first :: more.map fun l => ⟨l, l.content⟩) with
  | [] => none
  | [only] => some ⟨some only, []⟩
  | first :: rest =>
    let kept := dropBlankLast rest
    some ⟨if Text.allBlank first.text then none else some first,
      if hasGutter rest then kept.map dropStar else kept⟩

/-! ### Indentation -/

/-- Put spaces for tabs, from a column on: the next multiple of eight is where a tab leads. -/
def expandTabs (column : Nat) : Text → Text
  | [] => []
  | c :: r =>
    if c = '\t' then
      let gap := 8 - column % 8
      List.replicate gap ' ' ++ expandTabs (column + gap) r
    else c :: expandTabs (column + 1) r

/-- The least indentation of the lines that are not blank. -/
def commonIndent (texts : List Text) : Nat :=
  (((texts.filter fun t => !Text.allBlank t).map Text.indent).min?).getD 0

/-- The lines of a comment without their common indentation. -/
def Body.docLines (b : Body) : List DocLine :=
  let rest := b.rest.map fun s => { s with text := expandTabs 0 s.text }
  let common := commonIndent (rest.map (·.text))
  (b.opening.map fun s => DocLine.ofLine s.line (Text.trim (expandTabs 0 s.text))).toList
    ++ rest.map fun s => DocLine.ofLine s.line (s.text.drop common)

/-! ### Slicing -/

/-- The text of a comment, whichever its style. -/
def bodyOf (range : ByteRange) (head : Line) (more : List Line) : Except RangeError Body :=
  if isLineDoc head.content then lineBody range (head :: more)
  else if blockOpen.isPrefixOf (Text.trimLeft head.content) then
    match blockBody? head more with
    | some body => .ok body
    | none => .error ⟨range, .unclosedBlock⟩
  else .error ⟨range, .noMarker⟩

/-- The lines of the comment that a range covers, in the order of the file. -/
def slice (range : ByteRange) (table : LineTable) : Except RangeError (List DocLine) := do
  match ← table.linesInRange range with
  | [] => .error ⟨range, .empty⟩
  | head :: more => return (← bodyOf range head more).docLines

end DocLint.Doc
