/-
Tables of text in a frame of lines.

A column is as wide as the widest of its cells and its header, with a space on both
sides.  A cell of several lines makes its row as high.
-/
import DocLint.Report.Table

namespace DocLint

namespace Column

def cellLines (cell : Text) : List Text := Text.splitChar '\n' cell

/-- How wide the widest line is. -/
def width (c : Column) : Nat :=
  ((c.header :: c.cells).flatMap cellLines).foldl (fun widest line => max widest line.length) 0

/-- A line of a cell, filled up with spaces to the width of the column. -/
def pad (c : Column) (line : Text) : Text :=
  let missing := c.width - line.length
  let left := if c.isCentred then missing / 2 else 0
  List.replicate left ' ' ++ line ++ List.replicate (missing - left) ' '

end Column

namespace Table

def frameLine (t : Table) (left line cross right : Char) : Text :=
  [left] ++ Text.join [cross] (t.columns.map fun c => List.replicate (c.width + 2) line) ++ [right]

def textLine (t : Table) (upright : Char) (texts : List Text) : Text :=
  let padded := t.columns.zipWith (fun c text => [' '] ++ c.pad text ++ [' ']) texts
  [upright] ++ Text.join [upright] padded ++ [upright]

def rowLines (t : Table) (upright : Char) (cells : List Text) : List Text :=
  let parts := cells.map Column.cellLines
  let height := parts.foldl (fun highest lines => max highest lines.length) 0
  (List.range height).map fun i =>
    t.textLine upright (parts.map fun lines => (lines[i]?).getD [])

def lines (t : Table) : List Text :=
  [t.frameLine '┏' '━' '┳' '┓'] ++ t.rowLines '┃' (t.columns.map Column.header)
    ++ [t.frameLine '┡' '━' '╇' '┩']
    ++ (List.range t.height).flatMap (fun i => t.rowLines '│' (t.row i))
    ++ [t.frameLine '└' '─' '┴' '┘']

end Table

end DocLint
