/-
Tables: columns of cells.
-/
import DocLint.Text.Basic

namespace DocLint

/-- A column: its header and its cells from top to bottom. -/
structure Column where
  header : Text
  cells : List Text
  isCentred : Bool := false
  deriving Repr, DecidableEq

/-- Columns of the same height. -/
structure Table where
  columns : List Column
  deriving Repr, DecidableEq

namespace Table

/-- How many rows there are. -/
def height (t : Table) : Nat := (t.columns.map fun c => c.cells.length).foldl max 0

def row (t : Table) (i : Nat) : List Text := t.columns.map fun c => (c.cells[i]?).getD []

end Table

end DocLint
