import DslBindings.Text.Width

/-!
# Tables

A table in plain characters: every row of cells between two rules, the cells to the left of their
columns with a blank on either side. A column is as wide as its widest cell.
-/

namespace DslBindings

/-- The rows of a table, the first of which names the columns. -/
structure Table where
  header : List String
  rows : List (List String)
  deriving DecidableEq, Repr, Inhabited

namespace Table

/-- The lines of a cell. -/
def cellLines (cell : String) : List (List Char) := cell.toList.splitOn '\n'

/-- How many columns of a terminal a cell takes. -/
def cellWidth (cell : String) : Nat := ((cellLines cell).map Text.width).foldl max 0

/-- The greater one of each two numbers in the same place. -/
def widest (a b : List Nat) : List Nat := List.zipWith max a b

/-- The widths of the columns. -/
def widths (t : Table) : List Nat :=
  t.rows.foldl (fun ws row => widest ws (row.map cellWidth)) (t.header.map cellWidth)

/-- A line of a cell in a column of this width, with the bar in front of it. -/
def field (width : Nat) (line : List Char) : List Char :=
  '|' :: ' ' :: line ++ List.replicate (width - Text.width line) ' ' ++ [' ']

/-- A line of a row. -/
def line (widths : List Nat) (fields : List (List Char)) : List Char :=
  (List.zipWith field widths fields).flatten ++ ['|']

/-- The lines of a row, as many as its highest cell has. -/
def rowLines (widths : List Nat) (row : List String) : List (List Char) :=
  let cells := row.map cellLines
  let height := (cells.map List.length).foldl max 0
  (List.range height).map fun i => line widths (cells.map fun lines => lines.getD i [])

/-- What stands between two rows. -/
def rule (widths : List Nat) : List Char :=
  widths.flatMap (fun w => '+' :: List.replicate (w + 2) '-') ++ ['+']

/-- The lines of a table. -/
def lines (t : Table) : List (List Char) :=
  let ws := t.widths
  rule ws :: (t.header :: t.rows).flatMap fun row => rowLines ws row ++ [rule ws]

/-- A table as a text. -/
def render (t : Table) : String :=
  String.ofList (t.lines.flatMap (· ++ ['\n']))

end Table

end DslBindings
