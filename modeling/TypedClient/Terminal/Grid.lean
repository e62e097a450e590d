import TypedClient.Text.Width

/-! Tables of text for a terminal, between rules. -/

namespace TypedClient

open Text

structure Cell where
  text : Text
  isRight : Bool
  deriving DecidableEq, Repr

namespace Cell

def left (text : Text) : Cell := ⟨text, false⟩

def right (text : Text) : Cell := ⟨text, true⟩

def lines (cell : Cell) : List Text := cell.text.splitOn '\n'

/-- The columns that the widest line takes. -/
def columns (cell : Cell) : Nat := (cell.lines.map width).foldl max 0

/-- A line filled up to a number of columns, with a space on both sides; below the last line it is
blank. -/
def renderLine (cell : Cell) (index columns : Nat) : Text :=
  let line := cell.lines.getD index []
  let fill : Text := List.replicate (columns - width line) ' '
  ' ' :: (if cell.isRight then fill ++ line else line ++ fill) ++ [' ']

end Cell

structure Grid where
  header : List Text
  rows : List (List Cell)
  deriving DecidableEq, Repr

namespace Grid

def allRows (grid : Grid) : List (List Cell) := grid.header.map Cell.left :: grid.rows

/-- The columns that the widest cell at an index takes. -/
def columnWidth (grid : Grid) (index : Nat) : Nat :=
  (grid.allRows.filterMap fun row => row[index]?.map Cell.columns).foldl max 0

def columnWidths (grid : Grid) : List Nat :=
  (List.range grid.header.length).map grid.columnWidth

def ruleOf (columns : Nat) : Text := List.replicate (columns + 2) '─'

def rule (grid : Grid) : Text := join " " (grid.columnWidths.map ruleOf)

/-- The rule under the header has no gaps. -/
def headerRule (grid : Grid) : Text := join "─" (grid.columnWidths.map ruleOf)

def renderLine (grid : Grid) (row : List Cell) (index : Nat) : Text :=
  join " " (List.zipWith (fun cell columns => cell.renderLine index columns) row grid.columnWidths)

/-- As many lines as the highest cell has. -/
def renderRow (grid : Grid) (row : List Cell) : List Text :=
  (List.range ((row.map fun cell => cell.lines.length).foldl max 0)).map (grid.renderLine row)

def lines (grid : Grid) : List Text :=
  grid.rule :: grid.renderRow (grid.header.map Cell.left) ++ [grid.headerRule] ++
    grid.rows.flatMap grid.renderRow ++ [grid.rule]

def render (grid : Grid) : Text := join "\n" grid.lines

end Grid

end TypedClient
