import DocComment.Text.Width

/-!
Tables drawn with box characters. A cell may have several lines. Each column is as wide as
its widest line, with a blank on both sides, and cells stand at the left and at the top.
-/

namespace DocComment.Report

open Text

abbrev Cell := List (List Char)

structure Table where
  header : List Cell
  rows : List (List Cell)
  deriving Repr

/-- The corners and joints of a horizontal rule, and what fills it. -/
structure Rule where
  left : Char
  joint : Char
  right : Char
  fill : Char
  deriving DecidableEq, Repr

namespace Table

def topRule : Rule := ⟨'┏', '┳', '┓', '━'⟩
def headRule : Rule := ⟨'┡', '╇', '┩', '━'⟩
def footRule : Rule := ⟨'└', '┴', '┘', '─'⟩

def cellWidth (cell : Cell) : Nat := (cell.map width).foldl max 0

def height (row : List Cell) : Nat := (row.map List.length).foldl max 0

def columns (t : Table) : List Nat :=
  t.rows.foldl (fun ws row => List.zipWith max ws (row.map cellWidth)) (t.header.map cellWidth)

def between (left joint right : Char) (parts : List (List Char)) : List Char :=
  left :: [joint].intercalate parts ++ [right]

def ruleLine (rule : Rule) (columns : List Nat) : List Char :=
  between rule.left rule.joint rule.right
    (columns.map fun w => List.replicate (w + 2) rule.fill)

def cellLine (columns : Nat) (line : List Char) : List Char := ' ' :: padTo columns line ++ [' ']

def rowLines (bar : Char) (columns : List Nat) (row : List Cell) : List (List Char) :=
  (List.range (height row)).map fun i =>
    between bar bar bar (List.zipWith (fun w cell => cellLine w (cell.getD i [])) columns row)

/-- The lines of a table, its header between heavy rules. -/
def lines (t : Table) : List (List Char) :=
  let columns := t.columns
  [ruleLine topRule columns] ++ rowLines '┃' columns t.header ++ [ruleLine headRule columns] ++
    t.rows.flatMap (rowLines '│' columns) ++ [ruleLine footRule columns]

end Table

end DocComment.Report
