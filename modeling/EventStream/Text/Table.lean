import EventStream.Text.Wrap

/-!
Tables drawn with box lines. A column is as wide as its widest line, up to a limit behind which
lines are broken. A cell may hold several lines, and every row is as high as its highest cell.
-/

set_option autoImplicit false

namespace EventStream.Text

structure Table where
  head : List String
  rows : List (List String)

namespace Table

def widest : Nat := 0xFFFF

def cellLines (cell : String) : List (List Char) :=
  Text.split '\n' cell.toList

/-- The lines of a cell, none of which is wider than a column can be. -/
def shownLines (cell : String) : List (List Char) :=
  (cellLines cell).flatMap fun line =>
    if widest < Text.width line then Text.wrap widest line else [line]

def cellWidth (cell : String) : Nat :=
  min widest (((cellLines cell).map Text.width).foldl max 0)

def widths (table : Table) : List Nat :=
  table.rows.foldl (fun ws row => ws.zipWith max (row.map cellWidth)) (table.head.map cellWidth)

def spread (w : Nat) : Nat :=
  min widest (w + 2)

def rule (left stroke cross right : Char) (ws : List Nat) : List Char :=
  let strokes := ws.map fun w => List.replicate (spread w) stroke
  left :: [cross].intercalate strokes ++ [right]

def pad (w : Nat) (line : List Char) : List Char :=
  ' ' :: line ++ List.replicate (w - Text.width line) ' ' ++ [' ']

def rowLines (ws : List Nat) (row : List String) : List (List Char) :=
  let cells := row.map shownLines
  let height := (cells.map List.length).foldl max 0
  (List.range height).map fun i =>
    let parts := ws.zipWith
      (fun w lines => (lines[i]?.map (pad w)).getD (List.replicate (spread w) ' ')) cells
    '│' :: ['┆'].intercalate parts ++ ['│']

def lines (table : Table) : List (List Char) :=
  let ws := table.widths
  let body := table.rows.map (rowLines ws)
  [rule '┌' '─' '┬' '┐' ws] ++ rowLines ws table.head ++ [rule '╞' '═' '╪' '╡' ws] ++
    [rule '├' '╌' '┼' '┤' ws].intercalate body ++ [rule '└' '─' '┴' '┘' ws]

def render (table : Table) : String :=
  String.ofList (['\n'].intercalate table.lines)

end Table

end EventStream.Text
