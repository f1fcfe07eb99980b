import TabCompletion.Text.Basic
import TabCompletion.Text.Width

/-!
# Tables with rounded corners

A table has a row of headings and rows of cells. A column is as wide as its widest cell; a cell
that is wider than a limit is broken into lines, between any two characters. Headings are centred,
cells start at the left and at the top.
-/

namespace TabCompletion.Text

/-! ## 1. Lines of a cell -/

/-- A cell as it is laid out: its lines, of which there is at least one. -/
abbrev Cell := List (List Char)

/-- The columns of a cell. -/
def Cell.width (c : Cell) : Nat :=
  (c.map lineWidth).foldl max 0

/-- The lines of a text. -/
def cellLines (s : String) : Cell :=
  (splitAll '\n' s).map (·.toList)

/-- Break a line before each character that would exceed the limit. `taken` holds the line so far,
    its last character first, and `width` the columns of its characters. -/
def breakLine (limit : Nat) (taken : List Char) (width : Nat) : List Char → Cell
  | [] => [taken.reverse]
  | c :: cs =>
    if width + charWidth c ≤ limit then breakLine limit (c :: taken) (width + charWidth c) cs
    else taken.reverse :: breakLine limit [c] (charWidth c) cs

/-- The cell of a text. Its lines are broken if one of them exceeds the limit. -/
def cell (limit : Nat) (s : String) : Cell :=
  let lines := cellLines s
  if Cell.width lines ≤ limit then lines else lines.flatMap (breakLine limit [] 0)

/-! ## 2. Layout -/

/-- A table: its headings, and rows with as many texts. -/
structure Table where
  headings : List String
  rows : List (List String)
deriving DecidableEq, Repr, Inhabited

/-- Blanks. -/
def spaces (n : Nat) : String :=
  String.ofList (List.replicate n ' ')

/-- A line between blanks that fill it up to a width. -/
def padRight (width : Nat) (line : List Char) : String :=
  " " ++ String.ofList line ++ spaces (width - lineWidth line) ++ " "

/-- A line in the middle of a width, painted; of an odd number of blanks one more is on the
    right. -/
def padCentre (paint : String → String) (width : Nat) (line : List Char) : String :=
  let rest := width - lineWidth line
  " " ++ spaces (rest / 2) ++ paint (String.ofList line) ++ spaces (rest - rest / 2) ++ " "

/-- The columns of each column of cells. -/
def columnWidths (rows : List (List Cell)) : List Nat :=
  rows.foldl (fun ws row => List.zipWith max ws (row.map Cell.width))
    ((rows.headD []).map Cell.width)

/-- A horizontal rule with its left end, crossings and right end. -/
def rule (left cross right : String) (widths : List Nat) : String :=
  left ++ joinWith cross (widths.map fun w => String.ofList (List.replicate (w + 2) '─')) ++ right

/-- The lines of a row of cells; `pad` fills a line up to a width. -/
def rowLines (pad : Nat → List Char → String) (widths : List Nat) (row : List Cell) :
    List String :=
  let height := (row.map List.length).foldl max 1
  (List.range height).map fun i =>
    "│" ++ joinWith "│" (List.zipWith (fun w c => pad w (c.getD i [])) widths row) ++ "│"

/-- The text of a table, with cells of at most `limit` columns and painted headings. -/
def Table.text (limit : Nat) (paint : String → String) (t : Table) : String :=
  let head := t.headings.map (cell limit)
  let rows := t.rows.map (·.map (cell limit))
  let widths := columnWidths (head :: rows)
  joinWith "\n" ([rule "╭" "┬" "╮" widths] ++ rowLines (padCentre paint) widths head
    ++ [rule "├" "┼" "┤" widths] ++ rows.flatMap (rowLines padRight widths)
    ++ [rule "╰" "┴" "╯" widths])

end TabCompletion.Text
