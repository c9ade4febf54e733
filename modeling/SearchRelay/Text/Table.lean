/-!
Tables of text in a frame. Every column is as wide as its widest cell, with a blank on either side;
a double line follows the header, and a dashed one stands between two rows.
-/

namespace SearchRelay.Text

inductive Alignment where
  | left
  | right
deriving DecidableEq, Repr

structure Table where
  header : List String
  rows : List (List (String × Alignment))

namespace Table

def widths (table : Table) : List Nat :=
  table.rows.foldl (fun widths row =>
      List.zipWith (fun width cell => max width cell.1.length) widths row)
    (table.header.map String.length)

def fill (width : Nat) (cell : String × Alignment) : String :=
  let blanks := String.ofList (List.replicate (width - cell.1.length) ' ')
  match cell.2 with
  | .left => cell.1 ++ blanks
  | .right => blanks ++ cell.1

def rule (widths : List Nat) (left line cross right : String) : String :=
  let dashes (width : Nat) : String := String.join (List.replicate (width + 2) line)
  left ++ cross.intercalate (widths.map dashes) ++ right

def cells (widths : List Nat) (row : List (String × Alignment)) : String :=
  "│ " ++ " ┆ ".intercalate (List.zipWith fill widths row) ++ " │"

def lines (table : Table) : List String :=
  let widths := table.widths
  let rows := table.rows.map (cells widths)
  [rule widths "┌" "─" "┬" "┐", cells widths (table.header.map (·, Alignment.left)),
    rule widths "╞" "═" "╪" "╡"] ++
    rows.intersperse (rule widths "├" "╌" "┼" "┤") ++ [rule widths "└" "─" "┴" "┘"]

/-- A table, every line with its ending. -/
def text (table : Table) : String := String.join (table.lines.map (· ++ "\n"))

end Table

end SearchRelay.Text
