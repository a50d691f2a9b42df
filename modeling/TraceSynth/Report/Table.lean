import TraceSynth.Text.Grapheme

/-!
# Aligned text tables

Rows of cells printed as columns: every cell but the last of its row is padded with spaces to
the display width of the widest cell of its column and followed by two spaces; the last cell is
written as it is. Rows may have different lengths, and an optional header is the first row.

A table is produced as its lines, each ending in a newline, since a writer receives them one at
a time.
-/

namespace TraceSynth

namespace Table

/-- The display width of a cell. -/
def cellWidth (s : String) : Nat := Unicode.textWidth (s.toList.map Char.toNat)

/-- Raise the column widths to cover a row. -/
def widen : List Nat → List String → List Nat
  | ws, [] => ws
  | [], c :: cs => cellWidth c :: widen [] cs
  | w :: ws, c :: cs => max w (cellWidth c) :: widen ws cs

/-- The column widths of rows. -/
def widths (rows : List (List String)) : List Nat := rows.foldl widen []

/-- A cell padded with spaces to a display width. -/
def fillRight (s : String) (w : Nat) : String :=
  s ++ String.ofList (List.replicate (w - cellWidth s) ' ')

/-- The text of a row under the column widths. -/
def rowText : List Nat → List String → String
  | _, [] => ""
  | _, [c] => c
  | ws, c :: cs => fillRight c (ws.headD 0) ++ "  " ++ rowText ws.tail cs

/-- The lines of a table, each with its newline; the header, when present, comes first. -/
def lines (header : Option (List String)) (rows : List (List String)) : List String :=
  let all := match header with
    | some h => h :: rows
    | none => rows
  let ws := widths all
  all.map fun r => rowText ws r ++ "\n"

end Table

end TraceSynth
