import Precedents.Reference.Basic
import Precedents.Reference.Column
import Precedents.Reference.Sheet

/-!
# The text of a reference

Columns are letters and rows are digits.  A range over all rows is written with
its columns alone, a range over all columns with its rows alone.
-/

namespace Precedents

def address (row col : Int) : String :=
  Column.letters col ++ toString row

namespace Position

def address (position : Position) : String :=
  Precedents.address position.row position.col

end Position

namespace Range

def body (range : Range) : String :=
  if range.firstRow = 1 ∧ range.lastRow = Grid.rows then
    Column.letters range.firstCol ++ ":" ++ Column.letters range.lastCol
  else if range.firstCol = 1 ∧ range.lastCol = Grid.columns then
    toString range.firstRow ++ ":" ++ toString range.lastRow
  else
    address range.firstRow range.firstCol ++ ":" ++ address range.lastRow range.lastCol

end Range

namespace Reference

def body : Reference -> String
  | .cell c => address c.row c.col
  | .range r => r.body

/-- The qualifier of a sheet; the empty name has none. -/
def qualifier : Option String -> String
  | none => ""
  | some name => if name = "" then "" else Sheet.quote name ++ "!"

def text (ref : Reference) : String :=
  qualifier ref.sheet ++ ref.body

end Reference
end Precedents
