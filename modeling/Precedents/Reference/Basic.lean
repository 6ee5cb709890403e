import Precedents.Number.Numeral

/-!
# References

A reference points at one cell or at a rectangular range of cells, on a sheet
that may still be open.  Rows and columns are counted from one.  The corners of
a range are kept as they were given, so a range may be upside down and then
holds no cell.
-/

namespace Precedents

namespace Grid

def rows : Int := 1048576

def columns : Int := 16384

def hasRow (row : Int) : Bool :=
  1 ≤ row && row ≤ rows

def hasColumn (col : Int) : Bool :=
  1 ≤ col && col ≤ columns

theorem isWritable_of_hasRow {row : Int} (h : hasRow row = true) :
    Numeral.IsWritable row := by
  rcases Bool.and_eq_true_iff.mp h with ⟨hfirst, hlast⟩
  have hrow : 1 ≤ row ∧ row ≤ 1048576 := ⟨of_decide_eq_true hfirst, of_decide_eq_true hlast⟩
  have habs : row.natAbs ≤ 1048576 := by omega
  exact Numeral.isWritable_of_ble (Nat.ble_eq_true_of_le habs)

end Grid

structure Cell where
  row : Int
  col : Int
  sheet : Option String := none
deriving DecidableEq, Repr

structure Range where
  firstRow : Int
  firstCol : Int
  lastRow : Int
  lastCol : Int
  sheet : Option String := none
deriving DecidableEq, Repr

inductive Reference
  | cell (cell : Cell)
  | range (range : Range)
deriving DecidableEq, Repr

/-- Where a formula stands.  Its row can be written, as every event about the formula does. -/
structure Position where
  row : Int
  col : Int
  sheet : String
  writable : Numeral.IsWritable row := by exact Numeral.isWritable_of_ble rfl
deriving DecidableEq, Repr

namespace Cell

/-- The cell on the sheet `default`, unless it has a sheet already. -/
def withSheet (cell : Cell) (default : Option String) : Cell :=
  { cell with sheet := cell.sheet.or default }

end Cell

namespace Range

/-- The smallest range that holds two corners, each a row and a column. -/
def ofCorners (a b : Int × Int) (sheet : Option String) : Range where
  firstRow := min a.1 b.1
  firstCol := min a.2 b.2
  lastRow := max a.1 b.1
  lastCol := max a.2 b.2
  sheet := sheet

def rows (range : Range) : Int :=
  range.lastRow - range.firstRow + 1

def cols (range : Range) : Int :=
  range.lastCol - range.firstCol + 1

def isSingleColumn (range : Range) : Bool :=
  range.firstCol == range.lastCol

def isSingleRow (range : Range) : Bool :=
  range.firstRow == range.lastRow

/-- The range holds the cell; open sheets agree only with open sheets. -/
def contains (range : Range) (cell : Cell) : Bool :=
  cell.sheet == range.sheet
    && (range.firstRow ≤ cell.row && cell.row ≤ range.lastRow)
    && (range.firstCol ≤ cell.col && cell.col ≤ range.lastCol)

/-- The two ranges have the same corners, on whatever sheets. -/
def sameBounds (a b : Range) : Bool :=
  a.firstRow == b.firstRow && a.firstCol == b.firstCol
    && a.lastRow == b.lastRow && a.lastCol == b.lastCol

def topLeft (range : Range) : Cell :=
  ⟨range.firstRow, range.firstCol, range.sheet⟩

def withSheet (range : Range) (default : Option String) : Range :=
  { range with sheet := range.sheet.or default }

end Range

namespace Reference

def sheet : Reference -> Option String
  | .cell c => c.sheet
  | .range r => r.sheet

def withSheet (ref : Reference) (default : Option String) : Reference :=
  match ref with
  | .cell c => .cell (c.withSheet default)
  | .range r => .range (r.withSheet default)

def shape : Reference -> Int × Int
  | .cell _ => (1, 1)
  | .range r => (r.rows, r.cols)

end Reference
end Precedents
