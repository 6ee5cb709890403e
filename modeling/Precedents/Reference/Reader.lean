import Precedents.Reference.Basic
import Precedents.Reference.Column
import Precedents.Reference.Sheet

/-!
# Reading references

A cell is one to three letters and a run of digits, each part with an optional
`$` in front; two cells, two columns or two rows joined by `:` are a range.
-/

namespace Precedents

open Text

namespace Shape

def dollar : Scanner :=
  Scanner.maybe (Scanner.char '$')

def column : Scanner :=
  dollar >=> Scanner.oneTo isPlainLetter 2

def row : Scanner :=
  dollar >=> Scanner.many1 isPlainDigit

def cell : Scanner :=
  column >=> row

end Shape

namespace Cell

def columnPart (cs : List Char) : List Char :=
  cs.filter isPlainLetter

def rowPart (cs : List Char) : List Char :=
  cs.filter isPlainDigit

def readAddress (text : String) : Except ReferenceError (Int × Int) :=
  let cs := trim text.toList
  if Shape.cell.readsAll cs then
    match Numeral.ofPlainDigits (rowPart cs) with
    | .error error => .error (.numeral error)
    | .ok row =>
        let col := Column.index (String.ofList (columnPart cs))
        if Grid.hasRow row && Grid.hasColumn col then .ok (row, col)
        else .error (.cellOffGrid text)
  else .error (.invalidCell text)

theorem isWritable_of_readAddress {text : String} {place : Int × Int}
    (h : readAddress text = .ok place) : Numeral.IsWritable place.1 := by
  unfold readAddress at h
  simp only at h
  split at h
  · split at h
    · cases h
    · split at h
      · rename_i hgrid
        cases h
        rw [Bool.and_eq_true] at hgrid
        exact Grid.isWritable_of_hasRow hgrid.left
      · cases h
  · cases h

end Cell

namespace Range

def ofColumns (first last : String) (sheet : Option String) : Except ReferenceError Range :=
  let a := Column.index first
  let b := Column.index last
  if Grid.hasColumn a && Grid.hasColumn b then
    .ok (ofCorners (1, a) (Grid.rows, b) sheet)
  else .error (.columnsOffGrid first last)

def ofRows (first last : Int) (sheet : Option String) : Except ReferenceError Range :=
  if Grid.hasRow first && Grid.hasRow last then
    .ok (ofCorners (first, 1) (last, Grid.columns) sheet)
  else .error (.rowsOffGrid first last)

def readCells (left right : String) (sheet : Option String) : Except ReferenceError Range := do
  let a <- Cell.readAddress left
  let b <- Cell.readAddress right
  return ofCorners a b sheet

end Range

namespace Position

def read (sheet text : String) : Except ReferenceError Position :=
  match h : Cell.readAddress text with
  | .error error => .error error
  | .ok (row, col) => .ok ⟨row, col, sheet, Cell.isWritable_of_readAddress h⟩

end Position

namespace Reference

def readRows (left right : List Char) (sheet : Option String) : Except ReferenceError Range := do
  let first <- (Numeral.ofPlainDigits left).mapError .numeral
  let last <- (Numeral.ofPlainDigits right).mapError .numeral
  Range.ofRows first last sheet

/-- The range on both sides of a `:`.  A line feed before the `:` or at the end is passed over. -/
def readPair (text : String) (left right : List Char) (sheet : Option String) :
    Except ReferenceError Range :=
  if Shape.cell.readsLine left && Shape.cell.readsLine right then
    Range.readCells (String.ofList left) (String.ofList right) sheet
  else if Shape.column.readsLine left && Shape.column.readsLine right then
    Range.ofColumns (String.ofList (Cell.columnPart left)) (String.ofList (Cell.columnPart right))
      sheet
  else if Shape.row.readsLine left && Shape.row.readsLine right then
    readRows (Cell.rowPart left) (Cell.rowPart right) sheet
  else .error (.invalidReference text)

def read (text : String) (default : Option String) : Except ReferenceError Reference := do
  let (named, body) <- Sheet.split text
  let sheet := named.or default
  match splitFirst ':' body.toList with
  | none =>
      let (row, col) <- Cell.readAddress body
      return .cell ⟨row, col, sheet⟩
  | some (left, right) => .range <$> readPair text left right sheet

end Reference
end Precedents
