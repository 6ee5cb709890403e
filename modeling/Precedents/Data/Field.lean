import Precedents.Data.Datum
import Precedents.Reference.Basic
import Precedents.Text.Scan

/-!
# Fields read from data

The parts of a position or of a reference may come from loosely typed data.  A
whole number may be given as a number without a fraction, as a truth value, or
as a text; a name must be a text.  All faults of a record are reported together,
in the order of its fields.

The text of a whole number is first brought into a plain form.  Space around it
and a plus sign are dropped, a minus sign is kept, and behind it the zeros and
low lines in front of the first other digit or of a minus sign, then a fraction
of zeros, and at last single low lines inside are dropped.
-/

namespace Precedents

inductive FieldFault
  | missing
  | notWholeNumber
  | unreadableNumber
  | fractionalNumber
  | oversizedNumber
  | notFinite
  | notText
  | notMapping
  | unknownChoice
deriving DecidableEq, Repr

structure FieldError where
  location : List String
  fault : FieldFault
deriving DecidableEq, Repr

namespace Field

open Text

def lengthLimit : Nat := 4300

def isLeadingDigit (c : Char) : Bool :=
  '1' ≤ c && c ≤ '9'

/--
A number in its plain form: digits that do not start with a zero, or a single
zero, perhaps behind a minus sign.
-/
def readPlain (cs : List Char) : Option Int :=
  let (digits, negative) := match cs with
    | '-' :: rest => (rest, true)
    | cs => (cs, false)
  let isPlain := match digits with
    | [] => false
    | ['0'] => true
    | c :: rest => isLeadingDigit c && rest.all isPlainDigit
  if isPlain then
    let n := Numeral.value (digits.filterMap digitValue?)
    some (if negative then -(n : Int) else n)
  else none

/--
Drops zeros and low lines, of which `last` is the one in front of the text.  The
last one stays where the number ends or has its point.
-/
def behindZeros (last : Char) : List Char -> Option (List Char)
  | [] => some [last]
  | c :: rest =>
      if c = '0' || c = '_' then behindZeros c rest
      else if c = '.' then some (last :: c :: rest)
      else if c = '-' || isLeadingDigit c then some (c :: rest)
      else none

def withoutLeadingZeros : List Char -> Option (List Char)
  | [] => none
  | c :: rest =>
      if c = '0' then behindZeros c rest
      else if c = '-' || isLeadingDigit c then some (c :: rest)
      else none

def withoutZeroFraction (cs : List Char) : List Char :=
  match splitFirst '.' cs with
  | some (whole, c :: fraction) => if (c :: fraction).all (· == '0') then whole else cs
  | _ => cs

/-- No low line of the text stands at its end or in front of another one. -/
def separates : List Char -> Bool
  | [] => true
  | ['_'] => false
  | '_' :: '_' :: _ => false
  | _ :: rest => separates rest

def withoutSeparators (cs : List Char) : List Char :=
  if cs.head? ≠ some '_' && separates cs then cs.filter (· ≠ '_') else cs

/-- The text behind a plus sign, which no minus sign may follow. -/
def behindPlus : List Char -> Option (List Char)
  | '+' :: '-' :: _ => none
  | '+' :: rest => some rest
  | cs => some cs

def plainDigits (cs : List Char) : Option (List Char) :=
  (withoutLeadingZeros cs).map fun digits => withoutSeparators (withoutZeroFraction digits)

def plainForm (cs : List Char) : Option (List Char) := do
  match <- behindPlus (trimWhile Numeral.isSpacing cs) with
  | '-' :: rest => (plainDigits rest).map ('-' :: ·)
  | rest => plainDigits rest

/-- The number of characters of a sign and of the digits behind it, where no zero leads. -/
def plainLength : List Char -> Nat
  | '-' :: c :: rest => if isLeadingDigit c then 2 + (rest.takeWhile isPlainDigit).length else 0
  | c :: rest => if isLeadingDigit c then 1 + (rest.takeWhile isPlainDigit).length else 0
  | [] => 0

def readWhole (s : String) : Except FieldFault Int :=
  if lengthLimit < plainLength s.toList then .error .oversizedNumber
  else
    match (plainForm s.toList).bind fun cs =>
        if plainLength cs ≤ lengthLimit then readPlain cs else none with
    | some n => .ok n
    | none => .error .unreadableNumber

/-- The whole numbers that a decimal may stand for lie between this one and its negative. -/
def wholeLimit : Int := 0x8000000000000000

def wholeOfDecimal (x : Binary64) : Except FieldFault Int :=
  if !x.isFinite then .error .notFinite
  else if !x.isWhole then .error .fractionalNumber
  else if -wholeLimit < x.truncate && x.truncate < wholeLimit then .ok x.truncate
  else .error .oversizedNumber

def whole : Option Datum -> Except FieldFault Int
  | none => .error .missing
  | some (.int n) => .ok n
  | some (.bool b) => .ok (if b then 1 else 0)
  | some (.float x) => wholeOfDecimal x
  | some (.text s) => readWhole s
  | some _ => .error .notWholeNumber

def name : Option Datum -> Except FieldFault String
  | none => .error .missing
  | some (.text s) => .ok s
  | some _ => .error .notText

def name? : Option Datum -> Except FieldFault (Option String)
  | none => .ok none
  | some .null => .ok none
  | some (.text s) => .ok (some s)
  | some _ => .error .notText

def fault? {α : Type} (location : String) : Except FieldFault α -> List FieldError
  | .ok _ => []
  | .error fault => [⟨[location], fault⟩]

end Field

inductive PositionError
  | fields (errors : List FieldError)
  /-- The row has more digits than are written. -/
  | longRow

namespace Position

def ofDatum (d : Datum) : Except PositionError Position :=
  let row := Field.whole (d.field? "row")
  let col := Field.whole (d.field? "col")
  let sheet := Field.name (d.field? "sheet")
  match row, col, sheet with
  | .ok row, .ok col, .ok sheet =>
      if h : Numeral.IsWritable row then .ok ⟨row, col, sheet, h⟩ else .error .longRow
  | _, _, _ =>
      .error (.fields
        (Field.fault? "row" row ++ Field.fault? "col" col ++ Field.fault? "sheet" sheet))

end Position

namespace Cell

def ofData (row col sheet : Option Datum) : Except (List FieldError) Cell :=
  let row := Field.whole row
  let col := Field.whole col
  let sheet := Field.name? sheet
  match row, col, sheet with
  | .ok row, .ok col, .ok sheet => .ok ⟨row, col, sheet⟩
  | _, _, _ =>
      .error (Field.fault? "row" row ++ Field.fault? "col" col ++ Field.fault? "sheet" sheet)

end Cell

namespace Range

/-- A range from the rows and columns of its corners, which stay as they are, and a sheet. -/
def ofData (firstRow firstCol lastRow lastCol sheet : Option Datum) :
    Except (List FieldError) Range := do
  let first <- Cell.ofData firstRow firstCol none
  let last <- Cell.ofData lastRow lastCol none
  match Field.name? sheet with
  | .ok sheet => return ⟨first.row, first.col, last.row, last.col, sheet⟩
  | .error fault => .error [⟨["sheet"], fault⟩]

end Range
end Precedents
