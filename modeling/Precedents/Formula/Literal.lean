import Precedents.Formula.Syntax
import Precedents.Number.Decimal
import Precedents.Value

/-!
# The meaning of words

What the words of a formula stand for: sheets, functions, strings, numbers and
references.
-/

namespace Precedents
namespace Literal

open Text

/-- The name of a sheet in front of `!`; empty if there is no `!`. -/
def sheet (text : String) : Except ReferenceError String :=
  (Sheet.split text).map fun parts => parts.1.getD ""

def laterFunctionMark : List Char := "_XLFN.".toList

/--
The name of a function, without the parenthesis behind it and without the mark
of later functions.
-/
def function (text : String) : String :=
  let name := trim text.toList.dropLast
  if laterFunctionMark.isPrefixOf (name.flatMap upperChar) then
    String.ofList (name.drop laterFunctionMark.length)
  else String.ofList name

def string (text : String) : String :=
  String.ofList (undoubled quoteMark (text.toList.drop 1).dropLast)

/-- A number: a decimal if it has a point or a power of ten, else a whole number. -/
def number (text : String) : Except NumeralError Value :=
  if text.toList.any fun c => c = '.' || c = 'e' || c = 'E' then
    (Decimal.read text).map .float
  else (Numeral.readInteger text).map .int

def negativeNumber (text : String) : Except NumeralError Value :=
  (number text).map fun
    | .int n => .int (-n)
    | .float x => .float x.negate
    | v => v

def boolean (text : String) : Bool :=
  upper text = "TRUE"

/-- An error value; a text that is none stands for `#REF!`. -/
def error (text : String) : ErrorValue :=
  (ErrorValue.ofText? text).getD .ref

def rowNumber (cs : List Char) : Except ReferenceError Int :=
  (Numeral.readInteger (String.ofList (cs.dropWhile (· == '$')))).mapError .numeral

def columnName (cs : List Char) : String :=
  String.ofList (cs.dropWhile (· == '$'))

def range (terminal : String) (kind : Option ReferenceKind) (left right : List Char)
    (sheet : Option String) : Except ReferenceError Range :=
  match kind with
  | some .cells => Range.readCells (String.ofList left) (String.ofList right) sheet
  | some .columns => Range.ofColumns (columnName left) (columnName right) sheet
  | some .rows => do
      let first <- rowNumber left
      let last <- rowNumber right
      Range.ofRows first last sheet
  | _ => .error (.notReference terminal)

def labelledReference (terminal : String) (kind : Option ReferenceKind) (text : String)
    (sheet : Option String) : Except ReferenceError Reference :=
  match kind with
  | some .cell => (Cell.readAddress text).map fun found => .cell ⟨found.1, found.2, sheet⟩
  | _ =>
      match splitFirst ':' text.toList with
      | none => .error .noSeparator
      | some (left, right) => (range terminal kind left right sheet).map .range

def reference (kind : ReferenceKind) (text : String) (sheet : Option String) :
    Except ReferenceError Reference :=
  labelledReference kind.terminal.label (some kind) text sheet

end Literal
end Precedents
