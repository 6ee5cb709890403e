import Precedents.Function.Selection
import Precedents.Reference.Printer

/-!
# Addresses as text

`ADDRESS` writes the address of a cell from its row and its column, either with
column letters or with counted columns, and with marks for the parts that stay
when a formula is copied.
-/

namespace Precedents
namespace AddressText

open Argument

structure Style where
  fixedRow : Bool
  fixedCol : Bool

def style? : Nat -> Option Style
  | 1 => some ⟨true, true⟩
  | 2 => some ⟨true, false⟩
  | 3 => some ⟨false, true⟩
  | 4 => some ⟨false, false⟩
  | _ => none

def lettered (style : Style) (row col : Nat) : String :=
  (if style.fixedCol then "$" else "") ++ Column.letters col
    ++ (if style.fixedRow then "$" else "") ++ toString row

def counted (style : Style) (row col : Nat) : String :=
  (if style.fixedRow then "R" ++ toString row else "R[" ++ toString row ++ "]")
    ++ (if style.fixedCol then "C" ++ toString col else "C[" ++ toString col ++ "]")

def isTruthy : Value -> Bool
  | .missing => false
  | .int n => n != 0
  | .float x => !x.isZero
  | .bool b => b
  | .text s => s != ""
  | .list items => !items.isEmpty
  | .record entries => !entries.isEmpty
  | _ => true

def sheetText : Value -> String
  | .text s => s
  | .error e => e.text
  | _ => ""

/-- The number of a style; it is one unless it is given. -/
def styleNumber (args : List Value) : Except Refusal Nat :=
  match (args[2]? : Option Value) with
  | none | some .missing => .ok 1
  | some v => index "ADDRESS" v

/-- Columns are written with letters, unless the argument says otherwise. -/
def usesLetters (args : List Value) : Bool :=
  match (args[3]? : Option Value) with
  | none | some .missing => true
  | some v => isTruthy v

def ruling (args : List Value) : Ruling := do
  requireCount ReferenceFunction.address.name args 2 (some 5)
  let row <- Selection.optionalIndex "ADDRESS" args 0
  let col <- Selection.optionalIndex "ADDRESS" args 1
  let number <- styleNumber args
  if row = 0 || col = 0 then return none
  match style? number with
  | none => .error ⟨.value, "ADDRESS: abs_num " ++ toString number ++ " not in 1-4"⟩
  | some style =>
      let cell := if usesLetters args then lettered style row col else counted style row col
      let sheet := sheetText (args.getD 4 .missing)
      return some (.text (if sheet = "" then cell else Sheet.quote sheet ++ "!" ++ cell))

end AddressText
end Precedents
