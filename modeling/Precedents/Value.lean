import Precedents.Number.Shortest
import Precedents.Reference.Basic
import Precedents.Text.Quoted

/-!
# Values

Nothing in a workbook is read, so a formula's value is a stand-in: a literal
copied from the formula, an error value, a reference that was not followed, a
block of unknown cells of a known size, or zero.

The type also holds what handlers may pass by mistake: a missing value, a list
that is no array, a reference that is not marked as one, a record.
`Value.isFormulaValue` tells the two apart.
-/

namespace Precedents

inductive ErrorValue
  | null
  | div0
  | value
  | ref
  | name
  | num
  | na
deriving DecidableEq, Repr

inductive Value
  | missing
  | int (n : Int)
  | float (x : Binary64)
  | bool (b : Bool)
  | text (s : String)
  | error (e : ErrorValue)
  | reference (r : Reference)
  | block (rows cols : Int)
  | list (items : List Value)
  | bare (r : Reference)
  | record (entries : List (Value × Value))
deriving Inhabited

namespace ErrorValue

def text : ErrorValue -> String
  | null => "#NULL!"
  | div0 => "#DIV/0!"
  | value => "#VALUE!"
  | ref => "#REF!"
  | name => "#NAME?"
  | num => "#NUM!"
  | na => "#N/A"

def word : ErrorValue -> String
  | null => "NULL"
  | div0 => "DIV0"
  | value => "VALUE"
  | ref => "REF"
  | name => "NAME"
  | num => "NUM"
  | na => "NA"

def all : List ErrorValue := [null, div0, value, ref, name, num, na]

def ofText? (s : String) : Option ErrorValue :=
  all.find? fun e => e.text == s

def unknownMessage (s : String) : String :=
  Text.quoted s ++ " is not a valid FormulaErrorValue"

end ErrorValue

namespace Value

/-- The value that stands for unknown data. -/
def neutral : Value := .int 0

def blockOf (r : Reference) : Value :=
  .block r.shape.1 r.shape.2

def isList : Value -> Bool
  | .list _ => true
  | _ => false

def rows? : Value -> Option (List (List Value))
  | .list items => items.mapM fun
      | .list row => some row
      | _ => none
  | _ => none

/-- The value is one that a function may return; references may come without their mark. -/
def isResult : Value -> Bool
  | .missing => false
  | .list items => items.all isList
  | .record _ => false
  | _ => true

/-! ## Text in messages -/

def kindName : Value -> String
  | .missing => "NoneType"
  | .int _ => "int"
  | .float _ => "float"
  | .bool _ => "bool"
  | .text _ => "str"
  | .error _ => "FormulaErrorValue"
  | .reference _ => "RefValue"
  | .block _ _ => "PlaceholderArray"
  | .list _ => "list"
  | .bare (.cell _) => "CellReference"
  | .bare (.range _) => "RangeReference"
  | .record _ => "dict"

def shownSheet : Option String -> String
  | none => "None"
  | some s => Text.quoted s

def shownCell (row col : Int) (sheet : Option String) : String :=
  "CellReference(row=" ++ toString row ++ ", col=" ++ toString col ++ ", sheet="
    ++ shownSheet sheet ++ ")"

def shownReference : Reference -> String
  | .cell c => shownCell c.row c.col c.sheet
  | .range r =>
      "RangeReference(from_=" ++ shownCell r.firstRow r.firstCol none
        ++ ", to=" ++ shownCell r.lastRow r.lastCol none
        ++ ", sheet=" ++ shownSheet r.sheet ++ ")"

mutual

def shown : Value -> String
  | .missing => "None"
  | .int n => toString n
  | .float x => x.text
  | .bool b => if b then "True" else "False"
  | .text s => Text.quoted s
  | .error e => "<FormulaErrorValue." ++ e.word ++ ": " ++ Text.quoted e.text ++ ">"
  | .reference r => "RefValue(ref=" ++ shownReference r ++ ")"
  | .block rows cols =>
      "PlaceholderArray(rows=" ++ toString rows ++ ", cols=" ++ toString cols ++ ")"
  | .list items => "[" ++ shownItems items ++ "]"
  | .bare r => shownReference r
  | .record entries => "\x7b" ++ shownEntries entries ++ "\x7d"

def shownItems : List Value -> String
  | [] => ""
  | [v] => shown v
  | v :: rest => shown v ++ ", " ++ shownItems rest

def shownEntries : List (Value × Value) -> String
  | [] => ""
  | [(k, v)] => shown k ++ ": " ++ shown v
  | (k, v) :: rest => shown k ++ ": " ++ shown v ++ ", " ++ shownEntries rest

end

end Value
end Precedents
