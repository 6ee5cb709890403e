import Precedents.Data.Moment
import Precedents.Number.Shortest
import Precedents.Text.Quoted

/-!
# Data

A datum is what a configuration file, a sheet of cells or the context of an
event holds.  Mappings keep the order of their entries and hold no key twice.
-/

namespace Precedents

inductive Datum
  | null
  | bool (value : Bool)
  | int (value : Int)
  | float (value : Binary64)
  | text (value : String)
  | moment (value : Moment)
  | list (items : List Datum)
  | map (entries : List (Datum × Datum))
deriving Inhabited

namespace Datum

/-- The number that a scalar stands for as a key; truth values count as zero and one. -/
def keyNumber? : Datum -> Option Int
  | .bool b => some (if b then 1 else 0)
  | .int n => some n
  | .float x => if x.isWhole then some x.truncate else none
  | _ => none

def sameKey : Datum -> Datum -> Bool
  | .null, .null => true
  | .text a, .text b => a == b
  | .moment a, .moment b => a == b
  | .float a, .float b => a.equals b
  | a, b => a.keyNumber?.isSome && a.keyNumber? == b.keyNumber?

/-- The mapping with one entry set: in its old place if the key was there, else at the end. -/
def put (key value : Datum) : List (Datum × Datum) -> List (Datum × Datum)
  | [] => [(key, value)]
  | entry :: rest =>
      if sameKey entry.1 key then (entry.1, value) :: rest else entry :: put key value rest

def field? (name : String) : Datum -> Option Datum
  | .map entries => (entries.find? fun entry => sameKey entry.1 (.text name)).map (·.2)
  | _ => none

def record (entries : List (String × Datum)) : Datum :=
  .map (entries.map fun entry => (.text entry.1, entry.2))

def isNothing : Datum -> Bool
  | .null => true
  | .bool b => !b
  | .int n => n == 0
  | .float x => x.isZero
  | .text s => s == ""
  | .moment _ => false
  | .list items => items.isEmpty
  | .map entries => entries.isEmpty

def scalarText : Datum -> String
  | .null => "None"
  | .bool b => if b then "True" else "False"
  | .int n => toString n
  | .float x => x.text
  | .text s => s
  | .moment m => m.text
  | .list _ => ""
  | .map _ => ""

def scalarShown : Datum -> String
  | .text s => Text.quoted s
  | .moment m => m.shown
  | d => d.scalarText

end Datum
end Precedents
