import Precedents.Function.Argument

/-!
# Functions of place and shape

These depend on where a reference lies and how large it is, and on nothing in
its cells.
-/

namespace Precedents
namespace Geometry

open Argument

/-- The row or the column of a reference, or that of the formula itself. -/
def place (function : ReferenceFunction) (own : Int) (ofCell : Cell -> Int) (ofRange : Range -> Int)
    (args : List Value) : Ruling := do
  requireCount function.name args 0 (some 1)
  match args.head? with
  | none | some .missing => return some (.int own)
  | some (.reference (.cell c)) => return some (.int (ofCell c))
  | some (.reference (.range r)) => return some (.int (ofRange r))
  | some _ => .error ⟨.value, function.name ++ " requires a reference"⟩

def row (position : Position) (args : List Value) : Ruling :=
  place .row position.row Cell.row Range.firstRow args

def column (position : Position) (args : List Value) : Ruling :=
  place .column position.col Cell.col Range.firstCol args

/-- The number of rows or of columns of the argument; one for anything without a shape. -/
def extent (function : ReferenceFunction) (side : Int × Int -> Int) (args : List Value) :
    Ruling := do
  requireCount function.name args 1 (some 1)
  match args.head? with
  | some (.error e) => .error ⟨e, ""⟩
  | some v => return some (.int ((shape? v).elim 1 side))
  | none => return none

def areas (args : List Value) : Ruling := do
  requireCount ReferenceFunction.areas.name args 1 (some 1)
  match args.head? with
  | some (.reference _) => return some (.int 1)
  | _ => .error ⟨.value, "AREAS requires a reference"⟩

/-- The length of the shortest row. -/
def width {α : Type} : List (List α) -> Nat
  | [] => 0
  | row :: rest => rest.foldl (fun n other => min n other.length) row.length

/-- The columns of an array as rows, as far as every row reaches. -/
def transposeRows {α : Type} (rows : List (List α)) : List (List α) :=
  (List.range (width rows)).map fun j => rows.filterMap fun row => row[j]?

def transposed (v : Value) : Value :=
  match v with
  | .missing => .neutral
  | .reference r => .block r.shape.2 r.shape.1
  | .block rows cols => .block cols rows
  | v =>
      match v.rows? with
      | some rows => .list ((transposeRows rows).map Value.list)
      | none => v

def transpose (args : List Value) : Ruling := do
  requireCount ReferenceFunction.transpose.name args 1 (some 1)
  return args.head?.map transposed

end Geometry
end Precedents
