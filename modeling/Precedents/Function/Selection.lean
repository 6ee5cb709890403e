import Precedents.Function.Argument

/-!
# Functions that select

`INDEX` selects a part of a reference or of an array, `CHOOSE` one of its
arguments.  Index zero selects a whole row or column.
-/

namespace Precedents
namespace Selection

open Argument

def optionalIndex (function : String) (args : List Value) (i : Nat) : Except Refusal Nat :=
  match args[i]? with
  | some v => index function v
  | none => .ok 0

/-- The item of an array, if both indices are given and lie in the array. -/
def item? (rows : List (List Value)) (row col : Nat) : Option Value :=
  if row = 0 ∨ col = 0 then none
  else (rows[row - 1]?).bind fun cells => cells[col - 1]?

def span (first last : Int) (n : Nat) : Int × Int :=
  if n = 0 then (first, last) else (first + n - 1, first + n - 1)

def part (range : Range) (row col : Nat) : Except Refusal Reference :=
  if range.rows < row || range.cols < col then
    .error ⟨.ref, "INDEX: (" ++ toString row ++ ", " ++ toString col ++ ") outside a "
      ++ toString range.rows ++ "x" ++ toString range.cols ++ " range"⟩
  else
    let rows := span range.firstRow range.lastRow row
    let cols := span range.firstCol range.lastCol col
    if rows.1 = rows.2 ∧ cols.1 = cols.2 then .ok (.cell ⟨rows.1, cols.1, range.sheet⟩)
    else .ok (.range (Range.ofCorners (rows.1, cols.1) (rows.2, cols.2) range.sheet))

/-- The part of a range that the indices select; a single index counts along the only row. -/
def rangePart (range : Range) (count row col : Nat) : Except Refusal Reference :=
  if count = 2 && range.isSingleRow && !range.isSingleColumn then part range 0 row
  else part range row col

def indexed (args : List Value) : Ruling := do
  requireCount ReferenceFunction.index.name args 2 (some 4)
  let row <- optionalIndex "INDEX" args 1
  let col <- optionalIndex "INDEX" args 2
  let target := args.headD .missing
  match target with
  | .reference (.cell _) =>
      if 1 < row || 1 < col then .error ⟨.ref, "INDEX: index out of range"⟩
      else return some target
  | .reference (.range range) =>
      let selected <- rangePart range args.length row col
      return some (.reference selected)
  | _ => return target.rows?.bind fun rows => item? rows row col

/-- One of the arguments; all of them have been recorded. -/
def choose (args : List Value) : Ruling := do
  requireCount ReferenceFunction.choose.name args 2 none
  let n <- optionalIndex "CHOOSE" args 0
  if args.length - 1 < n then
    .error ⟨.value, "CHOOSE: index " ++ toString n ++ " out of range"⟩
  else return none

end Selection
end Precedents
