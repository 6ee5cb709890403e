import Precedents.Function.Selection

/-!
# Lookup functions

What a lookup finds depends on the cells of its table, which has been recorded
as a whole.  Only the arguments are checked.
-/

namespace Precedents
namespace Lookup

open Argument

/-- A lookup in a table, of which `side` is counted by the index. -/
def table (function : ReferenceFunction) (side : Int × Int -> Int) (args : List Value) :
    Ruling := do
  requireCount function.name args 3 (some 4)
  let n <- Selection.optionalIndex function.name args 2
  match shape? (args.getD 1 .missing) with
  | some shape =>
      if n ≠ 0 && side shape < n then
        .error ⟨.ref, function.name ++ ": index " ++ toString n ++ " beyond table edge "
          ++ toString (side shape)⟩
      else return none
  | none => return none

end Lookup
end Precedents
