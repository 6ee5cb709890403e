import Precedents.Function.Argument
import Precedents.Proofs.Value.FormulaValue

/-!
# Arguments that are counted, read and measured

What the rules for all functions come to on arguments of a known form: enough of
them, a known index, an array.
-/

namespace Precedents
namespace Argument

theorem requireCount_ok {function : String} {args : List Value} {low high : Nat}
    (hlow : low ≤ args.length) (hhigh : args.length ≤ high) :
    requireCount function args low (some high) = .ok () := by
  have hnone : countRefusal function args.length low (some high) = none := by
    unfold countRefusal
    rw [if_neg]
    simp
    omega
  rw [requireCount, hnone]

theorem knownIndex_of_neg (function : String) {n : Int} (hn : n < 0) :
    knownIndex function n =
      .error ⟨.value, function ++ ": negative index " ++ toString n⟩ :=
  if_pos hn

theorem knownIndex_of_nonneg (function : String) {n : Int} (hn : 0 ≤ n) :
    knownIndex function n = .ok n.toNat :=
  if_neg (Int.not_lt.mpr hn)

theorem shape?_list_rows (rows : List (List Value)) :
    shape? (.list (rows.map Value.list)) =
      some ((rows.length : Int), (((rows.head?.map List.length).getD 0 : Nat) : Int)) := by
  have hrows := Value.rows?_list_rows rows
  simp only [shape?, hrows, Option.map_some]

end Argument
end Precedents
