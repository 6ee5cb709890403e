import Precedents.Function.Argument

/-!
# Logical functions

Every branch of a condition has been recorded before its handler is called, so
a handler chooses none: it counts arguments and leaves the value open.
-/

namespace Precedents
namespace Logical

open Argument

def counted (function : ReferenceFunction) (low : Nat) (high : Option Nat) (args : List Value) :
    Ruling := do
  requireCount function.name args low high
  return none

def pairs (args : List Value) : Ruling :=
  if args.length < 2 || args.length % 2 = 1 then
    .error ⟨.value, "IFS requires condition/value pairs, got " ++ toString args.length
      ++ " argument(s)"⟩
  else .ok none

def constant (function : ReferenceFunction) (b : Bool) (args : List Value) : Ruling := do
  requireCount function.name args 0 (some 0)
  return some (.bool b)

end Logical
end Precedents
