import Precedents.Function.Basic
import Precedents.Number.Decimal

/-!
# Arguments

Rules that several functions share: how many arguments a call may have, how an
argument is read as an index, and which shape an argument has.

An index that comes from a reference or from a computation is not known.  It is
read as zero, which selects whole rows or columns wherever that is possible.
-/

namespace Precedents
namespace Argument

def countText (low : Nat) : (high : Option Nat) -> String
  | none => "at least " ++ toString low
  | some high =>
      if low = high then "exactly " ++ toString low
      else toString low ++ "-" ++ toString high

def countRefusal (function : String) (n low : Nat) (high : Option Nat) : Option Refusal :=
  if n < low || high.any (· < n) then
    some ⟨.value, function ++ " requires " ++ countText low high ++ " argument(s), got "
      ++ toString n⟩
  else none

def requireCount (function : String) (args : List Value) (low : Nat) (high : Option Nat) :
    Except Refusal Unit :=
  match countRefusal function args.length low high with
  | some refusal => .error refusal
  | none => .ok ()

def knownIndex (function : String) (n : Int) : Except Refusal Nat :=
  if n < 0 then .error ⟨.value, function ++ ": negative index " ++ toString n⟩
  else .ok n.toNat

def decimalIndex (function shown : String) (x : Binary64) : Except Refusal Nat :=
  if x.isFinite then knownIndex function x.truncate
  else .error ⟨.num, function ++ ": index " ++ shown ++ " is not finite"⟩

def index (function : String) (arg : Value) : Except Refusal Nat :=
  match arg with
  | .error e => .error ⟨e, function ++ ": error value in index argument"⟩
  | .bool b => .ok (if b then 1 else 0)
  | .int n => knownIndex function n
  | .float x => decimalIndex function arg.shown x
  | .text s =>
      match Decimal.read? s with
      | some x => decimalIndex function arg.shown x
      | none => .error ⟨.value, function ++ ": " ++ arg.shown ++ " is not a number"⟩
  | _ => .ok 0

def shape? : Value -> Option (Int × Int)
  | .reference r => some r.shape
  | .block rows cols => some (rows, cols)
  | v => v.rows?.map fun rows => ((rows.length : Int), ((rows.head?.map List.length).getD 0 : Nat))

end Argument
end Precedents
