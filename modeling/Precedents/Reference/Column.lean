import Precedents.Text.Upper

/-!
# Column letters

Columns are counted from one and written with the letters of a positional
system in base 26 that has no zero: `A` to `Z`, then `AA`, and so on.
-/

namespace Precedents
namespace Column

/-- The number of a column.  The letters count in upper case. -/
def index (letters : String) : Int :=
  (Text.upper letters).toList.foldl (fun n c => n * 26 + ((c.toNat : Int) - 64)) 0

def letter (place : Nat) : Char :=
  Char.ofNat (65 + place)

/-- The letters of a positive number; zero has none. -/
def letterList (n : Nat) : List Char :=
  if 0 < n then letterList ((n - 1) / 26) ++ [letter ((n - 1) % 26)] else []
termination_by n
decreasing_by omega

def letters (n : Int) : String :=
  String.ofList (letterList n.toNat)

end Column
end Precedents
