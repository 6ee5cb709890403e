/-!
# Ranges of code points

Properties of characters are stated by tables of closed ranges of code points.
-/

namespace Precedents
namespace Text

abbrev CodeRange := Nat × Nat

def CodeRange.holds (c : Char) (range : CodeRange) : Bool :=
  range.1 ≤ c.toNat && c.toNat ≤ range.2

def covers (table : List CodeRange) (c : Char) : Bool :=
  table.any (CodeRange.holds c)

end Text
end Precedents
