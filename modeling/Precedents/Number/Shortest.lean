import Precedents.Number.Binary64

/-!
# Shortest decimal texts

A finite number is written with the fewest significant digits that read back
as the number, and among those with the digits nearest to it.
-/

namespace Precedents
namespace Shortest

structure Ratio where
  num : Nat
  den : Nat

namespace Ratio

/-- `m * 2 ^ e`. -/
def ofBinary (m : Nat) (e : Int) : Ratio :=
  if 0 ≤ e then ⟨m * Nat.pow 2 e.toNat, 1⟩ else ⟨m, Nat.pow 2 (-e).toNat⟩

def shift (r : Ratio) (k : Int) : Ratio :=
  if 0 ≤ k then ⟨r.num, r.den * Nat.pow 10 k.toNat⟩ else ⟨r.num * Nat.pow 10 (-k).toNat, r.den⟩

def le (a b : Ratio) : Bool :=
  a.num * b.den ≤ b.num * a.den

def lt (a b : Ratio) : Bool :=
  a.num * b.den < b.num * a.den

/-- How many places the first digit of a ratio below one stands behind the point. -/
def leadingZeros (r : Ratio) : (fuel : Nat) -> Nat
  | 0 => 0
  | fuel + 1 => if r.den ≤ 10 * r.num then 0 else 1 + leadingZeros ⟨10 * r.num, r.den⟩ fuel

def magnitude (r : Ratio) : Int :=
  if r.den ≤ r.num then (Nat.toDigits 10 (r.num / r.den)).length - 1
  else -(r.leadingZeros 400 : Int) - 1

end Ratio

/-- The numbers that read back as a given one: those between the midpoints to its neighbours. -/
structure Basin where
  value : Ratio
  low : Ratio
  high : Ratio
  closed : Bool

def Basin.of (x : Binary64) : Basin :=
  let m := x.significand
  let e := x.exponent
  let narrow := m == Binary64.fractionSize && e != -1074
  { value := .ofBinary m e
    low := if narrow then .ofBinary (4 * m - 1) (e - 2) else .ofBinary (2 * m - 1) (e - 1)
    high := .ofBinary (2 * m + 1) (e - 1)
    closed := m % 2 == 0 }

def Basin.holds (b : Basin) (d : Nat) (k : Int) : Bool :=
  let point := Ratio.shift ⟨d, 1⟩ (-k)
  if b.closed then b.low.le point && point.le b.high else b.low.lt point && point.lt b.high

/-- The nearer of the two decimals with last place `k` beside the number that reads back as it. -/
def Basin.nearest? (b : Basin) (k : Int) : Option Nat :=
  let r := b.value.shift k
  let d := r.num / r.den
  let below := b.holds d k
  let above := b.holds (d + 1) k
  let preferAbove := r.den < 2 * (r.num % r.den) || (r.den == 2 * (r.num % r.den) && d % 2 == 1)
  if below && !(above && preferAbove) then some d
  else if above then some (d + 1)
  else none

/-- The decimal with the fewest digits, from `n` on, that reads back as the number. -/
def Basin.shortest (b : Basin) (top : Int) (n : Nat) : (fuel : Nat) -> Nat × Int
  | 0 => (0, 0)
  | fuel + 1 =>
      let k := top - (n : Int) + 1
      match b.nearest? k with
      | some d => (d, k)
      | none => b.shortest top (n + 1) fuel

def digits (x : Binary64) : Nat × Int :=
  let b := Basin.of x
  b.shortest b.value.magnitude 1 20

def exponentText (power : Int) : String :=
  let n := power.natAbs
  "e" ++ (if power < 0 then "-" else "+") ++ (if n < 10 then "0" else "") ++ toString n

/--
The text of decimal digits whose first one has the power of ten `top`: with a
point in place from `1e-4` up to below `1e16`, with a power of ten elsewhere.
-/
def positioned (ds : List Char) (top : Int) : String :=
  if -4 ≤ top && top < 16 then
    if top < 0 then
      "0." ++ String.ofList (List.replicate (-top - 1).toNat '0' ++ ds)
    else
      let wholeSize := top.toNat + 1
      let whole := (ds.take wholeSize) ++ List.replicate (wholeSize - ds.length) '0'
      let fraction := ds.drop wholeSize
      String.ofList (whole ++ '.' :: (if fraction.isEmpty then ['0'] else fraction))
  else
    match ds with
    | [] => ""
    | [d] => String.ofList [d] ++ exponentText top
    | d :: rest => String.ofList (d :: '.' :: rest) ++ exponentText top

def magnitudeText (x : Binary64) : String :=
  if x.isZero then "0.0"
  else
    let (d, k) := digits x
    let ds := Nat.toDigits 10 d
    let significant := (ds.reverse.dropWhile (· == '0')).reverse
    positioned significant (k + ds.length - 1)

end Shortest

namespace Binary64

/-- The shortest decimal text that reads back as the number. -/
def text (x : Binary64) : String :=
  let body :=
    if x.isFinite then Shortest.magnitudeText x
    else if x.isInfinite then "inf"
    else "nan"
  if x.negative && (x.isFinite || x.isInfinite) then "-" ++ body else body

end Binary64
end Precedents
