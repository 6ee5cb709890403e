import Precedents.Number.Numeral

/-!
# Binary floating-point numbers

A double-precision number is a sign and a code of 63 bits.  The code lists the
magnitudes in order: below `infinityCode` it is `2 ^ 52` times the exponent
field plus the fraction, then comes infinity, and what lies above is not a
number.  Decimal texts are read by exact arithmetic and one rounding to the
nearest magnitude, a tie going to the even code.
-/

namespace Precedents

structure Binary64 where
  negative : Bool
  code : Nat
  code_lt : code < 0x8000000000000000
deriving DecidableEq

namespace Binary64

/-- The number of magnitudes that share an exponent, `2 ^ 52`. -/
def fractionSize : Nat := 0x10000000000000

def infinityCode : Nat := 2047 * fractionSize

/-- The number with a given sign and code; codes that are too large stand for infinity. -/
def ofCode (negative : Bool) (code : Nat) : Binary64 where
  negative := negative
  code := min code infinityCode
  code_lt := Nat.lt_of_le_of_lt (Nat.min_le_right _ _) (by decide)

def infinite (negative : Bool) : Binary64 :=
  ofCode negative infinityCode

def notANumber : Binary64 where
  negative := false
  code := infinityCode + fractionSize / 2
  code_lt := by decide

def isFinite (x : Binary64) : Bool :=
  x.code < infinityCode

def isInfinite (x : Binary64) : Bool :=
  x.code == infinityCode

def isZero (x : Binary64) : Bool :=
  x.code == 0

/-- The two numbers have the same value; the zeros do, and what is no number has none. -/
def equals (x y : Binary64) : Bool :=
  x.code ≤ infinityCode && x.code == y.code && (x.isZero || x.negative == y.negative)

def negate (x : Binary64) : Binary64 :=
  { x with negative := !x.negative }

/-- The whole number `m` in the magnitude `m * 2 ^ e` of a finite number. -/
def significand (x : Binary64) : Nat :=
  if x.code < fractionSize then x.code else fractionSize + x.code % fractionSize

/-- The exponent `e` in the magnitude `m * 2 ^ e` of a finite number. -/
def exponent (x : Binary64) : Int :=
  if x.code < fractionSize then -1074 else (x.code / fractionSize : Nat) - 1075

def wholePart (x : Binary64) : Nat :=
  if 0 ≤ x.exponent then x.significand * Nat.pow 2 x.exponent.toNat
  else x.significand / Nat.pow 2 (-x.exponent).toNat

def truncate (x : Binary64) : Int :=
  if x.negative then -(x.wholePart : Int) else x.wholePart

def isWhole (x : Binary64) : Bool :=
  x.isFinite && (0 ≤ x.exponent || x.significand % Nat.pow 2 (-x.exponent).toNat == 0)

/-- `num / den` rounded to the nearest whole number, a half to the even one. -/
def roundHalfEven (num den : Nat) : Nat :=
  let q := num / den
  let r := num % den
  if 2 * r < den then q
  else if den < 2 * r then q + 1
  else q + q % 2

def scaled (num den : Nat) (e : Int) : Nat × Nat :=
  if 0 ≤ e then (num, den * Nat.pow 2 e.toNat) else (num * Nat.pow 2 (-e).toNat, den)

def roundingExponent (num den : Nat) : Int :=
  let e : Int := max ((Nat.log2 num : Int) - Nat.log2 den - 53) (-1074)
  let (n, d) := scaled num den e
  if n / d < 2 * fractionSize then e else e + 1

def ofRatio (negative : Bool) (num den : Nat) : Binary64 :=
  if num = 0 then ofCode negative 0
  else
    let e := roundingExponent num den
    let (n, d) := scaled num den e
    ofCode negative ((e + 1074).toNat * fractionSize + roundHalfEven n d)

/--
The magnitude nearest to `digits * 10 ^ exponent`.  Exponents past the range of
the format are cut short, since the outcome is known to be infinite or zero.
-/
def ofDecimal (negative : Bool) (digits : Nat) (exponent : Int) : Binary64 :=
  if digits = 0 then ofCode negative 0
  else if 310 ≤ exponent then infinite negative
  else if 0 ≤ exponent then ofRatio negative (digits * Nat.pow 10 exponent.toNat) 1
  else if (Nat.log2 digits : Int) + 1 + 3 * exponent < -1100 then ofCode negative 0
  else ofRatio negative digits (Nat.pow 10 (-exponent).toNat)

end Binary64
end Precedents
