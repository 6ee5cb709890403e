import Precedents.Number.Binary64

/-!
# Decimal fractions

A decimal is written with digits, a point, and a power of ten, or is one of the
words for infinity and for no number.  Only the value is kept.
-/

namespace Precedents
namespace Decimal

open Text
open Numeral

def readExponent : List Char -> Option Int
  | [] => some 0
  | c :: rest =>
      if c = 'e' || c = 'E' then
        let (negative, body) := sign rest
        if body.isEmpty || !body.all isDigit then none
        else
          let n := value (body.filterMap digitValue?)
          some (if negative then -(n : Int) else n)
      else none

def fractionRun : List Char -> List Char × List Char
  | '.' :: rest => rest.span isDigit
  | cs => ([], cs)

def readDigits (negative : Bool) (cs : List Char) : Option Binary64 :=
  let (whole, rest) := cs.span isDigit
  let (fraction, rest) := fractionRun rest
  if whole.isEmpty && fraction.isEmpty then none
  else
    (readExponent rest).map fun power =>
      Binary64.ofDecimal negative (value ((whole ++ fraction).filterMap digitValue?))
        (power - fraction.length)

def readWord (negative : Bool) (cs : List Char) : Option Binary64 :=
  let word := cs.map Char.toLower
  if word = "inf".toList || word = "infinity".toList then some (.infinite negative)
  else if word = "nan".toList then
    some (if negative then Binary64.notANumber.negate else .notANumber)
  else none

def read? (s : String) : Option Binary64 :=
  match withoutSeparators false (trimWhile isSpacing s.toList) with
  | none => none
  | some cs =>
      let (negative, body) := sign cs
      (readDigits negative body).or (readWord negative body)

def read (s : String) : Except NumeralError Binary64 :=
  match read? s with
  | some x => .ok x
  | none => .error (.notDecimal s)

end Decimal
end Precedents
