import Precedents.Text.Blank
import Precedents.Text.Quoted
import Precedents.Text.Word

/-!
# Whole numbers written in decimal digits

A numeral is a run of decimal digits of any script, with single low lines
allowed between digits, an optional sign, and space around it.  A numeral of
more than 4300 digits is refused before anything behind it is looked at.
-/

namespace Precedents

inductive NumeralError
  | tooManyDigits (count : Nat)
  /-- The number has more digits than are written. -/
  | tooLong
  | notInteger (text : String)
  | notDecimal (text : String)
deriving DecidableEq, Repr

namespace Numeral

open Text

def digitLimit : Nat := 4300

def isSpacing (c : Char) : Bool :=
  if c.toNat < 128 then c = ' ' || ('\t' ≤ c && c ≤ '\r') else isBlank c

def value (digits : List Nat) : Nat :=
  digits.foldl (fun n d => 10 * n + d) 0

def natural (digits : List Nat) : Except NumeralError Nat :=
  if digits.length ≤ digitLimit then .ok (value digits)
  else .error (.tooManyDigits digits.length)

def ofPlainDigits (cs : List Char) : Except NumeralError Nat :=
  natural (cs.filterMap digitValue?)

/-- The text without low lines, if each stands between two digits. -/
def withoutSeparators (afterDigit : Bool) : List Char -> Option (List Char)
  | [] => some []
  | ['_'] => none
  | '_' :: c :: rest =>
      if afterDigit && isDigit c then (withoutSeparators true rest).map (c :: ·) else none
  | c :: rest => (withoutSeparators (isDigit c) rest).map (c :: ·)

def sign : List Char -> Bool × List Char
  | '-' :: rest => (true, rest)
  | '+' :: rest => (false, rest)
  | cs => (false, cs)

def digitRun (cs : List Char) : List Char × List Char :=
  cs.span fun c => isDigit c || c = '_'

def readInteger (s : String) : Except NumeralError Int :=
  let (negative, body) := sign (trimWhile isSpacing s.toList)
  let (run, rest) := digitRun body
  match withoutSeparators false run with
  | some digits =>
      if digits.isEmpty then .error (.notInteger s)
      else
        match natural (digits.filterMap digitValue?) with
        | .error e => .error e
        | .ok n =>
            if rest.isEmpty then .ok (if negative then -(n : Int) else n)
            else .error (.notInteger s)
  | none => .error (.notInteger s)

def IsWritable (n : Int) : Prop :=
  n.natAbs < Nat.pow 10 digitLimit

instance (n : Int) : Decidable (IsWritable n) :=
  inferInstanceAs (Decidable (n.natAbs < Nat.pow 10 digitLimit))

theorem isWritable_of_ble {n : Int} (h : n.natAbs.ble 1048576 = true) : IsWritable n := by
  have hlimit : 1048576 < Nat.pow 10 digitLimit := by decide +kernel
  exact Nat.lt_of_le_of_lt (Nat.le_of_ble_eq_true h) hlimit

end Numeral

namespace NumeralError

def message : NumeralError -> String
  | .tooManyDigits count =>
      "Exceeds the limit (4300 digits) for integer string conversion: value has "
        ++ toString count ++ " digits; use sys.set_int_max_str_digits() to increase the limit"
  | .tooLong =>
      "Exceeds the limit (4300 digits) for integer string conversion; "
        ++ "use sys.set_int_max_str_digits() to increase the limit"
  | .notInteger text =>
      "invalid literal for int() with base 10: "
        ++ String.ofList ((Text.quoted text).toList.take 200)
  | .notDecimal text =>
      "could not convert string to float: " ++ Text.quoted text

end NumeralError
end Precedents
