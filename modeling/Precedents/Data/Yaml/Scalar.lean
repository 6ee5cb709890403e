import Precedents.Data.Datum
import Precedents.Data.Yaml.Moment
import Precedents.Number.Decimal

/-!
# Scalars and entries

A scalar without quotation marks stands for a truth value, a number, a moment or
nothing at all if it is written like one, and otherwise for its own text.  As the
key of an entry, one scalar marks a mapping whose entries are taken over.
-/

namespace Precedents
namespace Yaml

open Text

def hexValue? (c : Char) : Option Nat :=
  if '0' ≤ c && c ≤ '9' then some (c.toNat - 48)
  else if 'a' ≤ c && c ≤ 'f' then some (c.toNat - 87)
  else if 'A' ≤ c && c ≤ 'F' then some (c.toNat - 55)
  else none

/-- The number that digits stand for in a base; low lines between them do not count. -/
def number (base : Nat) (cs : List Char) : Nat :=
  (cs.filterMap hexValue?).foldl (fun n d => base * n + d) 0

def isRun (base : Nat) (cs : List Char) : Bool :=
  !cs.isEmpty && cs.all fun c => c = '_' || (hexValue? c).any (· < base)

def parts : List Char -> List (List Char)
  | [] => [[]]
  | c :: rest =>
      if c = ':' then [] :: parts rest
      else
        match parts rest with
        | [] => [[c]]
        | first :: more => (c :: first) :: more

def isSixtieth (cs : List Char) : Bool :=
  match cs with
  | [c] => isPlainDigit c
  | [c, d] => '0' ≤ c && c ≤ '5' && isPlainDigit d
  | _ => false

/-- The number whose parts count sixty times as much from right to left. -/
def sixties (ps : List (List Char)) : Nat :=
  ps.foldl (fun n p => 60 * n + number 10 p) 0

def magnitude? (cs : List Char) : Option Nat :=
  match cs with
  | ['0'] => some 0
  | '0' :: 'b' :: rest => if isRun 2 rest then some (number 2 rest) else none
  | '0' :: 'x' :: rest => if isRun 16 rest then some (number 16 rest) else none
  | '0' :: rest => if isRun 8 rest then some (number 8 rest) else none
  | c :: _ =>
      if isPlainDigit c then
        match parts cs with
        | [whole] => if isRun 10 whole then some (number 10 whole) else none
        | first :: more =>
            if isRun 10 first && more.all isSixtieth then some (sixties (first :: more)) else none
        | [] => none
      else none
  | [] => none

def integer? (cs : List Char) : Option Int :=
  let (negative, body) := Numeral.sign cs
  (magnitude? body).map fun n => if negative then -(n : Int) else n

/-- The power of ten at the end of a decimal, which must have a sign. -/
def isPower : List Char -> Bool
  | [] => true
  | c :: sign :: rest =>
      (c = 'e' || c = 'E') && (sign = '-' || sign = '+') && !rest.isEmpty && rest.all isPlainDigit
  | _ => false

def isFraction (cs : List Char) : Bool :=
  isPower (cs.dropWhile fun c => c = '_' || isPlainDigit c)

def withoutLowLines (cs : List Char) : List Char :=
  cs.filter (· ≠ '_')

def infiniteWords : List String := [".inf", ".Inf", ".INF"]

def notNumberWords : List String := [".nan", ".NaN", ".NAN"]

/-- A decimal in front of whose point stand digits, perhaps in base sixty. -/
def pointed? (negative : Bool) (whole fraction : List Char) : Option Binary64 :=
  match parts whole with
  | [digits] =>
      if isRun 10 digits && digits.head? ≠ some '_' && isFraction fraction then
        Decimal.readDigits negative (withoutLowLines (digits ++ '.' :: fraction))
      else none
  | first :: more =>
      if isRun 10 first && more.all isSixtieth
          && fraction.all fun c => c = '_' || isPlainDigit c then
        let n := (toString (sixties (first :: more))).toList
        Decimal.readDigits negative (withoutLowLines (n ++ '.' :: fraction))
      else none
  | [] => none

def decimal? (cs : List Char) : Option Binary64 :=
  let (negative, body) := Numeral.sign cs
  if infiniteWords.contains (String.ofList body) then some (.infinite negative)
  else if notNumberWords.contains (String.ofList cs) then some .notANumber
  else
    match splitFirst '.' body with
    | none => none
    | some ([], fraction) =>
        if body.length = cs.length && fraction.head?.any isPlainDigit && isFraction fraction then
          Decimal.readDigits negative (withoutLowLines body)
        else none
    | some (whole, fraction) => pointed? negative whole fraction

def nullWords : List String := ["", "~", "null", "Null", "NULL"]

def trueWords : List String :=
  ["yes", "Yes", "YES", "true", "True", "TRUE", "on", "On", "ON"]

def falseWords : List String :=
  ["no", "No", "NO", "false", "False", "FALSE", "off", "Off", "OFF"]

def ordinary (cs : List Char) : Datum :=
  let s := String.ofList cs
  if nullWords.contains s then .null
  else if trueWords.contains s then .bool true
  else if falseWords.contains s then .bool false
  else
    match decimal? cs, integer? cs with
    | some x, _ => .float x
    | none, some n => .int n
    | none, none => .text s

/-- What a plain scalar stands for; a moment must be one of the calendar. -/
def scalar? (cs : List Char) : Option Datum :=
  if isMoment cs then
    let m := moment cs
    if m.isValid then some (.moment m) else none
  else some (ordinary cs)

/-- The mark that stands for a value of its own; it may only be a key. -/
def valueMark : List Char := ['=']

/-- The key of an entry whose own entries are taken over. -/
def mergeMark : List Char := ['<', '<']

inductive Scalar
  | plain (word : List Char)
  | quoted (s : String)

inductive Key
  | datum (d : Datum)
  | merge

namespace Scalar

def datum? : Scalar -> Option Datum
  | plain word => if word = valueMark ∨ word = mergeMark then none else scalar? word
  | quoted s => some (.text s)

def key? : Scalar -> Option Key
  | plain word =>
      if word = valueMark then some (.datum (.text (String.ofList word)))
      else if word = mergeMark then some .merge
      else (scalar? word).map Key.datum
  | quoted s => some (.datum (.text s))

end Scalar

/-- The entries of a mapping: those it has taken over, and its own. -/
structure Entries where
  merged : List (Datum × Datum) := []
  own : List (Datum × Datum) := []

namespace Entries

/-- The entries of mappings in a list, of which earlier ones win. -/
def ofList : List Datum -> Option (List (Datum × Datum))
  | [] => some []
  | .map entries :: rest => (ofList rest).map fun more => more ++ entries
  | _ :: _ => none

def add (found : Entries) (key : Key) (value : Datum) : Option Entries :=
  match key, value with
  | .datum d, value => some { found with own := found.own ++ [(d, value)] }
  | .merge, .map entries => some { found with merged := found.merged ++ entries }
  | .merge, .list items =>
      (ofList items).map fun entries => { found with merged := found.merged ++ entries }
  | .merge, _ => none

/-- The mapping of all entries; of two with one key the later one wins. -/
def toDatum (found : Entries) : Datum :=
  .map ((found.merged ++ found.own).foldl (fun entries entry => Datum.put entry.1 entry.2 entries)
    [])

end Entries

end Yaml
end Precedents
