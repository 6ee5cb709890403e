import Precedents.Data.Moment
import Precedents.Number.Numeral

/-!
# Moments in documents

A day is written with all its digits.  Together with a time the month, the day
and the hour may do with one; a fraction of a second and a zone may follow.
-/

namespace Precedents
namespace Yaml

open Text

def day : Scanner :=
  Scanner.one isPlainDigit >=> Scanner.one isPlainDigit >=> Scanner.one isPlainDigit
    >=> Scanner.one isPlainDigit >=> Scanner.char '-' >=> Scanner.oneTo isPlainDigit 1
    >=> Scanner.char '-' >=> Scanner.oneTo isPlainDigit 1

def isGap (c : Char) : Bool :=
  c = ' ' || c = '\t'

def colonPair : Scanner :=
  Scanner.char ':' >=> Scanner.one isPlainDigit >=> Scanner.one isPlainDigit

def clock : Scanner :=
  Scanner.oneTo isPlainDigit 1 >=> colonPair >=> colonPair
    >=> Scanner.maybe (Scanner.char '.' >=> Scanner.many isPlainDigit)

def zone : Scanner :=
  Scanner.many isGap >=> Scanner.either (Scanner.char 'Z')
    (Scanner.one (fun c => c = '-' || c = '+') >=> Scanner.oneTo isPlainDigit 1
      >=> Scanner.maybe colonPair)

def dayAndTime : Scanner :=
  day >=> Scanner.either (Scanner.one fun c => c = 'T' || c = 't') (Scanner.many1 isGap)
    >=> clock >=> Scanner.maybe zone

def isMoment (cs : List Char) : Bool :=
  (cs.length = 10 && day.readsAll cs) || dayAndTime.readsAll cs

def digits (cs : List Char) : Nat × List Char :=
  let found := cs.span isPlainDigit
  (Numeral.value (found.1.filterMap digitValue?), found.2)

def nextDigits (cs : List Char) : Nat × List Char :=
  digits (cs.drop 1)

/-- A fraction of a second in millionths; further digits do not count. -/
def micros (cs : List Char) : Nat × List Char :=
  match cs with
  | '.' :: rest =>
      let found := rest.span isPlainDigit
      ((digits ((found.1 ++ List.replicate 6 '0').take 6)).1, found.2)
  | cs => (0, cs)

/-- The minutes by which a zone is ahead. -/
def offset? (cs : List Char) : Option Int :=
  match cs.dropWhile isGap with
  | [] => none
  | c :: rest =>
      let (hours, rest) := digits rest
      let (minutes, _) := nextDigits rest
      let n : Int := 60 * hours + minutes
      some (if c = '-' then -n else n)

def dayTime (cs : List Char) : DayTime :=
  let (hour, rest) := digits (cs.dropWhile fun c => !isPlainDigit c)
  let (minute, rest) := nextDigits rest
  let (second, rest) := nextDigits rest
  let (micro, rest) := micros rest
  ⟨hour, minute, second, micro, offset? rest⟩

def moment (cs : List Char) : Moment :=
  let (year, rest) := digits cs
  let (month, rest) := nextDigits rest
  let (day, rest) := nextDigits rest
  ⟨year, month, day, if rest.isEmpty then none else some (dayTime rest)⟩

end Yaml
end Precedents
