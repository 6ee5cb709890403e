import Precedents.Text.Scan
import Precedents.Text.Word

/-!
# Days and times

A moment is a day of the calendar, perhaps with a time of day, and that perhaps
with the distance of its zone from the common time.
-/

namespace Precedents

/-- A time of day; `offset` counts the minutes by which its zone is ahead. -/
structure DayTime where
  hour : Nat
  minute : Nat
  second : Nat
  micro : Nat
  offset : Option Int
deriving DecidableEq, Repr

structure Moment where
  year : Nat
  month : Nat
  day : Nat
  time : Option DayTime
deriving DecidableEq, Repr

namespace DayTime

def isValid (t : DayTime) : Bool :=
  t.hour < 24 && t.minute < 60 && t.second < 60
    && t.offset.all fun n => n.natAbs < 1440

end DayTime

namespace Moment

def isLeap (year : Nat) : Bool :=
  year % 4 = 0 && (year % 100 ≠ 0 || year % 400 = 0)

def daysOf (year month : Nat) : Nat :=
  if month = 2 then if isLeap year then 29 else 28
  else if month = 4 || month = 6 || month = 9 || month = 11 then 30
  else 31

def isValid (m : Moment) : Bool :=
  0 < m.year && (1 ≤ m.month && m.month ≤ 12) && (1 ≤ m.day && m.day ≤ daysOf m.year m.month)
    && m.time.all DayTime.isValid

/-! ## Text -/

def padded (width n : Nat) : String :=
  let digits := Nat.toDigits 10 n
  String.ofList (List.replicate (width - digits.length) '0' ++ digits)

def offsetText (n : Int) : String :=
  (if n < 0 then "-" else "+") ++ padded 2 (n.natAbs / 60) ++ ":" ++ padded 2 (n.natAbs % 60)

def timeText (t : DayTime) : String :=
  padded 2 t.hour ++ ":" ++ padded 2 t.minute ++ ":" ++ padded 2 t.second
    ++ (if t.micro = 0 then "" else "." ++ padded 6 t.micro)
    ++ t.offset.elim "" offsetText

def text (m : Moment) : String :=
  padded 4 m.year ++ "-" ++ padded 2 m.month ++ "-" ++ padded 2 m.day
    ++ m.time.elim "" fun t => " " ++ timeText t

def shownZone (n : Int) : String :=
  if n = 0 then "datetime.timezone.utc"
  else
    let days := if n < 0 then "days=-1, " else ""
    "datetime.timezone(datetime.timedelta(" ++ days ++ "seconds=" ++ toString (60 * n % 86400)
      ++ "))"

/-- The parts of a time of day, without zeros at the end. -/
def timeParts (t : DayTime) : List Nat :=
  if t.micro ≠ 0 then [t.hour, t.minute, t.second, t.micro]
  else if t.second ≠ 0 then [t.hour, t.minute, t.second]
  else [t.hour, t.minute]

def shown (m : Moment) : String :=
  let day := [m.year, m.month, m.day]
  match m.time with
  | none => "datetime.date(" ++ ", ".intercalate (day.map toString) ++ ")"
  | some t =>
      "datetime.datetime(" ++ ", ".intercalate ((day ++ timeParts t).map toString)
        ++ t.offset.elim "" (fun n => ", tzinfo=" ++ shownZone n) ++ ")"

end Moment
end Precedents
