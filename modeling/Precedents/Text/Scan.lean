/-!
# Scanners

A scanner reads from the start of a text and returns what follows, or fails.
Scanners are composed with `>=>`.  Each part takes as much as it can and never
gives anything back; the shapes of formulas are written so that this finds the
same text as a search through all ways to divide it.
-/

namespace Precedents
namespace Text

/-- Reads from the start of a text and returns what follows. -/
abbrev Scanner := List Char -> Option (List Char)

namespace Scanner

def one (p : Char -> Bool) : Scanner
  | [] => none
  | c :: rest => if p c then some rest else none

def char (c : Char) : Scanner :=
  one (· == c)

def many (p : Char -> Bool) : Scanner :=
  fun cs => some (cs.dropWhile p)

def many1 (p : Char -> Bool) : Scanner :=
  one p >=> many p

def atMost (p : Char -> Bool) : Nat -> Scanner
  | n + 1, c :: rest => if p c then atMost p n rest else some (c :: rest)
  | _, cs => some cs

/-- From one to `n + 1` characters that satisfy `p`. -/
def oneTo (p : Char -> Bool) (n : Nat) : Scanner :=
  one p >=> atMost p n

def maybe (s : Scanner) : Scanner :=
  fun cs => (s cs).or (some cs)

def either (s t : Scanner) : Scanner :=
  fun cs => (s cs).or (t cs)

/-- Nothing, provided that the next character does not satisfy `p`. -/
def notBefore (p : Char -> Bool) : Scanner
  | [] => some []
  | c :: rest => if p c then none else some (c :: rest)

def literal : (word : List Char) -> Scanner
  | [] => some
  | c :: word => char c >=> literal word

def readsAll (s : Scanner) (cs : List Char) : Bool :=
  s cs == some []

/-- The scanner reads the whole text up to one line feed at its end. -/
def readsLine (s : Scanner) (cs : List Char) : Bool :=
  s cs == some [] || s cs == some ['\n']

end Scanner

def splitFirst (mark : Char) : List Char -> Option (List Char × List Char)
  | [] => none
  | c :: rest =>
      if c = mark then some ([], rest)
      else (splitFirst mark rest).map fun parts => (c :: parts.1, parts.2)

end Text
end Precedents
