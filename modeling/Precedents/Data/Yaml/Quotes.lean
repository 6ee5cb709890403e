import Precedents.Data.Yaml.Scalar
import Precedents.Text.Doubled

/-!
# Quoted scalars

Between apostrophes only the apostrophe itself is written twice; between
quotation marks a reversed solidus starts an escape.  Either may go over several
lines: a line break then counts as a space, and empty lines stay.
-/

namespace Precedents
namespace Yaml

open Text

/-- A line break; all but the line feed are kept where they stand. -/
def isBreak (c : Char) : Bool :=
  c = '\n' || c = '\u2028' || c = '\u2029'

/-- What stands for white space with some line breaks in it; without them it is `gap`. -/
def foldedGap (breaks gap : List Char) : List Char :=
  match breaks with
  | [] => gap
  | ['\n'] => [' ']
  | '\n' :: more => more
  | breaks => breaks

def foldLines (breaks gap : List Char) : List Char -> List Char
  | [] => foldedGap breaks gap
  | c :: rest =>
      if isBreak c then foldLines (breaks ++ [c]) [] rest
      else if isGap c then foldLines breaks (gap ++ [c]) rest
      else foldedGap breaks gap ++ c :: foldLines [] [] rest

def escapes : List (Char × Nat) := [
  ('0', 0), ('a', 7), ('b', 8), ('t', 9), ('\t', 9), ('n', 10), ('v', 11), ('f', 12), ('r', 13),
  ('e', 27), (' ', 32), ('"', 34), ('\\', 92), ('/', 47), ('N', 0x85), ('_', 0xA0),
  ('L', 0x2028), ('P', 0x2029)]

def code? (digits : List Char) : Option Nat :=
  if digits.all fun c => (hexValue? c).isSome then some (number 16 digits) else none

def charOf? (digits : List Char) : Option Char :=
  (code? digits).map Char.ofNat

/-- The character of two codes, each of which is half of one. -/
def charOfHalves? (high low : List Char) : Option Char := do
  let h <- code? high
  let l <- code? low
  if 0xD800 ≤ h && h < 0xDC00 && 0xDC00 ≤ l && l < 0xE000 then
    some (Char.ofNat (0x10000 + (h - 0xD800) * 0x400 + (l - 0xDC00)))
  else none

def unescaped : List Char -> Option (List Char)
  | [] => some []
  | '\\' :: 'x' :: a :: b :: rest => do
      let c <- charOf? [a, b]
      let cs <- unescaped rest
      return c :: cs
  | '\\' :: 'u' :: a :: b :: c :: d :: '\\' :: 'u' :: e :: f :: g :: h :: rest =>
      match charOfHalves? [a, b, c, d] [e, f, g, h] with
      | some whole => (unescaped rest).map (whole :: ·)
      | none => do
          let c <- charOf? [a, b, c, d]
          let cs <- unescaped ('\\' :: 'u' :: e :: f :: g :: h :: rest)
          return c :: cs
  | '\\' :: 'u' :: a :: b :: c :: d :: rest => do
      let c <- charOf? [a, b, c, d]
      let cs <- unescaped rest
      return c :: cs
  | '\\' :: 'U' :: a :: b :: c :: d :: e :: f :: g :: h :: rest => do
      let c <- charOf? [a, b, c, d, e, f, g, h]
      let cs <- unescaped rest
      return c :: cs
  | '\\' :: c :: rest => do
      let found <- escapes.find? fun escape => escape.1 == c
      let cs <- unescaped rest
      return Char.ofNat found.2 :: cs
  | c :: rest => do
      let cs <- unescaped rest
      return c :: cs

def escapedRun : List Char -> Option (List Char × List Char)
  | [] => none
  | ['"'] => some ([], [])
  | [_] => none
  | c :: d :: rest =>
      if c = '"' then some ([], d :: rest)
      else if c = '\\' then
        (escapedRun rest).map fun found => (c :: d :: found.1, found.2)
      else (escapedRun (d :: rest)).map fun found => (c :: found.1, found.2)

def quotedRun? (mark : Char) (cs : List Char) : Option (List Char × List Char) :=
  if mark = apostrophe then quotedRun apostrophe cs else escapedRun cs

def quotedText? (mark : Char) (raw : List Char) : Option String :=
  let folded := foldLines [] [] raw
  if mark = apostrophe then some (String.ofList (undoubled apostrophe folded))
  else (unescaped folded).map String.ofList

def opensQuotes (c : Char) : Bool :=
  c = apostrophe || c = quoteMark

end Yaml
end Precedents
