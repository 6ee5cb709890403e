import Precedents.Text.Printable
import Precedents.Text.Doubled

/-!
# Quoted text in messages

A message shows a text from a formula between quotation marks and with escapes
for what would not show.  Apostrophes enclose it, unless it holds apostrophes
and no double mark; the enclosing mark and the reversed solidus are escaped.
-/

namespace Precedents
namespace Text

/-- The lower-case digits of `n` in base sixteen, at least `width` of them. -/
def hexDigits (width n : Nat) : List Char :=
  let digits := Nat.toDigits 16 n
  List.replicate (width - digits.length) '0' ++ digits

def escapedCode (c : Char) : List Char :=
  let n := c.toNat
  if n < 0x100 then '\\' :: 'x' :: hexDigits 2 n
  else if n < 0x10000 then '\\' :: 'u' :: hexDigits 4 n
  else '\\' :: 'U' :: hexDigits 8 n

def quotedChar (mark c : Char) : List Char :=
  if c = mark ∨ c = '\\' then ['\\', c]
  else if c = '\n' then ['\\', 'n']
  else if c = '\r' then ['\\', 'r']
  else if c = '\t' then ['\\', 't']
  else if isPrintable c then [c]
  else escapedCode c

def enclosingMark (cs : List Char) : Char :=
  if cs.contains apostrophe && !cs.contains quoteMark then quoteMark else apostrophe

def quoted (s : String) : String :=
  let cs := s.toList
  let mark := enclosingMark cs
  String.ofList (mark :: cs.flatMap (quotedChar mark) ++ [mark])

end Text
end Precedents
