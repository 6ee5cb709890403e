import Precedents.Text.Ranges

/-!
# Blank characters

White space of any script, and the removal of it at the ends of a text.
-/

namespace Precedents
namespace Text

def blankRanges : List CodeRange := [
  (0x9, 0xD), (0x1C, 0x20), (0x85, 0x85), (0xA0, 0xA0), (0x1680, 0x1680), (0x2000, 0x200A),
  (0x2028, 0x2029), (0x202F, 0x202F), (0x205F, 0x205F), (0x3000, 0x3000)]

def isBlank (c : Char) : Bool :=
  covers blankRanges c

def dropEndWhile (p : Char -> Bool) (cs : List Char) : List Char :=
  (cs.reverse.dropWhile p).reverse

def trimWhile (p : Char -> Bool) (cs : List Char) : List Char :=
  dropEndWhile p (cs.dropWhile p)

def trim (cs : List Char) : List Char :=
  trimWhile isBlank cs

end Text
end Precedents
