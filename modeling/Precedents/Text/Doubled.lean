/-!
# Doubled marks

Inside quotes a quotation mark is written twice.  `doubled` writes a text so,
`undoubled` reads it, and `quotedRun` finds where a quoted text ends: at the
first mark that is not followed by another one.
-/

namespace Precedents
namespace Text

def apostrophe : Char := '\x27'

def quoteMark : Char := '\x22'

def doubled (mark : Char) (cs : List Char) : List Char :=
  cs.flatMap fun c => if c = mark then [mark, mark] else [c]

def undoubled (mark : Char) : List Char -> List Char
  | [] => []
  | [c] => [c]
  | c :: d :: rest =>
      if c = mark ∧ d = mark then mark :: undoubled mark rest
      else c :: undoubled mark (d :: rest)

/--
What stands before the closing mark, with its doubled marks, and what follows
the closing mark.  The text starts behind the opening mark.
-/
def quotedRun (mark : Char) : List Char -> Option (List Char × List Char)
  | [] => none
  | [c] => if c = mark then some ([], []) else none
  | c :: d :: rest =>
      if c = mark then
        if d = mark then
          (quotedRun mark rest).map fun found => (c :: d :: found.1, found.2)
        else some ([], d :: rest)
      else
        (quotedRun mark (d :: rest)).map fun found => (c :: found.1, found.2)

end Text
end Precedents
