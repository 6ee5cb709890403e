import Precedents.Text.Quoted

/-!
# Words that are alike

Two words are compared by the characters that they share.  The longest block of
characters that stands in both is shared, and so is what the parts in front of
it share, and what the parts behind it share.  Of a list of words, those that
share enough with a given one may be what was meant.
-/

namespace Precedents
namespace Text

structure Block where
  /-- The number of characters in front of it in the first word. -/
  left : Nat
  /-- The number of characters in front of it in the second word. -/
  right : Nat
  size : Nat

namespace Block

/-- The longer of two blocks, and of equally long ones the first. -/
def longer (a b : Block) : Block :=
  if a.size < b.size then b else a

def commonStart : List Char -> List Char -> Nat
  | c :: cs, d :: ds => if c = d then commonStart cs ds + 1 else 0
  | _, _ => 0

/-- The longest block that starts where `cs` starts, for the places of `ds` from `right` on. -/
def longestAt (left : Nat) (cs : List Char) (right : Nat) : List Char -> Block
  | [] => ⟨left, right, 0⟩
  | d :: ds =>
      longer ⟨left, right, commonStart cs (d :: ds)⟩ (longestAt left cs (right + 1) ds)

def longestFrom (left : Nat) (cs ds : List Char) : Block :=
  match cs with
  | [] => ⟨left, 0, 0⟩
  | c :: rest => longer (longestAt left (c :: rest) 0 ds) (longestFrom (left + 1) rest ds)

/-- The longest block of two words; of several the first in the first word, then in the second. -/
def longest (cs ds : List Char) : Block :=
  longestFrom 0 cs ds

end Block

def shared : (fuel : Nat) -> List Char -> List Char -> Nat
  | 0, _, _ => 0
  | fuel + 1, cs, ds =>
      let block := Block.longest cs ds
      if block.size = 0 then 0
      else
        block.size + shared fuel (cs.take block.left) (ds.take block.right)
          + shared fuel (cs.drop (block.left + block.size)) (ds.drop (block.right + block.size))

structure Candidate where
  word : String
  shared : Nat
  total : Nat

namespace Candidate

def of (given word : String) : Candidate :=
  let cs := word.toList
  let ds := given.toList
  ⟨word, Text.shared (cs.length + 1) cs ds, cs.length + ds.length⟩

/-- Three fifths of the characters are shared. -/
def isClose (c : Candidate) : Bool :=
  3 * c.total ≤ 10 * c.shared

/-- The candidate comes before another one: it is more alike, or as much and greater as a word. -/
def precedes (a b : Candidate) : Bool :=
  b.shared * a.total < a.shared * b.total
    || (b.shared * a.total == a.shared * b.total && b.word < a.word)

def insert (c : Candidate) : List Candidate -> List Candidate
  | [] => [c]
  | d :: rest => if c.precedes d then c :: d :: rest else d :: insert c rest

end Candidate

def insertWord (word : String) : List String -> List String
  | [] => [word]
  | other :: rest =>
      if word < other then word :: other :: rest else other :: insertWord word rest

/-- The three words that are most like the given one, if they are like it at all, in order. -/
def likeWords (given : String) (words : List String) : List String :=
  let close := (words.map (Candidate.of given)).filter Candidate.isClose
  let best := (close.foldr Candidate.insert []).take 3
  (best.map Candidate.word).foldr insertWord []

def suggestion : List String -> String
  | [] => ""
  | [word] => " Did you mean " ++ quoted word ++ "?"
  | words => " (Did you mean one of: " ++ ", ".intercalate (words.map quoted) ++ "?)"

end Text
end Precedents
