import Precedents.Data.Yaml.Flow

/-!
# Documents

A document is one datum.  Lists and mappings are written one entry a line and
nested by indentation, or in brackets; a document of white space and comments is
nothing.
-/

namespace Precedents
namespace Yaml

open Text

/-- A line that holds something: its indentation, and the text from there to the end. -/
structure Line where
  indent : Nat
  text : List Char

/-- The next line that holds something, from a place behind `indent` spaces. -/
def nextLine (indent : Nat) (inComment : Bool) : List Char -> Option Line
  | [] => none
  | c :: rest =>
      if isBreak c then nextLine 0 false rest
      else if inComment then nextLine 0 true rest
      else if c = ' ' then nextLine (indent + 1) false rest
      else if c = '#' then nextLine 0 true rest
      else some ⟨indent, c :: rest⟩

def Line.isMark (line : Line) : Bool :=
  line.indent = 0 && startsMark line.text

def firstLine (cs : List Char) : Option Line :=
  (nextLine 0 false cs).filter fun line => !line.isMark

def endOfLine (cs : List Char) : Option (List Char) :=
  match cs.dropWhile (· == ' ') with
  | [] => some []
  | c :: rest =>
      if isBreak c then some rest
      else if c = '#' then some ((rest.dropWhile fun d => !isBreak d).drop 1)
      else none

def isItem : List Char -> Bool
  | '-' :: rest => rest.head?.all isSpace
  | _ => false

def behindColon (cs : List Char) : Option (List Char) :=
  match cs.dropWhile (· == ' ') with
  | ':' :: rest => if rest.head?.all isSpace then some rest else none
  | _ => none

def lineScalar (cs : List Char) : Option (Scalar × List Char) :=
  match cs with
  | [] => none
  | c :: rest =>
      if opensQuotes c then do
        let (raw, rest) <- quotedRun? c rest
        let s <- quotedText? c raw
        return (.quoted s, rest)
      else if startsPlain false cs then
        let (word, rest) := plainRun false (fun gap => !gap.any isBreak) cs.length cs
        some (.plain word, rest)
      else none

def keyScalar? (cs : List Char) : Option (Scalar × List Char) := do
  let (s, rest) <- lineScalar cs
  let behind <- behindColon rest
  if mayBeKey cs (':' :: behind) then some (s, behind) else none

def lastIndent (gap : List Char) : Nat :=
  (gap.reverse.takeWhile fun c => !isBreak c).length

/-- A plain scalar goes on behind a gap: on its line, or on lines that are indented enough. -/
def joinsAt (floor : Nat) (gap : List Char) : Bool :=
  !gap.any isBreak || floor ≤ lastIndent gap

def inline (floor : Nat) (cs : List Char) : Option (Datum × List Char) := do
  let (d, rest) <-
    if startsPlain false cs then do
      let (word, rest) := plainRun false (joinsAt floor) cs.length cs
      let d <- Scalar.datum? (.plain word)
      some (d, rest)
    else flow (3 * cs.length + 3) cs
  let rest <- endOfLine rest
  return (d, rest)

mutual

/-- The datum that starts with a line, whose further lines are indented by at least `floor`. -/
def node : (fuel : Nat) -> (floor : Nat) -> Line -> Option (Datum × List Char)
  | 0, _, _ => none
  | fuel + 1, floor, line =>
      if isItem line.text then items fuel [] line
      else if (keyScalar? line.text).isSome then do
        let (found, rest) <- entries fuel {} line
        some (found.toDatum, rest)
      else inline floor line.text

def nested : (fuel : Nat) -> (indent : Nat) -> (underKey : Bool) -> List Char ->
    Option (Datum × List Char)
  | 0, _, _, _ => none
  | fuel + 1, indent, underKey, cs =>
      match firstLine cs with
      | none => some (.null, cs)
      | some line =>
          if indent < line.indent then node fuel (indent + 1) line
          else if underKey && line.indent = indent && isItem line.text then items fuel [] line
          else some (.null, cs)

def items : (fuel : Nat) -> (found : List Datum) -> Line -> Option (Datum × List Char)
  | 0, _, _ => none
  | fuel + 1, found, line => do
      let inside := List.replicate (line.indent + 1) ' ' ++ line.text.drop 1
      let (d, rest) <- nested fuel line.indent false inside
      let found := found ++ [d]
      match firstLine rest with
      | none => some (.list found, rest)
      | some next =>
          if line.indent < next.indent then none
          else if next.indent = line.indent && isItem next.text then items fuel found next
          else some (.list found, rest)

def entries : (fuel : Nat) -> (found : Entries) -> Line -> Option (Entries × List Char)
  | 0, _, _ => none
  | fuel + 1, found, line => do
      let (s, rest) <- keyScalar? line.text
      let key <- s.key?
      let (d, rest) <- match endOfLine rest with
        | some _ => nested fuel line.indent true (rest.dropWhile fun c => !isBreak c)
        | none => inline (line.indent + 1) (rest.dropWhile (· == ' '))
      let found <- found.add key d
      match firstLine rest with
      | none => some (found, rest)
      | some next =>
          if next.indent < line.indent then some (found, rest)
          else if next.indent = line.indent then entries fuel found next
          else none

end

def isAllowed (c : Char) : Bool :=
  let n := c.toNat
  c = '\t' || c = '\n' || c = '\r' || (0x20 ≤ n && n ≤ 0x7E) || n = 0x85
    || (0xA0 ≤ n && n ≠ 0xFFFE && n ≠ 0xFFFF)

/-- The text with one mark for all line breaks that count as a line feed. -/
def lineFeeds : List Char -> List Char
  | [] => []
  | '\r' :: '\n' :: rest => '\n' :: lineFeeds rest
  | c :: rest => (if c = '\r' || c = '\u0085' then '\n' else c) :: lineFeeds rest

def encodingMark : Char := '\uFEFF'

def withoutEncodingMark (cs : List Char) : List Char :=
  if cs.head? = some encodingMark then cs.drop 1 else cs

def behindMark? (cs : List Char) : Option (List Char) :=
  match nextLine 0 false cs with
  | some ⟨0, '-' :: '-' :: '-' :: rest⟩ =>
      if rest.head?.all isSpace then some (' ' :: rest) else none
  | _ => none

def isOver (cs : List Char) : Bool :=
  match nextLine 0 false cs with
  | none => true
  | some ⟨0, '.' :: '.' :: '.' :: rest⟩ =>
      match endOfLine rest with
      | some rest => (nextLine 0 false rest).isNone
      | none => false
  | some _ => false

def readDocument (cs : List Char) : Option Datum :=
  match firstLine cs with
  | none => if isOver cs then some .null else none
  | some line => do
      let (d, rest) <- node (4 * cs.length + 4) 0 line
      if isOver rest then some d else none

def read (s : String) : Option Datum :=
  let cs := withoutEncodingMark (lineFeeds s.toList)
  if s.toList.all isAllowed then readDocument ((behindMark? cs).getD cs) else none

end Yaml
end Precedents
