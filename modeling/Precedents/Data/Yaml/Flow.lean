import Precedents.Data.Yaml.Quotes

/-!
# Data in brackets

Lists and mappings may be written in brackets, over any number of lines.  Every
JSON text is of this form.
-/

namespace Precedents
namespace Yaml

open Text

def isSpace (c : Char) : Bool :=
  isGap c || isBreak c

def brackets : List Char := [',', '[', ']', '\x7b', '\x7d']

def indicators : List Char :=
  brackets ++ "-?:#&*!|>'\"%@`".toList

/-- A plain scalar may start here; `inFlow` says whether there are brackets around it. -/
def startsPlain (inFlow : Bool) : List Char -> Bool
  | [] => false
  | c :: rest =>
      (!isSpace c && !indicators.contains c)
        || ((c = '-' || (!inFlow && (c = '?' || c = ':'))) && rest.head?.any fun d => !isSpace d)

/-- A plain scalar ends in front of the character, for what comes next. -/
def endsPlain (inFlow : Bool) (c : Char) (next : Option Char) : Bool :=
  isSpace c
    || (c = ':' && next.all fun d => isSpace d || (inFlow && brackets.contains d))
    || (inFlow && (c = '?' || brackets.contains c))

def chunk (inFlow : Bool) : List Char -> List Char × List Char
  | [] => ([], [])
  | c :: rest =>
      if endsPlain inFlow c rest.head? then ([], c :: rest)
      else
        let found := chunk inFlow rest
        (c :: found.1, found.2)

def gapRun (cs : List Char) : List Char × List Char :=
  cs.span fun c => c = ' ' || isBreak c

def foldGap (gap : List Char) : List Char :=
  foldedGap (gap.filter isBreak) gap

/-- The text starts with a mark between documents, if it stands at the start of a line. -/
def startsMark (cs : List Char) : Bool :=
  (['-', '-', '-'].isPrefixOf cs || ['.', '.', '.'].isPrefixOf cs) && (cs.drop 3).head?.all isSpace

def isMarkBehind (gap next : List Char) : Bool :=
  gap.getLast?.any isBreak && startsMark next

/--
A plain scalar and what follows it.  White space belongs to the scalar if it
satisfies `joins` and something follows that is neither a mark nor a comment.
-/
def plainRun (inFlow : Bool) (joins : List Char -> Bool) : (fuel : Nat) -> List Char ->
    List Char × List Char
  | 0, cs => ([], cs)
  | fuel + 1, cs =>
      let (word, rest) := chunk inFlow cs
      let (gap, next) := gapRun rest
      if gap.isEmpty || next.head? = some '#' || !joins gap || isMarkBehind gap next
          || (chunk inFlow next).1.isEmpty then
        (word, rest)
      else
        let more := plainRun inFlow joins fuel next
        (word ++ foldGap gap ++ more.1, more.2)

def skip (inComment : Bool) : List Char -> List Char
  | [] => []
  | c :: rest =>
      if inComment then skip (!isBreak c) rest
      else if c = ' ' || isBreak c then skip false rest
      else if c = '#' then skip true rest
      else c :: rest

def keyLimit : Nat := 1024

/-- What stands in front of `rest` is short enough for a key, and on one line. -/
def mayBeKey (cs rest : List Char) : Bool :=
  let key := cs.take (cs.length - rest.length)
  key.length ≤ keyLimit && !key.any isBreak

def flowScalar (cs : List Char) : Option (Scalar × List Char) :=
  match cs with
  | [] => none
  | c :: rest =>
      if opensQuotes c then do
        let (raw, rest) <- quotedRun? c rest
        let s <- quotedText? c raw
        return (.quoted s, rest)
      else if startsPlain true cs then
        let (word, rest) := plainRun true (fun _ => true) cs.length cs
        some (.plain word, rest)
      else none

/-- What stands at a place in brackets: a scalar, or data in further brackets. -/
inductive Node
  | scalar (s : Scalar)
  | datum (d : Datum)

namespace Node

def datum? : Node -> Option Datum
  | scalar s => s.datum?
  | datum d => some d

def key? : Node -> Option Key
  | scalar s => s.key?
  | datum _ => none

end Node

mutual

def flowNode : (fuel : Nat) -> List Char -> Option (Node × List Char)
  | 0, _ => none
  | fuel + 1, '[' :: rest => do
      let (items, rest) <- flowItems fuel [] (skip false rest)
      return (.datum (.list items), rest)
  | fuel + 1, '\x7b' :: rest => do
      let (entries, rest) <- flowEntries fuel {} (skip false rest)
      return (.datum entries.toDatum, rest)
  | _ + 1, cs => do
      let (s, rest) <- flowScalar cs
      return (.scalar s, rest)

def flowEntryValue : (fuel : Nat) -> List Char -> Option (Datum × List Char)
  | 0, _ => none
  | fuel + 1, cs =>
      match cs with
      | [] => none
      | c :: _ =>
          if c = ',' || c = ']' || c = '\x7d' then some (.null, cs)
          else do
            let (node, rest) <- flowNode fuel cs
            let d <- node.datum?
            return (d, skip false rest)

def flowItems : (fuel : Nat) -> (items : List Datum) -> List Char ->
    Option (List Datum × List Char)
  | 0, _, _ => none
  | _ + 1, items, ']' :: rest => some (items, rest)
  | fuel + 1, items, cs => do
      let (node, rest) <- flowNode fuel cs
      let (d, rest) <- match skip false rest with
        | ':' :: behind => do
            let key <- if mayBeKey cs (':' :: behind) then node.key? else none
            let (value, rest) <- flowEntryValue fuel (skip false behind)
            let entries <- Entries.add {} key value
            some (entries.toDatum, rest)
        | rest => do
            let d <- node.datum?
            some (d, rest)
      match rest with
      | ',' :: rest => flowItems fuel (items ++ [d]) (skip false rest)
      | ']' :: rest => some (items ++ [d], rest)
      | _ => none

def flowEntries : (fuel : Nat) -> (found : Entries) -> List Char -> Option (Entries × List Char)
  | 0, _, _ => none
  | _ + 1, found, '\x7d' :: rest => some (found, rest)
  | fuel + 1, found, cs => do
      let (node, rest) <- flowNode fuel cs
      let key <- node.key?
      let (value, rest) <- match skip false rest with
        | ':' :: behind =>
            if mayBeKey cs (':' :: behind) then flowEntryValue fuel (skip false behind) else none
        | rest => some (Datum.null, rest)
      let found <- found.add key value
      match rest with
      | ',' :: rest => flowEntries fuel found (skip false rest)
      | '\x7d' :: rest => some (found, rest)
      | _ => none

end

def flow (fuel : Nat) (cs : List Char) : Option (Datum × List Char) := do
  let (node, rest) <- flowNode fuel cs
  let d <- node.datum?
  return (d, rest)

end Yaml
end Precedents
