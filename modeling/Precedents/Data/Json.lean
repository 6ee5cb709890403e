import Precedents.Data.Datum

/-!
# JSON text

Data are printed as JSON in plain seven-bit characters: everything else is
escaped by its code in sixteen-bit units.  The text is either on one line or
spread over lines with two spaces for each level.
-/

namespace Precedents
namespace Json

def unit (n : Nat) : List Char :=
  '\\' :: 'u' :: Text.hexDigits 4 n

/-- A character by its sixteen-bit units; those beyond the first plane take two. -/
def units (c : Char) : List Char :=
  let n := c.toNat
  if n < 0x10000 then unit n
  else unit (0xD800 + (n - 0x10000) / 0x400) ++ unit (0xDC00 + (n - 0x10000) % 0x400)

def escapedChar (c : Char) : List Char :=
  if c = '"' then ['\\', '"']
  else if c = '\\' then ['\\', '\\']
  else if c = '\n' then ['\\', 'n']
  else if c = '\r' then ['\\', 'r']
  else if c = '\t' then ['\\', 't']
  else if c.toNat = 8 then ['\\', 'b']
  else if c.toNat = 12 then ['\\', 'f']
  else if ' ' ≤ c ∧ c ≤ '~' then [c]
  else units c

def string (s : String) : String :=
  String.ofList ('"' :: s.toList.flatMap escapedChar ++ ['"'])

/-- A scalar; a number that JSON has no digits for is left open. -/
def scalar : Datum -> String
  | .null => "null"
  | .bool b => if b then "true" else "false"
  | .int n => toString n
  | .float x => if x.isFinite then x.text else "null"
  | .text s => string s
  | .moment m => string m.text
  | .list _ => "[]"
  | .map _ => "\x7b\x7d"

def key : Datum -> String
  | .text s => string s
  | d => string (scalar d)

mutual

def line : Datum -> String
  | .list items => "[" ++ lineItems items ++ "]"
  | .map entries => "\x7b" ++ lineEntries entries ++ "\x7d"
  | d => scalar d

def lineItems : List Datum -> String
  | [] => ""
  | [d] => line d
  | d :: rest => line d ++ ", " ++ lineItems rest

def lineEntries : List (Datum × Datum) -> String
  | [] => ""
  | [(k, d)] => key k ++ ": " ++ line d
  | (k, d) :: rest => key k ++ ": " ++ line d ++ ", " ++ lineEntries rest

end

def newLine (level : Nat) : String :=
  String.ofList ('\n' :: List.replicate (2 * level) ' ')

mutual

/-- A datum spread over lines, inside `level` brackets. -/
def spread (level : Nat) : Datum -> String
  | .list [] => "[]"
  | .list (d :: rest) =>
      "[" ++ newLine (level + 1) ++ spread (level + 1) d ++ spreadItems (level + 1) rest
        ++ newLine level ++ "]"
  | .map [] => "\x7b\x7d"
  | .map ((k, d) :: rest) =>
      "\x7b" ++ newLine (level + 1) ++ key k ++ ": " ++ spread (level + 1) d
        ++ spreadEntries (level + 1) rest ++ newLine level ++ "\x7d"
  | d => scalar d

def spreadItems (level : Nat) : List Datum -> String
  | [] => ""
  | d :: rest => "," ++ newLine level ++ spread level d ++ spreadItems level rest

def spreadEntries (level : Nat) : List (Datum × Datum) -> String
  | [] => ""
  | (k, d) :: rest =>
      "," ++ newLine level ++ key k ++ ": " ++ spread level d ++ spreadEntries level rest

end

/-- The entries with one more, in its place by the code points of the keys. -/
def insertEntry (entry : Datum × Datum) : List (Datum × Datum) -> List (Datum × Datum)
  | [] => [entry]
  | other :: rest =>
      if entry.1.scalarText < other.1.scalarText then entry :: other :: rest
      else other :: insertEntry entry rest

mutual

def sorted : Datum -> Datum
  | .list items => .list (sortedItems items)
  | .map entries => .map (sortedEntries entries)
  | d => d

def sortedItems : List Datum -> List Datum
  | [] => []
  | d :: rest => sorted d :: sortedItems rest

def sortedEntries : List (Datum × Datum) -> List (Datum × Datum)
  | [] => []
  | (k, d) :: rest => insertEntry (k, sorted d) (sortedEntries rest)

end

end Json
end Precedents
