import Precedents.Text.Quoted

/-!
# Diagnostics

A diagnostic is a message about a place in a text.  Places are counted in
characters from zero; lines, and columns within a line, from one.
-/

namespace Precedents

structure Place where
  line : Nat
  column : Nat
  sourceLine : List Char
deriving DecidableEq, Repr

structure Diagnostic where
  line : Nat
  column : Nat
  offset : Int
  sourceLine : String
  message : String
deriving DecidableEq, Repr

namespace Place

/-- The place after `offset` characters; past the end it is the end. -/
def locate (cs : List Char) (offset : Nat) : Place :=
  let before := cs.take offset
  let head := (before.reverse.takeWhile (· ≠ '\n')).reverse
  { line := before.count '\n' + 1
    column := head.length + 1
    sourceLine := head ++ (cs.drop offset).takeWhile (· ≠ '\n') }

end Place

namespace Diagnostic

/-- A message about the place after `offset` characters.  A negative offset stands for the start. -/
def ofOffset (text : String) (offset : Int) (message : String) : Diagnostic :=
  let place := Place.locate text.toList offset.toNat
  { line := place.line
    column := place.column
    offset := offset
    sourceLine := String.ofList place.sourceLine
    message := message }

def render (d : Diagnostic) : String :=
  "\n" ++ d.sourceLine ++ "\n" ++ String.ofList (List.replicate (d.column - 1) ' ') ++ "^\n"
    ++ "Error at position " ++ toString d.line ++ ":" ++ toString d.column ++ "\n" ++ d.message

end Diagnostic
end Precedents
