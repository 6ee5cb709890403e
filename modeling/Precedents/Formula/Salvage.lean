import Precedents.Formula.Literal

/-!
# References in unreadable formulas

A formula that could not be completed may still name cells.  Its references are
found by reading tokens of any kind from the start, whatever may come next.
A sheet belongs to the reference right behind it.
-/

namespace Precedents
namespace Salvage

/-- What has been found: the references, and the sheet that has just been read. -/
structure Haul where
  sheet : Option String
  references : List Reference

namespace Haul

def add (haul : Haul) (kind : ReferenceKind) (text : String) : Haul :=
  match Literal.reference kind text haul.sheet with
  | .ok ref => ⟨none, haul.references ++ [ref]⟩
  | .error _ => ⟨none, haul.references⟩

def take (haul : Haul) (terminal : Terminal) (text : String) : Except ReferenceError Haul :=
  match terminal, ReferenceKind.ofTerminal? terminal with
  | .sheet, _ => (Literal.sheet text).map fun name => ⟨some name, haul.references⟩
  | _, some kind => .ok (haul.add kind text)
  | _, none => .ok { haul with sheet := none }

end Haul

/--
Goes on over a text of which the first `skip` characters have been dealt with,
for tokens that start before `budget` more characters.
-/
def go (haul : Haul) (budget skip : Nat) : List Char -> Except ReferenceError Haul
  | [] => .ok haul
  | c :: rest =>
      match budget, skip with
      | 0, _ => .ok haul
      | budget + 1, skip + 1 => go haul budget skip rest
      | budget + 1, 0 =>
          match Terminal.first? (fun _ => true) (c :: rest) with
          | none => .ok haul
          | some (terminal, word) =>
              match haul.take terminal (String.ofList word) with
              | .ok haul => go haul budget (word.length - 1) rest
              | .error e => .error e

/-- The references on the grid that start in the first `stop` characters of a text. -/
def references (text : String) (stop : Nat) : Except ReferenceError (List Reference) :=
  (go ⟨none, []⟩ stop 0 text.toList).map Haul.references

end Salvage
end Precedents
