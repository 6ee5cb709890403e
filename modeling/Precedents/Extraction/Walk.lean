import Precedents.Extraction.Extractor
import Precedents.Formula.Literal

/-!
# The walk through a formula

The tree of a formula is walked from its leaves: every part has a value before
the call or the operator around it is looked at, from left to right.
-/

namespace Precedents
namespace Extractor

def itemValue : Item -> Except NumeralError Value
  | .number word => Literal.number word.text
  | .negative word => Literal.negativeNumber word.text
  | .string word => .ok (.text (Literal.string word.text))
  | .boolean word => .ok (.bool (Literal.boolean word.text))
  | .error word => .ok (.error (Literal.error word.text))

def arrayValue (rows : List (List Item)) : Except Fault Value :=
  match rows.mapM fun row => row.mapM itemValue with
  | .ok rows => .ok (.list (rows.map Value.list))
  | .error error => .error (.numeral error)

def offGridMessage (sheet : Option Lexeme) (body : Lexeme) (error : ReferenceError) : String :=
  "Invalid reference " ++ Text.quoted ((sheet.map Lexeme.text).getD "" ++ body.text) ++ ": "
    ++ error.message

/-- A reference in a formula.  One that lies off the grid is reported where it starts. -/
def referenceValue (position : Position) (formula : String) (kind : ReferenceKind)
    (sheet : Option Lexeme) (body : Lexeme) : Traced Value :=
  match sheet.mapM fun word => Literal.sheet word.text with
  | .error error => Traced.fail (.sheet error)
  | .ok name =>
      match Literal.reference kind body.text name with
      | .ok ref => pure (mark position ref)
      | .error error => do
          let start := (sheet.getD body).offset
          Traced.note (.offGrid (.ofOffset formula start (offGridMessage sheet body error)))
          return .error .ref

mutual

def walk (x : Extractor) (position : Position) (formula : String) : Expr -> Traced Value
  | .number word => Traced.ofExcept ((Literal.number word.text).mapError .numeral)
  | .boolean word => pure (.bool (Literal.boolean word.text))
  | .string word => pure (.text (Literal.string word.text))
  | .error word => pure (.error (Literal.error word.text))
  | .reference kind sheet body => referenceValue position formula kind sheet body
  | .name word => x.nameValue position word.text
  | .call function [none] => x.call position (Literal.function function.text) []
  | .call function args => do
      let values <- walkArgs x position formula args
      x.call position (Literal.function function.text) values
  | .array rows => Traced.ofExcept (arrayValue rows)
  | .binary _ left right => do
      let a <- walk x position formula left
      let b <- walk x position formula right
      plainCall position [a, b]
  | .sign _ operand => do
      let a <- walk x position formula operand
      plainCall position [a]
  | .percent operand => do
      let a <- walk x position formula operand
      plainCall position [a]

def walkArgs (x : Extractor) (position : Position) (formula : String) :
    List (Option Expr) -> Traced (List Value)
  | [] => pure []
  | none :: rest => do
      let values <- walkArgs x position formula rest
      return .missing :: values
  | some e :: rest => do
      let v <- walk x position formula e
      let values <- walkArgs x position formula rest
      return v :: values

end

mutual

/--
The value of a part of a formula, if there is room for its levels of the tree.
The arguments of a call stand two levels below it, and the items of an array
stand in rows.
-/
def walkWithin (x : Extractor) (position : Position) (formula : String) (room : Nat)
    (e : Expr) : Traced Value :=
  if room < e.levels then Traced.fail .tooDeep
  else
    match e with
    | .call function [none] => x.call position (Literal.function function.text) []
    | .call function args => do
        let values <- walkArgsWithin x position formula (room - 2) args
        x.call position (Literal.function function.text) values
    | .binary _ left right => do
        let a <- walkWithin x position formula (room - 1) left
        let b <- walkWithin x position formula (room - 1) right
        plainCall position [a, b]
    | .sign _ operand => do
        let a <- walkWithin x position formula (room - 1) operand
        plainCall position [a]
    | .percent operand => do
        let a <- walkWithin x position formula (room - 1) operand
        plainCall position [a]
    | leaf => walk x position formula leaf

def walkArgsWithin (x : Extractor) (position : Position) (formula : String) (room : Nat) :
    List (Option Expr) -> Traced (List Value)
  | [] => pure []
  | none :: rest => do
      let values <- walkArgsWithin x position formula room rest
      return .missing :: values
  | some e :: rest => do
      let v <- walkWithin x position formula room e
      let values <- walkArgsWithin x position formula room rest
      return v :: values

end

end Extractor
end Precedents
