import Precedents.Formula.Terminal

/-!
# Formulas

The tree of a formula keeps the words of the text with their places, and drops
marks and parentheses.
-/

namespace Precedents

structure Lexeme where
  text : String
  offset : Nat
deriving DecidableEq, Repr

structure Token extends Lexeme where
  terminal : Terminal
deriving DecidableEq, Repr

inductive ReferenceKind
  | cell
  | cells
  | columns
  | rows
deriving DecidableEq, Repr

inductive BinaryOp
  | equal | notEqual | greater | less | atLeast | atMost
  | join
  | add | subtract
  | multiply | divide
  | power
deriving DecidableEq, Repr

inductive SignOp
  | minus
  | plus
deriving DecidableEq, Repr

inductive Item
  | number (word : Lexeme)
  | negative (word : Lexeme)
  | string (word : Lexeme)
  | boolean (word : Lexeme)
  | error (word : Lexeme)
deriving DecidableEq, Repr

/-- A formula or a part of one.  An argument that is left out is `none`. -/
inductive Expr
  | number (word : Lexeme)
  | boolean (word : Lexeme)
  | string (word : Lexeme)
  | error (word : Lexeme)
  | reference (kind : ReferenceKind) (sheet : Option Lexeme) (body : Lexeme)
  | name (word : Lexeme)
  | call (function : Lexeme) (args : List (Option Expr))
  | array (rows : List (List Item))
  | binary (op : BinaryOp) (left right : Expr)
  | sign (op : SignOp) (operand : Expr)
  | percent (operand : Expr)
deriving Repr, Inhabited

namespace ReferenceKind

def terminal : ReferenceKind -> Terminal
  | cell => .cell
  | cells => .cellRange
  | columns => .columnRange
  | rows => .rowRange

def ofTerminal? : Terminal -> Option ReferenceKind
  | .cell => some cell
  | .cellRange => some cells
  | .columnRange => some columns
  | .rowRange => some rows
  | _ => none

end ReferenceKind

namespace BinaryOp

/--
How tightly an operator binds.  Operators of one level group to the left,
`power` to the right.
-/
def level : BinaryOp -> Nat
  | equal | notEqual | greater | less | atLeast | atMost => 1
  | join => 2
  | add | subtract => 3
  | multiply | divide => 4
  | power => 6

def ofTerminal? : Terminal -> Option BinaryOp
  | .equal => some equal
  | .notEqual => some notEqual
  | .greater => some greater
  | .less => some less
  | .atLeast => some atLeast
  | .atMost => some atMost
  | .ampersand => some join
  | .plus => some add
  | .minus => some subtract
  | .star => some multiply
  | .slash => some divide
  | .circumflex => some power
  | _ => none

end BinaryOp

namespace SignOp

def level : Nat := 5

end SignOp

namespace Expr

/-- The levels of the tree that a part takes up, those of its operands or arguments apart. -/
def levels : Expr -> Nat
  | .call _ _ => 2
  | .array _ => 3
  | _ => 1

end Expr
end Precedents
