import Precedents.Formula.Parse
import Precedents.Proofs.Formula.Lexing

/-!
# Renderings of formulas

A formula is written down in two steps.  First its tokens are put in a row:
every operand that does not bind tightly enough for its place stands in
parentheses, and any operand may stand in further ones.  Then the words of the
tokens are laid out in a text, with fillers between them where one likes.
-/

namespace Precedents

/-! ## Levels -/

namespace BinaryOp

/-- How tightly the operand in front of an operator binds at least. -/
def leftLevel : BinaryOp -> Nat
  | power => 7
  | op => op.level

def rightLevel : BinaryOp -> Nat
  | power => SignOp.level
  | op => op.level + 1

end BinaryOp

namespace SignOp

def terminal : SignOp -> Terminal
  | minus => .minus
  | plus => .plus

end SignOp

def percentLevel : Nat := 7

/-! ## Tokens of arrays -/

inductive ItemSpelled : Item -> List Token -> Prop where
  | number (word : Lexeme) : ItemSpelled (.number word) [⟨word, .number⟩]
  | negative (mark word : Lexeme) :
      ItemSpelled (.negative word) [⟨mark, .minus⟩, ⟨word, .number⟩]
  | string (word : Lexeme) : ItemSpelled (.string word) [⟨word, .string⟩]
  | boolean (word : Lexeme) : ItemSpelled (.boolean word) [⟨word, .boolean⟩]
  | error (word : Lexeme) : ItemSpelled (.error word) [⟨word, .error⟩]

inductive RowSpelled : List Item -> List Token -> Prop where
  | last {item : Item} {ts : List Token} (h : ItemSpelled item ts) :
      RowSpelled [item] ts
  | more {item : Item} {row : List Item} {ts us : List Token} (mark : Lexeme)
      (h : ItemSpelled item ts) (hrow : RowSpelled row us) :
      RowSpelled (item :: row) (ts ++ ⟨mark, .comma⟩ :: us)

inductive RowsSpelled : List (List Item) -> List Token -> Prop where
  | last {row : List Item} {ts : List Token} (h : RowSpelled row ts) :
      RowsSpelled [row] ts
  | more {row : List Item} {rows : List (List Item)} {ts us : List Token}
      (mark : Lexeme) (h : RowSpelled row ts) (hrows : RowsSpelled rows us) :
      RowsSpelled (row :: rows) (ts ++ ⟨mark, .semicolon⟩ :: us)

/-! ## Tokens of formulas -/

/--
A part of a formula: an operand in a place where it binds at least as tightly as
a level, an argument that may be left out, or the arguments of a call.  A call
without arguments has one that is left out.
-/
inductive Phrase
  | operand (level : Nat) (e : Expr)
  | argument (arg : Option Expr)
  | arguments (args : List (Option Expr))

inductive Spelled : Phrase -> List Token -> Prop where
  | number {level : Nat} (word : Lexeme) :
      Spelled (.operand level (.number word)) [⟨word, .number⟩]
  | boolean {level : Nat} (word : Lexeme) :
      Spelled (.operand level (.boolean word)) [⟨word, .boolean⟩]
  | string {level : Nat} (word : Lexeme) :
      Spelled (.operand level (.string word)) [⟨word, .string⟩]
  | error {level : Nat} (word : Lexeme) :
      Spelled (.operand level (.error word)) [⟨word, .error⟩]
  | name {level : Nat} (word : Lexeme) :
      Spelled (.operand level (.name word)) [⟨word, .name⟩]
  | reference {level : Nat} (kind : ReferenceKind) (body : Lexeme) :
      Spelled (.operand level (.reference kind none body)) [⟨body, kind.terminal⟩]
  | qualified {level : Nat} (kind : ReferenceKind) (sheet body : Lexeme) :
      Spelled (.operand level (.reference kind (some sheet) body))
        [⟨sheet, .sheet⟩, ⟨body, kind.terminal⟩]
  | array {level : Nat} {rows : List (List Item)} {ts : List Token}
      (left right : Lexeme) (h : RowsSpelled rows ts) :
      Spelled (.operand level (.array rows))
        (⟨left, .leftBrace⟩ :: (ts ++ [⟨right, .rightBrace⟩]))
  | call {level : Nat} {args : List (Option Expr)} {ts : List Token}
      (function right : Lexeme) (h : Spelled (.arguments args) ts) :
      Spelled (.operand level (.call function args))
        (⟨function, .functionName⟩ :: (ts ++ [⟨right, .rightParen⟩]))
  | binary {level : Nat} {op : BinaryOp} {left right : Expr}
      {ts us : List Token} (mark : Token)
      (hmark : BinaryOp.ofTerminal? mark.terminal = some op)
      (hlevel : level ≤ op.level)
      (hleft : Spelled (.operand op.leftLevel left) ts)
      (hright : Spelled (.operand op.rightLevel right) us) :
      Spelled (.operand level (.binary op left right)) (ts ++ mark :: us)
  | sign {level : Nat} {operand : Expr} {ts : List Token} (op : SignOp)
      (mark : Lexeme) (hlevel : level ≤ SignOp.level)
      (h : Spelled (.operand SignOp.level operand) ts) :
      Spelled (.operand level (.sign op operand)) (⟨mark, op.terminal⟩ :: ts)
  | percent {level : Nat} {operand : Expr} {ts : List Token} (mark : Lexeme)
      (hlevel : level ≤ percentLevel)
      (h : Spelled (.operand percentLevel operand) ts) :
      Spelled (.operand level (.percent operand)) (ts ++ [⟨mark, .percent⟩])
  | paren {level : Nat} {e : Expr} {ts : List Token} (left right : Lexeme)
      (h : Spelled (.operand 1 e) ts) :
      Spelled (.operand level e)
        (⟨left, .leftParen⟩ :: (ts ++ [⟨right, .rightParen⟩]))
  | omitted : Spelled (.argument none) []
  | given {e : Expr} {ts : List Token} (h : Spelled (.operand 1 e) ts) :
      Spelled (.argument (some e)) ts
  | last {arg : Option Expr} {ts : List Token}
      (h : Spelled (.argument arg) ts) : Spelled (.arguments [arg]) ts
  | more {arg : Option Expr} {args : List (Option Expr)} {ts us : List Token}
      (mark : Lexeme) (h : Spelled (.argument arg) ts)
      (hargs : Spelled (.arguments args) us) :
      Spelled (.arguments (arg :: args)) (ts ++ ⟨mark, .comma⟩ :: us)

/-! ## Layout -/

/--
The words of the tokens stand in the text, from the given offset on, with
nothing but fillers in front of them, between them and behind them.
-/
inductive Laid : Nat -> List Token -> List Char -> Prop where
  | last {offset : Nat} {gap : List Char}
      (hgap : forall c, c ∈ gap -> Terminal.isFiller c = true) :
      Laid offset [] gap
  | token {offset : Nat} {gap cs : List Char} {t : Token} {ts : List Token}
      (hgap : forall c, c ∈ gap -> Terminal.isFiller c = true)
      (hoffset : t.offset = offset + gap.length)
      (hword : t.terminal.Spells t.text.toList)
      (hrest : Laid (offset + gap.length + t.text.toList.length) ts cs) :
      Laid offset (t :: ts) (gap ++ (t.text.toList ++ cs))

/-- The text is a rendering of the formula, with or without an equals sign. -/
def Expr.Renders (e : Expr) (text : String) : Prop :=
  exists ts, Spelled (.operand 1 e) ts ∧
    (Laid 0 ts text.toList ∨
      exists mark, Laid 0 (⟨mark, .equal⟩ :: ts) text.toList)

end Precedents
