import Precedents.Formula.Syntax

/-!
# Reading a formula token by token

What has been read of a formula is a stack of frames, each of which waits for
an operand, and a phase.  The phase says what may come next.  An operand is put
together with the frames below it only when the next token shows that nothing
binds it more tightly.

A token that may not come next is refused.  By then the frames in front of it
may already have been put together, and reading goes on from there: inside
parentheses only the closing one is then left to read, and outside nothing.
-/

namespace Precedents

/-- What waits for the operand that is being read. -/
inductive Frame
  | binary (op : BinaryOp) (left : Expr)
  | sign (op : SignOp)
  | paren
  | call (function : Lexeme) (args : List (Option Expr))
deriving Repr

inductive Phase
  | start
  | operand
  /-- The reference that the sheet belongs to. -/
  | qualified (sheet : Lexeme)
  /-- An operator or the end of the operand. -/
  | operator (left : Expr)
  /-- The end of what is complete. -/
  | complete (whole : Expr)
  | item (rows : List (List Item)) (row : List Item)
  | negatedItem (rows : List (List Item)) (row : List Item)
  | separator (rows : List (List Item)) (row : List Item)
deriving Repr

structure Reading where
  stack : List Frame
  phase : Phase
deriving Repr

namespace Frame

/-- How tightly a frame holds its operand; brackets do not let go of it. -/
def level : Frame -> Nat
  | binary op _ => op.level
  | sign _ => SignOp.level
  | paren => 0
  | call _ _ => 0

def fill (e : Expr) : Frame -> Expr
  | binary op left => .binary op left e
  | sign op => .sign op e
  | paren => e
  | call function args => .call function (args ++ [some e])

/-- Puts an operand together with the frames that hold it at least as tightly as `level`. -/
def unwind (level : Nat) : List Frame -> Expr -> List Frame × Expr
  | [], e => ([], e)
  | frame :: stack, e =>
      if level ≤ frame.level then unwind level stack (frame.fill e) else (frame :: stack, e)

/-- Puts an operand together with all frames up to the next bracket. -/
def unwindAll (stack : List Frame) (e : Expr) : List Frame × Expr :=
  unwind 1 stack e

end Frame

namespace Reading

def empty : Reading := ⟨[], .start⟩

/-- The innermost frame is a call, so the next argument may be left out. -/
def inCall (r : Reading) : Bool :=
  match r.stack with
  | .call _ _ :: _ => true
  | _ => false

def inParen (r : Reading) : Bool :=
  match r.stack with
  | .paren :: _ => true
  | _ => false

/-! ## What may come next -/

def startsOperand : Terminal -> Bool
  | .boolean | .cell | .cellRange | .columnRange | .error | .functionName | .leftBrace
  | .leftParen | .minus | .name | .number | .plus | .rowRange | .sheet | .string => true
  | _ => false

def followsOperand : Terminal -> Bool
  | .percent | .comma | .rightParen => true
  | t => (BinaryOp.ofTerminal? t).isSome

def startsItem : Terminal -> Bool
  | .boolean | .error | .minus | .number | .string => true
  | _ => false

def followsItem : Terminal -> Bool
  | .comma | .rightBrace | .semicolon => true
  | _ => false

def admits (r : Reading) (t : Terminal) : Bool :=
  match r.phase with
  | .start => startsOperand t || t == .equal
  | .operand => startsOperand t || (r.inCall && (t == .comma || t == .rightParen))
  | .qualified _ => (ReferenceKind.ofTerminal? t).isSome
  | .operator _ => followsOperand t
  | .complete _ =>
      (r.inParen && t == .rightParen) || (r.inCall && (t == .comma || t == .rightParen))
  | .item _ _ => startsItem t
  | .negatedItem _ _ => t == .number
  | .separator _ _ => followsItem t

def admitsEnd (r : Reading) : Bool :=
  match r.phase with
  | .operator _ => true
  | .complete _ => r.stack.isEmpty
  | _ => false

/-! ## The next token -/

def withOperand (stack : List Frame) (e : Expr) : Reading :=
  ⟨stack, .operator e⟩

def shiftOperand (r : Reading) (t : Token) : Except Reading Reading :=
  let word := t.toLexeme
  match t.terminal with
  | .number => .ok (withOperand r.stack (.number word))
  | .boolean => .ok (withOperand r.stack (.boolean word))
  | .string => .ok (withOperand r.stack (.string word))
  | .error => .ok (withOperand r.stack (.error word))
  | .name => .ok (withOperand r.stack (.name word))
  | .cell => .ok (withOperand r.stack (.reference .cell none word))
  | .cellRange => .ok (withOperand r.stack (.reference .cells none word))
  | .columnRange => .ok (withOperand r.stack (.reference .columns none word))
  | .rowRange => .ok (withOperand r.stack (.reference .rows none word))
  | .sheet => .ok ⟨r.stack, .qualified word⟩
  | .functionName => .ok ⟨.call word [] :: r.stack, .operand⟩
  | .leftParen => .ok ⟨.paren :: r.stack, .operand⟩
  | .leftBrace => .ok ⟨r.stack, .item [] []⟩
  | .minus => .ok ⟨.sign .minus :: r.stack, .operand⟩
  | .plus => .ok ⟨.sign .plus :: r.stack, .operand⟩
  | _ => .error r

/-- The reading after a mark behind an argument, if the frame on top is that of a call. -/
def endArgument (r : Reading) (arg : Option Expr)
    (next : List Frame -> Lexeme -> List (Option Expr) -> Reading) : Except Reading Reading :=
  match r.stack with
  | .call function args :: stack => .ok (next stack function (args ++ [arg]))
  | _ => .error r

def nextArgument (r : Reading) (arg : Option Expr) : Except Reading Reading :=
  r.endArgument arg fun stack function args => ⟨.call function args :: stack, .operand⟩

def closeCall (r : Reading) (arg : Option Expr) : Except Reading Reading :=
  r.endArgument arg fun stack function args => withOperand stack (.call function args)

def closeParen (r : Reading) (e : Expr) : Except Reading Reading :=
  match r.stack with
  | .paren :: stack => .ok (withOperand stack e)
  | _ => r.closeCall (some e)

def shiftOperator (r : Reading) (e : Expr) (t : Terminal) : Except Reading Reading :=
  match BinaryOp.ofTerminal? t with
  | some .power => .ok ⟨.binary .power e :: r.stack, .operand⟩
  | some op =>
      let (stack, left) := Frame.unwind op.level r.stack e
      .ok ⟨.binary op left :: stack, .operand⟩
  | none =>
      let (stack, whole) := Frame.unwindAll r.stack e
      let unwound : Reading := ⟨stack, .complete whole⟩
      match t with
      | .percent => .ok (withOperand r.stack (.percent e))
      | .comma => unwound.nextArgument (some whole)
      | .rightParen => unwound.closeParen whole
      | _ => .error r

def item? (t : Token) : Option Item :=
  match t.terminal with
  | .number => some (.number t.toLexeme)
  | .string => some (.string t.toLexeme)
  | .boolean => some (.boolean t.toLexeme)
  | .error => some (.error t.toLexeme)
  | _ => none

/-- The reading after one more token, or the reading at which the token is refused. -/
def shift (r : Reading) (t : Token) : Except Reading Reading :=
  match r.phase with
  | .start =>
      match t.terminal with
      | .equal => .ok ⟨r.stack, .operand⟩
      | _ => r.shiftOperand t
  | .operand =>
      match t.terminal with
      | .comma => r.nextArgument none
      | .rightParen => r.closeCall none
      | _ => r.shiftOperand t
  | .qualified sheet =>
      match ReferenceKind.ofTerminal? t.terminal with
      | some kind => .ok (withOperand r.stack (.reference kind (some sheet) t.toLexeme))
      | none => .error r
  | .operator e => r.shiftOperator e t.terminal
  | .complete whole =>
      match t.terminal with
      | .comma => r.nextArgument (some whole)
      | .rightParen => r.closeParen whole
      | _ => .error r
  | .item rows row =>
      match t.terminal with
      | .minus => .ok ⟨r.stack, .negatedItem rows row⟩
      | _ =>
          match item? t with
          | some item => .ok ⟨r.stack, .separator rows (row ++ [item])⟩
          | none => .error r
  | .negatedItem rows row =>
      match t.terminal with
      | .number => .ok ⟨r.stack, .separator rows (row ++ [.negative t.toLexeme])⟩
      | _ => .error r
  | .separator rows row =>
      match t.terminal with
      | .comma => .ok ⟨r.stack, .item rows row⟩
      | .semicolon => .ok ⟨r.stack, .item (rows ++ [row]) []⟩
      | .rightBrace => .ok (withOperand r.stack (.array (rows ++ [row])))
      | _ => .error r

/-- The formula that ends here, or the reading at which the end is refused. -/
def close (r : Reading) : Except Reading Expr :=
  match r.phase with
  | .operator e =>
      let (stack, whole) := Frame.unwindAll r.stack e
      if stack.isEmpty then .ok whole else .error ⟨stack, .complete whole⟩
  | .complete whole => if r.stack.isEmpty then .ok whole else .error r
  | _ => .error r

end Reading
end Precedents
