import Precedents.Formula.Reading

/-!
# The steps of the reader

A token that is taken does one thing to what has been read, with one case for
each way in which a formula goes on.  A token that is refused leaves what has
been read as it is, or as it is once the operand in front of it is complete.
-/

namespace Precedents
namespace Reading

inductive Leaf : Token -> Expr -> Prop where
  | number (word : Lexeme) : Leaf ⟨word, .number⟩ (.number word)
  | boolean (word : Lexeme) : Leaf ⟨word, .boolean⟩ (.boolean word)
  | string (word : Lexeme) : Leaf ⟨word, .string⟩ (.string word)
  | error (word : Lexeme) : Leaf ⟨word, .error⟩ (.error word)
  | name (word : Lexeme) : Leaf ⟨word, .name⟩ (.name word)
  | reference (kind : ReferenceKind) (body : Lexeme) :
      Leaf ⟨body, kind.terminal⟩ (.reference kind none body)

inductive BeforeOperand : Phase -> Prop where
  | start : BeforeOperand .start
  | operand : BeforeOperand .operand

/-- With the operand that is complete now, these frames are left. -/
inductive Whole : Reading -> List Frame -> Expr -> Prop where
  | operator {stack rest : List Frame} {e whole : Expr}
      (h : Frame.unwindAll stack e = (rest, whole)) :
      Whole ⟨stack, .operator e⟩ rest whole
  | complete {stack : List Frame} {whole : Expr} :
      Whole ⟨stack, .complete whole⟩ stack whole

inductive Argument : Reading -> List Frame -> Option Expr -> Prop where
  | omitted {stack : List Frame} : Argument ⟨stack, .operand⟩ stack none
  | given {r : Reading} {stack : List Frame} {whole : Expr}
      (h : Whole r stack whole) : Argument r stack (some whole)

/-- What a token that is taken makes of a reading. -/
inductive Step : Reading -> Token -> Reading -> Prop where
  | equal {stack : List Frame} {mark : Lexeme} :
      Step ⟨stack, .start⟩ ⟨mark, .equal⟩ ⟨stack, .operand⟩
  | leaf {stack : List Frame} {phase : Phase} {t : Token} {e : Expr}
      (hphase : BeforeOperand phase) (h : Leaf t e) :
      Step ⟨stack, phase⟩ t ⟨stack, .operator e⟩
  | sheet {stack : List Frame} {phase : Phase} {word : Lexeme}
      (hphase : BeforeOperand phase) :
      Step ⟨stack, phase⟩ ⟨word, .sheet⟩ ⟨stack, .qualified word⟩
  | qualified {stack : List Frame} {sheet body : Lexeme}
      (kind : ReferenceKind) :
      Step ⟨stack, .qualified sheet⟩ ⟨body, kind.terminal⟩
        ⟨stack, .operator (.reference kind (some sheet) body)⟩
  | call {stack : List Frame} {phase : Phase} {word : Lexeme}
      (hphase : BeforeOperand phase) :
      Step ⟨stack, phase⟩ ⟨word, .functionName⟩
        ⟨.call word [] :: stack, .operand⟩
  | nextArgument {r : Reading} {stack : List Frame} {function mark : Lexeme}
      {args : List (Option Expr)} {arg : Option Expr}
      (h : Argument r (.call function args :: stack) arg) :
      Step r ⟨mark, .comma⟩ ⟨.call function (args ++ [arg]) :: stack, .operand⟩
  | closeCall {r : Reading} {stack : List Frame} {function mark : Lexeme}
      {args : List (Option Expr)} {arg : Option Expr}
      (h : Argument r (.call function args :: stack) arg) :
      Step r ⟨mark, .rightParen⟩
        ⟨stack, .operator (.call function (args ++ [arg]))⟩
  | paren {stack : List Frame} {phase : Phase} {mark : Lexeme}
      (hphase : BeforeOperand phase) :
      Step ⟨stack, phase⟩ ⟨mark, .leftParen⟩ ⟨.paren :: stack, .operand⟩
  | closeParen {r : Reading} {stack : List Frame} {mark : Lexeme}
      {whole : Expr} (h : Whole r (.paren :: stack) whole) :
      Step r ⟨mark, .rightParen⟩ ⟨stack, .operator whole⟩
  | minus {stack : List Frame} {phase : Phase} {mark : Lexeme}
      (hphase : BeforeOperand phase) :
      Step ⟨stack, phase⟩ ⟨mark, .minus⟩ ⟨.sign .minus :: stack, .operand⟩
  | plus {stack : List Frame} {phase : Phase} {mark : Lexeme}
      (hphase : BeforeOperand phase) :
      Step ⟨stack, phase⟩ ⟨mark, .plus⟩ ⟨.sign .plus :: stack, .operand⟩
  | percent {stack : List Frame} {e : Expr} {mark : Lexeme} :
      Step ⟨stack, .operator e⟩ ⟨mark, .percent⟩
        ⟨stack, .operator (.percent e)⟩
  | power {stack : List Frame} {e : Expr} {mark : Token}
      (hmark : BinaryOp.ofTerminal? mark.terminal = some .power) :
      Step ⟨stack, .operator e⟩ mark ⟨.binary .power e :: stack, .operand⟩
  | operator {stack rest : List Frame} {e left : Expr} {mark : Token}
      {op : BinaryOp} (hmark : BinaryOp.ofTerminal? mark.terminal = some op)
      (hop : op ≠ .power)
      (hunwind : Frame.unwind op.level stack e = (rest, left)) :
      Step ⟨stack, .operator e⟩ mark ⟨.binary op left :: rest, .operand⟩
  | array {stack : List Frame} {phase : Phase} {mark : Lexeme}
      (hphase : BeforeOperand phase) :
      Step ⟨stack, phase⟩ ⟨mark, .leftBrace⟩ ⟨stack, .item [] []⟩
  | item {stack : List Frame} {rows : List (List Item)} {row : List Item}
      {t : Token} {item : Item} (h : item? t = some item) :
      Step ⟨stack, .item rows row⟩ t ⟨stack, .separator rows (row ++ [item])⟩
  | negation {stack : List Frame} {rows : List (List Item)} {row : List Item}
      {mark : Lexeme} :
      Step ⟨stack, .item rows row⟩ ⟨mark, .minus⟩
        ⟨stack, .negatedItem rows row⟩
  | negated {stack : List Frame} {rows : List (List Item)} {row : List Item}
      {word : Lexeme} :
      Step ⟨stack, .negatedItem rows row⟩ ⟨word, .number⟩
        ⟨stack, .separator rows (row ++ [.negative word])⟩
  | nextItem {stack : List Frame} {rows : List (List Item)} {row : List Item}
      {mark : Lexeme} :
      Step ⟨stack, .separator rows row⟩ ⟨mark, .comma⟩ ⟨stack, .item rows row⟩
  | nextRow {stack : List Frame} {rows : List (List Item)} {row : List Item}
      {mark : Lexeme} :
      Step ⟨stack, .separator rows row⟩ ⟨mark, .semicolon⟩
        ⟨stack, .item (rows ++ [row]) []⟩
  | closeArray {stack : List Frame} {rows : List (List Item)}
      {row : List Item} {mark : Lexeme} :
      Step ⟨stack, .separator rows row⟩ ⟨mark, .rightBrace⟩
        ⟨stack, .operator (.array (rows ++ [row]))⟩

variable {r next : Reading} {t : Token}

/-! ## The outcome of a token -/

inductive Outcome (r : Reading) (t : Token) : Except Reading Reading -> Prop where
  | taken {next : Reading} (h : Step r t next) : Outcome r t (.ok next)
  | refused : Outcome r t (.error r)
  | unwound {stack : List Frame} {whole : Expr} (h : Whole r stack whole) :
      Outcome r t (.error ⟨stack, .complete whole⟩)

theorem outcome_shiftOperand (stack : List Frame) {phase : Phase}
    (hphase : BeforeOperand phase) (t : Token) :
    Outcome ⟨stack, phase⟩ t (shiftOperand ⟨stack, phase⟩ t) := by
  rcases t with ⟨word, terminal⟩
  cases terminal with
  | number => exact .taken (.leaf hphase (.number word))
  | boolean => exact .taken (.leaf hphase (.boolean word))
  | string => exact .taken (.leaf hphase (.string word))
  | error => exact .taken (.leaf hphase (.error word))
  | name => exact .taken (.leaf hphase (.name word))
  | cell => exact .taken (.leaf hphase (.reference .cell word))
  | cellRange => exact .taken (.leaf hphase (.reference .cells word))
  | columnRange => exact .taken (.leaf hphase (.reference .columns word))
  | rowRange => exact .taken (.leaf hphase (.reference .rows word))
  | sheet => exact .taken (.sheet hphase)
  | functionName => exact .taken (.call hphase)
  | leftParen => exact .taken (.paren hphase)
  | leftBrace => exact .taken (.array hphase)
  | minus => exact .taken (.minus hphase)
  | plus => exact .taken (.plus hphase)
  | _ => exact .refused

theorem outcome_endArgument {stack : List Frame} {arg : Option Expr} {phase : Phase}
    {next : List Frame -> Lexeme -> List (Option Expr) -> Reading}
    (hstep : forall function args rest, stack = .call function args :: rest ->
      Step r t (next rest function (args ++ [arg])))
    (hrefused : Outcome r t (.error ⟨stack, phase⟩)) :
    Outcome r t (endArgument ⟨stack, phase⟩ arg next) := by
  cases stack with
  | nil => exact hrefused
  | cons frame stack =>
      cases frame with
      | call function args => exact .taken (hstep function args stack rfl)
      | _ => exact hrefused

theorem outcome_nextArgument {stack : List Frame} {arg : Option Expr}
    {phase : Phase} {mark : Lexeme} (hargument : Argument r stack arg)
    (hrefused : Outcome r ⟨mark, .comma⟩ (.error ⟨stack, phase⟩)) :
    Outcome r ⟨mark, .comma⟩ (nextArgument ⟨stack, phase⟩ arg) := by
  refine outcome_endArgument ?_ hrefused
  intro function args rest hstack
  rw [hstack] at hargument
  exact .nextArgument hargument

theorem outcome_closeCall {stack : List Frame} {arg : Option Expr}
    {phase : Phase} {mark : Lexeme} (hargument : Argument r stack arg)
    (hrefused : Outcome r ⟨mark, .rightParen⟩ (.error ⟨stack, phase⟩)) :
    Outcome r ⟨mark, .rightParen⟩ (closeCall ⟨stack, phase⟩ arg) := by
  refine outcome_endArgument ?_ hrefused
  intro function args rest hstack
  rw [hstack] at hargument
  exact .closeCall hargument

theorem outcome_closeParen {stack : List Frame} {whole : Expr} {mark : Lexeme}
    (hwhole : Whole r stack whole) :
    Outcome r ⟨mark, .rightParen⟩
      (closeParen ⟨stack, .complete whole⟩ whole) := by
  unfold closeParen
  split
  · rename_i rest hstack
    have hstack : stack = .paren :: rest := hstack
    rw [hstack] at hwhole
    exact .taken (.closeParen hwhole)
  · exact outcome_closeCall (.given hwhole) (.unwound hwhole)

theorem outcome_shiftOperator (stack : List Frame) (e : Expr) (t : Token) :
    Outcome ⟨stack, .operator e⟩ t
      (shiftOperator ⟨stack, .operator e⟩ e t.terminal) := by
  rcases t with ⟨mark, terminal⟩
  have hwhole : Whole ⟨stack, .operator e⟩ _ _ := .operator rfl
  unfold shiftOperator
  split
  · rename_i hmark
    exact .taken (.power hmark)
  · rename_i op hop hmark
    exact .taken (.operator hmark (fun heq => hop heq) rfl)
  · simp only
    split
    · exact .taken .percent
    · exact outcome_nextArgument (.given hwhole) (.unwound hwhole)
    · exact outcome_closeParen hwhole
    · exact .refused

theorem outcome_shift (r : Reading) (t : Token) : Outcome r t (r.shift t) := by
  rcases r with ⟨stack, phase⟩
  rcases t with ⟨word, terminal⟩
  cases phase with
  | start =>
      simp only [shift]
      split
      · exact .taken .equal
      · exact outcome_shiftOperand stack .start _
  | operand =>
      simp only [shift]
      split
      · exact outcome_nextArgument .omitted .refused
      · exact outcome_closeCall .omitted .refused
      · exact outcome_shiftOperand stack .operand _
  | qualified sheet =>
      simp only [shift]
      split
      · rename_i kind hkind
        have hterminal : terminal = kind.terminal := by
          cases terminal <;> cases hkind <;> rfl
        rw [hterminal]
        exact .taken (.qualified kind)
      · exact .refused
  | operator e => exact outcome_shiftOperator stack e _
  | complete whole =>
      simp only [shift]
      split
      · exact outcome_nextArgument (.given .complete) .refused
      · exact outcome_closeParen .complete
      · exact .refused
  | item rows row =>
      simp only [shift]
      split
      · exact .taken .negation
      · split
        · rename_i item hitem
          exact .taken (.item hitem)
        · exact .refused
  | negatedItem rows row =>
      simp only [shift]
      split
      · exact .taken .negated
      · exact .refused
  | separator rows row =>
      simp only [shift]
      split
      · exact .taken .nextItem
      · exact .taken .nextRow
      · exact .taken .closeArray
      · exact .refused

theorem step_of_shift (h : r.shift t = .ok next) : Step r t next := by
  have houtcome := outcome_shift r t
  rw [h] at houtcome
  cases houtcome with
  | taken hstep => exact hstep

/-! ## What the reader looks for -/

theorem startsItem_of_item? {item : Item} (h : item? t = some item) :
    startsItem t.terminal = true := by
  unfold item? at h
  split at h
  all_goals simp_all [startsItem]

theorem startsOperand_of_leaf {e : Expr} (h : Leaf t e) :
    startsOperand t.terminal = true := by
  cases h with
  | reference kind body => cases kind <;> rfl
  | _ => rfl

theorem followsOperand_of_ofTerminal? {op : BinaryOp} {u : Terminal}
    (h : BinaryOp.ofTerminal? u = some op) : followsOperand u = true := by
  cases u <;> first | rfl | cases h

theorem admits_of_startsOperand {stack : List Frame} {phase : Phase}
    {u : Terminal} (hphase : BeforeOperand phase)
    (hu : startsOperand u = true) : admits ⟨stack, phase⟩ u = true := by
  cases hphase with
  | start => simp [admits, hu]
  | operand => simp [admits, hu]

theorem admits_of_argument {stack : List Frame} {function : Lexeme}
    {args : List (Option Expr)} {arg : Option Expr} {u : Terminal}
    (h : Argument r (.call function args :: stack) arg)
    (hu : u = .comma ∨ u = .rightParen) : r.admits u = true := by
  rcases hu with hu | hu
  all_goals
    rw [hu]
    cases h with
    | omitted => rfl
    | given hwhole =>
        cases hwhole with
        | operator _ => rfl
        | complete => rfl

/-- The reader looks for each token that it takes. -/
theorem admits_of_step (h : Step r t next) : r.admits t.terminal = true := by
  cases h with
  | leaf hphase hleaf =>
      exact admits_of_startsOperand hphase (startsOperand_of_leaf hleaf)
  | sheet hphase => exact admits_of_startsOperand hphase rfl
  | qualified kind => cases kind <;> rfl
  | call hphase => exact admits_of_startsOperand hphase rfl
  | nextArgument hargument => exact admits_of_argument hargument (Or.inl rfl)
  | closeCall hargument => exact admits_of_argument hargument (Or.inr rfl)
  | paren hphase => exact admits_of_startsOperand hphase rfl
  | closeParen hwhole =>
      cases hwhole with
      | operator _ => rfl
      | complete => rfl
  | minus hphase => exact admits_of_startsOperand hphase rfl
  | plus hphase => exact admits_of_startsOperand hphase rfl
  | power hmark => exact followsOperand_of_ofTerminal? hmark
  | operator hmark _ _ => exact followsOperand_of_ofTerminal? hmark
  | array hphase => exact admits_of_startsOperand hphase rfl
  | item hitem => exact startsItem_of_item? hitem
  | _ => rfl

theorem ne_blank_of_admits {u : Terminal} (h : r.admits u = true) :
    u ≠ .blank := by
  intro hu
  rw [hu] at h
  rcases r with ⟨stack, phase⟩
  cases phase
  all_goals simp_all [admits, startsOperand, startsItem, followsOperand, followsItem,
    ReferenceKind.ofTerminal?, BinaryOp.ofTerminal?]

end Reading
end Precedents
