import Precedents.Formula.Syntax

/-!
# The parts of a formula

The children of a formula are the operands of its operator or the arguments of
its call.  Its parts are the formula itself and the parts of its children, listed
either with the formula in front or with it behind its children.  Statements
about all formulas are proved from children to parents.
-/

namespace Precedents
namespace Expr

def given (args : List (Option Expr)) : List Expr :=
  args.filterMap id

def children : Expr -> List Expr
  | .call _ args => given args
  | .binary _ left right => [left, right]
  | .sign _ operand => [operand]
  | .percent operand => [operand]
  | _ => []

mutual

def parts : Expr -> List Expr
  | .call function args => .call function args :: partsOfArgs args
  | .binary op left right =>
      .binary op left right :: (parts left ++ parts right)
  | .sign op operand => .sign op operand :: parts operand
  | .percent operand => .percent operand :: parts operand
  | e => [e]

def partsOfArgs : List (Option Expr) -> List Expr
  | [] => []
  | none :: rest => partsOfArgs rest
  | some e :: rest => parts e ++ partsOfArgs rest

end

mutual

/-- The parts of a formula, each behind the parts of its children. -/
def postOrder : Expr -> List Expr
  | .call function args => postOrderOfArgs args ++ [.call function args]
  | .binary op left right =>
      postOrder left ++ postOrder right ++ [.binary op left right]
  | .sign op operand => postOrder operand ++ [.sign op operand]
  | .percent operand => postOrder operand ++ [.percent operand]
  | e => [e]

def postOrderOfArgs : List (Option Expr) -> List Expr
  | [] => []
  | none :: rest => postOrderOfArgs rest
  | some e :: rest => postOrder e ++ postOrderOfArgs rest

end

@[simp] theorem mem_given {args : List (Option Expr)} {c : Expr} :
    c ∈ given args <-> some c ∈ args := by
  simp [given]

theorem mem_partsOfArgs {args : List (Option Expr)} {p : Expr} :
    p ∈ partsOfArgs args <-> exists c, some c ∈ args ∧ p ∈ c.parts := by
  induction args with
  | nil => simp [partsOfArgs]
  | cons arg rest ih =>
      cases arg with
      | none => simp [partsOfArgs, ih]
      | some e => simp [partsOfArgs, ih, or_and_right, exists_or]

theorem postOrderOfArgs_eq (args : List (Option Expr)) :
    postOrderOfArgs args = (given args).flatMap postOrder := by
  induction args with
  | nil => rfl
  | cons arg rest ih =>
      cases arg with
      | none => rw [postOrderOfArgs, ih]; rfl
      | some e => rw [postOrderOfArgs, ih]; rfl

theorem postOrder_eq (e : Expr) :
    e.postOrder = e.children.flatMap postOrder ++ [e] := by
  cases e with
  | call function args => rw [postOrder, children, postOrderOfArgs_eq]
  | _ => simp [postOrder, children]

theorem mem_parts {e p : Expr} :
    p ∈ e.parts <-> p = e ∨ exists c, c ∈ e.children ∧ p ∈ c.parts := by
  cases e with
  | call function args => simp [parts, children, mem_partsOfArgs]
  | _ => simp [parts, children]

theorem self_mem_parts (e : Expr) : e ∈ e.parts :=
  mem_parts.mpr (Or.inl rfl)

theorem sizeOf_lt_of_mem_children {e c : Expr} (h : c ∈ e.children) :
    sizeOf c < sizeOf e := by
  cases e with
  | call function args =>
      have hmem : some c ∈ args := mem_given.mp h
      have hlt := List.sizeOf_lt_of_mem hmem
      simp only [Option.some.sizeOf_spec] at hlt
      simp only [call.sizeOf_spec]
      omega
  | binary op left right =>
      simp only [children, List.mem_cons, List.not_mem_nil, or_false] at h
      rcases h with h | h
      · rw [h, binary.sizeOf_spec]
        omega
      · rw [h, binary.sizeOf_spec]
        omega
  | sign op operand =>
      rw [List.mem_singleton.mp h, sign.sizeOf_spec]
      omega
  | percent operand =>
      rw [List.mem_singleton.mp h, percent.sizeOf_spec]
      omega
  | _ => cases h

/-- What every formula takes over from its children holds of every formula. -/
@[elab_as_elim]
theorem children_induction {motive : Expr -> Prop} (e : Expr)
    (step : forall e, (forall c, c ∈ e.children -> motive c) -> motive e) :
    motive e :=
  step e fun c _hc => children_induction c step
termination_by sizeOf e
decreasing_by exact sizeOf_lt_of_mem_children _hc

end Expr
end Precedents
