import Mathlib.Data.List.Nodup
import Precedents.Proofs.Formula.Recovering

/-!
# Places in a text

A reader moves forward: each of its moves starts behind the one before.  It puts
the tokens that it takes into the tree in their order, each of them once, and
leaves out marks.  So the words of a tree stand at different places, and at
none of them is a failure.
-/

namespace Precedents

/-! ## The tokens of a tree -/

namespace Expr

def tokens (e : Expr) : List Token :=
  e.parts.flatMap ownTokens

def tokensOfArgs (args : List (Option Expr)) : List Token :=
  (partsOfArgs args).flatMap ownTokens

theorem partsOfArgs_eq (args : List (Option Expr)) :
    partsOfArgs args = (given args).flatMap parts := by
  induction args with
  | nil => rfl
  | cons arg rest ih =>
      cases arg with
      | none => rw [partsOfArgs, ih]; rfl
      | some e => rw [partsOfArgs, ih]; rfl

theorem parts_eq (e : Expr) : e.parts = e :: e.children.flatMap parts := by
  cases e with
  | call function args => rw [parts, children, partsOfArgs_eq]
  | _ => simp [parts, children]

theorem tokens_eq (e : Expr) :
    e.tokens = e.ownTokens ++ e.children.flatMap tokens := by
  rw [tokens, parts_eq, List.flatMap_cons, List.flatMap_assoc]
  rfl

theorem tokensOfArgs_append (args : List (Option Expr)) (arg : Option Expr) :
    tokensOfArgs (args ++ [arg]) =
      tokensOfArgs args ++ (arg.map tokens).getD [] := by
  simp only [tokensOfArgs, partsOfArgs_eq, given, List.filterMap_append,
    List.flatMap_append]
  cases arg with
  | none => rfl
  | some e => simp [tokens]

end Expr

namespace Frame

def tokens : Frame -> List Token
  | .binary _ left => left.tokens
  | .sign _ => []
  | .paren => []
  | .call function args => ⟨function, .functionName⟩ :: Expr.tokensOfArgs args

def tokensOfStack : List Frame -> List Token
  | [] => []
  | frame :: stack => tokensOfStack stack ++ frame.tokens

theorem tokens_fill (frame : Frame) (e : Expr) :
    (frame.fill e).tokens = frame.tokens ++ e.tokens := by
  cases frame with
  | binary op left => simp [fill, tokens, Expr.tokens, Expr.parts, Expr.ownTokens]
  | sign op => simp [fill, tokens, Expr.tokens, Expr.parts, Expr.ownTokens]
  | paren => rfl
  | call function args =>
      show _ :: Expr.tokensOfArgs (args ++ [some e]) = _
      rw [Expr.tokensOfArgs_append]
      rfl

theorem tokens_unwind (level : Nat) (stack : List Frame) (e : Expr) :
    tokensOfStack (unwind level stack e).1 ++ (unwind level stack e).2.tokens =
      tokensOfStack stack ++ e.tokens := by
  induction stack generalizing e with
  | nil => rfl
  | cons frame stack ih =>
      rw [unwind]
      split
      · rw [ih, tokens_fill, tokensOfStack, List.append_assoc]
      · rfl

end Frame

def Phase.tokens : Phase -> List Token
  | .start => []
  | .operand => []
  | .qualified sheet => [⟨sheet, .sheet⟩]
  | .operator left => left.tokens
  | .complete whole => whole.tokens
  | .item rows row => (rows.flatten ++ row).map Item.token
  | .negatedItem rows row => (rows.flatten ++ row).map Item.token
  | .separator rows row => (rows.flatten ++ row).map Item.token

namespace Reading

variable {r next : Reading} {t : Token} {stack : List Frame}

def tokens (r : Reading) : List Token :=
  Frame.tokensOfStack r.stack ++ r.phase.tokens

theorem tokens_leaf {e : Expr} (h : Leaf t e) : e.tokens = [t] := by
  cases h with
  | _ => rfl

theorem tokens_whole {whole : Expr} (h : Whole r stack whole) :
    Frame.tokensOfStack stack ++ whole.tokens = r.tokens := by
  cases h with
  | @operator stack rest e whole hunwind =>
      have hkept := Frame.tokens_unwind 1 stack e
      rw [show Frame.unwind 1 stack e = _ from hunwind] at hkept
      exact hkept
  | complete => rfl

theorem tokens_argument {arg : Option Expr} (h : Argument r stack arg) :
    Frame.tokensOfStack stack ++ (arg.map Expr.tokens).getD [] = r.tokens := by
  cases h with
  | omitted => rfl
  | given hwhole => exact tokens_whole hwhole

theorem tokens_beforeOperand {phase : Phase} (h : BeforeOperand phase) :
    tokens ⟨stack, phase⟩ = Frame.tokensOfStack stack := by
  cases h with
  | _ => exact List.append_nil _

theorem tokensOfStack_call {function : Lexeme} {args : List (Option Expr)}
    {arg : Option Expr} (h : Argument r (.call function args :: stack) arg) :
    Frame.tokensOfStack (.call function (args ++ [arg]) :: stack) =
      r.tokens := by
  rw [← tokens_argument h, Frame.tokensOfStack, Frame.tokensOfStack,
    Frame.tokens, Expr.tokensOfArgs_append, ← List.cons_append,
    ← List.append_assoc]
  rfl

theorem tokens_row (rows : List (List Item)) (row : List Item) (item : Item) :
    tokens ⟨stack, .separator rows (row ++ [item])⟩ =
      tokens ⟨stack, .item rows row⟩ ++ [item.token] := by
  simp only [tokens, Phase.tokens, List.map_append, List.map_cons, List.map_nil,
    List.append_assoc]

theorem tokens_step (h : Step r t next) :
    next.tokens = r.tokens ∨ next.tokens = r.tokens ++ [t] := by
  cases h with
  | equal => exact Or.inl rfl
  | leaf hphase hleaf =>
      right
      rw [tokens_beforeOperand hphase, ← tokens_leaf hleaf]
      rfl
  | sheet hphase =>
      right
      rw [tokens_beforeOperand hphase]
      rfl
  | qualified kind =>
      right
      exact (List.append_assoc _ [_] [_]).symm
  | call hphase =>
      right
      rw [tokens_beforeOperand hphase]
      exact List.append_nil _
  | nextArgument hargument =>
      left
      rw [← tokensOfStack_call hargument]
      exact List.append_nil _
  | closeCall hargument => exact Or.inl (tokensOfStack_call hargument)
  | paren hphase =>
      left
      rw [tokens_beforeOperand hphase, tokens_beforeOperand .operand]
      exact List.append_nil _
  | closeParen hwhole =>
      left
      rw [← tokens_whole hwhole]
      simp only [tokens, Phase.tokens, Frame.tokensOfStack, Frame.tokens,
        List.append_nil]
  | minus hphase =>
      left
      rw [tokens_beforeOperand hphase, tokens_beforeOperand .operand]
      exact List.append_nil _
  | plus hphase =>
      left
      rw [tokens_beforeOperand hphase, tokens_beforeOperand .operand]
      exact List.append_nil _
  | percent =>
      left
      simp [tokens, Phase.tokens, Expr.tokens_eq, Expr.ownTokens, Expr.children]
  | power hmark => exact Or.inl (tokens_beforeOperand .operand)
  | @operator stack rest e left mark op hmark hop hunwind =>
      left
      have hkept := Frame.tokens_unwind op.level stack e
      rw [hunwind] at hkept
      rw [tokens_beforeOperand .operand]
      exact hkept
  | array hphase =>
      left
      rw [tokens_beforeOperand hphase]
      exact List.append_nil _
  | item hitem =>
      right
      rw [tokens_row, token_of_item? hitem]
  | negation => exact Or.inl rfl
  | negated => exact Or.inr (tokens_row _ _ _)
  | nextItem => exact Or.inl rfl
  | nextRow =>
      left
      simp [tokens, Phase.tokens]
  | closeArray =>
      left
      simp [tokens, Phase.tokens, Expr.tokens_eq, Expr.ownTokens, Expr.children]

theorem tokens_refused (h : r.shift t = .error next) : next.tokens = r.tokens := by
  have houtcome := outcome_shift r t
  rw [h] at houtcome
  cases houtcome with
  | refused => rfl
  | unwound hwhole => exact tokens_whole hwhole

theorem tokens_close {e : Expr} (h : r.close = .ok e) : e.tokens = r.tokens := by
  rcases r with ⟨stack, phase⟩
  cases phase with
  | operator left =>
      simp only [close] at h
      split at h
      · rename_i hempty
        cases h
        have hkept := Frame.tokens_unwind 1 stack left
        rw [List.isEmpty_iff.mp (show (Frame.unwind 1 stack left).1.isEmpty = true
          from hempty)] at hkept
        exact hkept
      · cases h
  | complete whole =>
      simp only [close] at h
      split at h
      · rename_i hempty
        cases h
        rw [tokens, List.isEmpty_iff.mp hempty]
        rfl
      · cases h
  | _ => cases h

end Reading

namespace Run

variable {r : Reading} {patience offset : Nat} {cs : List Char} {run : Run}

@[simp] theorem tokens_shift (t : Token) :
    (after (.shift t) run).tokens = t :: run.tokens :=
  rfl

@[simp] theorem tokens_failure (f : Failure) :
    (after (.failure f) run).tokens = run.tokens :=
  rfl

/-- The tree has no other tokens than those that were read, in the same order. -/
theorem tokens_sublist (h : Recovers r patience offset cs run) {e : Expr}
    (htree : run.tree = some e) :
    e.tokens.Sublist (r.tokens ++ run.tokens) := by
  induction h with
  | complete hclose =>
      cases htree
      rw [Reading.tokens_close hclose]
      exact List.sublist_append_left _ _
  | early _ => cases htree
  | blank _ _ ih => exact ih htree
  | @token r next patience offset u word rest run hglance hshift hrest ih =>
      apply (ih htree).trans
      rw [tokens_shift, ← List.singleton_append, ← List.append_assoc]
      apply List.Sublist.append_right
      rcases Reading.tokens_step (Reading.step_of_shift hshift) with hkept | hmore
      · rw [hkept]
        exact List.sublist_append_left _ _
      · rw [hmore]
  | failure hfails _ ih =>
      rw [tokens_failure]
      cases hfails with
      | refused _ hshift =>
          rw [← Reading.tokens_refused hshift]
          exact ih htree
      | misplaced _ => exact ih htree
      | unreadable _ => exact ih htree
  | spent _ => cases htree

end Run

/-! ## The places of moves -/

def Move.offset : Move -> Nat
  | .shift t => t.offset
  | .failure f => f.offset

namespace Run

variable {r : Reading} {patience offset : Nat} {cs : List Char} {run : Run}

theorem offset_bounds (h : Recovers r patience offset cs run) {m : Move}
    (hm : m ∈ run.moves) :
    offset ≤ m.offset ∧ m.offset ≤ offset + cs.length := by
  induction h with
  | complete _ => cases hm
  | early _ =>
      rw [List.mem_singleton.mp hm]
      exact ⟨Nat.le_refl _, Nat.le_add_right _ _⟩
  | blank _ _ ih =>
      have h := ih hm
      rw [List.length_append]
      omega
  | token _ _ _ ih =>
      rw [List.length_append]
      rcases List.mem_cons.mp hm with heq | hm
      · rw [heq]
        exact ⟨Nat.le_refl _, Nat.le_add_right _ _⟩
      · have h := ih hm
        omega
  | failure hfails _ ih =>
      rcases hfails.split with ⟨hf, _, c, word, hcs, hfinish⟩
      rw [hcs, List.length_append]
      rcases List.mem_cons.mp hm with heq | hm
      · rw [heq]
        exact ⟨Nat.le_of_eq hf.symm, Nat.le_trans (Nat.le_of_eq hf)
          (Nat.le_add_right _ _)⟩
      · have h := ih hm
        omega
  | spent hfails =>
      rw [List.mem_singleton.mp hm]
      have hf := hfails.split.left
      exact ⟨Nat.le_of_eq hf.symm, Nat.le_trans (Nat.le_of_eq hf)
        (Nat.le_add_right _ _)⟩

theorem moves_pairwise (h : Recovers r patience offset cs run) :
    run.moves.Pairwise fun a b => a.offset < b.offset := by
  induction h with
  | complete _ => exact .nil
  | early _ => exact List.pairwise_singleton _ _
  | blank _ _ ih => exact ih
  | @token r next patience offset u word rest run hglance hshift hrest ih =>
      refine List.pairwise_cons.mpr ⟨?_, ih⟩
      intro m hm
      rcases Terminal.split_of_found (found_of_glance hglance) with
        ⟨c, tail, _, hword, _⟩
      have h := (offset_bounds hrest hm).left
      rw [hword, List.length_cons] at h
      show offset < m.offset
      omega
  | @failure r next patience offset f cs rest run hfails hrest ih =>
      refine List.pairwise_cons.mpr ⟨?_, ih⟩
      intro m hm
      rcases hfails.split with ⟨hf, _, c, word, _, hfinish⟩
      have h := (offset_bounds hrest hm).left
      rw [hfinish, List.length_cons] at h
      show f.offset < m.offset
      omega
  | spent _ => exact List.pairwise_singleton _ _

theorem mem_failures {f : Failure} : f ∈ run.failures <-> .failure f ∈ run.moves := by
  constructor
  · intro h
    rcases List.mem_filterMap.mp h with ⟨move, hmove, heq⟩
    cases move with
    | shift t => cases heq
    | failure g =>
        cases heq
        exact hmove
  · intro h
    exact List.mem_filterMap.mpr ⟨_, h, rfl⟩

theorem mem_tokens {t : Token} : t ∈ run.tokens <-> .shift t ∈ run.moves := by
  constructor
  · intro h
    rcases List.mem_filterMap.mp h with ⟨move, hmove, heq⟩
    cases move with
    | shift u =>
        cases heq
        exact hmove
    | failure f => cases heq
  · intro h
    exact List.mem_filterMap.mpr ⟨_, h, rfl⟩

theorem failures_pairwise (h : Recovers r patience offset cs run) :
    run.failures.Pairwise fun f g => f.offset < g.offset := by
  apply (moves_pairwise h).filterMap
  intro a b hlt f hf g hg
  cases a <;> cases hf
  cases b <;> cases hg
  exact hlt

theorem tokens_pairwise (h : Recovers r patience offset cs run) :
    run.tokens.Pairwise fun t u => t.offset < u.offset := by
  apply (moves_pairwise h).filterMap
  intro a b hlt t ht u hu
  cases a <;> cases ht
  cases b <;> cases hu
  exact hlt

theorem offset_ne (h : Recovers r patience offset cs run) {f : Failure}
    {t : Token} (hf : f ∈ run.failures) (ht : t ∈ run.tokens) :
    f.offset ≠ t.offset := by
  intro heq
  have hnodup : (run.moves.map Move.offset).Nodup :=
    List.pairwise_map.mpr ((moves_pairwise h).imp Nat.ne_of_lt)
  have hmove := List.inj_on_of_nodup_map hnodup (mem_failures.mp hf)
    (mem_tokens.mp ht) heq
  cases hmove

theorem nodup_offsets (h : Recovers r patience offset cs run)
    {failures : List Failure} (hfailures : failures.Sublist run.failures)
    {tokens : List Token} (htokens : tokens.Sublist run.tokens) :
    (failures.map Failure.offset ++ tokens.map (fun t => t.offset)).Nodup := by
  apply List.nodup_append.mpr
  refine ⟨?_, ?_, ?_⟩
  · exact List.pairwise_map.mpr
      (((failures_pairwise h).sublist hfailures).imp Nat.ne_of_lt)
  · exact List.pairwise_map.mpr
      (((tokens_pairwise h).sublist htokens).imp Nat.ne_of_lt)
  · intro a ha b hb
    rcases List.mem_map.mp ha with ⟨f, hf, heqf⟩
    rcases List.mem_map.mp hb with ⟨t, ht, heqt⟩
    rw [← heqf, ← heqt]
    exact offset_ne h (hfailures.subset hf) (htokens.subset ht)

end Run
end Precedents
