import Precedents.Proofs.Extraction.Walking
import Precedents.Proofs.Formula.RoundTrip

/-!
# Room for the levels of a tree

A formula is walked through by recursion, and the stack has room for so many
levels of its tree.  Where they are enough, nothing shows of the limit; where
they are not, there is no value.
-/

namespace Precedents
namespace Expr

mutual

/-- The levels of the tree of a formula. -/
def height : Expr -> Nat
  | .call function args => levels (.call function args) + heightOfArgs args
  | .binary op left right =>
      levels (.binary op left right) + max (height left) (height right)
  | .sign op operand => levels (.sign op operand) + height operand
  | .percent operand => levels (.percent operand) + height operand
  | e => levels e

def heightOfArgs : List (Option Expr) -> Nat
  | [] => 0
  | none :: rest => heightOfArgs rest
  | some e :: rest => max (height e) (heightOfArgs rest)

end

theorem heightOfArgs_le_iff {args : List (Option Expr)} {room : Nat} :
    heightOfArgs args ≤ room <-> forall c, c ∈ given args -> c.height ≤ room := by
  induction args with
  | nil => simp [heightOfArgs]
  | cons arg rest ih =>
      cases arg with
      | none => exact ih
      | some e =>
          change max e.height (heightOfArgs rest) ≤ room <->
            forall c, c ∈ e :: given rest -> c.height ≤ room
          rw [Nat.max_le, List.forall_mem_cons, ih]

theorem height_le_iff {e : Expr} {room : Nat} :
    e.height ≤ room <->
      e.levels ≤ room ∧ forall c, c ∈ e.children -> c.height ≤ room - e.levels := by
  cases e with
  | call function args =>
      rw [height, children, ← heightOfArgs_le_iff]
      omega
  | binary op left right =>
      simp only [height, children, List.forall_mem_cons, List.not_mem_nil,
        false_implies, implies_true, and_true]
      omega
  | sign op operand =>
      rw [height, children, List.forall_mem_singleton]
      omega
  | percent operand =>
      rw [height, children, List.forall_mem_singleton]
      omega
  | _ => simp [height, children]

end Expr

namespace Extractor

variable {x : Extractor} {position : Position} {formula : String} {room : Nat}

/-! ## The walk with little room -/

theorem walkWithin_of_lt {e : Expr} (h : room < e.levels) :
    x.walkWithin position formula room e = Traced.fail .tooDeep := by
  unfold walkWithin
  exact if_pos h

theorem walkWithin_leaf {e : Expr} (hleaf : x.use? position e = none)
    (h : e.levels ≤ room) :
    x.walkWithin position formula room e = x.walk position formula e := by
  unfold walkWithin
  rw [if_neg (Nat.not_lt.mpr h)]
  cases e with
  | call function args => exact absurd hleaf (use?_call_ne_none function args)
  | binary op left right => cases hleaf
  | sign op operand => cases hleaf
  | percent operand => cases hleaf
  | _ => rfl

theorem walkWithin_of_use? {e : Expr} {args : List (Option Expr)}
    {use : List Value -> Traced Value}
    (huse : x.use? position e = some (args, use)) (h : e.levels ≤ room) :
    x.walkWithin position formula room e =
      walkArgsWithin x position formula (room - e.levels) args >>= use := by
  unfold walkWithin
  rw [if_neg (Nat.not_lt.mpr h)]
  unfold use? at huse
  split at huse
  · cases huse
    rw [walkArgsWithin, Traced.pure_bind]
  · rename_i function args' hne
    cases huse
    rcases args with _ | ⟨_ | c, _ | ⟨d, rest⟩⟩
    · rfl
    · exact absurd rfl hne
    · rfl
    · rfl
    · rfl
  · cases huse
    simp only [walkArgsWithin, Traced.bind_assoc, Traced.pure_bind, Expr.levels]
  · cases huse
    simp only [walkArgsWithin, Traced.bind_assoc, Traced.pure_bind, Expr.levels]
  · cases huse
    simp only [walkArgsWithin, Traced.bind_assoc, Traced.pure_bind, Expr.levels]
  · cases huse

theorem walkArgsWithin_eq_walkArgs {args : List (Option Expr)}
    (h : forall c, c ∈ Expr.given args ->
      x.walkWithin position formula room c = x.walk position formula c) :
    walkArgsWithin x position formula room args = walkArgs x position formula args := by
  induction args with
  | nil => rw [walkArgsWithin, walkArgs]
  | cons arg rest ih =>
      cases arg with
      | none => rw [walkArgsWithin, walkArgs, ih h]
      | some e =>
          have hrest := ih fun c hc => h c (List.mem_cons_of_mem _ hc)
          rw [walkArgsWithin, walkArgs, h e List.mem_cons_self, hrest]

theorem walkWithin_eq_walk {e : Expr} (h : e.height ≤ room) :
    x.walkWithin position formula room e = x.walk position formula e := by
  induction e using Expr.children_induction generalizing room with
  | step e ih =>
      rcases Expr.height_le_iff.mp h with ⟨hlevels, hchildren⟩
      cases huse : x.use? position e with
      | none => exact walkWithin_leaf huse hlevels
      | some found =>
          rcases found with ⟨args, use⟩
          rw [walkWithin_of_use? huse hlevels, walk_of_use? huse,
            walkArgsWithin_eq_walkArgs]
          intro c hc
          rw [given_of_use? huse] at hc
          exact ih c hc (hchildren c hc)

theorem exists_yields_of_yields_walkArgsWithin {args : List (Option Expr)}
    {notices : List Notice} {values : List Value}
    (h : (walkArgsWithin x position formula room args).Yields notices values)
    {c : Expr} (hc : c ∈ Expr.given args) :
    exists own v, (x.walkWithin position formula room c).Yields own v := by
  induction args generalizing notices values with
  | nil => cases hc
  | cons arg rest ih =>
      cases arg with
      | none =>
          rw [walkArgsWithin] at h
          rcases Traced.yields_bind.mp h with ⟨_, _, _, hrest, _, _⟩
          exact ih hrest hc
      | some e =>
          rw [walkArgsWithin] at h
          rcases Traced.yields_bind.mp h with ⟨first, v, _, hfirst, h, _⟩
          rcases Traced.yields_bind.mp h with ⟨_, _, _, hrest, _, _⟩
          rcases List.mem_cons.mp hc with heq | hc
          · rw [heq]
            exact ⟨first, v, hfirst⟩
          · exact ih hrest hc

theorem height_le_of_yields {e : Expr} {notices : List Notice} {v : Value}
    (h : (x.walkWithin position formula room e).Yields notices v) :
    e.height ≤ room := by
  induction e using Expr.children_induction generalizing room notices v with
  | step e ih =>
      have hlevels : e.levels ≤ room := by
        apply Nat.not_lt.mp
        intro hlt
        rw [walkWithin_of_lt hlt] at h
        exact Traced.not_yields_fail h
      refine Expr.height_le_iff.mpr ⟨hlevels, ?_⟩
      intro c hc
      cases huse : x.use? position e with
      | none =>
          rw [children_of_use?_eq_none huse] at hc
          cases hc
      | some found =>
          rcases found with ⟨args, use⟩
          rw [walkWithin_of_use? huse hlevels] at h
          rcases Traced.yields_bind.mp h with ⟨_, _, _, hargs, _, _⟩
          rw [← given_of_use? huse] at hc
          rcases exists_yields_of_yields_walkArgsWithin hargs hc with ⟨own, w, hown⟩
          rw [given_of_use? huse] at hc
          exact ih c hc hown

/-! ## Extractions -/

theorem extractWithin_eq_extractAt
    (h : forall e, (Parse.ofText formula).tree = some e -> e.height ≤ x.room)
    (strict : Option Bool) :
    x.extractWithin formula position strict = x.extractAt formula position strict := by
  have hfollow : x.followWithin position formula (Parse.ofText formula) =
      x.follow position formula (Parse.ofText formula) := by
    unfold followWithin follow followBy
    cases htree : (Parse.ofText formula).tree with
    | none => rfl
    | some e =>
        simp only
        rw [walkWithin_eq_walk (h e htree)]
  unfold extractWithin extractAt report
  simp only [hfollow]

/-- What comes out for a formula whose tree there is room for is all that comes out. -/
theorem extractWithin_ok_iff {strict : Option Bool} {found : Extraction} :
    (x.extractWithin formula position strict).outcome = .ok found <->
      (forall e, (Parse.ofText formula).tree = some e -> e.height ≤ x.room) ∧
        (x.extractAt formula position strict).outcome = .ok found := by
  have hroom : (x.extractWithin formula position strict).outcome = .ok found ->
      forall e, (Parse.ofText formula).tree = some e -> e.height ≤ x.room := by
    intro h e htree
    rcases exists_yields_of_report h with ⟨notices, v, hyields, _⟩
    unfold followWithin followBy at hyields
    rw [htree] at hyields
    rcases Traced.yields_bind.mp hyields with ⟨_, _, _, hwalk, _, _⟩
    exact height_le_of_yields hwalk
  constructor
  · intro h
    refine ⟨hroom h, ?_⟩
    rw [← extractWithin_eq_extractAt (hroom h)]
    exact h
  · intro h
    rw [extractWithin_eq_extractAt h.left]
    exact h.right

end Extractor

/-! ## Formulas that are too deep -/

def signed (signs : Nat) : String :=
  String.ofList (List.replicate signs '-') ++ "1"

theorem exists_spelled_signed (signs offset : Nat) {level : Nat}
    (hlevel : level ≤ SignOp.level) :
    exists e ts, Spelled (.operand level e) ts ∧
      Laid offset ts (signed signs).toList ∧ e.height = signs + 1 := by
  induction signs generalizing level offset with
  | zero =>
      have hone : Terminal.number.Spells "1".toList := by decide
      exact ⟨.number ⟨"1", offset⟩, _, .number _, laid_word hone offset, rfl⟩
  | succ signs ih =>
      have hminus : Terminal.minus.Spells "-".toList := by decide
      rcases ih (offset + "-".toList.length) (Nat.le_refl _) with
        ⟨e, ts, hspelled, hlaid, hheight⟩
      refine ⟨.sign .minus e, _, .sign .minus ⟨"-", offset⟩ hlevel hspelled, ?_, ?_⟩
      · have htext : (signed (signs + 1)).toList = "-".toList ++ (signed signs).toList := by
          simp [signed, List.replicate_succ]
        rw [htext]
        exact (laid_word hminus offset).append hlaid
      · rw [Expr.height, hheight]
        exact Nat.add_comm 1 _

/-- However much room there is on the stack, some formula without an error has no outcome. -/
theorem Extractor.exists_formula_too_deep (x : Extractor) (position : Position)
    (strict : Option Bool) :
    exists formula e, Parse.ofText formula = ⟨some e, []⟩ ∧
      forall found, (x.extractWithin formula position strict).outcome ≠ .ok found := by
  have hlevel : 1 ≤ SignOp.level := by decide
  rcases exists_spelled_signed x.room 1 hlevel with ⟨e, ts, hspelled, hlaid, hheight⟩
  have hparse := ofText_of_laid hspelled hlaid
  refine ⟨_, e, hparse, ?_⟩
  intro found hfound
  have hroom := (extractWithin_ok_iff.mp hfound).left e (by rw [hparse])
  omega

end Precedents
