import Precedents.Proofs.Extraction.Calls

/-!
# The walk as leaves and calls

A formula is a leaf, or it is an operator or a call that uses the values of its
children.  All uses of values go through `walkArgs`, so that a statement about
the walk needs one argument for the leaves and one for the lists of arguments.
-/

namespace Precedents

namespace Traced

variable {α β γ : Type}

theorem pure_bind (a : α) (next : α -> Traced β) :
    (Pure.pure a : Traced α) >>= next = next a := rfl

theorem bind_assoc (t : Traced α) (next : α -> Traced β)
    (last : β -> Traced γ) :
    t >>= next >>= last = t >>= fun a => next a >>= last := by
  change Traced.bind (Traced.bind t next) last =
    Traced.bind t fun a => Traced.bind (next a) last
  cases hfirst : t.outcome with
  | error fault => simp only [Traced.bind, hfirst]
  | ok a =>
      cases hsecond : (next a).outcome with
      | error fault => simp only [Traced.bind, hfirst, hsecond]
      | ok b =>
          simp only [Traced.bind, hfirst, hsecond, List.append_assoc]

end Traced

def Expr.callee? : Expr -> Option String
  | .call function _ => some (Text.upper (Literal.function function.text))
  | _ => none

namespace Extractor

variable {x : Extractor} {position : Position} {formula : String}

/-- The arguments of an operator or a call, and what is done with their values. -/
def use? (x : Extractor) (position : Position) :
    Expr -> Option (List (Option Expr) × (List Value -> Traced Value))
  | .call function [none] =>
      some ([], x.call position (Literal.function function.text))
  | .call function args =>
      some (args, x.call position (Literal.function function.text))
  | .binary _ left right => some ([some left, some right], plainCall position)
  | .sign _ operand => some ([some operand], plainCall position)
  | .percent operand => some ([some operand], plainCall position)
  | _ => none

theorem use?_call_ne_none (function : Lexeme) (args : List (Option Expr)) :
    x.use? position (.call function args) ≠ none := by
  by_cases hnone : args = [none]
  · rw [hnone]
    simp [use?]
  · rw [use?]
    · simp
    · exact hnone

theorem callee?_of_use?_eq_none {e : Expr} (h : x.use? position e = none) :
    e.callee? = none := by
  cases e with
  | call function args => exact absurd h (use?_call_ne_none function args)
  | _ => rfl

theorem given_of_use? {e : Expr} {args : List (Option Expr)}
    {use : List Value -> Traced Value}
    (h : x.use? position e = some (args, use)) :
    Expr.given args = e.children := by
  unfold use? at h
  split at h
  all_goals cases h
  all_goals rfl

theorem children_of_use?_eq_none {e : Expr} (h : x.use? position e = none) :
    e.children = [] := by
  cases e with
  | call function args => exact absurd h (use?_call_ne_none function args)
  | binary op left right => cases h
  | sign op operand => cases h
  | percent operand => cases h
  | _ => rfl

theorem walk_of_use? {e : Expr} {args : List (Option Expr)}
    {use : List Value -> Traced Value}
    (h : x.use? position e = some (args, use)) :
    x.walk position formula e = walkArgs x position formula args >>= use := by
  unfold use? at h
  split at h
  · cases h
    rw [walk, walkArgs, Traced.pure_bind]
  · rename_i function args' hne
    cases h
    rw [walk]
    exact hne
  · cases h
    simp only [walk, walkArgs, Traced.bind_assoc, Traced.pure_bind]
  · cases h
    simp only [walk, walkArgs, Traced.bind_assoc, Traced.pure_bind]
  · cases h
    simp only [walk, walkArgs, Traced.bind_assoc, Traced.pure_bind]
  · cases h

theorem yields_of_use? (hx : x.handler = ReferenceFunction.handler) {e : Expr}
    {args : List (Option Expr)} {use : List Value -> Traced Value}
    (h : x.use? position e = some (args, use)) {values : List Value}
    (hvalues : forall v, v ∈ values -> v.isArgument = true) :
    exists notices v, (use values).Yields notices v ∧
      Consumes position values notices v := by
  unfold use? at h
  split at h
  · cases h
    exact yields_call hx position _ hvalues
  · cases h
    exact yields_call hx position _ hvalues
  · cases h
    exact yields_plainCall_consumes position values
  · cases h
    exact yields_plainCall_consumes position values
  · cases h
    exact yields_plainCall_consumes position values
  · cases h

theorem consumes_of_use? (hx : x.handler = ReferenceFunction.handler) {e : Expr}
    {args : List (Option Expr)} {use : List Value -> Traced Value}
    (huse : x.use? position e = some (args, use)) {values : List Value}
    (hvalues : forall v, v ∈ values -> v.isArgument = true)
    {notices : List Notice} {v : Value} (h : (use values).Yields notices v) :
    Consumes position values notices v := by
  rcases yields_of_use? hx huse hvalues with ⟨others, w, hyields, hconsumes⟩
  have hnotices : others = notices := by
    rw [← hyields.left, h.left]
  have hv : w = v := by
    have hsame := hyields.right.symm.trans h.right
    injection hsame
  rwa [hnotices, hv] at hconsumes

theorem yields_walk_of_use? {e : Expr}
    {args : List (Option Expr)} {use : List Value -> Traced Value}
    (h : x.use? position e = some (args, use)) {notices : List Notice}
    {v : Value} :
    (x.walk position formula e).Yields notices v <->
      exists first values second,
        (walkArgs x position formula args).Yields first values ∧
          (use values).Yields second v ∧ notices = first ++ second := by
  rw [walk_of_use? h, Traced.yields_bind]

/-! ## What is noticed where values are used -/

/-- The function with this name in upper case is a value function or a reference function. -/
def Knows (x : Extractor) (key : String) : Prop :=
  key ∈ x.valueFunctions ∨ key ∈ x.registered.names ∨
    key ∈ ReferenceFunction.all.map ReferenceFunction.name

instance (x : Extractor) : DecidablePred x.Knows :=
  fun key => inferInstanceAs (Decidable (key ∈ x.valueFunctions ∨
    key ∈ x.registered.names ∨
    key ∈ ReferenceFunction.all.map ReferenceFunction.name))

theorem isValueFunction_iff {name : String} :
    x.isValueFunction name = true <->
      Text.upper name ∈ x.valueFunctions ∨
        Text.upper name ∈ x.registered.names := by
  simp [isValueFunction, ValueFunctions.has]

theorem ofName?_eq_none_iff {key : String} :
    ReferenceFunction.ofName? key = none <->
      key ∉ ReferenceFunction.all.map ReferenceFunction.name := by
  simp [ReferenceFunction.ofName?]

def unknownNotices (x : Extractor) (keys : List String) : List Notice :=
  (keys.filter fun key => ¬ x.Knows key).map .unknownFunction

theorem unknownNotices_of_knows {key : String} (h : x.Knows key) :
    x.unknownNotices [key] = [] := by
  simp [unknownNotices, h]

theorem unknownNotices_of_not_knows {key : String} (h : ¬ x.Knows key) :
    x.unknownNotices [key] = [.unknownFunction key] := by
  simp [unknownNotices, h]

theorem notices_of_referenceCall {name : String} {values : List Value}
    {notices : List Notice} {v : Value}
    (hname : x.isValueFunction name ≠ true)
    (h : (x.referenceCall position name values).Yields notices v) :
    notices = readNotices position values ++ x.unknownNotices [Text.upper name] := by
  rw [ne_eq, isValueFunction_iff, not_or] at hname
  rcases Traced.yields_bind.mp h with ⟨first, _, second, hread, hrest, heq⟩
  rw [heq, yields_readAll.mp hread]
  simp only at hrest
  split at hrest
  · rename_i hnone
    have hunknown : ¬ x.Knows (Text.upper name) := by
      simp only [Knows, not_or]
      exact ⟨hname.left, hname.right, ofName?_eq_none_iff.mp hnone⟩
    rcases Traced.yields_bind.mp hrest with ⟨_, _, _, hnote, hpure, heq⟩
    rw [heq, Traced.yields_note.mp hnote, (Traced.yields_pure.mp hpure).left,
      unknownNotices_of_not_knows hunknown]
    rfl
  · rename_i function hsome
    have hknown : x.Knows (Text.upper name) := by
      refine Or.inr (Or.inr ?_)
      apply Decidable.not_not.mp
      rw [← ofName?_eq_none_iff, hsome]
      simp
    rw [unknownNotices_of_knows hknown]
    unfold settle at hrest
    split at hrest
    · rw [(Traced.yields_pure.mp hrest).left]
    · rcases Traced.yields_bind.mp hrest with ⟨_, _, _, _, hfail, _⟩
      exact absurd hfail Traced.not_yields_fail

theorem notices_of_plainCall {values : List Value} {notices : List Notice}
    {v : Value} (h : (plainCall position values).Yields notices v) :
    notices = readNotices position values ++ x.unknownNotices [] := by
  rw [(yields_plainCall.mp h).left]
  exact (List.append_nil _).symm

theorem notices_of_call {name : String} {values : List Value}
    {notices : List Notice} {v : Value}
    (h : (x.call position name values).Yields notices v) :
    notices = readNotices position values ++ x.unknownNotices [Text.upper name] := by
  unfold Extractor.call at h
  split at h
  · rename_i hvalue
    have hknown : x.Knows (Text.upper name) := by
      rcases isValueFunction_iff.mp hvalue with hvalue | hvalue
      · exact Or.inl hvalue
      · exact Or.inr (Or.inl hvalue)
    rw [unknownNotices_of_knows hknown, List.append_nil]
    exact (yields_plainCall.mp h).left
  · rename_i hvalue
    exact notices_of_referenceCall hvalue h

theorem notices_of_use? {e : Expr} {args : List (Option Expr)}
    {use : List Value -> Traced Value}
    (huse : x.use? position e = some (args, use)) {values : List Value}
    {notices : List Notice} {v : Value} (h : (use values).Yields notices v) :
    notices = readNotices position values ++ x.unknownNotices e.callee?.toList := by
  unfold use? at huse
  split at huse
  · cases huse
    exact notices_of_call h
  · cases huse
    exact notices_of_call h
  · cases huse
    exact notices_of_plainCall h
  · cases huse
    exact notices_of_plainCall h
  · cases huse
    exact notices_of_plainCall h
  · cases huse

/-! ## Arguments one by one -/

theorem yields_walkArgs_none {rest : List (Option Expr)}
    {notices : List Notice} {values : List Value} :
    (walkArgs x position formula (none :: rest)).Yields notices values <->
      exists others, values = .missing :: others ∧
        (walkArgs x position formula rest).Yields notices others := by
  rw [walkArgs, Traced.yields_bind]
  constructor
  · intro h
    rcases h with ⟨first, others, second, hrest, hpure, hnotices⟩
    rcases Traced.yields_pure.mp hpure with ⟨hsecond, hvalues⟩
    rw [hnotices, hsecond, List.append_nil]
    exact ⟨others, hvalues, hrest⟩
  · intro h
    rcases h with ⟨others, hvalues, hrest⟩
    exact ⟨notices, others, [], hrest,
      Traced.yields_pure.mpr ⟨rfl, hvalues⟩, (List.append_nil _).symm⟩

theorem yields_walkArgs_some {e : Expr} {rest : List (Option Expr)}
    {notices : List Notice} {values : List Value} :
    (walkArgs x position formula (some e :: rest)).Yields notices values <->
      exists first v second others,
        (x.walk position formula e).Yields first v ∧
          (walkArgs x position formula rest).Yields second others ∧
          notices = first ++ second ∧ values = v :: others := by
  simp only [walkArgs, Traced.yields_bind, Traced.yields_pure]
  constructor
  · intro h
    rcases h with ⟨first, v, tail, hfirst,
      ⟨second, others, last, hsecond, ⟨hlast, hvalues⟩, htail⟩, hnotices⟩
    rw [hlast, List.append_nil] at htail
    rw [htail] at hnotices
    exact ⟨first, v, second, others, hfirst, hsecond, hnotices, hvalues⟩
  · intro h
    rcases h with
      ⟨first, v, second, others, hfirst, hsecond, hnotices, hvalues⟩
    exact ⟨first, v, second, hfirst, ⟨second, others, [], hsecond,
      ⟨rfl, hvalues⟩, (List.append_nil _).symm⟩, hnotices⟩

theorem exists_yields_of_yields_walkArgs {args : List (Option Expr)}
    {notices : List Notice} {values : List Value}
    (h : (walkArgs x position formula args).Yields notices values) {c : Expr}
    (hc : c ∈ Expr.given args) :
    exists own v, (x.walk position formula c).Yields own v ∧ v ∈ values := by
  induction args generalizing notices values with
  | nil => cases hc
  | cons arg rest ih =>
      cases arg with
      | none =>
          rcases yields_walkArgs_none.mp h with ⟨others, hvalues, hrest⟩
          rcases ih hrest hc with ⟨own, v, hyields, hv⟩
          rw [hvalues]
          exact ⟨own, v, hyields, List.mem_cons_of_mem _ hv⟩
      | some e =>
          rcases yields_walkArgs_some.mp h with
            ⟨first, w, second, others, hfirst, hsecond, _, hvalues⟩
          rw [hvalues]
          rcases List.mem_cons.mp hc with heq | hc
          · rw [heq]
            exact ⟨first, w, hfirst, List.mem_cons_self ..⟩
          · rcases ih hsecond hc with ⟨own, v, hyields, hv⟩
            exact ⟨own, v, hyields, List.mem_cons_of_mem _ hv⟩

theorem missing_or_exists_of_yields_walkArgs {args : List (Option Expr)}
    {notices : List Notice} {values : List Value}
    (h : (walkArgs x position formula args).Yields notices values) {v : Value}
    (hv : v ∈ values) :
    v = .missing ∨ exists c own, c ∈ Expr.given args ∧
      (x.walk position formula c).Yields own v := by
  induction args generalizing notices values with
  | nil =>
      rcases Traced.yields_pure.mp h with ⟨_, hvalues⟩
      rw [hvalues] at hv
      cases hv
  | cons arg rest ih =>
      cases arg with
      | none =>
          rcases yields_walkArgs_none.mp h with ⟨others, hvalues, hrest⟩
          rw [hvalues] at hv
          rcases List.mem_cons.mp hv with hv | hv
          · exact Or.inl hv
          · exact ih hrest hv
      | some e =>
          rcases yields_walkArgs_some.mp h with
            ⟨first, w, second, others, hfirst, hsecond, _, hvalues⟩
          rw [hvalues] at hv
          rcases List.mem_cons.mp hv with hv | hv
          · rw [hv]
            exact Or.inr ⟨e, first, List.mem_cons_self .., hfirst⟩
          · rcases ih hsecond hv with hmissing | hchild
            · exact Or.inl hmissing
            · rcases hchild with ⟨c, own, hc, hyields⟩
              exact Or.inr ⟨c, own, List.mem_cons_of_mem _ hc, hyields⟩

end Extractor
end Precedents
