import Precedents.Proofs.Extraction.Breaking

/-!
# What comes out of a formula

The handlers of the reference functions get nothing but arguments, and on those
they give nothing that a formula cannot hold.  So a walk never breaks off at a
call, and what comes out of an extraction is the value of a formula.
-/

namespace Precedents
namespace Extractor

variable {x : Extractor} {position : Position} {formula : String}
variable {notices : List Notice} {v : Value} {fault : Fault}

theorem isFormulaValue_of_finish {w : Value} (hv : v.isFormulaValue = true)
    (h : (finish position v).Yields notices w) : w.isFormulaValue = true := by
  unfold finish at h
  split at h
  · rw [(yields_read.mp h).right]
    rfl
  · split at h
    · rw [(yields_read.mp h).right]
      rfl
    · rw [(Traced.yields_pure.mp h).right]
      exact hv
  · rw [(Traced.yields_pure.mp h).right]
    exact hv

theorem not_breaks_use (hx : x.handler = ReferenceFunction.handler) {e : Expr}
    {args : List (Option Expr)} {use : List Value -> Traced Value}
    (huse : x.use? position e = some (args, use)) {first : List Notice}
    {values : List Value}
    (hargs : (walkArgs x position formula args).Yields first values) :
    ¬ (use values).Breaks notices fault := by
  have hvalues : forall v, v ∈ values -> v.isArgument = true := by
    apply isArgument_of_yields_walkArgs _ hargs
    intro c _ notices v hyields
    exact isFormulaValue_of_walk hx c hyields
  rcases yields_of_use? hx huse hvalues with ⟨others, w, hyields, _⟩
  exact hyields.not_breaks

theorem isOfHandler_of_breaks (hx : x.handler = ReferenceFunction.handler) {e : Expr}
    (h : (x.walk position formula e).Breaks notices fault) :
    fault.isOfHandler = false := by
  rcases BreaksIn.walk e h with ⟨before, p, after, last, _, _, hself, _⟩
  unfold BreaksItself at hself
  cases huse : x.use? position p with
  | none =>
      rw [huse] at hself
      exact (breaks_leaf huse hself).right
  | some found =>
      rcases found with ⟨args, use⟩
      rw [huse] at hself
      rcases hself with ⟨first, values, hargs, hbreaks⟩
      exact absurd hbreaks (not_breaks_use hx huse hargs)

/--
In a formula with a tree every part that comes to a value comes to one that a
formula may hold, and what a call is given are arguments.  The value of an
extraction is such a value too, and no extraction ends with the fault of a handler.
-/
theorem values_in_domain (hx : x.handler = ReferenceFunction.handler) {e : Expr}
    (htree : (Parse.ofText formula).tree = some e) :
    (forall p, p ∈ e.parts -> forall notices v,
      (x.walk position formula p).Yields notices v -> v.isFormulaValue = true) ∧
    (forall function args, .call function args ∈ e.parts -> forall notices values,
      (walkArgs x position formula args).Yields notices values ->
        forall v, v ∈ values -> v.isArgument = true) ∧
    forall strict,
      (forall found, (x.extractAt formula position strict).outcome = .ok found ->
        found.value.isFormulaValue = true) ∧
      forall fault, (x.extractAt formula position strict).outcome = .error (.fault fault) ->
        fault.isOfHandler = false := by
  refine ⟨fun p _ _ _ => isFormulaValue_of_walk hx p, ?_, ?_⟩
  · intro function args _ notices values hargs
    apply isArgument_of_yields_walkArgs _ hargs
    exact fun c _ _ _ => isFormulaValue_of_walk hx c
  · intro strict
    constructor
    · intro found h
      rcases exists_yields_of_extractAt h with ⟨notices, w, hyields, hfound⟩
      rw [follow_of_tree htree] at hyields
      rcases Traced.yields_bind.mp hyields with ⟨_, v, _, hwalk, hfinish, _⟩
      rw [hfound]
      exact isFormulaValue_of_finish (isFormulaValue_of_walk hx e hwalk) hfinish
    · intro fault h
      rcases exists_breaks_of_extractAt h with ⟨notices, hbreaks⟩
      rcases exists_walk_of_follow hbreaks with ⟨e, _, hwalk⟩
      exact isOfHandler_of_breaks hx hwalk

def swappedItem : String := "=INDEX(TRANSPOSE(\x7b1,-2.5;\"a\",#N/A\x7d),1,2)"

theorem swappedItem_in_domain :
    exists e found, (Parse.ofText swappedItem).tree = some e ∧
      (({} : Extractor).extractAt swappedItem (.mk 9 1 "S") none).outcome = .ok found ∧
      found.value.isFormulaValue = true := by
  have htree : (Parse.ofText swappedItem).tree.isSome = true := by decide +kernel
  have hok : (({} : Extractor).extractAt swappedItem (.mk 9 1 "S")
      none).outcome.toOption.isSome = true := by decide +kernel
  cases he : (Parse.ofText swappedItem).tree with
  | none =>
      rw [he] at htree
      cases htree
  | some e =>
      cases hfound : (({} : Extractor).extractAt swappedItem (.mk 9 1 "S") none).outcome with
      | error error =>
          rw [hfound] at hok
          cases hok
      | ok found =>
          refine ⟨e, found, rfl, rfl, ?_⟩
          have hhandler : ({} : Extractor).handler = ReferenceFunction.handler := rfl
          exact ((values_in_domain hhandler he).right.right none).left found hfound

end Extractor
end Precedents
