import Precedents.Proofs.Extraction.Yields

/-!
# Calls

A call reads every reference among its arguments and nothing else, and with the
usual handlers it always comes to a value.  That value is drawn from the
arguments.
-/

namespace Precedents
namespace Extractor

/-! ## The cells that have been read -/

def Reads (notices : List Notice) (d : Cell) : Prop :=
  exists ref, Notice.read ref ∈ notices ∧ ref.Holds d

theorem reads_append {first second : List Notice} {d : Cell} :
    Reads (first ++ second) d <-> Reads first d ∨ Reads second d := by
  simp [Reads, or_and_right, exists_or]

theorem not_reads_nil (d : Cell) : ¬ Reads [] d := by
  simp [Reads]

theorem reads_read {ref : Reference} {d : Cell} :
    Reads [.read ref] d <-> ref.Holds d := by
  simp [Reads]

theorem reads_readNotices {position : Position} {values : List Value}
    {d : Cell} :
    Reads (readNotices position values) d <->
      exists ref, Value.reference ref ∈ values ∧
        (placed position ref).Holds d := by
  constructor
  · intro h
    rcases h with ⟨ref, hmem, hholds⟩
    rcases List.mem_filterMap.mp hmem with ⟨v, hv, heq⟩
    cases v with
    | reference own =>
        injection heq with heq
        injection heq with heq
        rw [← heq] at hholds
        exact ⟨own, hv, hholds⟩
    | _ => cases heq
  · intro h
    rcases h with ⟨ref, hmem, hholds⟩
    exact ⟨placed position ref,
      List.mem_filterMap.mpr ⟨.reference ref, hmem, rfl⟩, hholds⟩

/-! ## One call -/

structure Consumes (position : Position) (values : List Value)
    (notices : List Notice) (v : Value) : Prop where
  reads : forall d, Reads notices d <->
    exists ref, Value.reference ref ∈ values ∧ (placed position ref).Holds d
  drawn : v.DrawnFrom values

theorem yields_plainCall_consumes (position : Position)
    (values : List Value) :
    exists notices v, (plainCall position values).Yields notices v ∧
      Consumes position values notices v := by
  refine ⟨_, _, yields_plainCall.mpr ⟨rfl, rfl⟩, ?_, ?_⟩
  · intro d
    exact reads_readNotices
  · exact Value.drawnFrom_of_isItem rfl

theorem returned_of_isFormulaValue {v : Value}
    (h : v.isFormulaValue = true) : returned v = .ok v := by
  have hresult := Value.isResult_of_isFormulaValue h
  cases v with
  | bare r => cases h
  | _ => simp [returned, hresult]

theorem yields_settle (f : ReferenceFunction) (position : Position)
    {values : List Value}
    (hvalues : forall v, v ∈ values -> v.isArgument = true) (key : String) :
    exists v, (settle key (f.handler position values)).Yields [] v ∧
      v.DrawnFrom values := by
  unfold ReferenceFunction.handler
  cases hruling : f.ruling position values with
  | error refusal =>
      exact ⟨.error refusal.kind, ⟨rfl, rfl⟩, Value.drawnFrom_of_isItem rfl⟩
  | ok result =>
      cases result with
      | none => exact ⟨.neutral, ⟨rfl, rfl⟩, Value.drawnFrom_of_isItem rfl⟩
      | some v =>
          have hdrawn := f.ruling_drawnFrom position hvalues hruling
          refine ⟨v, ?_, hdrawn⟩
          simp only [settle, Verdict.ofRuling, ofVerdict,
            returned_of_isFormulaValue hdrawn.isFormulaValue]
          exact ⟨rfl, rfl⟩

theorem consumes_of_unread {position : Position} {values : List Value}
    {second : List Notice} {v : Value} (hreads : forall d, ¬ Reads second d)
    (hdrawn : v.DrawnFrom values) :
    Consumes position values (readNotices position values ++ second) v := by
  constructor
  · intro d
    rw [reads_append, reads_readNotices]
    simp [hreads d]
  · exact hdrawn

theorem yields_referenceCall {x : Extractor}
    (hx : x.handler = ReferenceFunction.handler) (position : Position)
    (name : String) {values : List Value}
    (hvalues : forall v, v ∈ values -> v.isArgument = true) :
    exists notices v,
      (x.referenceCall position name values).Yields notices v ∧
      Consumes position values notices v := by
  simp only [referenceCall, Traced.yields_bind, yields_readAll]
  cases hname : ReferenceFunction.ofName? (Text.upper name) with
  | none =>
      refine ⟨_, .neutral, ⟨_, (), [.unknownFunction (Text.upper name)],
        rfl, ⟨rfl, rfl⟩, rfl⟩, consumes_of_unread ?_ ?_⟩
      · intro d
        simp [Reads]
      · exact Value.drawnFrom_of_isItem rfl
  | some function =>
      rcases yields_settle function position hvalues (Text.upper name) with
        ⟨v, hyields, hdrawn⟩
      refine ⟨_, v, ⟨_, (), [], rfl, ?_, rfl⟩,
        consumes_of_unread not_reads_nil hdrawn⟩
      rw [hx]
      exact hyields

theorem yields_call {x : Extractor}
    (hx : x.handler = ReferenceFunction.handler) (position : Position)
    (name : String) {values : List Value}
    (hvalues : forall v, v ∈ values -> v.isArgument = true) :
    exists notices v, (x.call position name values).Yields notices v ∧
      Consumes position values notices v := by
  unfold call
  split
  · exact yields_plainCall_consumes position values
  · exact yields_referenceCall hx position name hvalues

end Extractor
end Precedents
