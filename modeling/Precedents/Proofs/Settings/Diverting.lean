import Precedents.Proofs.Extraction.Chronicle
import Precedents.Proofs.Extraction.Literals
import Precedents.Proofs.Function.Registering
import Precedents.Settings.Basic

/-!
# Calls that are kept from their handlers

Settings and the maker of an extractor may list any names as value functions.  Other
than the names that are registered, these are not checked: a reference function
among them is kept from its handler, and its calls have the neutral value.  Where
none is listed, every call of a reference function has the value of its handler.
-/

namespace Precedents

structure CallIn (formula : String) (f : ReferenceFunction) (function : Lexeme)
    (args : List (Option Expr)) : Prop where
  mem : .call function args ∈ Parse.steps formula
  named : ReferenceFunction.named? (Literal.function function.text) = some f

namespace Extractor

variable {x : Extractor} {f : ReferenceFunction}

/-- Once its arguments have values, every call of the function has the value that they call for. -/
def Answers (x : Extractor) (f : ReferenceFunction)
    (answer : Position -> List Value -> Value -> Prop) : Prop :=
  forall position formula function args first values, CallIn formula f function args ->
    (walkArgs x position formula (Expr.passed args)).Yields first values ->
    exists notices v, (x.walk position formula (.call function args)).Yields notices v ∧
      answer position values v

def Handles (x : Extractor) (f : ReferenceFunction) : Prop :=
  x.Answers f fun position values v =>
    ofVerdict f.name (f.handler position values) = .ok v

def Diverts (x : Extractor) (f : ReferenceFunction) : Prop :=
  x.Answers f fun _ _ v => v = .neutral

/-! ## What a call comes to -/

theorem yields_call_node {position : Position} {formula : String} {function : Lexeme}
    {args : List (Option Expr)} {first second : List Notice} {values : List Value} {v : Value}
    (hargs : (walkArgs x position formula (Expr.passed args)).Yields first values)
    (hcall : (x.call position (Literal.function function.text) values).Yields second v) :
    (x.walk position formula (.call function args)).Yields (first ++ second) v :=
  (yields_walk_of_use? (use?_call function args)).mpr
    ⟨first, values, second, hargs, hcall, rfl⟩

theorem ofVerdict_of_yields_settle {key : String} {verdict : Verdict} {notices : List Notice}
    {v : Value} (h : (settle key verdict).Yields notices v) : ofVerdict key verdict = .ok v := by
  unfold settle at h
  split at h
  · rename_i w hw
    rw [(Traced.yields_pure.mp h).right]
    exact hw
  · rcases Traced.yields_bind.mp h with ⟨_, _, _, _, hfail, _⟩
    exact absurd hfail Traced.not_yields_fail

theorem diverts_of_mem (hfree : f.name ∉ x.registered.names) (hmem : f.name ∈ x.valueFunctions) :
    x.Diverts f := by
  intro position formula function args first values hcall hargs
  have hplain := ValueFunctions.call_of_named hcall.named hfree position values
  rw [if_pos hmem] at hplain
  have hneutral : (plainCall position values).Yields (readNotices position values) .neutral :=
    yields_plainCall.mpr ⟨rfl, rfl⟩
  rw [← hplain] at hneutral
  exact ⟨_, .neutral, yields_call_node hargs hneutral, rfl⟩

theorem handles_of_not_mem (hx : x.handler = ReferenceFunction.handler)
    (hfree : f.name ∉ x.registered.names) (hmem : f.name ∉ x.valueFunctions) :
    x.Handles f := by
  intro position formula function args first values hcall hargs
  have hvalues : forall v, v ∈ values -> v.isArgument = true :=
    isArgument_of_yields_walkArgs
      (fun c _ notices v hyields => isFormulaValue_of_walk hx c hyields) hargs
  have hread := ValueFunctions.call_of_named hcall.named hfree position values
  rw [if_neg hmem, hx] at hread
  rcases yields_settle f position hvalues f.name with ⟨v, hsettle, _⟩
  have hvalue : (x.call position (Literal.function function.text) values).Yields
      (readNotices position values ++ []) v := by
    rw [hread]
    exact Traced.yields_bind.mpr ⟨_, (), _, yields_readAll.mpr rfl, hsettle, rfl⟩
  exact ⟨_, v, yields_call_node hargs hvalue, ofVerdict_of_yields_settle hsettle⟩

/-! ## A call without arguments -/

def callWord (f : ReferenceFunction) : String :=
  f.name ++ "("

theorem spells_callWord (f : ReferenceFunction) :
    Terminal.functionName.Spells (callWord f).toList := by
  cases f with
  | _ => decide +kernel

theorem named?_callWord (f : ReferenceFunction) :
    ReferenceFunction.named? (Literal.function (callWord f)) = some f := by
  cases f with
  | _ => decide +kernel

theorem callIn_bare (f : ReferenceFunction) :
    CallIn ("=" ++ (callWord f ++ ")")) f ⟨callWord f, 1⟩ [none] := by
  refine ⟨?_, named?_callWord f⟩
  rw [Parse.steps, ofText_bareCall (spells_callWord f)]
  exact List.mem_singleton.mpr rfl

theorem ofVerdict_bare_ne_neutral (f : ReferenceFunction) :
    ofVerdict f.name (f.handler (.mk 1 1 "") []) ≠ .ok .neutral := by
  intro h
  cases f with
  | _ => cases h

theorem Diverts.not_handles (h : x.Diverts f) : ¬ x.Handles f := by
  intro hhandles
  have hargs : (walkArgs x (.mk 1 1 "") ("=" ++ (callWord f ++ ")"))
      (Expr.passed [none])).Yields [] [] :=
    ⟨rfl, rfl⟩
  rcases h _ _ _ _ _ _ (callIn_bare f) hargs with ⟨_, v, hwalk, hneutral⟩
  rcases hhandles _ _ _ _ _ _ (callIn_bare f) hargs with ⟨_, w, hother, hverdict⟩
  rw [hother.value_eq hwalk, hneutral] at hverdict
  exact ofVerdict_bare_ne_neutral f hverdict

end Extractor

namespace Settings

open Extractor

/-- The extractor of settings and of its own value functions, after a run of registrations. -/
def extractorAfter (settings : Settings) (functions : List String)
    (changes : List ValueFunctions.Change) : Extractor :=
  { settings.extractor functions with registered := ValueFunctions.after changes }

/--
Every call of a reference function has the value of its handler just if the function
is listed neither in the settings nor with the extractor.  If it is listed, each of
its calls has the neutral value.  What has been registered makes no difference.
-/
theorem handles_iff (settings : Settings) (functions : List String)
    (changes : List ValueFunctions.Change) (f : ReferenceFunction) :
    ((settings.extractorAfter functions changes).Handles f <->
        f.name ∉ (settings.valueFunctions ++ functions).map Text.upper) ∧
      ((settings.extractorAfter functions changes).Diverts f <->
        f.name ∈ (settings.valueFunctions ++ functions).map Text.upper) := by
  have hfree : f.name ∉ (settings.extractorAfter functions changes).registered.names :=
    (ValueFunctions.valid_after changes).not_mem f
  have hlisted : f.name ∈ (settings.valueFunctions ++ functions).map Text.upper ->
      (settings.extractorAfter functions changes).Diverts f :=
    diverts_of_mem hfree
  have hunlisted : f.name ∉ (settings.valueFunctions ++ functions).map Text.upper ->
      (settings.extractorAfter functions changes).Handles f :=
    handles_of_not_mem rfl hfree
  refine ⟨⟨fun hhandles hmem => (hlisted hmem).not_handles hhandles, hunlisted⟩, ?_, hlisted⟩
  intro hdiverts
  apply Classical.byContradiction
  intro hmem
  exact hdiverts.not_handles (hunlisted hmem)

def indexSettings : Settings where
  valueFunctions := ["Index"]

theorem index_kept_from_handler :
    ofDatum (.map [(.text "value_functions", .list [.text "Index"])]) = .ok indexSettings ∧
      (indexSettings.extractorAfter [] []).Diverts .index ∧
      ¬ (indexSettings.extractorAfter [] []).Handles .index ∧
      (indexSettings.extractorAfter [] []).Handles .row := by
  have hindex := handles_iff indexSettings [] [] .index
  have hrow := handles_iff indexSettings [] [] .row
  have hlisted : ReferenceFunction.index.name ∈ (["Index"] ++ []).map Text.upper := by
    decide +kernel
  have hunlisted : ReferenceFunction.row.name ∉ (["Index"] ++ []).map Text.upper := by
    decide +kernel
  exact ⟨rfl, hindex.right.mpr hlisted, fun h => hindex.left.mp h hlisted,
    hrow.left.mpr hunlisted⟩

end Settings
end Precedents
