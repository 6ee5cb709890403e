import Precedents.Proofs.Extraction.Walking

/-!
# Registered functions

Value functions are registered and taken out by lists of names.  A list is registered
name by name up to its first reference function, where it is refused; the names in
front of that one stay registered.  So a refusal leaves things as they are only if
there was nothing new in front of it.  After any run of changes a function is
registered just if its name was registered when it was taken up last, and no
reference function ever is.
-/

namespace Precedents

namespace ReferenceFunction

theorem ofName?_name (f : ReferenceFunction) : ofName? f.name = some f := by
  cases f with
  | _ => rfl

theorem name_of_named? {name : String} {f : ReferenceFunction} (h : named? name = some f) :
    f.name = Text.upper name := by
  simpa using List.find?_some h

end ReferenceFunction

namespace ValueFunctions

variable {known : ValueFunctions} {names : List String} {name key : String}

/-! ## One name -/

theorem mem_insert : key ∈ insert name names <-> key = name ∨ key ∈ names := by
  induction names with
  | nil => simp [insert]
  | cons other rest ih =>
      rw [insert]
      split
      · rename_i heq
        rw [heq, List.mem_cons]
        exact or_self_left.symm
      · split
        · exact List.mem_cons
        · rw [List.mem_cons, ih, List.mem_cons]
          exact or_left_comm

theorem pairwise_insert (name : String) (h : names.Pairwise fun a b => a < b) :
    (insert name names).Pairwise fun a b => a < b := by
  induction names with
  | nil => exact List.pairwise_singleton _ _
  | cons other rest ih =>
      rcases List.pairwise_cons.mp h with ⟨hfirst, hrest⟩
      rw [insert]
      split
      · exact h
      · rename_i hne
        split
        · rename_i hlt
          refine List.pairwise_cons.mpr ⟨?_, h⟩
          intro key hkey
          rcases List.mem_cons.mp hkey with hkey | hkey
          · rw [hkey]
            exact hlt
          · exact String.lt_trans hlt (hfirst key hkey)
        · rename_i hnot
          have hlt : other < name := by
            rw [← String.not_le]
            intro hle
            exact hne (String.le_antisymm hle (String.not_lt.mp hnot))
          refine List.pairwise_cons.mpr ⟨?_, ih hrest⟩
          intro key hkey
          rcases mem_insert.mp hkey with hkey | hkey
          · rw [hkey]
            exact hlt
          · exact hfirst key hkey

theorem insert_of_mem (h : names.Pairwise fun a b => a < b) (hmem : name ∈ names) :
    insert name names = names := by
  induction names with
  | nil => cases hmem
  | cons other rest ih =>
      rcases List.pairwise_cons.mp h with ⟨hfirst, hrest⟩
      rw [insert]
      split
      · rfl
      · rename_i hne
        have hmem : name ∈ rest := (List.mem_cons.mp hmem).resolve_left hne
        have hnot : ¬ name < other := fun hlt =>
          String.lt_irrefl name (String.lt_trans hlt (hfirst name hmem))
        rw [if_neg hnot, ih hrest hmem]

theorem has_iff : known.has name [] = true <-> Text.upper name ∈ known.names := by
  simp [has]

/-! ## One list of names -/

/-- The names in front of the first reference function. -/
def admitted (names : List String) : List String :=
  names.takeWhile fun name => (ReferenceFunction.named? name).isNone

theorem admitted_cons_of_none {rest : List String}
    (h : ReferenceFunction.named? name = none) :
    admitted (name :: rest) = name :: admitted rest := by
  simp [admitted, h]

theorem admitted_cons_of_some {f : ReferenceFunction} {rest : List String}
    (h : ReferenceFunction.named? name = some f) : admitted (name :: rest) = [] := by
  simp [admitted, h]

theorem register_cons_of_none {rest : List String}
    (h : ReferenceFunction.named? name = none) :
    known.register (name :: rest) =
      register ⟨insert (Text.upper name) known.names⟩ rest := by
  simp only [register, h]

theorem register_cons_of_some {f : ReferenceFunction} {rest : List String}
    (h : ReferenceFunction.named? name = some f) :
    known.register (name :: rest) = (known, some f) := by
  simp only [register, h]

theorem exists_culprit_of_refused {f : ReferenceFunction}
    (h : (known.register names).2 = some f) :
    exists culprit rest, names = admitted names ++ culprit :: rest ∧
      ReferenceFunction.named? culprit = some f := by
  induction names generalizing known with
  | nil => cases h
  | cons name rest ih =>
      cases hname : ReferenceFunction.named? name with
      | some g =>
          rw [register_cons_of_some hname] at h
          rw [admitted_cons_of_some hname]
          exact ⟨name, rest, rfl, hname.trans h⟩
      | none =>
          rw [register_cons_of_none hname] at h
          rcases ih h with ⟨culprit, last, hrest, hculprit⟩
          rw [admitted_cons_of_none hname]
          exact ⟨culprit, last, congrArg (name :: ·) hrest, hculprit⟩

theorem mem_register :
    key ∈ (known.register names).1.names <->
      key ∈ known.names ∨ key ∈ (admitted names).map Text.upper := by
  induction names generalizing known with
  | nil => simp [register, admitted]
  | cons name rest ih =>
      cases hname : ReferenceFunction.named? name with
      | some f =>
          rw [register_cons_of_some hname, admitted_cons_of_some hname]
          simp
      | none =>
          rw [register_cons_of_none hname, admitted_cons_of_none hname, ih, mem_insert,
            List.map_cons, List.mem_cons, or_assoc]
          exact or_left_comm

theorem mem_unregister :
    key ∈ (known.unregister names).names <->
      key ∈ known.names ∧ key ∉ names.map Text.upper := by
  simp [unregister]

/-! ## What can be registered -/

structure Valid (known : ValueFunctions) : Prop where
  ordered : known.names.Pairwise fun a b => a < b
  plain : forall key, key ∈ known.names -> ReferenceFunction.ofName? key = none

theorem Valid.not_mem (h : known.Valid) (f : ReferenceFunction) : f.name ∉ known.names := by
  intro hmem
  have hnone := h.plain f.name hmem
  rw [f.ofName?_name] at hnone
  cases hnone

theorem Valid.insert (h : known.Valid) (hname : ReferenceFunction.named? name = none) :
    Valid ⟨insert (Text.upper name) known.names⟩ where
  ordered := pairwise_insert (Text.upper name) h.ordered
  plain key hkey := by
    rcases mem_insert.mp hkey with hkey | hkey
    · rw [hkey]
      exact hname
    · exact h.plain key hkey

theorem Valid.register (h : known.Valid) (names : List String) :
    (known.register names).1.Valid := by
  induction names generalizing known with
  | nil => exact h
  | cons name rest ih =>
      cases hname : ReferenceFunction.named? name with
      | some f =>
          rw [register_cons_of_some hname]
          exact h
      | none =>
          rw [register_cons_of_none hname]
          exact ih (h.insert hname)

theorem Valid.unregister (h : known.Valid) (names : List String) :
    (known.unregister names).Valid where
  ordered := h.ordered.filter _
  plain key hkey := h.plain key (mem_unregister.mp hkey).left

theorem Valid.register_of_has (h : known.Valid)
    (hall : forall name, name ∈ admitted names -> known.has name [] = true) :
    (known.register names).1 = known := by
  induction names with
  | nil => rfl
  | cons name rest ih =>
      cases hname : ReferenceFunction.named? name with
      | some f => rw [register_cons_of_some hname]
      | none =>
          rw [admitted_cons_of_none hname] at hall
          have hmem : Text.upper name ∈ known.names :=
            has_iff.mp (hall name List.mem_cons_self)
          rw [register_cons_of_none hname, insert_of_mem h.ordered hmem]
          exact ih fun other hother => hall other (List.mem_cons_of_mem name hother)

/-! ## Runs of changes -/

inductive Change
  | register (names : List String)
  | unregister (names : List String)
deriving DecidableEq, Repr

/-- What is registered after a change; what a refused one has registered stays. -/
def perform (known : ValueFunctions) : Change -> ValueFunctions
  | .register names => (known.register names).1
  | .unregister names => known.unregister names

def after (changes : List Change) : ValueFunctions :=
  changes.foldl perform {}

theorem Valid.perform (h : known.Valid) (change : Change) : (known.perform change).Valid := by
  cases change with
  | register names => exact h.register names
  | unregister names => exact h.unregister names

theorem valid_after (changes : List Change) : (after changes).Valid := by
  have all : forall (known : ValueFunctions), known.Valid ->
      (changes.foldl ValueFunctions.perform known).Valid := by
    induction changes with
    | nil =>
        intro known h
        exact h
    | cons change rest ih =>
        intro known h
        exact ih _ (h.perform change)
  exact all {} ⟨List.Pairwise.nil, by simp⟩

def Change.takesUp : Change -> List (String × Bool)
  | .register names => (admitted names).map fun name => (name, true)
  | .unregister names => names.map fun name => (name, false)

/-- Whether a name was registered when it was taken up last, in letters of either case. -/
def lastTaken? (changes : List Change) (name : String) : Option Bool :=
  ((changes.flatMap Change.takesUp).filter fun taken =>
    Text.upper taken.1 == Text.upper name).getLast?.map Prod.snd

theorem lastTaken?_cons (change : Change) (changes : List Change) (name : String) :
    lastTaken? (change :: changes) name =
      (lastTaken? changes name).or (lastTaken? [change] name) := by
  simp only [lastTaken?, List.flatMap_cons, List.flatMap_nil, List.append_nil,
    List.filter_append, List.getLast?_append, Option.map_or]

theorem last_of_map (names : List String) (registers : Bool) (name : String) :
    (((names.map fun other => (other, registers)).filter fun taken =>
        Text.upper taken.1 == Text.upper name).getLast?.map Prod.snd) =
      if Text.upper name ∈ names.map Text.upper then some registers else none := by
  induction names with
  | nil => rfl
  | cons other rest ih =>
      rw [List.map_cons, ← List.singleton_append, List.filter_append, List.getLast?_append,
        Option.map_or, ih]
      by_cases hrest : Text.upper name ∈ rest.map Text.upper
      · simp [hrest]
      · by_cases hother : Text.upper other = Text.upper name
        · simp [hrest, hother]
        · simp [hrest, hother, Ne.symm hother]

theorem has_perform (known : ValueFunctions) (change : Change) (name : String) :
    (known.perform change).has name [] =
      (lastTaken? [change] name).getD (known.has name []) := by
  rw [Bool.eq_iff_iff, has_iff]
  simp only [lastTaken?, List.flatMap_cons, List.flatMap_nil, List.append_nil]
  cases change with
  | register names =>
      rw [perform, mem_register, Change.takesUp, last_of_map]
      split
      · rename_i hmem
        simp [hmem]
      · rename_i hmem
        rw [Option.getD_none, has_iff]
        exact or_iff_left hmem
  | unregister names =>
      rw [perform, mem_unregister, Change.takesUp, last_of_map]
      split
      · rename_i hmem
        simp [hmem]
      · rename_i hmem
        rw [Option.getD_none, has_iff]
        exact and_iff_left hmem

theorem has_foldl_perform (changes : List Change) (known : ValueFunctions) (name : String) :
    (changes.foldl perform known).has name [] =
      (lastTaken? changes name).getD (known.has name []) := by
  induction changes generalizing known with
  | nil => rfl
  | cons change rest ih =>
      rw [List.foldl_cons, ih, lastTaken?_cons, Option.getD_or, has_perform]

theorem has_after_iff (changes : List Change) (name : String) :
    (after changes).has name [] = true <-> lastTaken? changes name = some true := by
  rw [after, has_foldl_perform]
  cases lastTaken? changes name with
  | none => simp [has]
  | some registers => simp

/-! ## Refusals -/

/--
A refused list leaves everything as it was just if each of the names in front of its
first reference function was registered already; any other name there is registered
by a call that fails.
-/
theorem refusal_unnoticed_iff {changes : List Change} {names : List String}
    {f : ReferenceFunction} (h : ((after changes).register names).2 = some f) :
    (exists culprit rest, names = admitted names ++ culprit :: rest ∧
        ReferenceFunction.named? culprit = some f) ∧
      ((((after changes).register names).1.names = (after changes).names ∧
          forall name others, ((after changes).register names).1.has name others =
            (after changes).has name others) <->
        forall name, name ∈ admitted names -> (after changes).has name [] = true) := by
  refine ⟨exists_culprit_of_refused h, ?_, ?_⟩
  · intro hsame name hname
    rw [has_iff, ← hsame.left, mem_register]
    exact Or.inr (List.mem_map_of_mem hname)
  · intro hall
    rw [(valid_after changes).register_of_has hall]
    exact ⟨rfl, fun _ _ => rfl⟩

theorem median_registered :
    ((after [.register ["sum"]]).register ["Sum", "median", "index", "average"]).2 =
        some .index ∧
      ((after [.register ["sum"]]).register
        ["Sum", "median", "index", "average"]).1.names ≠ (after [.register ["sum"]]).names := by
  have hrefused : ((after [.register ["sum"]]).register
      ["Sum", "median", "index", "average"]).2 = some .index := by
    decide +kernel
  have hmedian : "median" ∈ admitted ["Sum", "median", "index", "average"] := by
    decide +kernel
  have hnew : (after [.register ["sum"]]).has "median" [] = false := by
    decide +kernel
  refine ⟨hrefused, fun hsame => ?_⟩
  have hall := (refusal_unnoticed_iff hrefused).right.mp
    ⟨hsame, fun name others => by rw [has, has, hsame]⟩
  rw [hall "median" hmedian] at hnew
  cases hnew

/-! ## Calls of reference functions -/

/-- Only the extractor's own value functions stand between a call and its handler. -/
theorem call_of_named {x : Extractor} {f : ReferenceFunction}
    (hname : ReferenceFunction.named? name = some f) (hfree : f.name ∉ x.registered.names)
    (position : Position) (args : List Value) :
    x.call position name args =
      if f.name ∈ x.valueFunctions then Extractor.plainCall position args
      else Extractor.readAll position args >>= fun _ =>
        Extractor.settle f.name (x.handler f position args) := by
  have hkey := ReferenceFunction.name_of_named? hname
  have hvalue : x.isValueFunction name = true <-> f.name ∈ x.valueFunctions := by
    rw [Extractor.isValueFunction_iff, ← hkey]
    exact or_iff_left hfree
  simp only [Extractor.call, hvalue, Extractor.referenceCall, ← hkey, f.ofName?_name]

/--
After every run of changes no reference function is registered, the names stand in
order and each once, and a function is registered just if its name was registered when
it was taken up last; a refused list takes up the names in front of the reference
function.  So what is registered never keeps a call of a reference function from its
handler.
-/
theorem registered_last (changes : List Change) :
    (forall f : ReferenceFunction, f.name ∉ (after changes).names) ∧
      ((after changes).names.Pairwise fun a b => a < b) ∧
      (forall name, (after changes).has name [] = true <->
        lastTaken? changes name = some true) ∧
      (forall (x : Extractor) (position : Position) (name : String) (args : List Value)
        (f : ReferenceFunction), x.registered = after changes ->
        ReferenceFunction.named? name = some f ->
        x.call position name args =
          if f.name ∈ x.valueFunctions then Extractor.plainCall position args
          else Extractor.readAll position args >>= fun _ =>
            Extractor.settle f.name (x.handler f position args)) := by
  have hvalid := valid_after changes
  refine ⟨hvalid.not_mem, hvalid.ordered, has_after_iff changes, ?_⟩
  intro x position name args f hregistered hname
  apply call_of_named hname
  rw [hregistered]
  exact hvalid.not_mem f

def closing : List Change :=
  [.register ["sum", "straße", "index", "average"], .unregister ["Sum", "row"],
    .register ["Median"]]

theorem strasse_registered :
    (after closing).names = ["MEDIAN", "STRASSE"] ∧
      (after closing).has "Strasse" [] = true ∧
      ({ registered := after closing } : Extractor).call (.mk 9 1 "S") "Row" [] =
        Extractor.settle "ROW" (.value (.int 9)) := by
  rcases registered_last closing with ⟨_, _, hlast, hcall⟩
  have hstrasse : lastTaken? closing "Strasse" = some true := by decide +kernel
  have hrow : ReferenceFunction.named? "Row" = some .row := by decide +kernel
  refine ⟨by decide +kernel, (hlast "Strasse").mpr hstrasse, ?_⟩
  rw [hcall { registered := after closing } (.mk 9 1 "S") "Row" [] .row rfl hrow]
  rfl

end ValueFunctions
end Precedents
