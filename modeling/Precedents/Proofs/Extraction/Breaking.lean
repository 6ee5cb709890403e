import Precedents.Proofs.Extraction.Lenient
import Precedents.Proofs.Extraction.NoticesByPart

/-!
# Where a walk breaks off

A walk evaluates the parts of a formula in post order, and a fault ends it.  So it
breaks off at the first part that has no value.  All parts in front of that one
have values, and the fault is its own: of its word or its name if it is a leaf,
and of its handler if it is a call.
-/

namespace Precedents

/-- The fault is that of a handler, and not of a word or a name in the formula. -/
def Fault.isOfHandler : Fault -> Bool
  | .badValue _ | .badVerdict _ _ | .failed _ => true
  | _ => false

namespace Traced

variable {α β : Type}

def Breaks (t : Traced α) (notices : List Notice) (fault : Fault) : Prop :=
  t.notices = notices ∧ t.outcome = .error fault

theorem yields_or_breaks (t : Traced α) :
    (exists notices a, t.Yields notices a) ∨
      exists notices fault, t.Breaks notices fault := by
  cases h : t.outcome with
  | ok a => exact Or.inl ⟨t.notices, a, rfl, h⟩
  | error fault => exact Or.inr ⟨t.notices, fault, rfl, h⟩

theorem Yields.not_breaks {t : Traced α} {notices others : List Notice} {a : α}
    {fault : Fault} (h : t.Yields notices a) : ¬ t.Breaks others fault := by
  intro hbreaks
  have hsame := h.right.symm.trans hbreaks.right
  cases hsame

theorem Yields.value_eq {t : Traced α} {notices others : List Notice} {a b : α}
    (h : t.Yields notices a) (hother : t.Yields others b) : a = b := by
  have hsame := h.right.symm.trans hother.right
  injection hsame

theorem breaks_bind {t : Traced α} {next : α -> Traced β}
    {notices : List Notice} {fault : Fault} :
    (t >>= next).Breaks notices fault <->
      t.Breaks notices fault ∨
        exists first a second, t.Yields first a ∧
          (next a).Breaks second fault ∧ notices = first ++ second := by
  change (Traced.bind t next).Breaks notices fault <-> _
  cases h : t.outcome with
  | error other =>
      simp [Breaks, Yields, Traced.bind, h]
  | ok a =>
      simp only [Breaks, Yields, Traced.bind, h]
      constructor
      · intro hbreaks
        exact Or.inr ⟨t.notices, a, (next a).notices, ⟨rfl, rfl⟩,
          ⟨rfl, hbreaks.right⟩, hbreaks.left.symm⟩
      · intro hbreaks
        rcases hbreaks with hbreaks | ⟨first, b, second, hfirst, hsecond, heq⟩
        · cases hbreaks.right
        · cases hfirst.right
          rw [heq, hfirst.left, hsecond.left]
          exact ⟨rfl, hsecond.right⟩

theorem breaks_ofExcept {outcome : Except Fault α} {notices : List Notice}
    {fault : Fault} :
    (ofExcept outcome).Breaks notices fault <->
      notices = [] ∧ outcome = .error fault := by
  constructor
  · intro h
    exact ⟨h.left.symm, h.right⟩
  · intro h
    rw [h.left]
    exact ⟨rfl, h.right⟩

theorem breaks_fail {notices : List Notice} {fault other : Fault} :
    (fail fault : Traced α).Breaks notices other <->
      notices = [] ∧ fault = other := by
  constructor
  · intro h
    injection h.right with hfault
    exact ⟨h.left.symm, hfault⟩
  · intro h
    rw [h.left, h.right]
    exact ⟨rfl, rfl⟩

theorem not_breaks_pure {a : α} {notices : List Notice} {fault : Fault} :
    ¬ (Pure.pure a : Traced α).Breaks notices fault :=
  (yields_pure.mpr ⟨rfl, rfl⟩).not_breaks

theorem not_breaks_note {notice : Notice} {notices : List Notice} {fault : Fault} :
    ¬ (note notice).Breaks notices fault := by
  have h : (note notice).Yields [notice] () := yields_note.mpr rfl
  exact h.not_breaks

end Traced

namespace Extractor

variable {x : Extractor} {position : Position} {formula : String}
variable {notices : List Notice} {fault : Fault}

/-! ## Leaves -/

theorem breaks_fail_of_not_handler {α : Type} {other : Fault}
    (hother : other.isOfHandler = false)
    (h : (Traced.fail other : Traced α).Breaks notices fault) :
    notices = [] ∧ fault.isOfHandler = false := by
  rcases Traced.breaks_fail.mp h with ⟨hnotices, hfault⟩
  rw [← hfault]
  exact ⟨hnotices, hother⟩

theorem breaks_referenceValue {kind : ReferenceKind} {sheet : Option Lexeme}
    {body : Lexeme}
    (h : (referenceValue position formula kind sheet body).Breaks notices fault) :
    notices = [] ∧ fault.isOfHandler = false := by
  unfold referenceValue at h
  split at h
  · exact breaks_fail_of_not_handler rfl h
  · split at h
    · exact absurd h Traced.not_breaks_pure
    · rcases Traced.breaks_bind.mp h with h | ⟨_, _, _, _, hpure, _⟩
      · exact absurd h Traced.not_breaks_note
      · exact absurd hpure Traced.not_breaks_pure

theorem breaks_nameValue {name : String}
    (h : (x.nameValue position name).Breaks notices fault) :
    notices = [] ∧ fault.isOfHandler = false := by
  unfold nameValue at h
  split at h
  · rcases Traced.breaks_bind.mp h with h | ⟨_, _, _, _, hpure, _⟩
    · exact absurd h Traced.not_breaks_note
    · exact absurd hpure Traced.not_breaks_pure
  · exact breaks_fail_of_not_handler rfl h
  · exact breaks_fail_of_not_handler rfl h
  · rcases Traced.breaks_bind.mp h with h | ⟨_, _, _, _, hpure, _⟩
    · exact absurd h (yields_read.mpr ⟨rfl, rfl⟩).not_breaks
    · exact absurd hpure Traced.not_breaks_pure

theorem isOfHandler_of_arrayValue {rows : List (List Item)}
    (h : arrayValue rows = .error fault) : fault.isOfHandler = false := by
  unfold arrayValue at h
  split at h
  · cases h
  · cases h
    rfl

theorem breaks_leaf {e : Expr} (hleaf : x.use? position e = none)
    (h : (x.walk position formula e).Breaks notices fault) :
    notices = [] ∧ fault.isOfHandler = false := by
  cases e with
  | number word =>
      rw [walk] at h
      rcases Traced.breaks_ofExcept.mp h with ⟨hnotices, hfault⟩
      refine ⟨hnotices, ?_⟩
      cases hnumber : Literal.number word.text with
      | ok v =>
          rw [hnumber] at hfault
          cases hfault
      | error error =>
          rw [hnumber] at hfault
          cases hfault
          rfl
  | array rows =>
      rw [walk] at h
      rcases Traced.breaks_ofExcept.mp h with ⟨hnotices, hfault⟩
      exact ⟨hnotices, isOfHandler_of_arrayValue hfault⟩
  | reference kind sheet body =>
      rw [walk] at h
      exact breaks_referenceValue h
  | name word =>
      rw [walk] at h
      exact breaks_nameValue h
  | call function args => exact absurd hleaf (use?_call_ne_none function args)
  | binary op left right => cases hleaf
  | sign op operand => cases hleaf
  | percent operand => cases hleaf
  | _ =>
      rw [walk] at h
      exact absurd h Traced.not_breaks_pure

/-! ## Calls -/

theorem not_breaks_readAll {values : List Value} :
    ¬ (readAll position values).Breaks notices fault := by
  have h : (readAll position values).Yields (readNotices position values) () :=
    yields_readAll.mpr rfl
  exact h.not_breaks

theorem breaks_settle {key : String} {verdict : Verdict} :
    (settle key verdict).Breaks notices fault <->
      notices = [.defect key fault] ∧ ofVerdict key verdict = .error fault := by
  unfold settle
  cases ofVerdict key verdict with
  | ok v => simp [Traced.not_breaks_pure]
  | error other =>
      simp only [Traced.breaks_bind, Traced.yields_note, Traced.breaks_fail]
      constructor
      · intro h
        rcases h with h | ⟨first, _, second, hfirst, ⟨hsecond, hfault⟩, heq⟩
        · exact absurd h Traced.not_breaks_note
        · rw [heq, hfirst, hsecond, hfault]
          exact ⟨rfl, rfl⟩
      · intro h
        cases h.right
        exact Or.inr ⟨_, (), [], rfl, ⟨rfl, rfl⟩, h.left⟩

def FailsOn (x : Extractor) (position : Position) (name : String)
    (values : List Value) (fault : Fault) : Prop :=
  x.isValueFunction name = false ∧
    exists f, ReferenceFunction.ofName? (Text.upper name) = some f ∧
      ofVerdict (Text.upper name) (x.handler f position values) = .error fault

theorem not_breaks_plainCall {values : List Value} :
    ¬ (plainCall position values).Breaks notices fault :=
  (yields_plainCall.mpr ⟨rfl, rfl⟩).not_breaks

theorem breaks_call {name : String} {values : List Value} :
    (x.call position name values).Breaks notices fault <->
      x.FailsOn position name values fault ∧
        notices = readNotices position values ++
          [.defect (Text.upper name) fault] := by
  unfold call FailsOn
  cases hvalue : x.isValueFunction name with
  | true => simp [not_breaks_plainCall]
  | false =>
      simp only [Bool.false_eq_true, if_false, true_and]
      unfold referenceCall
      rw [Traced.breaks_bind]
      constructor
      · intro h
        rcases h with h | ⟨first, u, second, hread, h, heq⟩
        · exact absurd h not_breaks_readAll
        · simp only at h
          split at h
          · rcases Traced.breaks_bind.mp h with h | ⟨_, _, _, _, hpure, _⟩
            · exact absurd h Traced.not_breaks_note
            · exact absurd hpure Traced.not_breaks_pure
          · rename_i f hf
            rcases breaks_settle.mp h with ⟨hsecond, hverdict⟩
            rw [heq, yields_readAll.mp hread, hsecond]
            exact ⟨⟨f, hf, hverdict⟩, rfl⟩
      · intro h
        rcases h with ⟨⟨f, hf, hverdict⟩, hnotices⟩
        refine Or.inr ⟨_, (), _, yields_readAll.mpr rfl, ?_, hnotices⟩
        simp only [hf]
        exact breaks_settle.mpr ⟨rfl, hverdict⟩

/-! ## The part where a walk breaks off -/

def Evaluates (x : Extractor) (position : Position) (formula : String)
    (p : Expr) : Prop :=
  exists notices v, (x.walk position formula p).Yields notices v

/-- The part breaks off by itself, and not in one of its children. -/
def BreaksItself (x : Extractor) (position : Position) (formula : String)
    (p : Expr) (notices : List Notice) (fault : Fault) : Prop :=
  match x.use? position p with
  | none => (x.walk position formula p).Breaks notices fault
  | some (args, use) => exists first values,
      (walkArgs x position formula args).Yields first values ∧
        (use values).Breaks notices fault

/--
Some parts are evaluated up to the first that breaks off by itself.  What is seen
of the notices is what the parts in front have of their own, and then the last.
-/
def BreaksIn (x : Extractor) (position : Position) (formula : String)
    (parts : List Expr) (notices : List Notice) (fault : Fault) : Prop :=
  exists before p after last,
    parts = before ++ p :: after ∧
      (forall q, q ∈ before -> x.Evaluates position formula q) ∧
      x.BreaksItself position formula p last fault ∧
      forall (see : Notice -> Option Notice) (own : Expr -> List Notice),
        x.Sees position formula see own ->
          notices.filterMap see = before.flatMap own ++ last.filterMap see

theorem evaluates_postOrder {e : Expr} (h : x.Evaluates position formula e) :
    forall q, q ∈ e.postOrder -> x.Evaluates position formula q := by
  induction e using Expr.children_induction with
  | step e ih =>
      intro q hq
      rw [Expr.postOrder_eq, List.mem_append, List.mem_singleton,
        List.mem_flatMap] at hq
      rcases hq with ⟨c, hc, hq⟩ | hq
      · refine ih c hc ?_ q hq
        rcases h with ⟨notices, v, hyields⟩
        cases huse : x.use? position e with
        | none =>
            rw [children_of_use?_eq_none huse] at hc
            cases hc
        | some found =>
            rcases found with ⟨args, use⟩
            rcases (yields_walk_of_use? huse).mp hyields with
              ⟨first, values, _, hargs, _, _⟩
            rw [← given_of_use? huse] at hc
            rcases exists_yields_of_yields_walkArgs hargs hc with ⟨own, w, hown, _⟩
            exact ⟨own, w, hown⟩
      · rw [hq]
        exact h

namespace BreaksIn

variable {parts : List Expr}

theorem append (h : x.BreaksIn position formula parts notices fault)
    (rest : List Expr) :
    x.BreaksIn position formula (parts ++ rest) notices fault := by
  rcases h with ⟨before, p, after, last, hparts, hbefore, hown, hseen⟩
  refine ⟨before, p, after ++ rest, last, ?_, hbefore, hown, hseen⟩
  rw [hparts, List.append_assoc]
  rfl

theorem behind (h : x.BreaksIn position formula parts notices fault) {e : Expr}
    {first : List Notice} {v : Value}
    (he : (x.walk position formula e).Yields first v) :
    x.BreaksIn position formula (e.postOrder ++ parts) (first ++ notices) fault := by
  rcases h with ⟨before, p, after, last, hparts, hbefore, hown, hseen⟩
  refine ⟨e.postOrder ++ before, p, after, last, ?_, ?_, hown, ?_⟩
  · rw [hparts, List.append_assoc]
  · intro q hq
    rcases List.mem_append.mp hq with hq | hq
    · exact evaluates_postOrder ⟨first, v, he⟩ q hq
    · exact hbefore q hq
  · intro see own hsees
    rw [List.filterMap_append, hsees.walk e he, hseen see own hsees,
      List.flatMap_append, List.append_assoc]

theorem walkArgs {args : List (Option Expr)}
    (hargs : forall c, c ∈ Expr.given args -> forall notices fault,
      (x.walk position formula c).Breaks notices fault ->
        x.BreaksIn position formula c.postOrder notices fault)
    (h : (walkArgs x position formula args).Breaks notices fault) :
    x.BreaksIn position formula ((Expr.given args).flatMap Expr.postOrder)
      notices fault := by
  induction args generalizing notices with
  | nil => exact absurd h Traced.not_breaks_pure
  | cons arg rest ih =>
      cases arg with
      | none =>
          rw [Extractor.walkArgs] at h
          rcases Traced.breaks_bind.mp h with h | ⟨_, _, _, _, hpure, _⟩
          · exact ih hargs h
          · exact absurd hpure Traced.not_breaks_pure
      | some e =>
          change x.BreaksIn position formula
            (e.postOrder ++ (Expr.given rest).flatMap Expr.postOrder) notices fault
          rw [Extractor.walkArgs] at h
          rcases Traced.breaks_bind.mp h with h | ⟨first, v, second, he, h, heq⟩
          · exact (hargs e List.mem_cons_self notices fault h).append _
          · rw [heq]
            rcases Traced.breaks_bind.mp h with h | ⟨_, _, _, _, hpure, _⟩
            · exact (ih (fun c hc => hargs c (List.mem_cons_of_mem _ hc)) h).behind he
            · exact absurd hpure Traced.not_breaks_pure

/-- A walk that breaks off does so at the first of its parts that has no value. -/
theorem walk (e : Expr) (h : (x.walk position formula e).Breaks notices fault) :
    x.BreaksIn position formula e.postOrder notices fault := by
  induction e using Expr.children_induction generalizing notices fault with
  | step e ih =>
      rw [Expr.postOrder_eq]
      cases huse : x.use? position e with
      | none =>
          rw [children_of_use?_eq_none huse]
          refine ⟨[], e, [], notices, rfl, by simp, ?_, fun _ _ _ => rfl⟩
          rw [BreaksItself, huse]
          exact h
      | some found =>
          rcases found with ⟨args, use⟩
          rw [walk_of_use? huse] at h
          rcases Traced.breaks_bind.mp h with h | ⟨first, values, second, hargs, h, heq⟩
          · rw [← given_of_use? huse]
            refine (walkArgs ?_ h).append _
            intro c hc notices fault hbreaks
            rw [given_of_use? huse] at hc
            exact ih c hc hbreaks
          · have hchildren : forall c, c ∈ e.children ->
                x.Evaluates position formula c := by
              intro c hc
              rw [← given_of_use? huse] at hc
              rcases exists_yields_of_yields_walkArgs hargs hc with ⟨own, w, hown, _⟩
              exact ⟨own, w, hown⟩
            refine ⟨_, e, [], second, rfl, ?_, ?_, ?_⟩
            · intro q hq
              rcases List.mem_flatMap.mp hq with ⟨c, hc, hq⟩
              exact evaluates_postOrder (hchildren c hc) q hq
            · rw [BreaksItself, huse]
              exact ⟨first, values, hargs, h⟩
            · intro see own hsees
              rw [heq, List.filterMap_append, List.flatMap_assoc,
                ← given_of_use? huse]
              congr 1
              exact Sees.walkArgs (fun c _ _ _ hc => hsees.walk c hc) hargs

end BreaksIn

/-! ## Extractions that break off -/

theorem follow_of_tree {parse : Parse} {e : Expr} (htree : parse.tree = some e) :
    x.follow position formula parse = x.walk position formula e >>= finish position := by
  unfold follow followBy
  rw [htree]

/-- Neither what is salvaged nor the value of a formula can break off. -/
theorem exists_walk_of_follow {parse : Parse}
    (h : (x.follow position formula parse).Breaks notices fault) :
    exists e, parse.tree = some e ∧ (x.walk position formula e).Breaks notices fault := by
  cases htree : parse.tree with
  | none =>
      unfold follow followBy at h
      rw [htree] at h
      rcases exists_yields_salvage parse.diagnostics with ⟨_, _, hyields⟩
      exact absurd h hyields.not_breaks
  | some e =>
      rw [follow_of_tree htree] at h
      rcases Traced.breaks_bind.mp h with h | ⟨_, v, _, _, hfinish, _⟩
      · exact ⟨e, rfl, h⟩
      · rcases exists_yields_finish position v with ⟨_, _, hyields⟩
        exact absurd hfinish hyields.not_breaks

theorem extractAt_of_breaks (hformula : formula ≠ "")
    (h : (x.follow position formula (Parse.ofText formula)).Breaks notices fault)
    (strict : Option Bool) :
    x.extractAt formula position strict =
      ⟨Event.ofNotices position (findingsOf formula []) notices,
        .error (.fault fault)⟩ := by
  unfold extractAt report
  rw [if_neg hformula]
  simp only [h.left, h.right]
  rfl

theorem exists_breaks_of_extractAt {strict : Option Bool}
    (h : (x.extractAt formula position strict).outcome = .error (.fault fault)) :
    exists notices,
      (x.follow position formula (Parse.ofText formula)).Breaks notices fault := by
  by_cases hformula : formula = ""
  · simp [extractAt, report, hformula] at h
  · rcases (x.follow position formula (Parse.ofText formula)).yields_or_breaks with
      ⟨notices, v, hyields⟩ | ⟨notices, other, hbreaks⟩
    · rw [extractAt_of_yields hformula hyields] at h
      simp only at h
      split at h <;> cases h
    · rw [extractAt_of_breaks hformula hbreaks] at h
      cases h
      exact ⟨notices, hbreaks⟩

end Extractor
end Precedents
