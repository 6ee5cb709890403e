import Precedents.Proofs.Extraction.Breaking
import Precedents.Proofs.Extraction.WalkEvents

/-!
# The events of an extraction agree with its outcome

An extraction returns, or it is refused for its diagnostics, or a handler fails,
or it breaks off at a word or a name.  In each case its events are told from the
parts that were evaluated, from the diagnostics, and from the fault.
-/

namespace Precedents

/-- The arguments that a call passes on: empty parentheses hold none. -/
def Expr.passed : List (Option Expr) -> List (Option Expr)
  | [none] => []
  | args => args

/-- The parts of a formula in the order of their evaluation. -/
def Parse.steps (formula : String) : List Expr :=
  ((Parse.ofText formula).tree.map Expr.postOrder).getD []

def Extraction.findings (found : Extraction) : Findings where
  cover := ⟨found.references⟩
  missing := found.missing
  diagnostics := found.diagnostics

namespace Extractor

variable {x : Extractor} {position : Position} {formula : String}
variable {notices : List Notice} {fault : Fault} {p : Expr} {key : String}

theorem use?_call (function : Lexeme) (args : List (Option Expr)) :
    x.use? position (.call function args) =
      some (Expr.passed args, x.call position (Literal.function function.text)) := by
  unfold use? Expr.passed
  split <;> simp_all

/-! ## Calls with a handler that fails -/

def HandlerFails (x : Extractor) (position : Position) (formula : String) (p : Expr)
    (key : String) (fault : Fault) : Prop :=
  exists function args first values,
    p = .call function args ∧ key = Text.upper (Literal.function function.text) ∧
      (walkArgs x position formula (Expr.passed args)).Yields first values ∧
      x.FailsOn position (Literal.function function.text) values fault

theorem FailsOn.fault_eq {name : String} {values : List Value} {other : Fault}
    (h : x.FailsOn position name values fault)
    (hother : x.FailsOn position name values other) : fault = other := by
  rcases h with ⟨_, f, hf, hverdict⟩
  rcases hother with ⟨_, g, hg, hother⟩
  rw [hf] at hg
  cases hg
  rw [hverdict] at hother
  injection hother

namespace HandlerFails

theorem unique {other : String} {otherFault : Fault}
    (h : x.HandlerFails position formula p key fault)
    (hother : x.HandlerFails position formula p other otherFault) :
    key = other ∧ fault = otherFault := by
  rcases h with ⟨function, args, first, values, hp, hkey, hargs, hfails⟩
  rcases hother with ⟨_, _, _, others, hsame, hother, hothers, hotherFails⟩
  rw [hp] at hsame
  cases hsame
  rw [hothers.value_eq hargs] at hotherFails
  exact ⟨hkey.trans hother.symm, hfails.fault_eq hotherFails⟩

end HandlerFails

theorem BreaksItself.cases (h : x.BreaksItself position formula p notices fault) :
    (p.callee? = none ∧ (x.walk position formula p).outcome = .error fault ∧
      notices.filterMap Notice.told? = []) ∨
    exists key, x.HandlerFails position formula p key fault ∧
      notices.filterMap Notice.told? = [.defect key fault] := by
  unfold BreaksItself at h
  cases huse : x.use? position p with
  | none =>
      rw [huse] at h
      refine Or.inl ⟨callee?_of_use?_eq_none huse, h.right, ?_⟩
      rw [(breaks_leaf huse h).left]
      rfl
  | some found =>
      rcases found with ⟨args, use⟩
      rw [huse] at h
      rcases h with ⟨first, values, hargs, hbreaks⟩
      cases p with
      | call function given =>
          rw [use?_call] at huse
          cases huse
          rcases breaks_call.mp hbreaks with ⟨hfails, hnotices⟩
          refine Or.inr ⟨_, ⟨function, given, first, values, rfl, rfl, hargs, hfails⟩, ?_⟩
          rw [hnotices, List.filterMap_append, (sees_told x position formula).readNotices]
          rfl
      | binary op left right =>
          cases huse
          exact absurd hbreaks not_breaks_plainCall
      | sign op operand =>
          cases huse
          exact absurd hbreaks not_breaks_plainCall
      | percent operand =>
          cases huse
          exact absurd hbreaks not_breaks_plainCall
      | _ => cases huse

/-! ## The events of an extraction -/

theorem events_of_told {parts : List Expr} {rest : List Notice}
    (h : notices.filterMap Notice.told? = parts.flatMap (x.ownNotices position) ++ rest) :
    Event.ofNotices position (findingsOf formula []) notices =
      x.walkEvents position [] parts ++
        Event.ofNotices position
          (Findings.absorbAll {} (parts.flatMap (x.ownNotices position))) rest := by
  have hstart : (findingsOf formula []).missing = ({} : Findings).missing := rfl
  have hlists : x.Lists [] {} := by
    intro key
    simp
  rw [Event.ofNotices_told hstart, h, Event.ofNotices_append, hlists.walk parts]

theorem told_of_yields_follow {v : Value}
    (h : (x.follow position formula (Parse.ofText formula)).Yields notices v) :
    notices.filterMap Notice.told? =
      (Parse.steps formula).flatMap (x.ownNotices position) := by
  rw [(sees_told x position formula).follow h, Parse.steps]
  cases (Parse.ofText formula).tree with
  | none => rfl
  | some e => rfl

theorem evaluates_of_yields_follow {v : Value}
    (h : (x.follow position formula (Parse.ofText formula)).Yields notices v) :
    forall q, q ∈ Parse.steps formula -> x.Evaluates position formula q := by
  intro q hq
  unfold Parse.steps at hq
  cases htree : (Parse.ofText formula).tree with
  | none =>
      rw [htree] at hq
      cases hq
  | some e =>
      rw [htree] at hq
      rw [follow_of_tree htree] at h
      rcases Traced.yields_bind.mp h with ⟨first, w, _, hwalk, _, _⟩
      exact evaluates_postOrder ⟨first, w, hwalk⟩ q hq

inductive BrokenAt (x : Extractor) (position : Position) (formula : String)
    (before : List Expr) (p : Expr) (fault : Fault) : Report -> Prop
  | word (hcallee : p.callee? = none)
      (herror : (x.walk position formula p).outcome = .error fault) :
      BrokenAt x position formula before p fault
        ⟨x.walkEvents position [] before, .error (.fault fault)⟩
  | handler (key : String) (hfails : x.HandlerFails position formula p key fault) :
      BrokenAt x position formula before p fault
        ⟨x.walkEvents position [] before ++ [Event.defect position key fault],
          .error (.fault fault)⟩

theorem exists_brokenAt (hformula : formula ≠ "")
    (h : (x.follow position formula (Parse.ofText formula)).Breaks notices fault)
    (strict : Option Bool) :
    exists before p after, Parse.steps formula = before ++ p :: after ∧
      (forall q, q ∈ before -> x.Evaluates position formula q) ∧
      x.BrokenAt position formula before p fault
        (x.extractAt formula position strict) := by
  rcases exists_walk_of_follow h with ⟨e, htree, hwalk⟩
  rcases BreaksIn.walk e hwalk with ⟨before, p, after, last, hparts, hbefore, hself, hseen⟩
  have hsteps : Parse.steps formula = before ++ p :: after := by
    rw [← hparts, Parse.steps, htree]
    rfl
  refine ⟨before, p, after, hsteps, hbefore, ?_⟩
  rw [extractAt_of_breaks hformula h,
    events_of_told (hseen Notice.told? _ (sees_told x position formula))]
  rcases hself.cases with ⟨hcallee, herror, htold⟩ | ⟨key, hfails, htold⟩
  · rw [htold, Event.ofNotices, List.append_nil]
    exact .word hcallee herror
  · rw [htold]
    exact .handler key hfails

/-! ## The course of an extraction -/

/--
How an extraction goes on.  It returns or is refused after all parts have come to
values, or it breaks off at the first that does not.
-/
inductive Course (x : Extractor) (position : Position) (formula : String)
    (strict : Bool) : Report -> Prop
  | returns (found : Extraction)
      (hvalues : forall q, q ∈ Parse.steps formula -> x.Evaluates position formula q)
      (haccepted : strict = true -> found.diagnostics = [])
      (hnodup : found.missing.Nodup)
      (hmissing : found.missing.map (Event.unknownFunction position) =
        (x.walkEvents position [] (Parse.steps formula)).filter
          fun event => event.kind = .functionMissing) :
      Course x position formula strict
        ⟨x.walkEvents position [] (Parse.steps formula) ++
            found.diagnostics.map (Event.ofDiagnostic position formula) ++
            [Event.completed position formula found.findings],
          .ok found⟩
  | refused (diagnostics : List Diagnostic)
      (hvalues : forall q, q ∈ Parse.steps formula -> x.Evaluates position formula q)
      (hstrict : strict = true) (hne : diagnostics ≠ []) :
      Course x position formula strict
        ⟨x.walkEvents position [] (Parse.steps formula) ++
            diagnostics.map (Event.ofDiagnostic position formula),
          .error (.malformed diagnostics)⟩
  | broken {before after : List Expr} {p : Expr} {fault : Fault} {report : Report}
      (hsteps : Parse.steps formula = before ++ p :: after)
      (hbefore : forall q, q ∈ before -> x.Evaluates position formula q)
      (hbroken : x.BrokenAt position formula before p fault report) :
      Course x position formula strict report

theorem course_of_conclude {findings : Findings} {v : Value} {strict : Bool}
    (hvalues : forall q, q ∈ Parse.steps formula -> x.Evaluates position formula q)
    (hnodup : findings.missing.Nodup)
    (hmissing : findings.missing.map (Event.unknownFunction position) =
      (x.walkEvents position [] (Parse.steps formula)).filter
        fun event => event.kind = .functionMissing) :
    x.Course position formula strict
      ⟨x.walkEvents position [] (Parse.steps formula) ++
          (conclude position formula strict findings v).events,
        (conclude position formula strict findings v).outcome⟩ := by
  have hcond : (strict && !(Diagnostic.inOrder findings.diagnostics).isEmpty) = true <->
      strict = true ∧ Diagnostic.inOrder findings.diagnostics ≠ [] := by
    simp
  unfold conclude
  by_cases hrefused : strict = true ∧ Diagnostic.inOrder findings.diagnostics ≠ []
  · rw [if_pos (hcond.mpr hrefused)]
    exact .refused _ hvalues hrefused.left hrefused.right
  · rw [if_neg (mt hcond.mp hrefused)]
    simp only [← List.append_assoc]
    refine .returns ⟨findings.cover.entries, findings.missing,
      Diagnostic.inOrder findings.diagnostics, v⟩ hvalues ?_ hnodup hmissing
    intro hstrict
    exact Decidable.not_not.mp fun hne => hrefused ⟨hstrict, hne⟩

theorem course_of_yields (hformula : formula ≠ "") {v : Value}
    (h : (x.follow position formula (Parse.ofText formula)).Yields notices v)
    (strict : Option Bool) :
    x.Course position formula (strict.getD x.strict)
      (x.extractAt formula position strict) := by
  have hevents : Event.ofNotices position (findingsOf formula []) notices =
      x.walkEvents position [] (Parse.steps formula) := by
    rw [events_of_told ((told_of_yields_follow h).trans (List.append_nil _).symm)]
    exact List.append_nil _
  have hmissing := Event.missing_ofNotices position (findingsOf formula []) notices
  unfold extractAt report
  rw [if_neg hformula]
  simp only [h.left, h.right]
  change x.Course position formula _ ⟨Event.ofNotices position (findingsOf formula [])
    notices ++ _, _⟩
  rw [hevents] at hmissing ⊢
  exact course_of_conclude (evaluates_of_yields_follow h)
    (Findings.nodup_absorbAll List.nodup_nil notices) hmissing

theorem course (hformula : formula ≠ "") (strict : Option Bool) :
    x.Course position formula (strict.getD x.strict)
      (x.extractAt formula position strict) := by
  rcases (x.follow position formula (Parse.ofText formula)).yields_or_breaks with
    ⟨notices, v, hyields⟩ | ⟨notices, fault, hbreaks⟩
  · exact course_of_yields hformula hyields strict
  · rcases exists_brokenAt hformula hbreaks strict with
      ⟨before, p, after, hsteps, hbefore, hbroken⟩
    exact .broken hsteps hbefore hbroken

namespace Course

variable {strict : Bool} {report : Report}

end Course

end Extractor
end Precedents
