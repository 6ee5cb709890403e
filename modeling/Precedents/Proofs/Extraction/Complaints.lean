import Mathlib.Data.List.Sort
import Precedents.Proofs.Extraction.Lenient
import Precedents.Proofs.Extraction.NoticesByPart
import Precedents.Proofs.Formula.Places
import Precedents.Proofs.Formula.Reporting

/-!
# The diagnostics of an extraction

An extraction has the diagnostics of the parse and a complaint for each literal
of the tree that lies off the grid.  A failure and the start of a literal are
never at one place, so all diagnostics stand at places of their own, and in
order.  They make a strict extraction fail, and nothing else depends on them.
-/

namespace Precedents

/-! ## Diagnostics in order -/

namespace Diagnostic

def Before (a b : Diagnostic) : Prop :=
  a.offset ≤ b.offset

instance : DecidableRel Before :=
  fun a b => inferInstanceAs (Decidable (a.offset ≤ b.offset))

instance : Std.Total Before :=
  ⟨fun a b => Int.le_total a.offset b.offset⟩

instance : IsTrans Diagnostic Before :=
  ⟨fun _ _ _ => Int.le_trans⟩

theorem insert_eq_orderedInsert (d : Diagnostic) (ds : List Diagnostic) :
    insert d ds = ds.orderedInsert Before d := by
  induction ds with
  | nil => rfl
  | cons e rest ih =>
      rw [insert, ih]
      rfl

theorem inOrder_eq_insertionSort (ds : List Diagnostic) :
    inOrder ds = ds.insertionSort Before := by
  induction ds with
  | nil => rfl
  | cons d rest ih =>
      show insert d (inOrder rest) = _
      rw [insert_eq_orderedInsert, ih]
      rfl

theorem inOrder_perm (ds : List Diagnostic) : (inOrder ds).Perm ds := by
  rw [inOrder_eq_insertionSort]
  exact List.perm_insertionSort Before ds

theorem inOrder_pairwise {ds : List Diagnostic}
    (h : (ds.map Diagnostic.offset).Nodup) :
    (inOrder ds).Pairwise fun a b => a.offset < b.offset := by
  have hle : (inOrder ds).Pairwise Before := by
    rw [inOrder_eq_insertionSort]
    exact List.pairwise_insertionSort Before ds
  have hne : (inOrder ds).Pairwise fun a b => a.offset ≠ b.offset :=
    List.pairwise_map.mp (((inOrder_perm ds).map _).nodup_iff.mpr h)
  exact (hle.and hne).imp fun h => lt_of_le_of_ne h.left h.right

theorem inOrder_of_pairwise {ds : List Diagnostic}
    (h : ds.Pairwise fun a b => a.offset < b.offset) : inOrder ds = ds := by
  have hle : ds.Pairwise Before := h.imp le_of_lt
  rw [inOrder_eq_insertionSort]
  exact hle.insertionSort_eq

end Diagnostic

/-! ## The complaints of a tree -/

namespace Expr

/-- The complaint about a literal that lies off the grid, at its first token. -/
def complaint? (formula : String) : Expr -> Option Diagnostic
  | .reference kind sheet body =>
      match sheet.mapM fun word => Literal.sheet word.text with
      | .error _ => none
      | .ok owner =>
          match Literal.reference kind body.text owner with
          | .ok _ => none
          | .error reason => some (.ofOffset formula (sheet.getD body).offset
              (Extractor.offGridMessage sheet body reason))
  | _ => none

def complaints (formula : String) (e : Expr) : List Diagnostic :=
  e.parts.filterMap (complaint? formula)

theorem complaints_eq (formula : String) (e : Expr) :
    e.complaints formula =
      (e.complaint? formula).toList ++ e.children.flatMap (complaints formula) := by
  rw [complaints, parts_eq, List.filterMap_cons, List.filterMap_flatMap]
  cases e.complaint? formula <;> rfl

theorem complaints_eq_postOrder (formula : String) (e : Expr) :
    e.complaints formula = e.postOrder.flatMap fun p => (p.complaint? formula).toList := by
  induction e using children_induction with
  | step e ih =>
      have hleaf : e.complaint? formula = none ∨ e.children = [] := by
        cases e with
        | reference kind sheet body => exact Or.inr rfl
        | _ => exact Or.inl rfl
      rw [complaints_eq, postOrder_eq, List.flatMap_append, List.flatMap_assoc,
        List.flatMap_singleton, List.flatMap_congr ih]
      rcases hleaf with hnone | hnil
      · rw [hnone]
        exact (List.append_nil _).symm
      · rw [hnil]
        exact List.append_nil _

theorem offset_complaint? {formula : String} {e : Expr} {d : Diagnostic}
    (h : e.complaint? formula = some d) :
    exists t rest, e.ownTokens = t :: rest ∧ d.offset = t.offset := by
  cases e with
  | reference kind sheet body =>
      have hoffset : d.offset = (sheet.getD body).offset := by
        simp only [complaint?] at h
        split at h
        · cases h
        · split at h
          · cases h
          · cases h
            rfl
      rw [hoffset]
      cases sheet with
      | none => exact ⟨_, _, rfl, rfl⟩
      | some word => exact ⟨_, _, rfl, rfl⟩
  | _ => cases h

theorem complaints_sublist (formula : String) (e : Expr) :
    ((e.complaints formula).map Diagnostic.offset).Sublist
      (e.tokens.map fun t => (t.offset : Int)) := by
  unfold complaints tokens
  induction e.parts with
  | nil => exact List.Sublist.refl _
  | cons p parts ih =>
      rw [List.flatMap_cons, List.map_append]
      cases h : p.complaint? formula with
      | none =>
          rw [List.filterMap_cons_none h]
          exact List.sublist_append_of_sublist_right ih
      | some d =>
          rcases offset_complaint? h with ⟨t, rest, hown, hoffset⟩
          rw [List.filterMap_cons_some h, hown, List.map_cons, List.map_cons,
            hoffset]
          exact (List.sublist_append_of_sublist_right ih).cons_cons _

end Expr

/-! ## The notices of a walk -/

def Notice.offGrid? : Notice -> Option Diagnostic
  | .offGrid d => some d
  | _ => none

theorem Findings.absorbAll_diagnostics (findings : Findings)
    (notices : List Notice) :
    (findings.absorbAll notices).diagnostics =
      findings.diagnostics ++ notices.filterMap Notice.offGrid? := by
  unfold absorbAll
  induction notices generalizing findings with
  | nil => exact (List.append_nil _).symm
  | cons notice rest ih =>
      rw [List.foldl_cons, ih]
      cases notice with
      | unknownFunction function =>
          simp only [absorb, listMissing]
          split
          · rfl
          · rfl
      | offGrid d => exact List.append_assoc _ [d] _
      | _ => rfl

namespace Extractor

variable {x : Extractor} {position : Position} {formula : String}
variable {notices : List Notice} {v : Value}

theorem offGrid?_referenceValue {kind : ReferenceKind} {sheet : Option Lexeme}
    {body : Lexeme}
    (h : (referenceValue position formula kind sheet body).Yields notices v) :
    notices.filterMap Notice.offGrid? =
      (Expr.complaint? formula (.reference kind sheet body)).toList := by
  unfold referenceValue at h
  split at h
  · exact absurd h Traced.not_yields_fail
  · rename_i owner howner
    split at h
    · rename_i ref href
      rw [(Traced.yields_pure.mp h).left]
      simp only [Expr.complaint?, howner, href]
      rfl
    · rename_i error herror
      rcases Traced.yields_bind.mp h with ⟨_, _, _, hnote, hpure, heq⟩
      rw [heq, Traced.yields_note.mp hnote, (Traced.yields_pure.mp hpure).left]
      simp only [Expr.complaint?, howner, herror]
      rfl

theorem offGrid?_leaf {e : Expr} (hleaf : x.use? position e = none)
    (h : (x.walk position formula e).Yields notices v) :
    notices.filterMap Notice.offGrid? = (e.complaint? formula).toList := by
  rcases leaf_cases hleaf with hconstant | ⟨kind, sheet, body, he⟩ | ⟨word, he⟩
  · rw [(yields_constant hconstant h).left]
    cases hconstant <;> rfl
  · rw [he] at h ⊢
    rw [walk] at h
    exact offGrid?_referenceValue h
  · rw [he] at h ⊢
    rw [walk] at h
    rcases yields_nameValue h with ⟨_, hnotices, _⟩ | ⟨_, _, hnotices, _⟩
    · rw [hnotices]
      rfl
    · rw [hnotices]
      rfl

theorem sees_offGrid? (x : Extractor) (position : Position) (formula : String) :
    x.Sees position formula Notice.offGrid? fun e => (e.complaint? formula).toList where
  read _ := rfl
  leaf _ _ _ := offGrid?_leaf
  callee e huse := by
    have hown : e.complaint? formula = none := by
      cases e with
      | reference kind sheet body => exact absurd rfl huse
      | _ => rfl
    rw [hown, unknownNotices, List.filterMap_map]
    exact List.filterMap_eq_nil_iff.mpr fun _ _ => rfl

/-! ## The diagnostics of an extraction -/

def complaints (formula : String) (parse : Parse) : List Diagnostic :=
  (parse.tree.map (Expr.complaints formula)).getD []

theorem offGrid?_follow {parse : Parse}
    (h : (x.follow position formula parse).Yields notices v) :
    notices.filterMap Notice.offGrid? = complaints formula parse := by
  rw [(sees_offGrid? x position formula).follow h, complaints]
  cases parse.tree with
  | none => rfl
  | some e => exact (e.complaints_eq_postOrder formula).symm

theorem diagnostics_of_yields_follow
    (h : (x.follow position formula (Parse.ofText formula)).Yields notices v) :
    (findingsOf formula notices).diagnostics =
      (Parse.ofText formula).diagnostics ++
        complaints formula (Parse.ofText formula) := by
  rw [findingsOf, Findings.absorbAll_diagnostics, offGrid?_follow h]

theorem lenientOutcome_diagnostics_eq_nil_iff {findings : Findings} {v : Value} :
    (lenientOutcome findings v).diagnostics = [] <-> findings.diagnostics = [] := by
  have hperm : (lenientOutcome findings v).diagnostics.Perm findings.diagnostics :=
    Diagnostic.inOrder_perm findings.diagnostics
  constructor
  · intro h
    rw [h] at hperm
    exact hperm.symm.eq_nil
  · intro h
    rw [h] at hperm
    exact hperm.eq_nil

/-- Without a tree there is nothing to sort: what the parse has found is in order. -/
theorem inOrder_of_no_tree (htree : (Parse.ofText formula).tree = none)
    (h : (x.follow position formula (Parse.ofText formula)).Yields notices v) :
    Diagnostic.inOrder (findingsOf formula notices).diagnostics =
      (Parse.ofText formula).diagnostics := by
  have hnone : complaints formula (Parse.ofText formula) = [] := by
    rw [complaints, htree]
    rfl
  rw [diagnostics_of_yields_follow h, hnone, List.append_nil]
  apply Diagnostic.inOrder_of_pairwise
  have hfailures := Run.failures_pairwise (Run.recovers_ofText formula)
  have hannounced := Run.announced_sublist true (Run.ofText formula).moves
    (Run.ofText formula).tree
  rw [Parse.diagnostics_ofText, List.pairwise_map]
  exact (hfailures.sublist hannounced).imp Int.ofNat_lt.mpr

theorem exists_yields_follow {parse : Parse}
    (h : forall e, parse.tree = some e ->
      exists notices v, (x.walk position formula e).Yields notices v) :
    exists notices v, (x.follow position formula parse).Yields notices v := by
  unfold follow followBy
  cases htree : parse.tree with
  | none => exact exists_yields_salvage _
  | some e =>
      rcases h e htree with ⟨first, v, hwalk⟩
      rcases exists_yields_finish position v with ⟨second, w, hfinish⟩
      exact ⟨_, w, Traced.yields_bind.mpr
        ⟨first, v, second, hwalk, hfinish, rfl⟩⟩

theorem nodup_offset (formula : String) :
    (((Parse.ofText formula).diagnostics ++
      complaints formula (Parse.ofText formula)).map Diagnostic.offset).Nodup := by
  have hrun := Run.recovers_ofText formula
  have hfailures : ((Parse.ofText formula).diagnostics.map Diagnostic.offset) =
      ((Run.announced true (Run.ofText formula).moves).map
        Failure.offset).map Int.ofNat := by
    rw [Parse.diagnostics_ofText, List.map_map, List.map_map]
    rfl
  have htokens : exists tokens, List.Sublist tokens (Run.ofText formula).tokens ∧
      ((complaints formula (Parse.ofText formula)).map Diagnostic.offset).Sublist
        ((tokens.map fun t => t.offset).map Int.ofNat) := by
    unfold complaints
    cases htree : (Parse.ofText formula).tree with
    | none => exact ⟨[], List.nil_sublist _, List.Sublist.refl _⟩
    | some e =>
        refine ⟨e.tokens, Run.tokens_sublist hrun htree, ?_⟩
        rw [List.map_map]
        exact e.complaints_sublist formula
  rcases htokens with ⟨tokens, htokens, hcomplaints⟩
  have hnodup := Run.nodup_offsets hrun
    (Run.announced_sublist true _ (Run.ofText formula).tree) htokens
  have hinjective : Function.Injective Int.ofNat := fun _ _ => Int.ofNat.inj
  rw [List.map_append, hfailures]
  apply List.Nodup.sublist (hcomplaints.append_left _)
  rw [← List.map_append]
  exact hnodup.map hinjective

theorem offset_bounds_of_mem {d : Diagnostic}
    (h : d ∈ (Parse.ofText formula).diagnostics ++
      complaints formula (Parse.ofText formula)) :
    0 ≤ d.offset ∧ d.offset ≤ formula.length := by
  have hrun := Run.recovers_ofText formula
  have inside : forall m, m ∈ (Run.ofText formula).moves ->
      m.offset ≤ formula.length := by
    intro m hm
    have h := (Run.offset_bounds hrun hm).right
    rwa [Nat.zero_add, String.length_toList] at h
  rcases List.mem_append.mp h with h | h
  · rw [Parse.diagnostics_ofText] at h
    rcases List.mem_map.mp h with ⟨f, hf, heq⟩
    have hle := inside (.failure f) (Run.mem_failures.mp
      ((Run.announced_sublist true _ (Run.ofText formula).tree).subset hf))
    rw [← heq]
    exact ⟨Int.natCast_nonneg _, Int.ofNat_le.mpr hle⟩
  · cases htree : (Parse.ofText formula).tree with
    | none =>
        rw [complaints, htree] at h
        cases h
    | some e =>
        rw [complaints, htree] at h
        have hmem := (e.complaints_sublist formula).subset
          (List.mem_map_of_mem h)
        rcases List.mem_map.mp hmem with ⟨t, ht, heq⟩
        have hle := inside (.shift t) (Run.mem_tokens.mp
          ((Run.tokens_sublist hrun htree).subset ht))
        rw [← heq]
        exact ⟨Int.natCast_nonneg _, Int.ofNat_le.mpr hle⟩

/--
The diagnostics of an extraction are those of the parse and one for each literal
of the tree that lies off the grid, at its first token.  They stand in the text
in strict order.  A strict extraction fails with just these diagnostics if there
are any, and otherwise comes to the same outcome as a lenient one.
-/
theorem extractAt_diagnostics (x : Extractor) {formula : String}
    (hformula : formula ≠ "") (position : Position)
    (hwalk : forall e, (Parse.ofText formula).tree = some e ->
      exists notices v, (x.walk position formula e).Yields notices v) :
    exists found : Extraction,
      found.diagnostics.Perm ((Parse.ofText formula).diagnostics ++
        complaints formula (Parse.ofText formula)) ∧
      found.diagnostics.Pairwise (fun a b => a.offset < b.offset) ∧
      (forall d, d ∈ found.diagnostics ->
        0 ≤ d.offset ∧ d.offset ≤ formula.length) ∧
      forall strict, (x.extractAt formula position strict).outcome =
        if strict.getD x.strict = true ∧ found.diagnostics ≠ [] then
          .error (.malformed found.diagnostics)
        else .ok found := by
  rcases exists_yields_follow hwalk with ⟨notices, v, hfollow⟩
  have hall := diagnostics_of_yields_follow hfollow
  have hperm : (lenientOutcome (findingsOf formula notices) v).diagnostics.Perm
      ((Parse.ofText formula).diagnostics ++
        complaints formula (Parse.ofText formula)) := by
    rw [← hall]
    exact Diagnostic.inOrder_perm _
  refine ⟨_, hperm, ?_, ?_, extractAt_of_yields hformula hfollow⟩
  · apply Diagnostic.inOrder_pairwise
    rw [hall]
    exact nodup_offset formula
  · intro d hd
    exact offset_bounds_of_mem (hperm.subset hd)

theorem stray_diagnostics :
    exists found : Extraction,
      found.diagnostics.map Diagnostic.offset = [1, 4] ∧
      found.diagnostics.Perm ((Parse.ofText "=S! @ A0").diagnostics ++
        complaints "=S! @ A0" (Parse.ofText "=S! @ A0")) ∧
      (extractAt {} "=S! @ A0" (.mk 9 1 "T") (some true)).outcome =
        .error (.malformed found.diagnostics) := by
  have htree : (Parse.ofText "=S! @ A0").tree =
      some (.reference .cell (some ⟨"S!", 1⟩) ⟨"A0", 6⟩) := by cbv
  have hoffsets : (extractAt {} "=S! @ A0" (.mk 9 1 "T")
      (some false)).outcome.toOption.map
        (fun found => found.diagnostics.map Diagnostic.offset) =
      some [1, 4] := by decide +kernel
  have hwalk : forall e, (Parse.ofText "=S! @ A0").tree = some e ->
      exists notices v,
        (walk {} (.mk 9 1 "T") "=S! @ A0" e).Yields notices v := by
    intro e he
    rw [htree] at he
    cases he
    rw [walk]
    apply exists_yields_referenceValue
    intro word hword
    cases hword
    exact ⟨[], by decide⟩
  rcases extractAt_diagnostics {} (by decide) (.mk 9 1 "T") hwalk with
    ⟨found, hperm, _, _, hok⟩
  rw [hok] at hoffsets
  have hfound : found.diagnostics.map Diagnostic.offset = [1, 4] :=
    Option.some.inj hoffsets
  refine ⟨found, hfound, hperm, ?_⟩
  rw [hok, if_pos]
  refine ⟨rfl, ?_⟩
  intro hnil
  rw [hnil] at hfound
  cases hfound

end Extractor
end Precedents
