import Precedents.Proofs.Extraction.Walking

/-!
# Notices of one kind

Looking at the notices of one kind that is not the reading of references, one sees
what the leaves notice and which functions are not known.  All of it belongs to
some part of the formula, and is seen part by part, each behind its children.
-/

namespace Precedents
namespace Extractor

variable {α : Type} {x : Extractor} {position : Position} {formula : String}
variable {see : Notice -> Option α} {own : Expr -> List α}
variable {notices : List Notice} {v : Value}

/-- No reference is seen, and what a part adds to what its children notice is its own. -/
structure Sees (x : Extractor) (position : Position) (formula : String)
    (see : Notice -> Option α) (own : Expr -> List α) : Prop where
  read : forall ref, see (.read ref) = none
  leaf : forall e notices v, x.use? position e = none ->
    (x.walk position formula e).Yields notices v -> notices.filterMap see = own e
  callee : forall e, x.use? position e ≠ none ->
    (x.unknownNotices e.callee?.toList).filterMap see = own e

namespace Sees

theorem reads (h : x.Sees position formula see own) {ι : Type} (f : ι -> Reference)
    (refs : List ι) : (refs.map fun ref => Notice.read (f ref)).filterMap see = [] := by
  rw [List.filterMap_map]
  exact List.filterMap_eq_nil_iff.mpr fun ref _ => h.read (f ref)

theorem readNotices (h : x.Sees position formula see own) (values : List Value) :
    (Extractor.readNotices position values).filterMap see = [] := by
  rw [Extractor.readNotices, List.filterMap_filterMap, List.filterMap_eq_nil_iff]
  intro v _
  cases v with
  | reference ref => exact h.read _
  | _ => rfl

theorem walkArgs {args : List (Option Expr)} {values : List Value}
    (hargs : forall c, c ∈ Expr.given args -> forall notices v,
      (x.walk position formula c).Yields notices v ->
        notices.filterMap see = c.postOrder.flatMap own)
    (hyields : (walkArgs x position formula args).Yields notices values) :
    notices.filterMap see =
      (Expr.given args).flatMap fun c => c.postOrder.flatMap own := by
  induction args generalizing notices values with
  | nil =>
      rw [(Traced.yields_pure.mp hyields).left]
      rfl
  | cons arg rest ih =>
      cases arg with
      | none =>
          rcases yields_walkArgs_none.mp hyields with ⟨others, _, hrest⟩
          exact ih hargs hrest
      | some e =>
          rcases yields_walkArgs_some.mp hyields with
            ⟨first, w, second, others, hfirst, hsecond, hnotices, _⟩
          have hothers := ih (fun c hc => hargs c (List.mem_cons_of_mem _ hc)) hsecond
          rw [hnotices, List.filterMap_append, hothers,
            hargs e List.mem_cons_self first w hfirst]
          rfl

/-- A walk through a formula sees what its parts have of their own, in post order. -/
theorem walk (h : x.Sees position formula see own) (e : Expr)
    (hyields : (x.walk position formula e).Yields notices v) :
    notices.filterMap see = e.postOrder.flatMap own := by
  induction e using Expr.children_induction generalizing notices v with
  | step e ih =>
      rw [Expr.postOrder_eq, List.flatMap_append, List.flatMap_assoc, List.flatMap_singleton]
      cases huse : x.use? position e with
      | none =>
          rw [h.leaf e notices v huse hyields, children_of_use?_eq_none huse]
          rfl
      | some found =>
          rcases found with ⟨args, use⟩
          rcases (yields_walk_of_use? huse).mp hyields with
            ⟨first, values, second, hfirst, hsecond, hnotices⟩
          have hchildren : first.filterMap see =
              (Expr.given args).flatMap fun c => c.postOrder.flatMap own := by
            apply walkArgs _ hfirst
            intro c hc notices v hchild
            rw [given_of_use? huse] at hc
            exact ih c hc hchild
          have hown := h.callee e (by rw [huse]; simp)
          rw [hnotices, List.filterMap_append, hchildren, given_of_use? huse,
            notices_of_use? huse hsecond, List.filterMap_append, h.readNotices,
            List.nil_append, hown]

theorem finish (h : x.Sees position formula see own) {w : Value}
    (hyields : (Extractor.finish position v).Yields notices w) :
    notices.filterMap see = [] := by
  rcases notices_of_yields_finish hyields with hnotices | ⟨ref, hnotices, _⟩
  · rw [hnotices]
    rfl
  · rw [hnotices]
    exact h.reads (placed position) [ref]

theorem follow (h : x.Sees position formula see own) {parse : Parse}
    (hyields : (x.follow position formula parse).Yields notices v) :
    notices.filterMap see =
      match parse.tree with
      | none => []
      | some e => e.postOrder.flatMap own := by
  unfold Extractor.follow followBy at hyields
  cases htree : parse.tree with
  | none =>
      simp only [htree] at hyields
      rcases notices_of_yields_salvage hyields with ⟨refs, _, hnotices⟩
      rw [hnotices]
      exact h.reads (placed position) refs
  | some e =>
      simp only [htree] at hyields
      rcases Traced.yields_bind.mp hyields with ⟨_, _, _, hwalk, hfinish, heq⟩
      rw [heq, List.filterMap_append, h.walk e hwalk, h.finish hfinish]
      exact List.append_nil _

end Sees

end Extractor
end Precedents
