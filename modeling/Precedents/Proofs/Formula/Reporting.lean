import Precedents.Proofs.Formula.Recovering

/-!
# What is reported of a run

Failures with only white space between them are one report.  White space is all
that is passed over without a token or a failure, and no token is white space.
So the reports are the failures in front of which a token has been taken since
the last one, the first failure included.
-/

namespace Precedents

/-! ## White space -/

namespace Text

theorem isBlank_of_isFiller {c : Char} (h : Terminal.isFiller c = true) :
    isBlank c = true := by
  simp only [Terminal.isFiller, Bool.or_eq_true, beq_iff_eq] at h
  rcases h with (((h | h) | h) | h) | h
  all_goals
    rw [h]
    decide

end Text

namespace Terminal

open Text

theorem all_isBlank_of_found {t : Terminal} {cs word : List Char}
    (ht : t ≠ blank) (h : t.found cs = some word) :
    word.all isBlank = false := by
  rcases found_eq_some.mp h with ⟨rest, hcs, hrest⟩
  rcases split_of_found h with ⟨c, tail, _, hword, _⟩
  rw [hword] at hcs
  rcases opens_shape t cs rest hrest with ⟨first, behind, hfirst, hopening⟩
  rw [hcs, List.cons_append] at hfirst
  injection hfirst with hc _
  rw [← hc] at hopening
  rw [hword, List.all_cons, isBlank_eq_false_of_opening ht hopening,
    Bool.false_and]

theorem all_isBlank_of_gap {cs word : List Char}
    (h : blank.found cs = some word) : word.all isBlank = true := by
  rcases found_eq_some.mp h with ⟨rest, hcs, hrest⟩
  have hreads : Scanner.Takes isFiller blank.shape := Scanner.takes_many1
  rcases hreads cs rest hrest with ⟨own, hown, hall⟩
  have hword : word = own := List.append_cancel_right (hcs.symm.trans hown)
  rw [hword]
  apply List.all_eq_true.mpr
  intro c hc
  exact isBlank_of_isFiller (hall c hc)

end Terminal

/-! ## The failures that are reported -/

namespace Run

variable {r : Reading} {patience offset : Nat} {cs front : List Char} {run : Run}

/--
The failures with a token in front of them since the failure before.  The first
failure is among them if a report is due at the start.
-/
def announced : (due : Bool) -> List Move -> List Failure
  | _, [] => []
  | _, .shift _ :: moves => announced true moves
  | due, .failure f :: moves =>
      if due then f :: announced false moves else announced false moves

/-- Something has been read since `reach`, or there has been no failure yet. -/
def due (front : List Char) : (reach : Option Nat) -> Bool
  | none => true
  | some reach => !(front.drop reach).all Text.isBlank

theorem due_append {word : List Char} {reach : Option Nat}
    (hreach : forall n, reach = some n -> n ≤ front.length) :
    due (front ++ word) reach =
      (due front reach || reach.any fun _ => !word.all Text.isBlank) := by
  cases reach with
  | none => rfl
  | some n =>
      have hle := hreach n rfl
      simp only [due, List.drop_append_of_le_length hle, List.all_append,
        Bool.not_and, Option.any_some]

theorem blankBetween_append (front rest : List Char) (reach : Nat) :
    Parse.blankBetween (front ++ rest) reach front.length =
      (front.drop reach).all Text.isBlank := by
  unfold Parse.blankBetween
  congr 1
  rw [List.drop_append, List.take_append, List.length_drop, Nat.sub_self,
    List.take_zero, List.append_nil]
  exact List.take_of_length_le (Nat.le_of_eq List.length_drop)

theorem reported_cons {f : Failure} {failures : List Failure}
    {reach : Option Nat} (hf : f.offset = front.length)
    (hreach : forall n, reach = some n -> n ≤ f.finish) :
    Parse.reported (front ++ cs) reach (f :: failures) =
      if due front reach then
        f :: Parse.reported (front ++ cs) (some f.finish) failures
      else Parse.reported (front ++ cs) (some f.finish) failures := by
  cases reach with
  | none => rfl
  | some n =>
      simp only [Parse.reported, hf, blankBetween_append, due,
        Nat.max_eq_right (hreach n rfl)]
      by_cases hblank : (front.drop n).all Text.isBlank = true <;> simp [hblank]

theorem reported_single {f : Failure} {reach : Option Nat}
    (hf : f.offset = front.length) (hfinish : f.offset ≤ f.finish)
    (hreach : forall n, reach = some n -> n ≤ front.length) :
    Parse.reported (front ++ cs) reach [f] =
      announced (due front reach) [.failure f] := by
  apply reported_cons hf
  intro n hn
  exact Nat.le_trans (hreach n hn) (hf ▸ hfinish)

/-- The failures reported of a run are those with a token in front of them. -/
theorem reported_eq_announced (h : Recovers r patience offset cs run)
    {reach : Option Nat} (hoffset : offset = front.length)
    (hreach : forall n, reach = some n -> n ≤ front.length) :
    Parse.reported (front ++ cs) reach run.failures =
      announced (due front reach) run.moves := by
  induction h generalizing front reach with
  | complete _ => cases reach <;> rfl
  | early _ => exact reported_single hoffset (Nat.le_refl _) hreach
  | @blank r patience offset word rest run hglance hrest ih =>
      have hgap := Terminal.all_isBlank_of_gap (found_of_glance_blank hglance)
      have hdue : due (front ++ word) reach = due front reach := by
        rw [due_append hreach, hgap]
        cases reach <;> simp
      rw [← List.append_assoc, ← hdue]
      apply ih
      · rw [hoffset, List.length_append]
      · intro n hn
        rw [List.length_append]
        exact Nat.le_add_right_of_le (hreach n hn)
  | @token r next patience offset t word rest run hglance hshift hrest ih =>
      have hsolid := Terminal.all_isBlank_of_found
        (ne_blank_of_glance hglance) (found_of_glance hglance)
      have hdue : due (front ++ word) reach = true := by
        rw [due_append hreach, hsolid]
        cases reach <;> simp [due]
      show _ = announced true run.moves
      rw [← List.append_assoc, failures_shift, ← hdue]
      apply ih
      · rw [hoffset, List.length_append]
      · intro n hn
        rw [List.length_append]
        exact Nat.le_add_right_of_le (hreach n hn)
  | @failure r next patience offset f cs rest run hfails hrest ih =>
      rcases hfails.split with ⟨hf, _, c, word, hcs, hfinish⟩
      have hend : f.finish = (front ++ c :: word).length := by
        rw [hfinish, hoffset, List.length_append]
      have hdue : due (front ++ c :: word) (some f.finish) = false := by
        simp [due, hend]
      have hlater : Parse.reported (front ++ cs) (some f.finish) run.failures =
          announced false run.moves := by
        rw [hcs, ← List.append_assoc, ← hdue]
        apply ih hend
        intro n hn
        cases hn
        exact Nat.le_of_eq hend
      rw [failures_failure, reported_cons (hf.trans hoffset), hlater]
      · rfl
      · intro n hn
        rw [hfinish, hoffset]
        exact Nat.le_add_right_of_le (hreach n hn)
  | @spent r next offset f cs rest hfails =>
      rcases hfails.split with ⟨hf, _, c, word, hcs, hfinish⟩
      apply reported_single (hf.trans hoffset) _ hreach
      rw [hf, hfinish]
      exact Nat.le_add_right _ _

theorem announced_eq_nil_iff {moves : List Move} {tree : Option Expr} :
    announced true moves = [] <-> failures ⟨moves, tree⟩ = [] := by
  induction moves with
  | nil => exact ⟨fun _ => rfl, fun _ => rfl⟩
  | cons move moves ih =>
      cases move with
      | shift t => exact ih
      | failure f =>
          constructor
          · intro h
            cases h
          · intro h
            cases h

theorem announced_sublist (due : Bool) (moves : List Move) (tree : Option Expr) :
    (announced due moves).Sublist (failures ⟨moves, tree⟩) := by
  induction moves generalizing due with
  | nil => exact List.Sublist.refl _
  | cons move moves ih =>
      cases move with
      | shift t => exact ih true
      | failure f =>
          cases due with
          | true => exact (ih false).cons_cons f
          | false => exact (ih false).cons f

/-! ## The end of a run -/

/-- The last failure is the end of the text. -/
def EndsEarly (failures : List Failure) : Prop :=
  exists f, failures.getLast? = some f ∧ f.found = .endOfInput

theorem endsEarly_cons {f : Failure} {failures : List Failure}
    (hf : f.found ≠ .endOfInput) :
    EndsEarly (f :: failures) <-> EndsEarly failures := by
  cases failures with
  | nil =>
      constructor
      · intro h
        rcases h with ⟨g, hg, hfound⟩
        cases hg
        exact absurd hfound hf
      · intro h
        rcases h with ⟨g, hg, _⟩
        cases hg
  | cons g failures => rw [EndsEarly, List.getLast?_cons_cons, EndsEarly]

theorem failures_length_le (h : Recovers r patience offset cs run) :
    run.failures.length ≤ patience + 1 := by
  induction h with
  | complete _ => exact Nat.zero_le _
  | early _ => exact Nat.le_add_left 1 _
  | blank _ _ ih => exact ih
  | token _ _ _ ih => exact ih
  | failure _ _ ih => exact Nat.succ_le_succ ih
  | spent _ => exact Nat.le_refl _

theorem tree_eq_none_iff (h : Recovers r patience offset cs run) :
    run.tree = none <->
      run.failures.length = patience + 1 ∨ EndsEarly run.failures := by
  induction h with
  | complete hclose =>
      constructor
      · intro h
        cases h
      · intro h
        rcases h with h | ⟨f, hf, _⟩
        · cases h
        · cases hf
  | early hclose => exact iff_of_true rfl (Or.inr ⟨_, rfl, rfl⟩)
  | blank _ _ ih => exact ih
  | token _ _ _ ih => exact ih
  | failure hfails _ ih =>
      rw [tree_after, failures_failure, endsEarly_cons hfails.split.right.left,
        List.length_cons, Nat.add_right_cancel_iff]
      exact ih
  | spent _ => exact iff_of_true rfl (Or.inl rfl)

/-! ## Reading without a failure -/

inductive Accepts : Reading -> (offset : Nat) -> List Char -> Expr -> Prop where
  | complete {r : Reading} {offset : Nat} {e : Expr} (h : r.close = .ok e) :
      Accepts r offset [] e
  | blank {r : Reading} {offset : Nat} {word rest : List Char} {e : Expr}
      (h : glance r (word ++ rest) = .blank word)
      (hrest : Accepts r (offset + word.length) rest e) :
      Accepts r offset (word ++ rest) e
  | token {r next : Reading} {offset : Nat} {t : Terminal}
      {word rest : List Char} {e : Expr}
      (hglance : glance r (word ++ rest) = .expected t word)
      (hshift : r.shift ⟨⟨String.ofList word, offset⟩, t⟩ = .ok next)
      (hrest : Accepts next (offset + word.length) rest e) :
      Accepts r offset (word ++ rest) e

theorem accepts_of_recovers {e : Expr} (h : Recovers r patience offset cs run)
    (hfailures : run.failures = []) (htree : run.tree = some e) :
    Accepts r offset cs e := by
  induction h with
  | complete hclose =>
      cases htree
      exact .complete hclose
  | early _ => cases htree
  | blank hglance _ ih => exact .blank hglance (ih hfailures htree)
  | token hglance hshift _ ih =>
      exact .token hglance hshift (ih hfailures htree)
  | failure _ _ _ => cases hfailures
  | spent _ => cases htree

/-- Without a failure the reader finds the same tree, however patient it is. -/
theorem accepts_iff {e : Expr} :
    Accepts r offset cs e <->
      (go r patience offset 0 cs).failures = [] ∧
        (go r patience offset 0 cs).tree = some e := by
  constructor
  · intro h
    induction h with
    | complete hclose =>
        rw [go, hclose]
        exact ⟨rfl, rfl⟩
    | blank hglance _ ih =>
        rw [go_blank hglance]
        exact ih
    | token hglance hshift _ ih =>
        rw [go_taken hglance hshift]
        exact ih
  · intro h
    exact accepts_of_recovers (recovers_go r patience offset cs) h.left h.right

end Run

/-! ## Parses -/

namespace Parse

theorem diagnostics_ofText (text : String) :
    (ofText text).diagnostics =
      (Run.announced true (Run.ofText text).moves).map (Failure.diagnostic text) := by
  have h : reported ([] ++ text.toList) none _ = _ :=
    Run.reported_eq_announced (Run.recovers_ofText text) rfl (by simp)
  rw [List.nil_append] at h
  show List.map _ (reported _ none _) = _
  rw [h]
  rfl

theorem diagnostics_eq_nil_iff (text : String) :
    (ofText text).diagnostics = [] <-> (Run.ofText text).failures = [] := by
  rw [diagnostics_ofText, List.map_eq_nil_iff, Run.announced_eq_nil_iff]

theorem failures_eq_nil_iff (text : String) :
    (Run.ofText text).failures = [] <->
      exists e, Run.Accepts .empty 0 text.toList e := by
  constructor
  · intro h
    cases htree : (Run.ofText text).tree with
    | none =>
        rcases (Run.tree_eq_none_iff (Run.recovers_ofText text)).mp htree with
          hspent | ⟨f, hf, _⟩
        · rw [h] at hspent
          cases hspent
        · rw [h] at hf
          cases hf
    | some e => exact ⟨e, Run.accepts_iff.mpr ⟨h, htree⟩⟩
  · intro h
    rcases h with ⟨e, he⟩
    exact (Run.accepts_iff.mp he).left

/--
The reader drops what it cannot use and goes on, up to twenty failures.  Without
a failure the tree is the one that is read without recovery.  There is no tree
if the text ends too early or at the twentieth failure.  The diagnostics are
those of the first failure and of each failure with a token in front of it since
the last one, so there are none just when the text is read without recovery.
-/
theorem ofText_recovers (text : String) :
    Run.Recovers .empty Run.patience 0 text.toList (Run.ofText text) ∧
    (Run.ofText text).failures.length ≤ 20 ∧
    ((Run.ofText text).failures = [] <->
      exists e, Run.Accepts .empty 0 text.toList e) ∧
    (forall e, Run.Accepts .empty 0 text.toList e <->
      (Run.ofText text).failures = [] ∧ (ofText text).tree = some e) ∧
    ((ofText text).tree = none <->
      (Run.ofText text).failures.length = 20 ∨
        Run.EndsEarly (Run.ofText text).failures) ∧
    (ofText text).diagnostics =
      (Run.announced true (Run.ofText text).moves).map
        (Failure.diagnostic text) ∧
    ((ofText text).diagnostics = [] <->
      exists e, Run.Accepts .empty 0 text.toList e) := by
  have hrun := Run.recovers_ofText text
  refine ⟨hrun, Run.failures_length_le hrun, failures_eq_nil_iff text, ?_,
    Run.tree_eq_none_iff hrun, diagnostics_ofText text, ?_⟩
  · intro e
    exact Run.accepts_iff
  · rw [diagnostics_eq_nil_iff, failures_eq_nil_iff]

end Parse
end Precedents
