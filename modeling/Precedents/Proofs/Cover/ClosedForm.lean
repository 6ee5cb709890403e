import Precedents.Cover
import Precedents.Proofs.Reference.Holding

/-!
# The closed form of a cover

A cover is built one reference at a time: entries are put at the end, and a
range takes out the cells that it holds.  This module says what is left of a
whole run of such steps.  Only the references that were offered since the cover
was last cleared count.  Of these the cover lists the first occurrences, in
order, without the cells that lie in one of the ranges, whether the range came
before the cell or after it.
-/

namespace Precedents

namespace Reference

/-- Nothing new is said by `ref` beside this operand. -/
def Covers : (operand ref : Reference) -> Prop
  | .cell c, .cell d => d = c
  | .range r, .cell d => r.Holds d
  | .cell _, .range _ => False
  | .range r, .range s => s = r

def isSwallowedBy (ref : Reference) (operands : List Reference) : Bool :=
  operands.any fun
    | .cell _ => false
    | .range r => ref.isCellIn r

theorem isSwallowedBy_append (ref : Reference) (xs ys : List Reference) :
    ref.isSwallowedBy (xs ++ ys) =
      (ref.isSwallowedBy xs || ref.isSwallowedBy ys) := by
  simp [isSwallowedBy]

theorem isSwallowedBy_cell_iff (c : Cell) (operands : List Reference) :
    (Reference.cell c).isSwallowedBy operands = true <->
      exists r, Reference.range r ∈ operands ∧ r.Holds c := by
  simp only [isSwallowedBy, List.any_eq_true]
  constructor
  · intro h
    rcases h with ⟨operand, hmem, hin⟩
    cases operand with
    | cell d => cases hin
    | range r => exact ⟨r, hmem, (Range.contains_iff r c).mp hin⟩
  · intro h
    rcases h with ⟨r, hmem, hin⟩
    exact ⟨.range r, hmem, (Range.contains_iff r c).mpr hin⟩

theorem isSwallowedBy_range (r : Range) (operands : List Reference) :
    (Reference.range r).isSwallowedBy operands = false := by
  simp only [isSwallowedBy, List.any_eq_false]
  intro operand _hmem
  cases operand with
  | cell d => simp
  | range s => simp [isCellIn]

theorem coversCell_iff (operand : Reference) (d : Cell) :
    operand.coversCell d = true <-> operand.Covers (.cell d) := by
  cases operand with
  | cell c =>
      simp only [coversCell, Covers, beq_iff_eq]
      exact eq_comm
  | range r => exact Range.contains_iff r d

theorem isRange_iff (operand : Reference) (s : Range) :
    operand.isRange s = true <-> operand.Covers (.range s) := by
  cases operand with
  | cell c => simp [isRange, Covers]
  | range r =>
      exact (Range.sheet_eq_and_sameBounds_iff r s).trans eq_comm

theorem covers_self (ref : Reference) : ref.Covers ref := by
  cases ref with
  | cell c => rfl
  | range r => rfl

theorem Covers.sheet_eq {operand ref : Reference} (h : operand.Covers ref) :
    ref.sheet = operand.sheet := by
  cases operand with
  | cell c =>
      cases ref with
      | cell d =>
          have hd : d = c := h
          rw [hd]
      | range s => exact h.elim
  | range r =>
      cases ref with
      | cell d => exact h.left
      | range s =>
          have hs : s = r := h
          rw [hs]

theorem eq_or_isCellIn_of_covers {operand ref : Reference}
    (h : operand.Covers ref) :
    operand = ref ∨ exists r, operand = .range r ∧ ref.isCellIn r = true := by
  cases operand with
  | cell c =>
      cases ref with
      | cell d =>
          have hd : d = c := h
          exact Or.inl (by rw [hd])
      | range s => exact h.elim
  | range r =>
      cases ref with
      | cell d => exact Or.inr ⟨r, rfl, (Range.contains_iff r d).mpr h⟩
      | range s =>
          have hs : s = r := h
          exact Or.inl (by rw [hs])

end Reference

/-!
## Lists without repetitions
-/

section EraseDups

variable {α : Type} [BEq α] [LawfulBEq α] {items : List α} {item : α}

theorem eraseDups_snoc_of_mem (h : item ∈ items) :
    (items ++ [item]).eraseDups = items.eraseDups := by
  simp [List.eraseDups_append, List.removeAll, h]

theorem eraseDups_snoc_of_not_mem (h : item ∉ items) :
    (items ++ [item]).eraseDups = items.eraseDups ++ [item] := by
  simp [List.eraseDups_append, List.removeAll, h, List.eraseDups_cons]

end EraseDups

namespace Cover

/-!
## Runs

A run offers references and clears the cover.  The references that count at its
end are those behind the last clearing.
-/

inductive Action
  | offer (ref : Reference)
  | clear
deriving DecidableEq, Repr

def perform (cover : Cover) : Action -> Cover
  | .offer ref => (cover.offer ref).2
  | .clear => {}

/-- The cover after a run that starts with nothing. -/
def after (actions : List Action) : Cover :=
  actions.foldl perform {}

def countOperand (operands : List Reference) : Action -> List Reference
  | .offer ref => operands ++ [ref]
  | .clear => []

def operands (actions : List Action) : List Reference :=
  actions.foldl countOperand []

/-- The first occurrences of the operands, but for cells in ranges. -/
def standing (operands : List Reference) : List Reference :=
  operands.eraseDups.filter fun ref => !ref.isSwallowedBy operands

theorem covers_iff (cover : Cover) (ref : Reference) :
    cover.covers ref = true <->
      exists entry, entry ∈ cover.entries ∧ entry.Covers ref := by
  cases ref with
  | cell d => simp [covers, Reference.coversCell_iff]
  | range s => simp [covers, Reference.isRange_iff]

/-!
## One step

What stands of some operands covers just what the operands cover: a cell that
was taken out lies in a range, and ranges are never taken out.  So the entries
may answer for the operands.
-/

theorem mem_standing_iff (operands : List Reference) (ref : Reference) :
    ref ∈ standing operands <->
      ref ∈ operands ∧ ref.isSwallowedBy operands = false := by
  simp [standing]

theorem range_mem_standing {operands : List Reference} {r : Range}
    (h : Reference.range r ∈ operands) :
    Reference.range r ∈ standing operands := by
  rw [mem_standing_iff]
  exact ⟨h, Reference.isSwallowedBy_range r operands⟩

theorem exists_standing_covers_iff (operands : List Reference)
    (ref : Reference) :
    (exists entry, entry ∈ standing operands ∧ entry.Covers ref) <->
      exists operand, operand ∈ operands ∧ operand.Covers ref := by
  constructor
  · intro h
    rcases h with ⟨entry, hmem, hcovers⟩
    exact ⟨entry, ((mem_standing_iff operands entry).mp hmem).left, hcovers⟩
  · intro h
    rcases h with ⟨operand, hmem, hcovers⟩
    cases hswallowed : operand.isSwallowedBy operands with
    | false =>
        exact ⟨operand, (mem_standing_iff operands operand).mpr
          ⟨hmem, hswallowed⟩, hcovers⟩
    | true =>
        cases operand with
        | range r =>
            rw [Reference.isSwallowedBy_range] at hswallowed
            cases hswallowed
        | cell c =>
            rcases (Reference.isSwallowedBy_cell_iff c operands).mp
              hswallowed with ⟨r, hr, hholds⟩
            cases ref with
            | range s => exact hcovers.elim
            | cell d =>
                have hd : d = c := hcovers
                rw [hd]
                exact ⟨.range r, range_mem_standing hr, hholds⟩

theorem isSwallowedBy_snoc_cell (ref : Reference) (operands : List Reference)
    (c : Cell) :
    ref.isSwallowedBy (operands ++ [.cell c]) =
      ref.isSwallowedBy operands := by
  rw [Reference.isSwallowedBy_append]
  simp [Reference.isSwallowedBy]

theorem isSwallowedBy_snoc_range (ref : Reference) (operands : List Reference)
    (r : Range) :
    ref.isSwallowedBy (operands ++ [.range r]) =
      (ref.isSwallowedBy operands || ref.isCellIn r) := by
  rw [Reference.isSwallowedBy_append]
  simp [Reference.isSwallowedBy]

theorem isSwallowedBy_snoc_of_mem {operands : List Reference}
    {ref : Reference} (h : ref ∈ operands) (other : Reference) :
    other.isSwallowedBy (operands ++ [ref]) =
      other.isSwallowedBy operands := by
  cases ref with
  | cell c => exact isSwallowedBy_snoc_cell other operands c
  | range r =>
      rw [isSwallowedBy_snoc_range]
      cases hin : other.isCellIn r with
      | false => simp
      | true =>
          have hold : other.isSwallowedBy operands = true := by
            simp only [Reference.isSwallowedBy, List.any_eq_true]
            exact ⟨.range r, h, hin⟩
          simp [hold]

theorem standing_snoc_of_covered {operands : List Reference}
    {ref : Reference}
    (h : exists operand, operand ∈ operands ∧ operand.Covers ref) :
    standing (operands ++ [ref]) = standing operands := by
  by_cases hmem : ref ∈ operands
  · unfold standing
    rw [eraseDups_snoc_of_mem hmem]
    apply List.filter_congr
    intro other _hother
    rw [isSwallowedBy_snoc_of_mem hmem]
  · rcases h with ⟨operand, hoperand, hcovers⟩
    rcases Reference.eq_or_isCellIn_of_covers hcovers with heq | hin
    · exact absurd (heq ▸ hoperand) hmem
    · rcases hin with ⟨r, hr, hin⟩
      cases ref with
      | range s => cases hin
      | cell d =>
          have hswallowed :
              (Reference.cell d).isSwallowedBy operands = true := by
            simp only [Reference.isSwallowedBy, List.any_eq_true]
            exact ⟨.range r, hr ▸ hoperand, hin⟩
          unfold standing
          rw [eraseDups_snoc_of_not_mem hmem]
          simp [isSwallowedBy_snoc_cell, hswallowed]

theorem standing_snoc_of_not_covered {operands : List Reference}
    {ref : Reference}
    (h : ¬ exists operand, operand ∈ operands ∧ operand.Covers ref) :
    standing (operands ++ [ref]) =
      keptBeside ref (standing operands) ++ [ref] := by
  have hmem : ref ∉ operands := by
    intro hmem
    exact h ⟨ref, hmem, Reference.covers_self ref⟩
  unfold standing
  rw [eraseDups_snoc_of_not_mem hmem]
  cases ref with
  | cell c =>
      have hswallowed :
          (Reference.cell c).isSwallowedBy operands = false := by
        cases hs : (Reference.cell c).isSwallowedBy operands with
        | false => rfl
        | true =>
            rcases (Reference.isSwallowedBy_cell_iff c operands).mp hs with
              ⟨r, hr, hholds⟩
            exact absurd ⟨.range r, hr, hholds⟩ h
      simp [isSwallowedBy_snoc_cell, hswallowed, keptBeside]
  | range r =>
      have hself : (Reference.range r).isCellIn r = false := rfl
      simp [isSwallowedBy_snoc_range, Reference.isSwallowedBy_range, hself,
        keptBeside, List.filter_filter, Bool.and_comm]

theorem add_entries {cover : Cover} {operands : List Reference}
    (h : cover.entries = standing operands) (ref : Reference) :
    (cover.add ref).entries = standing (operands ++ [ref]) := by
  have hiff : cover.covers ref = true <->
      exists operand, operand ∈ operands ∧ operand.Covers ref := by
    rw [covers_iff, h]
    exact exists_standing_covers_iff operands ref
  unfold add
  by_cases hcovers : cover.covers ref = true
  · rw [if_pos hcovers, h]
    exact (standing_snoc_of_covered (hiff.mp hcovers)).symm
  · rw [if_neg hcovers, h]
    exact (standing_snoc_of_not_covered fun hx =>
      hcovers (hiff.mpr hx)).symm

theorem foldl_add_entries (refs : List Reference) :
    (refs.foldl add {}).entries = standing refs := by
  have all : forall (cover : Cover) (operands : List Reference),
      cover.entries = standing operands ->
        (refs.foldl add cover).entries = standing (operands ++ refs) := by
    induction refs with
    | nil =>
        intro cover operands h
        rw [List.append_nil]
        exact h
    | cons ref rest ih =>
        intro cover operands h
        rw [List.append_cons]
        exact ih _ _ (add_entries h ref)
  exact all {} [] rfl

/-!
## What stands stays

Nothing of what stands is said twice or lies in a range beside it, so a cover
that is given its own entries lists them as they are.
-/

theorem eraseDups_of_nodup {refs : List Reference} (h : refs.Nodup) :
    refs.eraseDups = refs := by
  induction refs with
  | nil => rfl
  | cons ref rest ih =>
      rcases List.nodup_cons.mp h with ⟨hnew, hrest⟩
      have hkeep : rest.filter (fun other => !other == ref) = rest := by
        rw [List.filter_eq_self]
        intro other hother
        have hne : other ≠ ref := by
          intro heq
          rw [heq] at hother
          exact hnew hother
        simpa using hne
      rw [List.eraseDups_cons, hkeep, ih hrest]

theorem nodup_standing (operands : List Reference) : (standing operands).Nodup := by
  have all : forall (n : Nat) (refs : List Reference), refs.length ≤ n ->
      refs.eraseDups.Nodup := by
    intro n
    induction n with
    | zero =>
        intro refs hlength
        rw [List.eq_nil_of_length_eq_zero (Nat.le_zero.mp hlength)]
        exact List.nodup_nil
    | succ n ih =>
        intro refs hlength
        cases refs with
        | nil => exact List.nodup_nil
        | cons ref rest =>
            rw [List.eraseDups_cons, List.nodup_cons]
            refine ⟨by simp, ih _ ?_⟩
            exact Nat.le_trans (List.length_filter_le _ rest)
              (Nat.le_of_succ_le_succ hlength)
  exact (all operands.length operands (Nat.le_refl _)).filter _

theorem standing_standing (operands : List Reference) :
    standing (standing operands) = standing operands := by
  have hsubset : forall ref, ref ∈ standing operands -> ref ∈ operands :=
    fun ref href => ((mem_standing_iff operands ref).mp href).left
  unfold standing at hsubset
  rw [standing, eraseDups_of_nodup (nodup_standing operands), List.filter_eq_self]
  intro ref href
  have hfree := ((mem_standing_iff operands ref).mp href).right
  simp only [Reference.isSwallowedBy, List.any_eq_false] at hfree
  simp only [Reference.isSwallowedBy, Bool.not_eq_true', List.any_eq_false]
  intro operand hoperand
  exact hfree operand (hsubset operand hoperand)

/-!
## Whole runs
-/

theorem foldl_perform_entries (actions : List Action) {cover : Cover}
    {operands : List Reference} (h : cover.entries = standing operands) :
    (actions.foldl perform cover).entries =
      standing (actions.foldl countOperand operands) := by
  induction actions generalizing cover operands with
  | nil => exact h
  | cons action rest ih =>
      cases action with
      | offer ref => exact ih (add_entries h ref)
      | clear => exact ih rfl

theorem after_entries (actions : List Action) :
    (after actions).entries = standing (operands actions) :=
  foldl_perform_entries actions rfl

theorem after_covers_iff (actions : List Action) (ref : Reference) :
    (after actions).covers ref = true <->
      exists operand, operand ∈ operands actions ∧ operand.Covers ref := by
  rw [covers_iff, after_entries]
  exact exists_standing_covers_iff (operands actions) ref

theorem after_offer_covers_iff (actions : List Action) (ref other : Reference) :
    (after (actions ++ [.offer ref])).covers other = true <->
      (after actions).covers other = true ∨ ref.Covers other := by
  have hoperands : operands (actions ++ [.offer ref]) = operands actions ++ [ref] := by
    simp only [operands, List.foldl_append, List.foldl_cons, List.foldl_nil, countOperand]
  rw [after_covers_iff, after_covers_iff, hoperands]
  simp only [List.mem_append, List.mem_singleton, or_and_right, exists_or, exists_eq_left]

/--
After every run the entries are what stands of the operands that count, a
reference is accepted just when no such operand covers it, and the cover answers
that question without being changed.
-/
theorem run_closedForm (actions : List Action) :
    (after actions).entries =
        (operands actions).eraseDups.filter
          (fun ref => !ref.isSwallowedBy (operands actions)) ∧
      (forall ref, ((after actions).offer ref).1 = true <->
        ¬ exists operand, operand ∈ operands actions ∧ operand.Covers ref) ∧
      (forall ref, (after actions).covers ref = true <->
        exists operand, operand ∈ operands actions ∧ operand.Covers ref) := by
  constructor
  · exact after_entries actions
  constructor
  · intro ref
    rw [← after_covers_iff]
    simp [offer]
  · exact after_covers_iff actions

end Cover
end Precedents
