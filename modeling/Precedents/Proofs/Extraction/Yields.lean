import Precedents.Extraction.Extract
import Precedents.Proofs.Formula.Subformulas
import Precedents.Proofs.Function.Ruling

/-!
# What a traced computation yields

A traced computation yields its notices and its result unless it ends with a
fault.  One law for `bind` takes such computations apart, and one law for each
operation of an extractor says what it yields.
-/

namespace Precedents
namespace Traced

variable {α β : Type}

def Yields (t : Traced α) (notices : List Notice) (a : α) : Prop :=
  t.notices = notices ∧ t.outcome = .ok a

theorem yields_pure {a b : α} {notices : List Notice} :
    (Pure.pure a : Traced α).Yields notices b <-> notices = [] ∧ b = a := by
  constructor
  · intro h
    rcases h with ⟨hnotices, hok⟩
    injection hok with hok
    exact ⟨hnotices.symm, hok.symm⟩
  · intro h
    rcases h with ⟨hnotices, hok⟩
    rw [hnotices, hok]
    exact ⟨rfl, rfl⟩

theorem yields_bind {t : Traced α} {next : α -> Traced β}
    {notices : List Notice} {b : β} :
    (t >>= next).Yields notices b <->
      exists first a second, t.Yields first a ∧ (next a).Yields second b ∧
        notices = first ++ second := by
  change (Traced.bind t next).Yields notices b <-> _
  constructor
  · intro h
    rcases h with ⟨hnotices, hok⟩
    cases hout : t.outcome with
    | error fault =>
        simp only [bind, hout] at hok
        cases hok
    | ok a =>
        simp only [bind, hout] at hnotices hok
        exact ⟨t.notices, a, (next a).notices, ⟨rfl, hout⟩, ⟨rfl, hok⟩,
          hnotices.symm⟩
  · intro h
    rcases h with ⟨first, a, second, ht, hnext, hnotices⟩
    simp only [Yields, bind, ht.right, ht.left, hnext.left, hnext.right,
      hnotices, and_self]

theorem yields_note {notice : Notice} {notices : List Notice} {u : Unit} :
    (note notice).Yields notices u <-> notices = [notice] := by
  constructor
  · intro h
    exact h.left.symm
  · intro h
    rw [h]
    exact ⟨rfl, rfl⟩

theorem yields_ofExcept {outcome : Except Fault α} {notices : List Notice}
    {a : α} :
    (ofExcept outcome).Yields notices a <->
      notices = [] ∧ outcome = .ok a := by
  constructor
  · intro h
    exact ⟨h.left.symm, h.right⟩
  · intro h
    rw [h.left]
    exact ⟨rfl, h.right⟩

theorem not_yields_fail {fault : Fault} {notices : List Notice} {a : α} :
    ¬ (fail fault : Traced α).Yields notices a := by
  intro h
  cases h.right

end Traced

namespace Extractor

open Traced

variable {x : Extractor} {position : Position} {formula : String}
variable {notices : List Notice} {v : Value}

/-- The reference that is recorded when a formula at the position reads one. -/
def placed (position : Position) (ref : Reference) : Reference :=
  ref.withSheet position.sheet

theorem placed_sheet (position : Position) (ref : Reference) :
    exists name, (placed position ref).sheet = some name :=
  Reference.exists_sheet_withSheet ref position.sheet

theorem placed_upright {ref : Reference} (position : Position)
    (h : ref.Upright) : (placed position ref).Upright :=
  Reference.upright_withSheet position.sheet h

theorem placed_placed (position : Position) (ref : Reference) :
    placed position (placed position ref) = placed position ref := by
  rcases placed_sheet position ref with ⟨name, hname⟩
  exact Reference.withSheet_of_sheet_some hname position.sheet

def standIn : Reference -> Value
  | .cell _ => .neutral
  | .range r => Value.blockOf (.range r)

theorem yields_read {ref : Reference} :
    (read position ref).Yields notices v <->
      notices = [.read (placed position ref)] ∧ v = standIn ref := by
  unfold read
  rw [yields_bind]
  constructor
  · intro h
    rcases h with ⟨first, u, second, hnote, hpure, heq⟩
    rw [yields_note.mp hnote] at heq
    rcases yields_pure.mp hpure with ⟨hsecond, hv⟩
    rw [hsecond] at heq
    refine ⟨heq, ?_⟩
    rw [hv]
    cases ref with
    | cell c => rfl
    | range r => rfl
  · intro h
    rcases h with ⟨hnotices, hv⟩
    refine ⟨_, (), [], yields_note.mpr rfl, yields_pure.mpr ⟨rfl, ?_⟩, hnotices⟩
    rw [hv]
    cases ref with
    | cell c => rfl
    | range r => rfl

def readNotices (position : Position) (values : List Value) : List Notice :=
  values.filterMap fun
    | .reference ref => some (.read (placed position ref))
    | _ => none

theorem readValue_notices (position : Position) (v : Value) :
    exists w, (readValue position v).Yields (readNotices position [v]) w := by
  cases v with
  | reference ref => exact ⟨standIn ref, yields_read.mpr ⟨rfl, rfl⟩⟩
  | _ => exact ⟨_, rfl, rfl⟩

theorem yields_readAll {values : List Value} {u : Unit} :
    (readAll position values).Yields notices u <->
      notices = readNotices position values := by
  have all : (readAll position values).Yields
      (readNotices position values) () := by
    induction values with
    | nil => exact ⟨rfl, rfl⟩
    | cons v rest ih =>
        rcases readValue_notices position v with ⟨w, hw⟩
        unfold readAll
        rw [yields_bind]
        refine ⟨_, w, _, hw, ih, ?_⟩
        change List.filterMap _ ([v] ++ rest) = _
        exact List.filterMap_append
  constructor
  · intro h
    rw [← h.left, all.left]
  · intro h
    rw [h]
    exact all

theorem yields_plainCall {args : List Value} :
    (plainCall position args).Yields notices v <->
      notices = readNotices position args ∧ v = .neutral := by
  unfold plainCall
  rw [yields_bind]
  constructor
  · intro h
    rcases h with ⟨first, u, second, hread, hpure, heq⟩
    rcases yields_pure.mp hpure with ⟨hsecond, hv⟩
    rw [yields_readAll.mp hread, hsecond, List.append_nil] at heq
    exact ⟨heq, hv⟩
  · intro h
    refine ⟨_, (), [], yields_readAll.mpr rfl,
      yields_pure.mpr ⟨rfl, h.right⟩, ?_⟩
    rw [h.left, List.append_nil]

theorem yields_readReferences {refs : List Reference} {notices : List Notice}
    {u : Unit} (h : (readReferences position refs).Yields notices u) :
    notices = refs.map fun ref => .read (placed position ref) := by
  induction refs generalizing notices with
  | nil => exact (Traced.yields_pure.mp h).left
  | cons ref rest ih =>
      rcases Traced.yields_bind.mp h with ⟨_, _, _, hread, hrest, heq⟩
      rw [heq, (yields_read.mp hread).left, ih hrest]
      rfl

theorem notices_of_yields_salvage {formula : String} {diagnostics : List Diagnostic}
    (h : (salvage position formula diagnostics).Yields notices v) :
    exists refs, Salvage.references formula
        ((diagnostics.head?.map fun d => d.offset.toNat).getD formula.length) = .ok refs ∧
      notices = refs.map fun ref => .read (placed position ref) := by
  unfold salvage at h
  simp only at h
  split at h
  · exact absurd h Traced.not_yields_fail
  · rename_i refs hrefs
    rcases Traced.yields_bind.mp h with ⟨_, _, _, hread, hpure, heq⟩
    refine ⟨refs, hrefs, ?_⟩
    rw [heq, yields_readReferences hread, (Traced.yields_pure.mp hpure).left]
    exact List.append_nil _

theorem notices_of_yields_finish {w : Value}
    (h : (finish position v).Yields notices w) :
    notices = [] ∨ exists ref, notices = [.read (placed position ref)] ∧
      (v = .reference ref ∨
        exists r, v = .reference (.range r) ∧ ref = .cell r.topLeft) := by
  unfold finish at h
  split at h
  · exact Or.inr ⟨_, (yields_read.mp h).left, Or.inl rfl⟩
  · split at h
    · exact Or.inr ⟨_, (yields_read.mp h).left, Or.inr ⟨_, rfl, rfl⟩⟩
    · exact Or.inl (Traced.yields_pure.mp h).left
  · exact Or.inl (Traced.yields_pure.mp h).left

/-! ## Outcomes -/

def findingsOf (formula : String) (notices : List Notice) : Findings :=
  Findings.absorbAll { diagnostics := (Parse.ofText formula).diagnostics } notices

/-- The outcome that a formula has if diagnostics are no errors. -/
def lenientOutcome (findings : Findings) (v : Value) : Extraction :=
  ⟨findings.cover.entries, findings.missing,
    Diagnostic.inOrder findings.diagnostics, v⟩

theorem extractAt_of_yields (hformula : formula ≠ "")
    (h : (x.follow position formula (Parse.ofText formula)).Yields notices v)
    (strict : Option Bool) :
    (x.extractAt formula position strict).outcome =
      let found := lenientOutcome (findingsOf formula notices) v
      if strict.getD x.strict = true ∧ found.diagnostics ≠ [] then
        .error (.malformed found.diagnostics)
      else .ok found := by
  unfold extractAt report
  rw [if_neg hformula]
  simp only [h.right, h.left, conclude, Bool.and_eq_true, Bool.not_eq_true',
    List.isEmpty_eq_false_iff]
  split
  · rename_i hstrict
    exact (if_pos hstrict).symm
  · rename_i hstrict
    exact (if_neg hstrict).symm

theorem exists_yields_of_report {strict : Option Bool} {found : Extraction}
    {followed : Parse -> Traced Value}
    (h : (x.report formula position strict followed).outcome = .ok found) :
    exists notices v, (followed (Parse.ofText formula)).Yields notices v ∧
      found = lenientOutcome (findingsOf formula notices) v := by
  unfold report at h
  split at h
  · cases h
  · simp only at h
    split at h
    · cases h
    · rename_i v hok
      refine ⟨_, v, ⟨rfl, hok⟩, ?_⟩
      simp only [conclude] at h
      split at h
      · cases h
      · cases h
        rfl

theorem exists_yields_of_extractAt {strict : Option Bool} {found : Extraction}
    (h : (x.extractAt formula position strict).outcome = .ok found) :
    exists notices v,
      (x.follow position formula (Parse.ofText formula)).Yields notices v ∧
      found = lenientOutcome (findingsOf formula notices) v :=
  exists_yields_of_report h

end Extractor
end Precedents
