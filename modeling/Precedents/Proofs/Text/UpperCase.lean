import Precedents.Text.Upper

/-!
# Letters in upper case

A character stays as it is in upper case, or it moves with its run, or it becomes the
characters that it expands to.  None of them goes missing, and no plain letter of
lower case comes out.
-/

namespace Precedents
namespace Text

def IsLower (n : Nat) : Prop :=
  97 ≤ n ∧ n ≤ 122

theorem isLower_toNat_iff {c : Char} :
    ('a' ≤ c && c ≤ 'z') = true <-> IsLower c.toNat := by
  simp only [Bool.and_eq_true, decide_eq_true_eq, Char.le_def, UInt32.le_iff_toNat_le]
  rfl

/-- All that the upper case of a character can be. -/
theorem upperChar_cases (c : Char) :
    (IsLower c.toNat ∧ upperChar c = [Char.ofNat (c.toNat - 32)]) ∨
      (¬ IsLower c.toNat ∧ upperChar c = [c]) ∨
      (exists codes, (c.toNat, codes) ∈ upperExpansions ∧
        upperChar c = codes.map Char.ofNat) ∨
      exists run, run ∈ upperRuns ∧ run.moves c = true ∧
        upperChar c = [Char.ofNat ((c.toNat : Int) + run.distance).toNat] := by
  unfold upperChar
  split
  · split
    · rename_i hletter
      exact Or.inl ⟨isLower_toNat_iff.mp hletter, rfl⟩
    · rename_i hletter
      exact Or.inr (Or.inl ⟨mt isLower_toNat_iff.mpr hletter, rfl⟩)
  · rename_i hplain
    split
    · rename_i codes hcodes
      rcases List.lookup_eq_some_iff.mp hcodes with ⟨front, back, heq, _⟩
      refine Or.inr (Or.inr (Or.inl ⟨codes, ?_, rfl⟩))
      rw [heq]
      exact List.mem_append_right _ List.mem_cons_self
    · split
      · rename_i run hrun
        exact Or.inr (Or.inr (Or.inr
          ⟨run, List.mem_of_find?_eq_some hrun, List.find?_some hrun, rfl⟩))
      · have hlower : ¬ IsLower c.toNat :=
          fun hlower => hplain (Nat.lt_of_le_of_lt hlower.right (by decide))
        exact Or.inr (Or.inl ⟨hlower, rfl⟩)

/-! ## Nothing goes missing -/

theorem ne_nil_of_mem_expansions :
    forall entry, entry ∈ upperExpansions -> entry.2 ≠ [] := by
  decide

theorem upperChar_ne_nil (c : Char) : upperChar c ≠ [] := by
  rcases upperChar_cases c with ⟨_, hc⟩ | ⟨_, hc⟩ | ⟨codes, hcodes, hc⟩ | ⟨run, _, _, hc⟩
  · rw [hc]
    exact List.cons_ne_nil _ _
  · rw [hc]
    exact List.cons_ne_nil _ _
  · have hne := ne_nil_of_mem_expansions _ hcodes
    rw [hc]
    simpa using hne
  · rw [hc]
    exact List.cons_ne_nil _ _

theorem upper_eq_empty_iff (s : String) : upper s = "" <-> s = "" := by
  rw [upper, String.ofList_eq_empty_iff, List.flatMap_eq_nil_iff]
  constructor
  · intro h
    rw [← String.toList_eq_nil_iff, List.eq_nil_iff_forall_not_mem]
    intro c hc
    exact upperChar_ne_nil c (h c hc)
  · intro h
    rw [h]
    simp

/-! ## Nothing stays in lower case -/

theorem not_isLower_of_mem_expansions :
    forall entry, entry ∈ upperExpansions -> forall code, code ∈ entry.2 ->
      ¬ IsLower code := by
  unfold IsLower
  decide +kernel

theorem leaves_lower_of_mem_runs :
    forall run, run ∈ upperRuns ->
      run.last + run.distance < 97 ∨ 122 < run.first + run.distance := by
  decide +kernel

theorem not_isLower_ofNat {n : Nat} (h : ¬ IsLower n) : ¬ IsLower (Char.ofNat n).toNat := by
  by_cases hvalid : n.isValidChar
  · rw [Char.ofNat, dif_pos hvalid]
    exact h
  · rw [Char.ofNat, dif_neg hvalid]
    exact fun hlower => absurd hlower.left (by decide)

theorem not_isLower_of_mem_upperChar {c d : Char} (h : d ∈ upperChar c) :
    ¬ IsLower d.toNat := by
  rcases upperChar_cases c with ⟨hlower, hc⟩ | ⟨hlower, hc⟩ | ⟨codes, hcodes, hc⟩ |
    ⟨run, hrun, hmoves, hc⟩
  · rw [hc, List.mem_singleton] at h
    rw [h]
    apply not_isLower_ofNat
    unfold IsLower at hlower ⊢
    omega
  · rw [hc, List.mem_singleton] at h
    rwa [h]
  · rw [hc] at h
    rcases List.mem_map.mp h with ⟨code, hcode, hd⟩
    rw [← hd]
    exact not_isLower_ofNat (not_isLower_of_mem_expansions _ hcodes code hcode)
  · have hleaves := leaves_lower_of_mem_runs run hrun
    simp only [CaseRun.moves, Bool.and_eq_true, decide_eq_true_eq] at hmoves
    rw [hc, List.mem_singleton] at h
    rw [h]
    apply not_isLower_ofNat
    unfold IsLower
    omega

end Text
end Precedents
