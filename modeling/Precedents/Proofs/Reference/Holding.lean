import Precedents.Reference.Basic

/-!
# The cells of a reference

A reference is read through the cells that it holds: a cell holds itself, a
range every cell between its corners on its own sheet.  A range that is upside
down holds none.
-/

namespace Precedents

namespace Range

/-- The cell lies between the corners of the range, on its sheet. -/
def Holds (range : Range) (cell : Cell) : Prop :=
  cell.sheet = range.sheet ∧
    (range.firstRow ≤ cell.row ∧ cell.row ≤ range.lastRow) ∧
    (range.firstCol ≤ cell.col ∧ cell.col ≤ range.lastCol)

/-- The first corner is not below or to the right of the last one. -/
def Upright (range : Range) : Prop :=
  range.firstRow ≤ range.lastRow ∧ range.firstCol ≤ range.lastCol

instance (range : Range) (cell : Cell) : Decidable (range.Holds cell) := by
  unfold Holds
  infer_instance

instance (range : Range) : Decidable range.Upright := by
  unfold Upright
  infer_instance

theorem contains_iff (range : Range) (cell : Cell) :
    range.contains cell = true <-> range.Holds cell := by
  simp [contains, Holds, and_assoc]

theorem sheet_eq_and_sameBounds_iff (a b : Range) :
    (a.sheet == b.sheet && a.sameBounds b) = true <-> a = b := by
  cases a
  cases b
  simp [sameBounds, and_assoc, and_comm]

theorem holds_topLeft {range : Range} (h : range.Upright) :
    range.Holds range.topLeft := by
  exact ⟨rfl, ⟨Int.le_refl _, h.left⟩, ⟨Int.le_refl _, h.right⟩⟩

theorem ofCorners_upright (a b : Int × Int) (sheet : Option String) :
    (ofCorners a b sheet).Upright := by
  constructor
  · simp only [ofCorners]
    omega
  · simp only [ofCorners]
    omega

end Range

namespace Reference

def Holds : Reference -> Cell -> Prop
  | .cell c, d => d = c
  | .range r, d => r.Holds d

/-- A cell, or a range that is not upside down. -/
def Upright : Reference -> Prop
  | .cell _ => True
  | .range r => r.Upright

instance : (ref : Reference) -> (d : Cell) -> Decidable (ref.Holds d)
  | .cell c, d => inferInstanceAs (Decidable (d = c))
  | .range r, d => inferInstanceAs (Decidable (r.Holds d))

instance : (ref : Reference) -> Decidable ref.Upright
  | .cell _ => inferInstanceAs (Decidable True)
  | .range r => inferInstanceAs (Decidable r.Upright)

theorem Holds.sheet_eq {ref : Reference} {d : Cell}
    (h : ref.Holds d) : d.sheet = ref.sheet := by
  cases ref with
  | cell c =>
      have hc : d = c := h
      rw [hc]
      rfl
  | range r => exact h.left

theorem upright_withSheet {ref : Reference} (sheet : Option String)
    (h : ref.Upright) : (ref.withSheet sheet).Upright := by
  cases ref with
  | cell c => trivial
  | range r => exact h

theorem withSheet_of_sheet_some {ref : Reference} {name : String}
    (h : ref.sheet = some name) (default : Option String) :
    ref.withSheet default = ref := by
  cases ref with
  | cell c =>
      cases c
      cases h
      rfl
  | range r =>
      cases r
      cases h
      rfl

theorem sheet_withSheet (ref : Reference) (default : Option String) :
    (ref.withSheet default).sheet = ref.sheet.or default := by
  cases ref with
  | cell c => rfl
  | range r => rfl

theorem withSheet_withSheet (ref : Reference) (first second : Option String) :
    (ref.withSheet first).withSheet second = ref.withSheet (first.or second) := by
  cases ref with
  | cell c => simp only [withSheet, Cell.withSheet, Option.or_assoc]
  | range r => simp only [withSheet, Range.withSheet, Option.or_assoc]

theorem exists_sheet_withSheet (ref : Reference) (name : String) :
    exists own, (ref.withSheet (some name)).sheet = some own := by
  rw [sheet_withSheet]
  cases ref.sheet with
  | none => exact ⟨name, rfl⟩
  | some own => exact ⟨own, rfl⟩

end Reference
end Precedents
