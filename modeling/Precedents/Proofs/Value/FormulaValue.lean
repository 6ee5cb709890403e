import Precedents.Value

/-!
# The values of formulas

A part of a formula has a reference, a block, an item or an array of items as
its value.  An argument of a call may also be missing.
-/

namespace Precedents
namespace Value

def isItem : Value -> Bool
  | .int _ | .float _ | .bool _ | .text _ | .error _ => true
  | _ => false

def isRow : Value -> Bool
  | .list items => items.all isItem
  | _ => false

def isFormulaValue : Value -> Bool
  | .reference _ | .block _ _ => true
  | .list rows => rows.all isRow
  | v => v.isItem

def isArgument : Value -> Bool
  | .missing => true
  | v => v.isFormulaValue

theorem isFormulaValue_of_isItem {v : Value} (h : v.isItem = true) :
    v.isFormulaValue = true := by
  cases v <;> first | rfl | cases h

theorem isArgument_of_isFormulaValue {v : Value}
    (h : v.isFormulaValue = true) : v.isArgument = true := by
  cases v <;> first | rfl | exact h

theorem isResult_of_isFormulaValue {v : Value}
    (h : v.isFormulaValue = true) : v.isResult = true := by
  cases v with
  | missing => cases h
  | record entries => cases h
  | list rows =>
      simp only [isFormulaValue, isResult, List.all_eq_true] at h ⊢
      intro row hrow
      have hitems := h row hrow
      cases row with
      | list items => rfl
      | _ => cases hitems
  | _ => rfl

theorem mapM_rows {rows : List Value}
    (h : rows.all isRow = true) :
    exists items : List (List Value),
      rows = items.map Value.list ∧
        (Value.list rows).rows? = some items ∧
        forall row, row ∈ items -> forall v, v ∈ row -> v.isItem = true := by
  induction rows with
  | nil => exact ⟨[], rfl, rfl, by simp⟩
  | cons row rest ih =>
      rw [List.all_cons, Bool.and_eq_true] at h
      rcases ih h.right with ⟨items, hrest, hrows, hitems⟩
      cases row with
      | list cells =>
          refine ⟨cells :: items, by rw [hrest, List.map_cons], ?_, ?_⟩
          · simp only [rows?, List.mapM_cons] at hrows ⊢
            rw [hrows]
            rfl
          · intro other hother v hv
            rcases List.mem_cons.mp hother with hother | hother
            · rw [hother] at hv
              exact List.all_eq_true.mp h.left v hv
            · exact hitems other hother v hv
      | _ => cases h.left

theorem rows?_list_rows (rows : List (List Value)) :
    (Value.list (rows.map Value.list)).rows? = some rows := by
  induction rows with
  | nil => rfl
  | cons row rest ih =>
      simp only [rows?] at ih
      simp [rows?, List.mapM_cons, ih]

theorem isItem_of_rows? {v : Value} (h : v.isFormulaValue = true)
    {rows : List (List Value)} (hrows : v.rows? = some rows) :
    forall row, row ∈ rows -> forall item, item ∈ row ->
      item.isItem = true := by
  cases v with
  | list values =>
      rcases mapM_rows h with ⟨items, _, hitems, hall⟩
      rw [hitems] at hrows
      cases hrows
      exact hall
  | _ => cases hrows

theorem isFormulaValue_list_rows {rows : List (List Value)}
    (h : forall row, row ∈ rows -> forall v, v ∈ row -> v.isItem = true) :
    (Value.list (rows.map Value.list)).isFormulaValue = true := by
  simp only [isFormulaValue, List.all_eq_true, List.mem_map]
  intro v hv
  rcases hv with ⟨row, hrow, heq⟩
  rw [← heq]
  exact List.all_eq_true.mpr (h row hrow)

end Value
end Precedents
