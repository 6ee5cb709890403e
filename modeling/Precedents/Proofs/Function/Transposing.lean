import Precedents.Function.Table
import Precedents.Proofs.Function.Arguments

/-!
# Exchanging rows and columns

`TRANSPOSE` exchanges the rows and the columns of its argument.  Nothing in a formula
makes the rows of an array equally long, and those of an uneven array are cut to the
length of the shortest one.  So the exchange is complete just for even arrays, and for
everything that only has a size.
-/

namespace Precedents

/-! ## The items of an array -/

/-- The item in a row and a column, both counted from zero. -/
def entryOf {α : Type} (rows : List (List α)) (i j : Nat) : Option α :=
  (rows[i]?).bind fun row => row[j]?

def EqualRows {α : Type} (rows : List (List α)) : Prop :=
  forall a, a ∈ rows -> forall b, b ∈ rows -> a.length = b.length

namespace Value

def itemAt? (v : Value) (i j : Nat) : Option Value :=
  v.rows?.bind fun rows => entryOf rows i j

def IsEven (v : Value) : Prop :=
  forall rows, v.rows? = some rows -> EqualRows rows

theorem itemAt?_list_rows (rows : List (List Value)) (i j : Nat) :
    (Value.list (rows.map Value.list)).itemAt? i j = entryOf rows i j := by
  rw [itemAt?, rows?_list_rows, Option.bind_some]

theorem isEven_list_rows (rows : List (List Value)) :
    (Value.list (rows.map Value.list)).IsEven <-> EqualRows rows := by
  simp [IsEven, rows?_list_rows]

end Value

namespace Geometry

open Argument

/-! ## Rows and columns of a list of lists -/

section Rows

variable {α β : Type} {rows : List (List α)}

theorem le_foldl_min_iff (rows : List (List α)) (k n : Nat) :
    k ≤ rows.foldl (fun n other => min n other.length) n <->
      k ≤ n ∧ forall row, row ∈ rows -> k ≤ row.length := by
  induction rows generalizing n with
  | nil => simp
  | cons row rest ih =>
      rw [List.foldl_cons, ih, Nat.le_min, List.forall_mem_cons, and_assoc]

theorem le_width_iff (hne : rows ≠ []) (k : Nat) :
    k ≤ width rows <-> forall row, row ∈ rows -> k ≤ row.length := by
  cases rows with
  | nil => exact absurd rfl hne
  | cons row rest =>
      rw [width, le_foldl_min_iff, List.forall_mem_cons]

theorem width_le (hne : rows ≠ []) {row : List α} (hrow : row ∈ rows) :
    width rows ≤ row.length :=
  (le_width_iff hne _).mp (Nat.le_refl _) row hrow

theorem width_pos (hne : rows ≠ []) (hrows : forall row, row ∈ rows -> row ≠ []) :
    0 < width rows := by
  apply (le_width_iff hne 1).mpr
  intro row hrow
  exact List.length_pos_iff.mpr (hrows row hrow)

theorem equalRows_iff (hne : rows ≠ []) :
    EqualRows rows <-> forall row, row ∈ rows -> row.length ≤ width rows := by
  constructor
  · intro h row hrow
    apply (le_width_iff hne _).mpr
    intro other hother
    exact Nat.le_of_eq (h row hrow other hother)
  · intro h a ha b hb
    rw [Nat.le_antisymm (h a ha) (width_le hne ha),
      Nat.le_antisymm (h b hb) (width_le hne hb)]

theorem length_head_of_equalRows (hne : rows ≠ []) (h : EqualRows rows) :
    (rows.head?.map List.length).getD 0 = width rows := by
  rw [equalRows_iff hne] at h
  cases rows with
  | nil => exact absurd rfl hne
  | cons first rest =>
      exact Nat.le_antisymm (h first List.mem_cons_self)
        (width_le hne List.mem_cons_self)

theorem getElem?_filterMap_of_isSome {f : α -> Option β} {as : List α}
    (h : forall a, a ∈ as -> (f a).isSome = true) (i : Nat) :
    (as.filterMap f)[i]? = (as[i]?).bind f := by
  induction as generalizing i with
  | nil => rfl
  | cons a rest ih =>
      rw [List.forall_mem_cons] at h
      rcases Option.isSome_iff_exists.mp h.left with ⟨b, hb⟩
      rw [List.filterMap_cons_some hb]
      cases i with
      | zero => exact hb.symm
      | succ i => exact ih h.right i

theorem isSome_getElem?_of_lt_width {j : Nat} (hj : j < width rows) :
    forall row, row ∈ rows -> (row[j]?).isSome = true := by
  intro row hrow
  have hlength := width_le (List.ne_nil_of_mem hrow) hrow
  rw [List.getElem?_eq_getElem (Nat.lt_of_lt_of_le hj hlength)]
  rfl

theorem getElem?_transposeRows (rows : List (List α)) (j : Nat) :
    (transposeRows rows)[j]? =
      if j < width rows then some (rows.filterMap fun row => row[j]?) else none := by
  rw [transposeRows, List.getElem?_map]
  by_cases hj : j < width rows
  · rw [if_pos hj, List.getElem?_range hj]
    rfl
  · rw [if_neg hj, List.getElem?_eq_none (by simpa using Nat.not_lt.mp hj)]
    rfl

theorem entryOf_transposeRows (rows : List (List α)) (i j : Nat) :
    entryOf (transposeRows rows) j i =
      if j < width rows then entryOf rows i j else none := by
  rw [entryOf, getElem?_transposeRows]
  by_cases hj : j < width rows
  · rw [if_pos hj, if_pos hj]
    exact getElem?_filterMap_of_isSome (isSome_getElem?_of_lt_width hj) i
  · rw [if_neg hj, if_neg hj]
    rfl

theorem length_transposeRows (rows : List (List α)) :
    (transposeRows rows).length = width rows := by
  simp [transposeRows]

theorem length_head_transposeRows (h : 0 < width rows) :
    ((transposeRows rows).head?.map List.length).getD 0 = rows.length := by
  have hall : rows.countP (fun row => (row[0]?).isSome) = rows.length :=
    List.countP_eq_length.mpr (isSome_getElem?_of_lt_width h)
  rw [List.head?_eq_getElem?, getElem?_transposeRows, if_pos h]
  rw [← hall, ← List.length_filterMap_eq_countP]
  rfl

/-- Every item is kept just if no row reaches further than another one. -/
theorem entries_kept_iff (hne : rows ≠ []) :
    (forall i j v, entryOf rows i j = some v ->
      entryOf (transposeRows rows) j i = some v) <-> EqualRows rows := by
  rw [equalRows_iff hne]
  constructor
  · intro h row hrow
    rcases List.mem_iff_getElem?.mp hrow with ⟨i, hi⟩
    apply Nat.le_of_not_lt
    intro hlong
    have hitem : entryOf rows i (width rows) = some row[width rows] := by
      rw [entryOf, hi, Option.bind_some, List.getElem?_eq_getElem hlong]
    have hkept := h i (width rows) row[width rows] hitem
    rw [entryOf_transposeRows, if_neg (Nat.lt_irrefl _)] at hkept
    cases hkept
  · intro h i j v hv
    rcases Option.bind_eq_some_iff.mp hv with ⟨row, hrow, hitem⟩
    have hlong := h row (List.mem_of_getElem? hrow)
    rcases List.getElem?_eq_some_iff.mp hitem with ⟨hj, _⟩
    rw [entryOf_transposeRows, if_pos (Nat.lt_of_lt_of_le hj hlong), hv]

end Rows

/-! ## What the functions of shape say -/

section Handlers

variable {x t : Value} {size : Int × Int}

theorem extent_of_shape? (f : ReferenceFunction) (side : Int × Int -> Int)
    (h : shape? x = some size) : extent f side [x] = .ok (some (.int (side size))) := by
  have hcount : requireCount f.name [x] 1 (some 1) = .ok () :=
    requireCount_ok (Nat.le_refl 1) (Nat.le_refl 1)
  unfold extent
  rw [hcount]
  cases x with
  | error e => cases h
  | _ =>
      change Except.ok (some (Value.int ((shape? _).elim 1 side))) = _
      rw [h]
      rfl

theorem rows_of_shape? (position : Position) (h : shape? x = some size) :
    ReferenceFunction.rows.handler position [x] = .value (.int size.1) := by
  change Verdict.ofRuling (extent .rows Prod.fst [x]) = _
  rw [extent_of_shape? .rows Prod.fst h]
  rfl

theorem columns_of_shape? (position : Position) (h : shape? x = some size) :
    ReferenceFunction.columns.handler position [x] = .value (.int size.2) := by
  change Verdict.ofRuling (extent .columns Prod.snd [x]) = _
  rw [extent_of_shape? .columns Prod.snd h]
  rfl

theorem transpose_handler (position : Position) (x : Value) :
    ReferenceFunction.transpose.handler position [x] = .value (transposed x) := by
  have hcount : requireCount ReferenceFunction.transpose.name [x] 1 (some 1) = .ok () :=
    requireCount_ok (Nat.le_refl 1) (Nat.le_refl 1)
  change Verdict.ofRuling (transpose [x]) = _
  unfold transpose
  rw [hcount]
  rfl

theorem transposed_list_rows (rows : List (List Value)) :
    transposed (.list (rows.map Value.list)) =
      .list ((transposeRows rows).map Value.list) := by
  have hrows := Value.rows?_list_rows rows
  simp only [transposed, hrows]

/-! ## The exchange -/

/-- A reference, a block, or an array whose rows are not empty. -/
inductive HasRows : Value -> Prop where
  | reference (r : Reference) : HasRows (.reference r)
  | block (rows cols : Int) : HasRows (.block rows cols)
  | array {rows : List (List Value)} (hne : rows ≠ [])
      (hrows : forall row, row ∈ rows -> row ≠ []) :
      HasRows (.list (rows.map Value.list))

/-- One value has the rows of the other one as its columns, and the other way round. -/
structure Exchanges (position : Position) (x t : Value) : Prop where
  rows_eq : ReferenceFunction.rows.handler position [t] =
    ReferenceFunction.columns.handler position [x]
  columns_eq : ReferenceFunction.columns.handler position [t] =
    ReferenceFunction.rows.handler position [x]
  entry_eq : forall i j v, x.itemAt? i j = some v -> t.itemAt? j i = some v

theorem exchanges_of_sides (position : Position) (hx : x.rows? = none)
    (hsize : shape? x = some size) (ht : shape? t = some (size.2, size.1)) :
    Exchanges position x t := by
  constructor
  · rw [rows_of_shape? position ht, columns_of_shape? position hsize]
  · rw [columns_of_shape? position ht, rows_of_shape? position hsize]
  · intro i j v hv
    rw [Value.itemAt?, hx] at hv
    cases hv

variable {rows : List (List Value)}

theorem columns_of_array (position : Position) (hpos : 0 < width rows) :
    ReferenceFunction.columns.handler position
        [.list ((transposeRows rows).map Value.list)] =
      ReferenceFunction.rows.handler position [.list (rows.map Value.list)] := by
  rw [columns_of_shape? position (shape?_list_rows _),
    rows_of_shape? position (shape?_list_rows _), length_head_transposeRows hpos]

theorem exchanges_array_iff (position : Position) (hne : rows ≠ [])
    (hrows : forall row, row ∈ rows -> row ≠ []) :
    Exchanges position (.list (rows.map Value.list))
        (.list ((transposeRows rows).map Value.list)) <-> EqualRows rows := by
  rw [← entries_kept_iff hne]
  constructor
  · intro h i j v hv
    have hentry := h.entry_eq i j v
    rw [Value.itemAt?_list_rows, Value.itemAt?_list_rows] at hentry
    exact hentry hv
  · intro h
    constructor
    · rw [rows_of_shape? position (shape?_list_rows _),
        columns_of_shape? position (shape?_list_rows _), length_transposeRows,
        length_head_of_equalRows hne ((entries_kept_iff hne).mp h)]
    · exact columns_of_array position (width_pos hne hrows)
    · intro i j v
      rw [Value.itemAt?_list_rows, Value.itemAt?_list_rows]
      exact h i j v

/--
`TRANSPOSE` always has the rows of its argument as its columns, and invents no item.
It has the columns as its rows and keeps every item just if its argument is no array
with rows of different lengths.
-/
theorem transpose_exchanges_iff (hx : HasRows x) (position : Position) :
    exists t, ReferenceFunction.transpose.handler position [x] = .value t ∧
      ReferenceFunction.columns.handler position [t] =
        ReferenceFunction.rows.handler position [x] ∧
      (forall i j v, t.itemAt? j i = some v -> x.itemAt? i j = some v) ∧
      (Exchanges position x t <-> x.IsEven) := by
  refine ⟨transposed x, transpose_handler position x, ?_⟩
  cases hx with
  | reference r =>
      have h : Exchanges position (.reference r) (.block r.shape.2 r.shape.1) :=
        exchanges_of_sides position rfl rfl rfl
      refine ⟨h.columns_eq, ?_, iff_of_true h ?_⟩
      · intro i j v hv
        cases hv
      · intro rows hrows
        cases hrows
  | block rows cols =>
      have h : Exchanges position (.block rows cols) (.block cols rows) :=
        exchanges_of_sides position rfl rfl rfl
      refine ⟨h.columns_eq, ?_, iff_of_true h ?_⟩
      · intro i j v hv
        cases hv
      · intro rows hrows
        cases hrows
  | array hne hrows =>
      rw [transposed_list_rows, Value.isEven_list_rows]
      refine ⟨columns_of_array position (width_pos hne hrows), ?_,
        exchanges_array_iff position hne hrows⟩
      intro i j v hv
      rw [Value.itemAt?_list_rows, entryOf_transposeRows] at hv
      split at hv
      · rwa [Value.itemAt?_list_rows]
      · cases hv

end Handlers

def uneven : Value :=
  .list [.list [.int 1, .int 2], .list [.int 3]]

theorem uneven_not_exchanged :
    HasRows uneven ∧
      exists t, ReferenceFunction.transpose.handler (.mk 1 1 "S") [uneven] = .value t ∧
        ¬ Exchanges (.mk 1 1 "S") uneven t := by
  have hx : HasRows uneven := @HasRows.array [[.int 1, .int 2], [.int 3]] (by simp) (by simp)
  refine ⟨hx, ?_⟩
  rcases transpose_exchanges_iff hx (.mk 1 1 "S") with ⟨t, ht, _, _, hiff⟩
  refine ⟨t, ht, ?_⟩
  intro h
  have heven := hiff.mp h [[.int 1, .int 2], [.int 3]] rfl
  have hlength := heven [.int 1, .int 2] (by simp) [.int 3] (by simp)
  cases hlength

end Geometry
end Precedents
