import Precedents.Function.Table
import Precedents.Proofs.Reference.Holding
import Precedents.Proofs.Value.FormulaValue

/-!
# What the rules of reference functions give

Every rule turns arguments into a value that a part of a formula may have.  Only
`INDEX` gives a reference, and that lies within a reference among its arguments.
-/

namespace Precedents

theorem except_bind_eq_ok {ε α β : Type} {x : Except ε α}
    {next : α -> Except ε β} {b : β} :
    (x >>= next) = .ok b <-> exists a, x = .ok a ∧ next a = .ok b := by
  cases x with
  | error e => simp [bind, Except.bind]
  | ok a => simp [bind, Except.bind]

theorem except_map_eq_ok {ε α β : Type} {x : Except ε α} {f : α -> β} {b : β} :
    x.map f = .ok b <-> exists a, x = .ok a ∧ f a = b := by
  cases x with
  | error e => simp [Except.map]
  | ok a => simp [Except.map]

theorem except_mapError_eq_ok {ε δ α : Type} {x : Except ε α} {f : ε -> δ}
    {a : α} : x.mapError f = .ok a <-> x = .ok a := by
  cases x with
  | error e =>
      constructor
      · intro h
        cases h
      · intro h
        cases h
  | ok b =>
      constructor
      · intro h
        cases h
        rfl
      · intro h
        cases h
        rfl

namespace Reference

structure Within (part whole : Reference) : Prop where
  sheet_eq : part.sheet = whole.sheet
  upright : part.Upright
  holds : forall d, part.Holds d -> whole.Holds d

theorem Within.refl {ref : Reference} (h : ref.Upright) : ref.Within ref :=
  ⟨rfl, h, fun _ hd => hd⟩

end Reference

namespace Selection

theorem span_bounds {first last : Int} (hle : first ≤ last) {n : Nat}
    (hn : (n : Int) ≤ last - first + 1) :
    first ≤ (span first last n).1 ∧
      (span first last n).1 ≤ (span first last n).2 ∧
      (span first last n).2 ≤ last := by
  unfold span
  by_cases hzero : n = 0
  · rw [if_pos hzero]
    exact ⟨Int.le_refl _, hle, Int.le_refl _⟩
  · rw [if_neg hzero]
    have hpos : 0 < n := Nat.pos_of_ne_zero hzero
    refine ⟨?_, Int.le_refl _, ?_⟩
    · change first ≤ first + n - 1
      omega
    · change first + n - 1 ≤ last
      omega

theorem part_within {range : Range} (hup : range.Upright) {row col : Nat}
    {ref : Reference} (h : part range row col = .ok ref) :
    ref.Within (.range range) := by
  unfold part at h
  split at h
  · cases h
  · rename_i hbounds
    simp only [Bool.not_eq_true, Bool.or_eq_false_iff,
      decide_eq_false_iff_not, Int.not_lt] at hbounds
    have hrows := span_bounds hup.left hbounds.left
    have hcols := span_bounds hup.right hbounds.right
    revert h
    generalize span range.firstRow range.lastRow row = rows at hrows ⊢
    generalize span range.firstCol range.lastCol col = cols at hcols ⊢
    intro h
    simp only at h
    split at h
    · cases h
      refine ⟨rfl, trivial, ?_⟩
      intro d hd
      have hd : d = ⟨rows.1, cols.1, range.sheet⟩ := hd
      rw [hd]
      exact ⟨rfl, ⟨hrows.left, by simp only; omega⟩,
        ⟨hcols.left, by simp only; omega⟩⟩
    · cases h
      refine ⟨rfl, Range.ofCorners_upright _ _ _, ?_⟩
      intro d hd
      rcases hd with ⟨hsheet, hrow, hcol⟩
      simp only [Range.ofCorners] at hsheet hrow hcol
      exact ⟨hsheet, ⟨by omega, by omega⟩, ⟨by omega, by omega⟩⟩

theorem rangePart_within {range : Range} (hup : range.Upright)
    {count row col : Nat} {ref : Reference}
    (h : rangePart range count row col = .ok ref) :
    ref.Within (.range range) := by
  unfold rangePart at h
  split at h
  · exact part_within hup h
  · exact part_within hup h

theorem isItem_of_item? {rows : List (List Value)}
    (hrows : forall row, row ∈ rows -> forall v, v ∈ row -> v.isItem = true)
    {row col : Nat} {v : Value} (h : item? rows row col = some v) :
    v.isItem = true := by
  unfold item? at h
  split at h
  · cases h
  · rcases Option.bind_eq_some_iff.mp h with ⟨cells, hcells, hv⟩
    exact hrows cells (List.mem_of_getElem? hcells) v (List.mem_of_getElem? hv)

theorem indexed_cases {args : List Value} {v : Value}
    (h : indexed args = .ok (some v)) :
    (v = args.headD .missing ∧ exists c, v = .reference (.cell c)) ∨
      (exists range ref count row col,
        args.headD .missing = .reference (.range range) ∧
          v = .reference ref ∧ rangePart range count row col = .ok ref) ∨
      exists rows row col,
        (args.headD .missing).rows? = some rows ∧
          item? rows row col = some v := by
  simp only [indexed, except_bind_eq_ok] at h
  rcases h with ⟨_, _, row, _, col, _, h⟩
  split at h
  · rename_i c hhead
    split at h
    · cases h
    · cases h
      exact Or.inl ⟨rfl, c, hhead⟩
  · rename_i range hhead
    rcases except_bind_eq_ok.mp h with ⟨ref, href, h⟩
    cases h
    exact Or.inr (Or.inl ⟨range, ref, _, _, _, hhead, rfl, href⟩)
  · have h : (args.headD .missing).rows?.bind
        (fun rows => item? rows row col) = some v := by
      injection h
    rcases Option.bind_eq_some_iff.mp h with ⟨rows, hrows, hitem⟩
    exact Or.inr (Or.inr ⟨rows, row, col, hrows, hitem⟩)

end Selection

/-!
## Values drawn from arguments
-/

namespace Value

/-- A value of a formula; a reference lies within one of the arguments. -/
structure DrawnFrom (args : List Value) (v : Value) : Prop where
  isFormulaValue : v.isFormulaValue = true
  within : forall part, v = .reference part ->
    exists whole, Value.reference whole ∈ args ∧
      (whole.Upright -> part.Within whole)

theorem drawnFrom_of_isItem {args : List Value} {v : Value}
    (h : v.isItem = true) : v.DrawnFrom args := by
  constructor
  · exact isFormulaValue_of_isItem h
  · intro part hpart
    rw [hpart] at h
    cases h

theorem headD_isArgument {args : List Value}
    (hargs : forall v, v ∈ args -> v.isArgument = true) :
    (args.headD .missing).isArgument = true := by
  cases args with
  | nil => rfl
  | cons v rest => exact hargs v (List.mem_cons_self ..)

theorem mem_of_headD_eq_reference {args : List Value} {ref : Reference}
    (h : args.headD .missing = .reference ref) : .reference ref ∈ args := by
  cases args with
  | nil => cases h
  | cons v rest =>
      change v = .reference ref at h
      rw [h]
      exact List.mem_cons_self ..

theorem isItem_of_argument_rows? {v : Value} (h : v.isArgument = true)
    {rows : List (List Value)} (hrows : v.rows? = some rows) :
    forall row, row ∈ rows -> forall item, item ∈ row ->
      item.isItem = true := by
  cases v with
  | missing => cases hrows
  | list items => exact isItem_of_rows? (v := .list items) h hrows
  | _ => cases hrows

end Value

namespace Selection

theorem indexed_drawnFrom {args : List Value}
    (hargs : forall v, v ∈ args -> v.isArgument = true) {v : Value}
    (h : indexed args = .ok (some v)) : v.DrawnFrom args := by
  rcases indexed_cases h with hcell | hpart | hitem
  · rcases hcell with ⟨heq, c, hc⟩
    constructor
    · rw [hc]
      rfl
    · intro part hpart
      refine ⟨part, ?_, Reference.Within.refl⟩
      apply Value.mem_of_headD_eq_reference
      rw [← heq, hpart]
  · rcases hpart with ⟨range, ref, count, row, col, hhead, heq, hpart⟩
    constructor
    · rw [heq]
      rfl
    · intro part hv
      rw [heq] at hv
      injection hv with hv
      refine ⟨.range range, Value.mem_of_headD_eq_reference hhead, ?_⟩
      intro hup
      rw [← hv]
      exact rangePart_within hup hpart
  · rcases hitem with ⟨rows, row, col, hrows, hitem⟩
    apply Value.drawnFrom_of_isItem
    exact isItem_of_item?
      (Value.isItem_of_argument_rows? (Value.headD_isArgument hargs) hrows)
      hitem

theorem choose_ne_some (args : List Value) (v : Value) :
    choose args ≠ .ok (some v) := by
  intro h
  simp only [choose, except_bind_eq_ok] at h
  rcases h with ⟨_, _, n, _, h⟩
  split at h
  · cases h
  · cases h

end Selection

namespace Geometry

theorem mem_transposeRows {rows : List (List Value)} {row : List Value}
    (hrow : row ∈ transposeRows rows) {item : Value} (hitem : item ∈ row) :
    exists other, other ∈ rows ∧ item ∈ other := by
  rcases List.mem_map.mp hrow with ⟨j, _, heq⟩
  rw [← heq] at hitem
  rcases List.mem_filterMap.mp hitem with ⟨other, hother, hget⟩
  exact ⟨other, hother, List.mem_of_getElem? hget⟩

theorem transposed_isFormulaValue {v : Value} (h : v.isArgument = true) :
    (transposed v).isFormulaValue = true := by
  cases v with
  | list values =>
      rcases Value.mapM_rows h with ⟨items, _, hrows, hitems⟩
      simp only [transposed, hrows]
      apply Value.isFormulaValue_list_rows
      intro row hrow item hitem
      rcases mem_transposeRows hrow hitem with ⟨other, hother, hmem⟩
      exact hitems other hother item hmem
  | bare r => cases h
  | record entries => cases h
  | _ => rfl

theorem transposed_ne_reference {v : Value} (h : v.isArgument = true)
    (r : Reference) : transposed v ≠ .reference r := by
  cases v with
  | list values =>
      rcases Value.mapM_rows h with ⟨items, _, hrows, _⟩
      simp [transposed, hrows]
  | bare r => cases h
  | record entries => cases h
  | _ => simp [transposed, Value.neutral, Value.rows?]

theorem transpose_drawnFrom {args : List Value}
    (hargs : forall v, v ∈ args -> v.isArgument = true) {v : Value}
    (h : transpose args = .ok (some v)) : v.DrawnFrom args := by
  simp only [transpose, except_bind_eq_ok] at h
  rcases h with ⟨_, _, h⟩
  cases args with
  | nil => cases h
  | cons arg rest =>
      cases h
      have harg : arg.isArgument = true := hargs arg (List.mem_cons_self ..)
      constructor
      · exact transposed_isFormulaValue harg
      · intro part hpart
        exact absurd hpart (transposed_ne_reference harg part)

theorem place_isItem {function : ReferenceFunction} {own : Int}
    {ofCell : Cell -> Int} {ofRange : Range -> Int} {args : List Value}
    {v : Value} (h : place function own ofCell ofRange args = .ok (some v)) :
    v.isItem = true := by
  simp only [place, except_bind_eq_ok] at h
  rcases h with ⟨_, _, h⟩
  split at h
  all_goals cases h
  all_goals rfl

theorem extent_isItem {function : ReferenceFunction} {side : Int × Int -> Int}
    {args : List Value} {v : Value}
    (h : extent function side args = .ok (some v)) : v.isItem = true := by
  simp only [extent, except_bind_eq_ok] at h
  rcases h with ⟨_, _, h⟩
  split at h
  all_goals cases h
  all_goals rfl

theorem areas_isItem {args : List Value} {v : Value}
    (h : areas args = .ok (some v)) : v.isItem = true := by
  simp only [areas, except_bind_eq_ok] at h
  rcases h with ⟨_, _, h⟩
  split at h
  all_goals cases h
  all_goals rfl

end Geometry

namespace Logical

theorem counted_ne_some (function : ReferenceFunction) (low : Nat)
    (high : Option Nat) (args : List Value) (v : Value) :
    counted function low high args ≠ .ok (some v) := by
  intro h
  simp only [counted, except_bind_eq_ok] at h
  rcases h with ⟨_, _, h⟩
  cases h

theorem pairs_ne_some (args : List Value) (v : Value) :
    pairs args ≠ .ok (some v) := by
  intro h
  unfold pairs at h
  split at h
  · cases h
  · cases h

theorem constant_isItem {function : ReferenceFunction} {b : Bool}
    {args : List Value} {v : Value}
    (h : constant function b args = .ok (some v)) : v.isItem = true := by
  simp only [constant, except_bind_eq_ok] at h
  rcases h with ⟨_, _, h⟩
  cases h
  rfl

end Logical

namespace Lookup

theorem table_ne_some (function : ReferenceFunction)
    (side : Int × Int -> Int) (args : List Value) (v : Value) :
    table function side args ≠ .ok (some v) := by
  intro h
  simp only [table, except_bind_eq_ok] at h
  rcases h with ⟨_, _, n, _, h⟩
  split at h
  · split at h
    · cases h
    · cases h
  · cases h

end Lookup

namespace AddressText

theorem ruling_isItem {args : List Value} {v : Value}
    (h : AddressText.ruling args = .ok (some v)) : v.isItem = true := by
  simp only [AddressText.ruling, except_bind_eq_ok] at h
  rcases h with ⟨_, _, row, _, col, _, number, _, h⟩
  split at h
  · cases h
  · split at h
    · cases h
    · cases h
      rfl

end AddressText

namespace ReferenceFunction

/-- Whatever a rule gives is drawn from the arguments of the call. -/
theorem ruling_drawnFrom (f : ReferenceFunction) (position : Position)
    {args : List Value}
    (hargs : forall v, v ∈ args -> v.isArgument = Bool.true)
    {v : Value} (h : f.ruling position args = .ok (some v)) :
    v.DrawnFrom args := by
  cases f with
  | index => exact Selection.indexed_drawnFrom hargs h
  | transpose => exact Geometry.transpose_drawnFrom hargs h
  | row | column =>
      exact Value.drawnFrom_of_isItem (Geometry.place_isItem h)
  | rows | columns =>
      exact Value.drawnFrom_of_isItem (Geometry.extent_isItem h)
  | areas => exact Value.drawnFrom_of_isItem (Geometry.areas_isItem h)
  | true | false =>
      exact Value.drawnFrom_of_isItem (Logical.constant_isItem h)
  | address => exact Value.drawnFrom_of_isItem (AddressText.ruling_isItem h)
  | ifs => exact absurd h (Logical.pairs_ne_some args v)
  | choose => exact absurd h (Selection.choose_ne_some args v)
  | vlookup | hlookup => exact absurd h (Lookup.table_ne_some _ _ args v)
  | _ => exact absurd h (Logical.counted_ne_some _ _ _ args v)

end ReferenceFunction
end Precedents
