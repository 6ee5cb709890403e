import Precedents.Function.Table
import Precedents.Proofs.Function.Arguments
import Precedents.Proofs.Reference.Holding
import Precedents.Proofs.Number.WholeDecimal

/-!
# The index of a lookup

`VLOOKUP` counts the columns of its table and `HLOOKUP` its rows.  An index that is
written as a number or as the text of one is refused where it is negative or lies
beyond the edge.  Zero also stands for an index that is not known, so it is let
through.
-/

namespace Precedents

namespace Argument

variable {v : Value} {n : Int}

/-- The argument is a whole number, as it is or as a text of at most fifteen digits. -/
inductive IsWritten : Value -> Int -> Prop where
  | int (n : Int) : IsWritten (.int n) n
  | text {s : String} {n : Int} (h : Numeral.Writes s n) : IsWritten (.text s) n

theorem index_of_isWritten (function : String) (h : IsWritten v n) :
    index function v = knownIndex function n := by
  cases h with
  | int n => rfl
  | @text s n h =>
      rcases Decimal.read?_of_writes h with ⟨x, hread, hx⟩
      simp only [index, hread, decimalIndex, hx.isFinite, if_true, hx.truncate_eq]

end Argument

namespace Lookup

open Argument

variable {f : ReferenceFunction} {side : Int × Int -> Int} {table : Value}
variable {size : Int × Int} {v : Value} {n : Int}

inductive IsTable : Value -> Int × Int -> Prop where
  | cell (c : Cell) : IsTable (.reference (.cell c)) (1, 1)
  | range {range : Range} (hup : range.Upright) :
      IsTable (.reference (.range range)) (range.rows, range.cols)
  | block {rows cols : Int} (hrows : 0 < rows) (hcols : 0 < cols) :
      IsTable (.block rows cols) (rows, cols)
  | array (first : List Value) (rest : List (List Value)) :
      IsTable (.list ((first :: rest).map Value.list))
        ((first :: rest).length, first.length)

theorem IsTable.shape?_eq (h : IsTable table size) : shape? table = some size := by
  cases h with
  | cell c => rfl
  | range hup => rfl
  | block hrows hcols => rfl
  | array first rest => exact shape?_list_rows (first :: rest)

theorem IsTable.nonneg (h : IsTable table size) : 0 ≤ size.1 ∧ 0 ≤ size.2 := by
  cases h with
  | cell c => decide
  | @range range hup =>
      have hrows := hup.left
      have hcols := hup.right
      simp only [Range.rows, Range.cols]
      omega
  | block hrows hcols => exact ⟨Int.le_of_lt hrows, Int.le_of_lt hcols⟩
  | array first rest => exact ⟨Int.natCast_nonneg _, Int.natCast_nonneg _⟩

/-- The side of the table that the index of a function counts. -/
inductive Counts : ReferenceFunction -> (Int × Int -> Int) -> Prop where
  | columns : Counts .vlookup Prod.snd
  | rows : Counts .hlookup Prod.fst

theorem Counts.ruling_eq (h : Counts f side) (position : Position) (args : List Value) :
    f.ruling position args = Lookup.table f side args := by
  cases h with
  | columns => rfl
  | rows => rfl

theorem Counts.nonneg (h : Counts f side) (htable : IsTable table size) :
    0 ≤ side size := by
  cases h with
  | columns => exact htable.nonneg.right
  | rows => exact htable.nonneg.left

def edged (f : ReferenceFunction) (edge : Int) (n : Nat) : Ruling :=
  if n ≠ 0 && edge < n then
    .error ⟨.ref, f.name ++ ": index " ++ toString n ++ " beyond table edge "
      ++ toString edge⟩
  else return none

theorem table_eq (f : ReferenceFunction) (side : Int × Int -> Int) (sought : Value)
    (htable : IsTable table size) (v : Value) {rest : List Value}
    (hrest : rest.length ≤ 1) :
    Lookup.table f side (sought :: table :: v :: rest) =
      index f.name v >>= edged f (side size) := by
  have hcount : requireCount f.name (sought :: table :: v :: rest) 3 (some 4) = .ok () := by
    apply requireCount_ok
    · exact Nat.le_add_left 3 rest.length
    · exact Nat.add_le_add_right hrest 3
  have hshape : shape? ((sought :: table :: v :: rest).getD 1 .missing) = some size :=
    htable.shape?_eq
  unfold Lookup.table
  simp only [hcount, hshape]
  rfl

theorem edged_of_inside {edge : Int} {n : Nat} (h : (n : Int) ≤ edge) :
    edged f edge n = .ok none := by
  unfold edged
  rw [if_neg]
  · rfl
  · simp only [Bool.and_eq_true, decide_eq_true_eq]
    omega

theorem edged_of_outside {edge : Int} (hedge : 0 ≤ edge) {n : Nat} (h : edge < n) :
    edged f edge n = .error ⟨.ref, f.name ++ ": index " ++ toString n
      ++ " beyond table edge " ++ toString edge⟩ := by
  unfold edged
  rw [if_pos]
  simp only [ne_eq, decide_not, Bool.and_eq_true, Bool.not_eq_true', decide_eq_false_iff_not,
    decide_eq_true_eq]
  omega

theorem handler_cases (hf : Counts f side) (htable : IsTable table size)
    (hv : IsWritten v n) (position : Position) (sought : Value) {rest : List Value}
    (hrest : rest.length ≤ 1) :
    (n < 0 ∧ exists detail, f.handler position (sought :: table :: v :: rest) =
        .refused ⟨.value, detail⟩) ∨
      (side size < n ∧ exists detail, f.handler position (sought :: table :: v :: rest) =
        .refused ⟨.ref, detail⟩) ∨
      ((0 ≤ n ∧ n ≤ side size) ∧
        f.handler position (sought :: table :: v :: rest) = .unknown) := by
  have hedge := hf.nonneg htable
  have hruling : f.ruling position (sought :: table :: v :: rest) =
      knownIndex f.name n >>= edged f (side size) := by
    rw [hf.ruling_eq, table_eq f side sought htable v hrest,
      index_of_isWritten f.name hv]
  unfold ReferenceFunction.handler
  rw [hruling]
  by_cases hneg : n < 0
  · rw [knownIndex_of_neg f.name hneg]
    exact Or.inl ⟨hneg, _, rfl⟩
  · have hn := Int.not_lt.mp hneg
    have hbind : knownIndex f.name n >>= edged f (side size) =
        edged f (side size) n.toNat := by
      rw [knownIndex_of_nonneg f.name hn]
      rfl
    rw [hbind]
    by_cases hout : side size < n
    · rw [edged_of_outside hedge (by omega)]
      exact Or.inr (Or.inl ⟨hout, _, rfl⟩)
    · have hin := Int.not_lt.mp hout
      rw [edged_of_inside (by omega)]
      exact Or.inr (Or.inr ⟨⟨hn, hin⟩, rfl⟩)

/--
A lookup refuses just the indices below zero with `#VALUE!` and those beyond the
edge of its table with `#REF!`; what it finds at any other index is not known.
-/
theorem lookup_verdict (hf : Counts f side) (htable : IsTable table size)
    (hv : IsWritten v n) (position : Position) (sought : Value) {rest : List Value}
    (hrest : rest.length ≤ 1) :
    ((exists detail, f.handler position (sought :: table :: v :: rest) =
        .refused ⟨.value, detail⟩) <-> n < 0) ∧
      ((exists detail, f.handler position (sought :: table :: v :: rest) =
        .refused ⟨.ref, detail⟩) <-> side size < n) ∧
      (f.handler position (sought :: table :: v :: rest) = .unknown <->
        0 ≤ n ∧ n ≤ side size) := by
  have hedge := hf.nonneg htable
  rcases handler_cases hf htable hv position sought hrest with
    ⟨hn, detail, h⟩ | ⟨hn, detail, h⟩ | ⟨hn, h⟩
  · rw [h]
    simp
    omega
  · rw [h]
    simp
    omega
  · rw [h]
    simp
    omega

def prices : Range := ⟨1, 2, 9, 4, some "S"⟩

theorem column_zero_let_through :
    Counts .vlookup Prod.snd ∧
      IsTable (.reference (.range prices)) (prices.rows, prices.cols) ∧
      IsWritten (.text "-00") 0 ∧
      ReferenceFunction.vlookup.handler (.mk 1 1 "S")
        [.int 7, .reference (.range prices), .text "-00"] = .unknown := by
  have htable : IsTable (.reference (.range prices)) (prices.rows, prices.cols) :=
    .range (by decide)
  have hwrites : Numeral.Writes "-00" 0 :=
    @Numeral.Writes.intro ['-'] ['0', '0'] true .minus (by simp [Digits]; decide)
      (by decide) (by decide)
  have hrest : ([] : List Value).length ≤ 1 := Nat.zero_le 1
  have hverdict :=
    lookup_verdict .columns htable (.text hwrites) (.mk 1 1 "S") (.int 7) hrest
  refine ⟨.columns, htable, .text hwrites, ?_⟩
  exact hverdict.right.right.mpr (by decide)

end Lookup
end Precedents
