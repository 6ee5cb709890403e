import Precedents.Proofs.Function.Arguments
import Precedents.Proofs.Function.Ruling

/-!
# The cells that `INDEX` selects

A row and a column of a range are counted from one, and zero stands for all of
them.  `INDEX` gives just the cells of the range in that row and that column, on
the sheet of the range, and refuses what lies outside.  An index that is not
known is read as zero, so it selects whatever a known one could select.
-/

namespace Precedents
namespace Selection

open Argument

variable {range : Range} {row col : Nat}

/-! ## The cells in a row and a column -/

/-- The reference is the part of a range in a row and a column; zero stands for all of them. -/
structure Selects (range : Range) (row col : Nat) (ref : Reference) : Prop where
  sheet_eq : ref.sheet = range.sheet
  holds_iff : forall d, ref.Holds d <-> range.Holds d ∧
    (row = 0 ∨ d.row = range.firstRow + row - 1) ∧
    (col = 0 ∨ d.col = range.firstCol + col - 1)
  isCell_iff : (exists c, ref = .cell c) <->
    exists c, forall d, ref.Holds d <-> d = c

theorem Selects.holds_of_wider {row' col' : Nat} {part whole : Reference}
    (hpart : Selects range row col part) (hwhole : Selects range row' col' whole)
    (hrow : row' = 0 ∨ row' = row) (hcol : col' = 0 ∨ col' = col) {d : Cell}
    (hd : part.Holds d) : whole.Holds d := by
  rcases (hpart.holds_iff d).mp hd with ⟨hrange, hdrow, hdcol⟩
  apply (hwhole.holds_iff d).mpr
  refine ⟨hrange, ?_, ?_⟩
  · rcases hrow with hrow | hrow
    · exact Or.inl hrow
    · rw [hrow]
      exact hdrow
  · rcases hcol with hcol | hcol
    · exact Or.inl hcol
    · rw [hcol]
      exact hdcol

theorem between_span_iff {first last : Int} {n : Nat}
    (hn : (n : Int) ≤ last - first + 1) (k : Int) :
    ((span first last n).1 ≤ k ∧ k ≤ (span first last n).2) <->
      (first ≤ k ∧ k ≤ last) ∧ (n = 0 ∨ k = first + n - 1) := by
  unfold span
  by_cases hzero : n = 0
  · simp [hzero]
  · rw [if_neg hzero]
    simp only [hzero, false_or]
    omega

/-! ## References between corners -/

/-- The cells between two corners, as a cell where that is one. -/
def block (rows cols : Int × Int) (sheet : Option String) : Reference :=
  if rows.1 = rows.2 ∧ cols.1 = cols.2 then .cell ⟨rows.1, cols.1, sheet⟩
  else .range (Range.ofCorners (rows.1, cols.1) (rows.2, cols.2) sheet)

theorem block_sheet (rows cols : Int × Int) (sheet : Option String) :
    (block rows cols sheet).sheet = sheet := by
  unfold block
  split
  · rfl
  · rfl

theorem block_holds_iff {rows cols : Int × Int} (hrows : rows.1 ≤ rows.2)
    (hcols : cols.1 ≤ cols.2) (sheet : Option String) (d : Cell) :
    (block rows cols sheet).Holds d <-> d.sheet = sheet ∧
      (rows.1 ≤ d.row ∧ d.row ≤ rows.2) ∧ (cols.1 ≤ d.col ∧ d.col ≤ cols.2) := by
  unfold block
  split
  · rename_i hone
    rw [← hone.left, ← hone.right]
    cases d
    simp only [Reference.Holds, Cell.mk.injEq]
    constructor
    · intro h
      exact ⟨h.right.right, by omega, by omega⟩
    · intro h
      exact ⟨by omega, by omega, h.left⟩
  · simp only [Reference.Holds, Range.Holds, Range.ofCorners,
      Int.min_eq_left hrows, Int.max_eq_right hrows,
      Int.min_eq_left hcols, Int.max_eq_right hcols]

theorem block_isCell_iff {rows cols : Int × Int} (hrows : rows.1 ≤ rows.2)
    (hcols : cols.1 ≤ cols.2) (sheet : Option String) :
    (exists c, block rows cols sheet = .cell c) <->
      exists c, forall d, (block rows cols sheet).Holds d <-> d = c := by
  constructor
  · intro h
    rcases h with ⟨c, hc⟩
    rw [hc]
    exact ⟨c, fun d => Iff.rfl⟩
  · intro h
    rcases h with ⟨c, hc⟩
    have hfirst : (⟨rows.1, cols.1, sheet⟩ : Cell) = c := by
      apply (hc _).mp
      apply (block_holds_iff hrows hcols sheet _).mpr
      exact ⟨rfl, ⟨Int.le_refl _, hrows⟩, ⟨Int.le_refl _, hcols⟩⟩
    have hlast : (⟨rows.2, cols.2, sheet⟩ : Cell) = c := by
      apply (hc _).mp
      apply (block_holds_iff hrows hcols sheet _).mpr
      exact ⟨rfl, ⟨hrows, Int.le_refl _⟩, ⟨hcols, Int.le_refl _⟩⟩
    have hsame := hfirst.trans hlast.symm
    injection hsame with hrow hcol
    exact ⟨_, if_pos ⟨hrow, hcol⟩⟩

/-! ## Parts of a range -/

theorem part_of_outside (h : range.rows < row ∨ range.cols < col) :
    exists detail, part range row col = .error ⟨.ref, detail⟩ := by
  unfold part
  rw [if_pos (by simpa using h)]
  exact ⟨_, rfl⟩

theorem part_of_inside (hup : range.Upright) (hrow : row ≤ range.rows)
    (hcol : col ≤ range.cols) :
    exists ref, part range row col = .ok ref ∧ Selects range row col ref := by
  have hrows := span_bounds hup.left hrow
  have hcols := span_bounds hup.right hcol
  let rows := span range.firstRow range.lastRow row
  let cols := span range.firstCol range.lastCol col
  have hpart : part range row col = .ok (block rows cols range.sheet) := by
    unfold part block
    rw [if_neg (by simpa using ⟨hrow, hcol⟩)]
    simp only [rows, cols]
    split
    · rfl
    · rfl
  refine ⟨_, hpart, ?_⟩
  constructor
  · exact block_sheet rows cols range.sheet
  · intro d
    rw [block_holds_iff hrows.right.left hcols.right.left,
      between_span_iff hrow d.row, between_span_iff hcol d.col]
    simp only [Range.Holds]
    constructor
    · intro h
      exact ⟨⟨h.left, h.right.left.left, h.right.right.left⟩,
        h.right.left.right, h.right.right.right⟩
    · intro h
      exact ⟨h.left.left, ⟨h.left.right.left, h.right.left⟩,
        h.left.right.right, h.right.right⟩
  · exact block_isCell_iff hrows.right.left hcols.right.left range.sheet

/-! ## The arguments behind a range -/

/--
The row and the column that the arguments behind a range ask for.  A single
index counts along the only row of a range, and down its rows otherwise.
-/
inductive Asks (range : Range) : List Value -> Nat -> Nat -> Prop where
  | both {a b : Value} {rest : List Value} {row col : Nat}
      (hrest : rest.length ≤ 1) (hrow : index "INDEX" a = .ok row)
      (hcol : index "INDEX" b = .ok col) : Asks range (a :: b :: rest) row col
  | along {a : Value} {k : Nat} (hline : range.rows = 1 ∧ 1 < range.cols)
      (hk : index "INDEX" a = .ok k) : Asks range [a] 0 k
  | down {a : Value} {k : Nat} (hline : ¬ (range.rows = 1 ∧ 1 < range.cols))
      (hk : index "INDEX" a = .ok k) : Asks range [a] k 0

theorem line_iff (hup : range.Upright) :
    (range.isSingleRow && !range.isSingleColumn) = true <->
      range.rows = 1 ∧ 1 < range.cols := by
  have hrows := hup.left
  have hcols := hup.right
  simp only [Range.isSingleRow, Range.isSingleColumn, Range.rows, Range.cols,
    Bool.and_eq_true, Bool.not_eq_true', beq_iff_eq, beq_eq_false_iff_ne]
  omega

theorem indexed_range (range : Range) (args : List Value) {first second : Nat}
    (hlow : 1 ≤ args.length) (hhigh : args.length ≤ 3)
    (hfirst : optionalIndex "INDEX" (.reference (.range range) :: args) 1 =
      .ok first)
    (hsecond : optionalIndex "INDEX" (.reference (.range range) :: args) 2 =
      .ok second) :
    indexed (.reference (.range range) :: args) =
      (rangePart range (args.length + 1) first second).map fun ref =>
        some (.reference ref) := by
  have hcount : requireCount ReferenceFunction.index.name
      (.reference (.range range) :: args) 2 (some 4) = .ok () := by
    apply requireCount_ok
    · exact Nat.succ_le_succ hlow
    · exact Nat.succ_le_succ hhigh
  simp only [indexed, hcount, hfirst, hsecond]
  rfl

theorem indexed_of_asks (hup : range.Upright) {args : List Value}
    (h : Asks range args row col) :
    indexed (.reference (.range range) :: args) =
      (part range row col).map fun ref => some (.reference ref) := by
  cases h with
  | both hrest hrow hcol =>
      rw [indexed_range range (_ :: _ :: _) (by simp)
        (Nat.succ_le_succ (Nat.succ_le_succ hrest)) hrow hcol]
      simp [rangePart]
  | along hline hk =>
      rw [indexed_range range [_] (by simp) (by simp) hk rfl]
      rw [rangePart, if_pos]
      simpa using (line_iff hup).mpr hline
  | down hline hk =>
      rw [← line_iff hup] at hline
      rw [indexed_range range [_] (by simp) (by simp) hk rfl]
      rw [rangePart, if_neg]
      simpa using hline

theorem Asks.set {args : List Value} (h : Asks range args row col) (i : Nat)
    {u : Value} (hu : index "INDEX" u = .ok 0) :
    exists row' col', Asks range (args.set i u) row' col' ∧
      (row' = 0 ∨ row' = row) ∧ (col' = 0 ∨ col' = col) := by
  cases h with
  | both hrest hrow hcol =>
      rcases i with _ | _ | i
      · exact ⟨_, _, .both hrest hu hcol, Or.inl rfl, Or.inr rfl⟩
      · exact ⟨_, _, .both hrest hrow hu, Or.inr rfl, Or.inl rfl⟩
      · refine ⟨_, _, .both ?_ hrow hcol, Or.inr rfl, Or.inr rfl⟩
        rw [List.length_set]
        exact hrest
  | along hline hk =>
      rcases i with _ | i
      · exact ⟨_, _, .along hline hu, Or.inl rfl, Or.inl rfl⟩
      · exact ⟨_, _, .along hline hk, Or.inr rfl, Or.inr rfl⟩
  | down hline hk =>
      rcases i with _ | i
      · exact ⟨_, _, .down hline hu, Or.inl rfl, Or.inl rfl⟩
      · exact ⟨_, _, .down hline hk, Or.inr rfl, Or.inr rfl⟩

/-! ## The verdict of `INDEX` -/

theorem handler_of_outside (hup : range.Upright) {args : List Value}
    (h : Asks range args row col) (position : Position)
    (hout : range.rows < row ∨ range.cols < col) :
    exists detail, ReferenceFunction.index.handler position
      (.reference (.range range) :: args) = .refused ⟨.ref, detail⟩ := by
  rcases part_of_outside hout with ⟨detail, hpart⟩
  refine ⟨detail, ?_⟩
  change Verdict.ofRuling (indexed _) = _
  rw [indexed_of_asks hup h, hpart]
  rfl

theorem handler_of_inside (hup : range.Upright) {args : List Value}
    (h : Asks range args row col) (position : Position)
    (hrow : row ≤ range.rows) (hcol : col ≤ range.cols) :
    exists ref, ReferenceFunction.index.handler position
        (.reference (.range range) :: args) = .value (.reference ref) ∧
      Selects range row col ref := by
  rcases part_of_inside hup hrow hcol with ⟨ref, hpart, hselects⟩
  refine ⟨ref, ?_, hselects⟩
  change Verdict.ofRuling (indexed _) = _
  rw [indexed_of_asks hup h, hpart]
  rfl

/--
`INDEX` refuses a row or a column outside a range with `#REF!`, and otherwise
gives just the cells of the range in that row and column, as a cell if that is
one.  With an argument that is read as zero in the place of another one, it gives
a reference that holds at least those cells.
-/
theorem index_selects (hup : range.Upright) {args : List Value}
    (hargs : Asks range args row col) (position : Position) :
    ((exists detail, ReferenceFunction.index.handler position
        (.reference (.range range) :: args) = .refused ⟨.ref, detail⟩) <->
          range.rows < row ∨ range.cols < col) ∧
      (¬ (range.rows < row ∨ range.cols < col) ->
        exists ref, ReferenceFunction.index.handler position
            (.reference (.range range) :: args) = .value (.reference ref) ∧
          Selects range row col ref ∧
          forall i u, index "INDEX" u = .ok 0 ->
            exists whole, ReferenceFunction.index.handler position
                (.reference (.range range) :: args.set i u) =
                  .value (.reference whole) ∧
              forall d, ref.Holds d -> whole.Holds d) := by
  constructor
  · constructor
    · intro h
      rcases h with ⟨detail, hrefused⟩
      apply Decidable.of_not_not
      intro hout
      rw [not_or, Int.not_lt, Int.not_lt] at hout
      rcases handler_of_inside hup hargs position hout.left hout.right with
        ⟨ref, hvalue, _⟩
      rw [hvalue] at hrefused
      cases hrefused
    · exact handler_of_outside hup hargs position
  · intro hout
    rw [not_or, Int.not_lt, Int.not_lt] at hout
    rcases handler_of_inside hup hargs position hout.left hout.right with
      ⟨ref, hvalue, hselects⟩
    refine ⟨ref, hvalue, hselects, ?_⟩
    intro i u hu
    rcases hargs.set i hu with ⟨row', col', hasks, hrow, hcol⟩
    have hrows : (row' : Int) ≤ range.rows := by omega
    have hcols : (col' : Int) ≤ range.cols := by omega
    rcases handler_of_inside hup hasks position hrows hcols with
      ⟨whole, hwhole, hwider⟩
    exact ⟨whole, hwhole, fun d => hselects.holds_of_wider hwider hrow hcol⟩

def quarters : Range := ⟨2, 2, 2, 5, some "S"⟩

theorem quarters_selected :
    quarters.Upright ∧ Asks quarters [.text "3.7"] 0 3 ∧
      exists ref whole,
        ReferenceFunction.index.handler (.mk 9 1 "T")
            [.reference (.range quarters), .text "3.7"] = .value (.reference ref) ∧
          ref.Holds ⟨2, 4, some "S"⟩ ∧
          ReferenceFunction.index.handler (.mk 9 1 "T")
              [.reference (.range quarters), .reference (.cell ⟨1, 1, none⟩)] =
            .value (.reference whole) ∧
          forall d, ref.Holds d -> whole.Holds d := by
  have hup : quarters.Upright := by decide
  have hk : index "INDEX" (.text "3.7") = .ok 3 := by rfl
  have hargs : Asks quarters [.text "3.7"] 0 3 := .along (by decide) hk
  rcases (index_selects hup hargs (.mk 9 1 "T")).right (by decide) with
    ⟨ref, hvalue, hselects, hunknown⟩
  rcases hunknown 0 (.reference (.cell ⟨1, 1, none⟩)) rfl with
    ⟨whole, hwhole, hwider⟩
  refine ⟨hup, hargs, ref, whole, hvalue, ?_, hwhole, hwider⟩
  exact (hselects.holds_iff _).mpr (by decide)

end Selection
end Precedents
