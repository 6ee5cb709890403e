import Precedents.Proofs.Reference.Addressing
import Precedents.Proofs.Reference.Holding
import Precedents.Proofs.Reference.SheetWord

/-!
# Printed references are read back

A reference to cells of the grid is written as a cell, a pair of cells, a pair of
columns or a pair of rows.  Each of these words has the shape that a formula asks
for, and stands for the reference that it was written for.
-/

namespace Precedents

open Text

/-! ## References on the grid -/

structure Reference.OnGrid (ref : Reference) : Prop where
  upright : ref.Upright
  inside : forall d, ref.Holds d ->
    Grid.hasRow d.row = true ∧ Grid.hasColumn d.col = true

/-- The reference lies on the grid, and its sheet has a name unless it is open. -/
structure Reference.Proper (ref : Reference) : Prop where
  onGrid : ref.OnGrid
  named : ref.sheet ≠ some ""

/-- The reference lies on the grid of a sheet that has a name. -/
structure Reference.Grounded (ref : Reference) : Prop where
  onGrid : ref.OnGrid
  named : exists name, ref.sheet = some name ∧ name ≠ ""

theorem Grid.hasRow_iff {row : Int} :
    hasRow row = true <-> 1 ≤ row ∧ row ≤ 1048576 := by
  rw [hasRow, Bool.and_eq_true, decide_eq_true_eq, decide_eq_true_eq]
  rfl

theorem Grid.hasColumn_iff {col : Int} :
    hasColumn col = true <-> 1 ≤ col ∧ col ≤ 16384 := by
  rw [hasColumn, Bool.and_eq_true, decide_eq_true_eq, decide_eq_true_eq]
  rfl

structure Range.Corners (range : Range) : Prop where
  rows_le : range.firstRow ≤ range.lastRow
  cols_le : range.firstCol ≤ range.lastCol
  firstRow : Grid.hasRow range.firstRow = true
  firstCol : Grid.hasColumn range.firstCol = true
  lastRow : Grid.hasRow range.lastRow = true
  lastCol : Grid.hasColumn range.lastCol = true

theorem Reference.OnGrid.corners {range : Range}
    (h : (Reference.range range).OnGrid) : range.Corners := by
  have hup : range.Upright := h.upright
  have hfirst := h.inside range.topLeft (Range.holds_topLeft hup)
  have hlast := h.inside ⟨range.lastRow, range.lastCol, range.sheet⟩
    ⟨rfl, ⟨hup.left, Int.le_refl _⟩, ⟨hup.right, Int.le_refl _⟩⟩
  exact ⟨hup.left, hup.right, hfirst.left, hfirst.right, hlast.left, hlast.right⟩

theorem Range.Corners.onGrid {range : Range} (h : range.Corners) :
    (Reference.range range).OnGrid := by
  refine ⟨⟨h.rows_le, h.cols_le⟩, ?_⟩
  intro d hd
  rcases hd with ⟨_, hrow, hcol⟩
  have hrows := And.intro (Grid.hasRow_iff.mp h.firstRow) (Grid.hasRow_iff.mp h.lastRow)
  have hcols := And.intro (Grid.hasColumn_iff.mp h.firstCol) (Grid.hasColumn_iff.mp h.lastCol)
  rw [Grid.hasRow_iff, Grid.hasColumn_iff]
  omega

theorem Range.Corners.ofCorners_eq {range : Range} (h : range.Corners) :
    ofCorners (range.firstRow, range.firstCol) (range.lastRow, range.lastCol)
      range.sheet = range := by
  simp only [ofCorners, Int.min_eq_left h.rows_le, Int.min_eq_left h.cols_le,
    Int.max_eq_right h.rows_le, Int.max_eq_right h.cols_le]

/-! ## Words of columns and rows -/

theorem Column.index_letters {col : Int} (h : 0 ≤ col) :
    index (letters col) = col := by
  rw [letters, index_ofList_letterList]
  exact Int.toNat_of_nonneg h

theorem isPlainLetter_of_mem_letters {col : Int} :
    forall c, c ∈ (Column.letters col).toList -> isPlainLetter c = true := by
  intro c hc
  rw [Column.letters, String.toList_ofList] at hc
  exact Column.isPlainLetter_of_mem hc

/-- Beyond the grid there are more columns with up to three letters. -/
theorem isColumnWord_letters_iff {col : Int} :
    IsColumnWord (Column.letters col).toList <-> 1 ≤ col ∧ col ≤ 18278 := by
  rw [Column.letters, String.toList_ofList]
  constructor
  · intro h
    have hne := mt Column.letterList_eq_nil_iff.mpr h.ne_nil
    have hlength := Column.length_letterList_le_iff.mp h.length_le
    omega
  · intro h
    have hne := mt Column.letterList_eq_nil_iff.mp (show col.toNat ≠ 0 by omega)
    exact ⟨fun c hc => Column.isPlainLetter_of_mem hc, hne,
      Column.length_letterList_le_iff.mpr (by omega)⟩

theorem isColumnWord_letters {col : Int} (h : Grid.hasColumn col = true) :
    IsColumnWord (Column.letters col).toList := by
  have hbounds := Grid.hasColumn_iff.mp h
  exact isColumnWord_letters_iff.mpr (by omega)

theorem toList_toString_of_nonneg {row : Int} (h : 0 ≤ row) :
    (toString row).toList = Nat.toDigits 10 row.toNat := by
  cases row with
  | ofNat n => exact Nat.toList_repr
  | negSucc n => exact absurd h (by omega)

theorem toList_toString_of_neg {row : Int} (h : row < 0) :
    (toString row).toList = '-' :: Nat.toDigits 10 row.natAbs := by
  cases row with
  | ofNat n => exact absurd h (Int.not_lt.mpr (Int.natCast_nonneg n))
  | negSucc n =>
      show ("-" ++ Nat.repr (n + 1)).toList = _
      rw [String.toList_append, Nat.toList_repr]
      rfl

theorem isRowWord_toString {row : Int} (h : 0 ≤ row) :
    IsRowWord (toString row).toList := by
  rw [toList_toString_of_nonneg h]
  exact ⟨digits_toDigits _, Nat.toDigits_ne_nil⟩

theorem ofPlainDigits_of_short {row : Int} (h : 0 ≤ row)
    (hshort : (toString row).length ≤ Numeral.digitLimit) :
    Numeral.ofPlainDigits (toString row).toList = .ok row.toNat := by
  rw [← String.length_toList, toList_toString_of_nonneg h] at hshort
  rw [toList_toString_of_nonneg h]
  exact Numeral.ofPlainDigits_toDigits hshort

theorem length_toString_le {row : Int} (h : Grid.hasRow row = true) :
    (toString row).length ≤ Numeral.digitLimit := by
  have hbounds := Grid.hasRow_iff.mp h
  have hseven : (Nat.toDigits 10 row.toNat).length ≤ 7 :=
    (Nat.length_toDigits_le_iff (by decide) (by decide)).mpr (by omega)
  rw [← String.length_toList, toList_toString_of_nonneg (by omega)]
  exact Nat.le_trans hseven (by decide)

theorem ofPlainDigits_toString {row : Int} (h : Grid.hasRow row = true) :
    Numeral.ofPlainDigits (toString row).toList = .ok row.toNat := by
  have hbounds := Grid.hasRow_iff.mp h
  exact ofPlainDigits_of_short (by omega) (length_toString_le h)

/-! ## Addresses -/

section Address

variable {row col : Int}

theorem toList_address : (address row col).toList =
    (Column.letters col).toList ++ (toString row).toList :=
  String.toList_append

theorem cell_address_of_words (hcolumn : IsColumnWord (Column.letters col).toList)
    (hrow : 0 ≤ row) {rest : List Char}
    (hrest : forall c, rest.head? = some c -> isPlainDigit c = false) :
    Shape.cell ((address row col).toList ++ rest) = some rest := by
  rw [toList_address]
  exact Shape.cell_append hcolumn (isRowWord_toString hrow) hrest

theorem cell_address (hrow : Grid.hasRow row = true)
    (hcol : Grid.hasColumn col = true) {rest : List Char}
    (hrest : forall c, rest.head? = some c -> isPlainDigit c = false) :
    Shape.cell ((address row col).toList ++ rest) = some rest := by
  have hbounds := Grid.hasRow_iff.mp hrow
  exact cell_address_of_words (isColumnWord_letters hcol) (by omega) hrest

theorem cell_address_all (hrow : Grid.hasRow row = true)
    (hcol : Grid.hasColumn col = true) :
    Shape.cell (address row col).toList = some [] := by
  rw [← List.append_nil (address row col).toList]
  exact cell_address hrow hcol (by simp)

theorem isBlank_of_mem_toString {c : Char} (h : c ∈ (toString row).toList) :
    isBlank c = false := by
  by_cases hrow : 0 ≤ row
  · exact isBlank_eq_false_of_digit ((isRowWord_toString hrow).digits c h)
  · rw [toList_toString_of_neg (by omega), List.mem_cons] at h
    rcases h with h | h
    · rw [h]
      decide
    · exact isBlank_eq_false_of_digit (digits_toDigits _ c h)

theorem noBlank_address (row col : Int) : NoBlank (address row col).toList := by
  intro c hc
  rw [toList_address] at hc
  rcases List.mem_append.mp hc with hc | hc
  · exact isBlank_eq_false_of_letter (isPlainLetter_of_mem_letters c hc)
  · exact isBlank_of_mem_toString hc

theorem readAddress_of_words (hcolumn : IsColumnWord (Column.letters col).toList)
    (hrow : 0 ≤ row) (hshort : (toString row).length ≤ Numeral.digitLimit) :
    Cell.readAddress (address row col) =
      if Grid.hasRow row && Grid.hasColumn col then .ok (row, col)
      else .error (.cellOffGrid (address row col)) := by
  have hcols := isColumnWord_letters_iff.mp hcolumn
  have hdigits := isRowWord_toString hrow
  have hread : Scanner.readsAll Shape.cell (address row col).toList = true := by
    have hshape : Shape.cell ((address row col).toList ++ []) = some [] :=
      cell_address_of_words hcolumn hrow (by simp)
    rw [List.append_nil] at hshape
    rw [Scanner.readsAll, hshape]
    rfl
  have hrows : Numeral.ofPlainDigits (Cell.rowPart (address row col).toList) =
      .ok row.toNat := by
    rw [toList_address, rowPart_append hcolumn hdigits, ofPlainDigits_of_short hrow hshort]
  have hindex : Column.index (String.ofList
      (Cell.columnPart (address row col).toList)) = col := by
    rw [toList_address, columnPart_append hcolumn.letters hdigits, String.ofList_toList,
      Column.index_letters (by omega)]
  simp only [Cell.readAddress, (noBlank_address row col).trim_eq, hread, if_true, hrows, hindex,
    Int.toNat_of_nonneg hrow]

theorem readAddress_address (hrow : Grid.hasRow row = true)
    (hcol : Grid.hasColumn col = true) :
    Cell.readAddress (address row col) = .ok (row, col) := by
  have hbounds := Grid.hasRow_iff.mp hrow
  rw [readAddress_of_words (isColumnWord_letters hcol) (by omega) (length_toString_le hrow),
    hrow, hcol]
  rfl

theorem colon_not_mem_address (hrow : Grid.hasRow row = true)
    (hcol : Grid.hasColumn col = true) : ':' ∉ (address row col).toList :=
  Scanner.not_mem_of_forall (Terminal.takes_cell.all (cell_address_all hrow hcol))
    (by decide)

end Address

/-! ## Bodies -/

structure Writes (kind : ReferenceKind) (word : String) (ref : Reference) : Prop where
  shape_eq : kind.terminal.shape word.toList = some []
  reference_eq : Literal.reference kind word ref.sheet = .ok ref

theorem pair_append {part : Scanner} {p : Char -> Bool} {left right : List Char}
    (hleft : part (left ++ ':' :: right) = some (':' :: right))
    (hright : part right = some []) :
    (part >=> Scanner.char ':' >=> part >=> Scanner.notBefore p)
      (left ++ ':' :: right) = some [] := by
  simp only [Scanner.seq_apply, hleft, Option.bind_some, Scanner.char,
    Scanner.one, beq_self_eq_true, if_true, hright, Scanner.notBefore]

theorem colon_head {p : Char -> Bool} (h : p ':' = false) (right : List Char) :
    forall c, (':' :: right).head? = some c -> p c = false := by
  intro c hc
  injection hc with hc
  rw [← hc]
  exact h

theorem toList_pair (left right : String) :
    (left ++ ":" ++ right).toList = left.toList ++ ':' :: right.toList := by
  simp

theorem writes_cell {cell : Cell} (hrow : Grid.hasRow cell.row = true)
    (hcol : Grid.hasColumn cell.col = true) :
    Writes .cell (address cell.row cell.col) (.cell cell) := by
  constructor
  · show Terminal.cellShape _ = _
    rw [Terminal.cellShape, Scanner.seq_apply, cell_address_all hrow hcol]
    rfl
  · simp only [Literal.reference, Literal.labelledReference,
      readAddress_address hrow hcol]
    rfl

section Pairs

variable {range : Range}

theorem writes_cells (h : range.Corners) :
    Writes .cells (address range.firstRow range.firstCol ++ ":" ++
      address range.lastRow range.lastCol) (.range range) := by
  have hcolon := colon_not_mem_address h.firstRow h.firstCol
  constructor
  · rw [toList_pair]
    exact pair_append (cell_address h.firstRow h.firstCol (colon_head (by decide) _))
      (cell_address_all h.lastRow h.lastCol)
  · simp only [Literal.reference, Literal.labelledReference, toList_pair,
      splitFirst_append hcolon, Literal.range, String.ofList_toList,
      Range.readCells, readAddress_address h.firstRow h.firstCol,
      readAddress_address h.lastRow h.lastCol]
    exact congrArg (fun r => Except.ok (Reference.range r)) h.ofCorners_eq

theorem columnName_letters {col : Int} (h : Grid.hasColumn col = true) :
    Literal.columnName (Column.letters col).toList = Column.letters col := by
  have hword := isColumnWord_letters h
  rw [Literal.columnName, dropWhile_of_not_mem hword.dollar_not_mem,
    String.ofList_toList]

theorem rowNumber_toString {row : Int} (h : Grid.hasRow row = true) :
    Literal.rowNumber (toString row).toList = .ok row := by
  have hbounds := Grid.hasRow_iff.mp h
  have hword := isRowWord_toString (show 0 ≤ row by omega)
  rw [Literal.rowNumber, dropWhile_of_not_mem hword.dollar_not_mem,
    readInteger_eq_of_digits hword.digits hword.ne_nil,
    ofPlainDigits_toString h]
  exact congrArg Except.ok (Int.toNat_of_nonneg (by omega))

theorem ofColumns_corners (h : range.Corners) (hfirst : range.firstRow = 1)
    (hlast : range.lastRow = Grid.rows) :
    Range.ofColumns (Column.letters range.firstCol) (Column.letters range.lastCol)
      range.sheet = .ok range := by
  have hbounds := Grid.hasColumn_iff.mp h.firstCol
  have hbounds' := Grid.hasColumn_iff.mp h.lastCol
  simp only [Range.ofColumns, Column.index_letters (show 0 ≤ range.firstCol by omega),
    Column.index_letters (show 0 ≤ range.lastCol by omega), h.firstCol, h.lastCol,
    Bool.and_self, if_true, ← hfirst, ← hlast, h.ofCorners_eq]

theorem ofRows_corners (h : range.Corners) (hfirst : range.firstCol = 1)
    (hlast : range.lastCol = Grid.columns) :
    Range.ofRows range.firstRow range.lastRow range.sheet = .ok range := by
  simp only [Range.ofRows, h.firstRow, h.lastRow, Bool.and_self, if_true, ← hfirst,
    ← hlast, h.ofCorners_eq]

theorem writes_columns (h : range.Corners) (hfirst : range.firstRow = 1)
    (hlast : range.lastRow = Grid.rows) :
    Writes .columns (Column.letters range.firstCol ++ ":" ++
      Column.letters range.lastCol) (.range range) := by
  have hfirstCol := isColumnWord_letters h.firstCol
  have hlastCol := isColumnWord_letters h.lastCol
  have hcolon : ':' ∉ (Column.letters range.firstCol).toList :=
    Scanner.not_mem_of_forall hfirstCol.letters (by decide)
  constructor
  · rw [toList_pair]
    apply pair_append (Shape.column_append hfirstCol (colon_head (by decide) _))
    rw [← List.append_nil (Column.letters range.lastCol).toList]
    exact Shape.column_append hlastCol (by simp)
  · simp only [Literal.reference, Literal.labelledReference, toList_pair,
      splitFirst_append hcolon, Literal.range, columnName_letters h.firstCol,
      columnName_letters h.lastCol]
    exact congrArg (Except.map Reference.range) (ofColumns_corners h hfirst hlast)

theorem writes_rows (h : range.Corners) (hfirst : range.firstCol = 1)
    (hlast : range.lastCol = Grid.columns) :
    Writes .rows (toString range.firstRow ++ ":" ++ toString range.lastRow)
      (.range range) := by
  have hbounds := Grid.hasRow_iff.mp h.firstRow
  have hbounds' := Grid.hasRow_iff.mp h.lastRow
  have hfirstRow := isRowWord_toString (show 0 ≤ range.firstRow by omega)
  have hlastRow := isRowWord_toString (show 0 ≤ range.lastRow by omega)
  have hcolon : ':' ∉ (toString range.firstRow).toList :=
    Scanner.not_mem_of_forall hfirstRow.digits (by decide)
  constructor
  · rw [toList_pair]
    apply pair_append (Shape.row_append hfirstRow (colon_head (by decide) _))
    rw [← List.append_nil (toString range.lastRow).toList]
    exact Shape.row_append hlastRow (by simp)
  · simp only [Literal.reference, Literal.labelledReference, toList_pair,
      splitFirst_append hcolon, Literal.range, rowNumber_toString h.firstRow,
      rowNumber_toString h.lastRow]
    exact congrArg (Except.map Reference.range) (ofRows_corners h hfirst hlast)

end Pairs

theorem Reference.OnGrid.exists_writes {ref : Reference} (h : ref.OnGrid) :
    exists kind, Writes kind ref.body ref := by
  cases ref with
  | cell cell =>
      have hcell := h.inside cell rfl
      exact ⟨.cell, writes_cell hcell.left hcell.right⟩
  | range range =>
      have hcorners := h.corners
      simp only [Reference.body, Range.body]
      split
      · rename_i hrows
        exact ⟨.columns, writes_columns hcorners hrows.left hrows.right⟩
      · split
        · rename_i hcols
          exact ⟨.rows, writes_rows hcorners hcols.left hcols.right⟩
        · exact ⟨.cells, writes_cells hcorners⟩

end Precedents
