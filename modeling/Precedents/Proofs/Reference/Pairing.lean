import Precedents.Proofs.Function.Ruling
import Precedents.Proofs.Reference.Naming

/-!
# Pairs of words

Both parts of a pair name a cell, or both a column, or both a row, and the pair
stands for the smallest range around what they name.  The kinds are tried one after
another, and each kind passes over one line feed behind either part.
-/

namespace Precedents

open Text

/-! ## The range around two ends -/

namespace Range

def Encloses (whole part : Range) : Prop :=
  whole.firstRow ≤ part.firstRow ∧ whole.firstCol ≤ part.firstCol ∧
    part.lastRow ≤ whole.lastRow ∧ part.lastCol ≤ whole.lastCol

structure IsHull (range a b : Range) : Prop where
  left : range.Encloses a
  right : range.Encloses b
  least : forall other : Range, other.Encloses a -> other.Encloses b ->
    other.Encloses range

variable {range a b : Range}

theorem isHull_iff :
    range.IsHull a b <->
      range.firstRow = min a.firstRow b.firstRow ∧
      range.firstCol = min a.firstCol b.firstCol ∧
      range.lastRow = max a.lastRow b.lastRow ∧
      range.lastCol = max a.lastCol b.lastCol := by
  constructor
  · intro h
    have hleft := h.left
    have hright := h.right
    have hleast := h.least
      ⟨min a.firstRow b.firstRow, min a.firstCol b.firstCol,
        max a.lastRow b.lastRow, max a.lastCol b.lastCol, none⟩
      (by simp only [Encloses]; omega) (by simp only [Encloses]; omega)
    simp only [Encloses] at hleft hright hleast
    omega
  · intro h
    refine ⟨?_, ?_, ?_⟩
    · simp only [Encloses]
      omega
    · simp only [Encloses]
      omega
    · intro other hleft hright
      simp only [Encloses] at *
      omega

theorem ofCorners_eq_iff {first last : Int × Int} {sheet : Option String} :
    ofCorners first last sheet = range <->
      (range.firstRow = min first.1 last.1 ∧ range.firstCol = min first.2 last.2 ∧
        range.lastRow = max first.1 last.1 ∧ range.lastCol = max first.2 last.2) ∧
      range.sheet = sheet := by
  cases range
  simp only [ofCorners, mk.injEq, eq_comm, and_assoc]

theorem ofCorners_columns_eq_iff {first last : Int} {sheet : Option String} :
    ofCorners (1, first) (Grid.rows, last) sheet = range <->
      range.IsHull ⟨1, first, Grid.rows, first, none⟩ ⟨1, last, Grid.rows, last, none⟩ ∧
        range.sheet = sheet := by
  rw [ofCorners_eq_iff, isHull_iff]
  rfl

theorem ofCorners_rows_eq_iff {first last : Int} {sheet : Option String} :
    ofCorners (first, 1) (last, Grid.columns) sheet = range <->
      range.IsHull ⟨first, 1, first, Grid.columns, none⟩ ⟨last, 1, last, Grid.columns, none⟩ ∧
        range.sheet = sheet := by
  rw [ofCorners_eq_iff, isHull_iff]
  rfl

end Range

/-! ## Parts of a pair -/

inductive Part
  | cell
  | column
  | row

namespace Part

def shape : Part -> Scanner
  | cell => Shape.cell
  | column => Shape.column
  | row => Shape.row

inductive Names : Part -> List Char -> Range -> Prop
  | cell {word : List Char} {row col : Int} (h : NamesCell word row col) :
      Names .cell word ⟨row, col, row, col, none⟩
  | column {word : List Char} {col : Int} (h : NamesColumn word col) :
      Names .column word ⟨1, col, Grid.rows, col, none⟩
  | row {word : List Char} {row : Int} (h : NamesRow word row) :
      Names .row word ⟨row, 1, row, Grid.columns, none⟩

variable {part : Part} {word cs : List Char} {range : Range}

theorem Names.shape_eq (h : Names part word range) : part.shape word = some [] := by
  cases h with
  | cell h => exact (namesCell_iff.mp h).left
  | column h => exact (namesColumn_iff.mp h).left
  | row h => exact (namesRow_iff.mp h).left

theorem takes_shape (part : Part) : Scanner.Takes Terminal.isCellChar part.shape := by
  cases part with
  | cell => exact Terminal.takes_cell
  | column =>
      exact Scanner.takes_mono Terminal.takes_column
        (by simp +contextual [Terminal.isCellChar])
  | row =>
      exact Scanner.takes_mono Terminal.takes_row
        (by simp +contextual [Terminal.isCellChar])

theorem stopsAt_shape (part : Part) : Scanner.StopsAt ['\n'] part.shape := by
  have hcolumn : Scanner.StopsAt ['\n'] Shape.column :=
    Terminal.stopsAt_column (by decide) (by decide)
  have hrow : Scanner.StopsAt ['\n'] Shape.row :=
    Terminal.stopsAt_row (by decide) (by decide)
  cases part with
  | cell => exact Scanner.stopsAt_seq hcolumn hrow
  | column => exact hcolumn
  | row => exact hrow

theorem noBlank_of_shape (h : part.shape word = some []) : NoBlank word :=
  noBlank_of_cellChars (part.takes_shape.all h)

theorem colon_not_mem_of_shape (h : part.shape word = some []) : ':' ∉ word :=
  Scanner.not_mem_of_forall (part.takes_shape.all h) (by decide)

end Part

/-! ## Which kind is tried -/

section Trying

variable {word : List Char}

theorem readsLine_of_fails {s : Scanner} (h : s word = none) :
    s.readsLine word = false := by
  simp [Scanner.readsLine, h]

theorem cell_fails_of_column (h : Shape.column word = some []) :
    Shape.cell word = none := by
  apply Terminal.needs_digit_cell.fails
  intro c hc
  exact Terminal.isPlainDigit_eq_false_of_columnChar (by simp [Terminal.takes_column.all h c hc])

theorem column_fails_of_row (h : Shape.row word = some []) :
    Shape.column word = none := by
  apply Terminal.needs_letter_column.fails
  intro c hc
  exact Terminal.isPlainLetter_eq_false_of_rowChar (by simp [Terminal.takes_row.all h c hc])

theorem cell_fails_of_row (h : Shape.row word = some []) : Shape.cell word = none := by
  rw [Shape.cell, Scanner.seq_apply, column_fails_of_row h]
  rfl

end Trying

/-! ## A line feed behind a word -/

section Lines

variable {part : Part} {word cs : List Char}

/-- The text is the word, perhaps with a line feed behind it. -/
def Lined (cs word : List Char) : Prop :=
  cs = word ∨ cs = word ++ ['\n']

theorem Part.readsLine_iff :
    part.shape.readsLine cs = true <->
      exists word, Lined cs word ∧ part.shape word = some [] := by
  simp only [Scanner.readsLine, Bool.or_eq_true, beq_iff_eq]
  constructor
  · intro h
    rcases h with h | h
    · exact ⟨cs, Or.inl rfl, h⟩
    · rcases part.takes_shape cs ['\n'] h with ⟨word, hcs, _⟩
      rw [hcs] at h
      exact ⟨word, Or.inr hcs, part.stopsAt_shape.word (by simp [Scanner.StartsIn]) h⟩
  · intro h
    rcases h with ⟨word, hcs | hcs, hword⟩
    · rw [hcs]
      exact Or.inl hword
    · rw [hcs]
      exact Or.inr (part.stopsAt_shape.reads hword (by simp [Scanner.StartsIn]))

theorem Lined.readsLine_eq_false (h : Lined cs word) (hword : part.shape word = none) :
    part.shape.readsLine cs = false := by
  rcases h with hcs | hcs
  · rw [hcs]
    exact readsLine_of_fails hword
  · rw [hcs]
    exact readsLine_of_fails
      (part.stopsAt_shape.fails hword (by simp [Scanner.StartsIn]))

theorem Lined.trim_eq (h : Lined cs word) (hword : NoBlank word) : trim cs = word := by
  rcases h with hcs | hcs
  · rw [hcs, hword.trim_eq]
  · rw [hcs]
    exact hword.trim_append [] ['\n'] (by simp) (by decide)

theorem Lined.filter_eq {p : Char -> Bool} (h : Lined cs word) (hp : p '\n' = false) :
    cs.filter p = word.filter p := by
  rcases h with hcs | hcs
  · rw [hcs]
  · rw [hcs, List.filter_append, List.filter_cons_of_neg (by simp [hp]), List.filter_nil,
      List.append_nil]

end Lines

/-! ## Pairs -/

def IsPair (left right : List Char) (range : Range) : Prop :=
  exists part a b, Part.Names part left a ∧ Part.Names part right b ∧ range.IsHull a b

namespace Reference

section Pairs

variable {part : Part} {text : String} {cs left right l r : List Char}
  {range : Range} {sheet : Option String}

def joined (part : Part) (left right : List Char) (sheet : Option String) :
    Except ReferenceError Range :=
  match part with
  | .cell => Range.readCells (String.ofList left) (String.ofList right) sheet
  | .column =>
      Range.ofColumns (String.ofList (Cell.columnPart left))
        (String.ofList (Cell.columnPart right)) sheet
  | .row => readRows (Cell.rowPart left) (Cell.rowPart right) sheet

/-- The kinds that are tried earlier do not fit. -/
theorem readPair_eq_joined (hleft : Lined left l) (hright : Lined right r)
    (hl : part.shape l = some []) (hr : part.shape r = some []) :
    readPair text left right sheet = joined part left right sheet := by
  have hreadsLeft := Part.readsLine_iff.mpr ⟨l, hleft, hl⟩
  have hreadsRight := Part.readsLine_iff.mpr ⟨r, hright, hr⟩
  cases part with
  | cell =>
      simp only [Part.shape] at hreadsLeft hreadsRight
      simp only [readPair, hreadsLeft, hreadsRight, Bool.and_self, if_true, joined]
  | column =>
      have hcell := @Lined.readsLine_eq_false .cell l left hleft (cell_fails_of_column hl)
      simp only [Part.shape] at hreadsLeft hreadsRight hcell
      simp only [readPair, hreadsLeft, hreadsRight, hcell, Bool.false_and, Bool.and_self,
        Bool.false_eq_true, if_false, if_true, joined]
  | row =>
      have hcell := @Lined.readsLine_eq_false .cell l left hleft (cell_fails_of_row hl)
      have hcolumn := @Lined.readsLine_eq_false .column l left hleft
        (column_fails_of_row hl)
      simp only [Part.shape] at hreadsLeft hreadsRight hcell hcolumn
      simp only [readPair, hreadsLeft, hreadsRight, hcell, hcolumn, Bool.false_and,
        Bool.and_self, Bool.false_eq_true, if_false, if_true, joined]

theorem readPair_of_parts (part : Part) (hleft : part.shape left = some [])
    (hright : part.shape right = some []) :
    readPair text left right sheet = joined part left right sheet :=
  readPair_eq_joined (Or.inl rfl) (Or.inl rfl) hleft hright

theorem exists_part_of_readPair (h : readPair text left right sheet = .ok range) :
    exists part : Part, part.shape.readsLine left = true ∧
      part.shape.readsLine right = true := by
  unfold readPair at h
  split at h
  · rename_i hcell
    exact ⟨.cell, Bool.and_eq_true_iff.mp hcell⟩
  · split at h
    · rename_i hcolumn
      exact ⟨.column, Bool.and_eq_true_iff.mp hcolumn⟩
    · split at h
      · rename_i hrow
        exact ⟨.row, Bool.and_eq_true_iff.mp hrow⟩
      · cases h

theorem joined_cell_eq_ok_iff (hleft : Lined left l) (hright : Lined right r)
    (hl : NoBlank l) (hr : NoBlank r) :
    joined .cell left right sheet = .ok range <->
      exists a b : Int × Int, NamesCell l a.1 a.2 ∧ NamesCell r b.1 b.2 ∧
        Range.ofCorners a b sheet = range := by
  have hreads : forall {cs word : List Char}, Lined cs word -> NoBlank word ->
      forall a : Int × Int,
        Cell.readAddress (String.ofList cs) = .ok a <-> NamesCell word a.1 a.2 := by
    intro cs word hlined hword a
    rw [Cell.readAddress_eq_ok_iff, String.toList_ofList, hlined.trim_eq hword]
  simp only [joined, Range.readCells, except_bind_eq_ok, hreads hleft hl, hreads hright hr,
    pure, Except.pure, Except.ok.injEq]
  constructor
  · intro h
    rcases h with ⟨a, ha, b, hb, hrange⟩
    exact ⟨a, b, ha, hb, hrange⟩
  · intro h
    rcases h with ⟨a, b, ha, hb, hrange⟩
    exact ⟨a, ha, b, hb, hrange⟩

theorem ofColumns_eq_ok_iff {first last : String} :
    Range.ofColumns first last sheet = .ok range <->
      (Grid.hasColumn (Column.index first) = true ∧
        Grid.hasColumn (Column.index last) = true) ∧
      Range.ofCorners (1, Column.index first) (Grid.rows, Column.index last) sheet =
        range := by
  rw [Range.ofColumns, ← Bool.and_eq_true_iff]
  split
  · rename_i hgrid
    simp [hgrid]
  · rename_i hgrid
    simp [hgrid]

theorem ofRows_eq_ok_iff {first last : Int} :
    Range.ofRows first last sheet = .ok range <->
      (Grid.hasRow first = true ∧ Grid.hasRow last = true) ∧
      Range.ofCorners (first, 1) (last, Grid.columns) sheet = range := by
  rw [Range.ofRows, ← Bool.and_eq_true_iff]
  split
  · rename_i hgrid
    simp [hgrid]
  · rename_i hgrid
    simp [hgrid]

theorem joined_column_eq_ok_iff (hleft : Lined left l) (hright : Lined right r)
    (hl : Shape.column l = some []) (hr : Shape.column r = some []) :
    joined .column left right sheet = .ok range <->
      exists first last, NamesColumn l first ∧ NamesColumn r last ∧
        Range.ofCorners (1, first) (Grid.rows, last) sheet = range := by
  have hpart : forall {cs word : List Char}, Lined cs word ->
      Cell.columnPart cs = Cell.columnPart word :=
    fun h => h.filter_eq (by decide)
  rw [joined, hpart hleft, hpart hright, ofColumns_eq_ok_iff]
  constructor
  · intro h
    rcases h with ⟨⟨hfirst, hlast⟩, hrange⟩
    exact ⟨_, _, namesColumn_iff.mpr ⟨hl, rfl, hfirst⟩,
      namesColumn_iff.mpr ⟨hr, rfl, hlast⟩, hrange⟩
  · intro h
    rcases h with ⟨first, last, hfirst, hlast, hrange⟩
    rcases namesColumn_iff.mp hfirst with ⟨_, hfirst, hfirstGrid⟩
    rcases namesColumn_iff.mp hlast with ⟨_, hlast, hlastGrid⟩
    rw [← hfirst, ← hlast]
    exact ⟨⟨hfirstGrid, hlastGrid⟩, hrange⟩

theorem joined_row_eq_ok_iff (hleft : Lined left l) (hright : Lined right r)
    (hl : Shape.row l = some []) (hr : Shape.row r = some []) :
    joined .row left right sheet = .ok range <->
      exists first last, NamesRow l first ∧ NamesRow r last ∧
        Range.ofCorners (first, 1) (last, Grid.columns) sheet = range := by
  have hpart : forall {cs word : List Char}, Lined cs word ->
      Cell.rowPart cs = Cell.rowPart word :=
    fun h => h.filter_eq (by decide)
  rw [joined, hpart hleft, hpart hright]
  simp only [readRows, except_bind_eq_ok, except_mapError_eq_ok, ofRows_eq_ok_iff]
  constructor
  · intro h
    rcases h with ⟨first, hfirst, last, hlast, ⟨hfirstGrid, hlastGrid⟩, hrange⟩
    exact ⟨_, _, namesRow_iff.mpr ⟨hl, first, hfirst, rfl, hfirstGrid⟩,
      namesRow_iff.mpr ⟨hr, last, hlast, rfl, hlastGrid⟩, hrange⟩
  · intro h
    rcases h with ⟨first, last, hfirst, hlast, hrange⟩
    rcases namesRow_iff.mp hfirst with ⟨_, n, hn, hfirst, hfirstGrid⟩
    rcases namesRow_iff.mp hlast with ⟨_, m, hm, hlast, hlastGrid⟩
    rw [hfirst] at hfirstGrid hrange
    rw [hlast] at hlastGrid hrange
    exact ⟨n, hn, m, hm, ⟨hfirstGrid, hlastGrid⟩, hrange⟩

theorem joined_eq_ok_iff (hleft : Lined left l) (hright : Lined right r)
    (hl : part.shape l = some []) (hr : part.shape r = some []) :
    joined part left right sheet = .ok range <->
      (exists a b, Part.Names part l a ∧ Part.Names part r b ∧ range.IsHull a b) ∧
        range.sheet = sheet := by
  cases part with
  | cell =>
      rw [joined_cell_eq_ok_iff hleft hright (Part.noBlank_of_shape hl)
        (Part.noBlank_of_shape hr)]
      constructor
      · intro h
        rcases h with ⟨a, b, ha, hb, hrange⟩
        rcases Range.ofCorners_eq_iff.mp hrange with ⟨hbounds, hsheet⟩
        exact ⟨⟨_, _, .cell ha, .cell hb, Range.isHull_iff.mpr hbounds⟩, hsheet⟩
      · intro h
        rcases h with ⟨⟨_, _, ha, hb, hhull⟩, hsheet⟩
        cases ha with
        | cell ha =>
            cases hb with
            | cell hb =>
                exact ⟨(_, _), (_, _), ha, hb,
                  Range.ofCorners_eq_iff.mpr ⟨Range.isHull_iff.mp hhull, hsheet⟩⟩
  | column =>
      rw [joined_column_eq_ok_iff hleft hright hl hr]
      constructor
      · intro h
        rcases h with ⟨first, last, hfirst, hlast, hrange⟩
        rcases Range.ofCorners_columns_eq_iff.mp hrange with ⟨hhull, hsheet⟩
        exact ⟨⟨_, _, .column hfirst, .column hlast, hhull⟩, hsheet⟩
      · intro h
        rcases h with ⟨⟨a, b, hfirst, hlast, hhull⟩, hsheet⟩
        cases hfirst with
        | column hfirst =>
            cases hlast with
            | column hlast =>
                exact ⟨_, _, hfirst, hlast,
                  Range.ofCorners_columns_eq_iff.mpr ⟨hhull, hsheet⟩⟩
  | row =>
      rw [joined_row_eq_ok_iff hleft hright hl hr]
      constructor
      · intro h
        rcases h with ⟨first, last, hfirst, hlast, hrange⟩
        rcases Range.ofCorners_rows_eq_iff.mp hrange with ⟨hhull, hsheet⟩
        exact ⟨⟨_, _, .row hfirst, .row hlast, hhull⟩, hsheet⟩
      · intro h
        rcases h with ⟨⟨a, b, hfirst, hlast, hhull⟩, hsheet⟩
        cases hfirst with
        | row hfirst =>
            cases hlast with
            | row hlast =>
                exact ⟨_, _, hfirst, hlast,
                  Range.ofCorners_rows_eq_iff.mpr ⟨hhull, hsheet⟩⟩

theorem readPair_eq_ok_iff :
    readPair text left right sheet = .ok range <->
      exists l r, Lined left l ∧ Lined right r ∧ IsPair l r range ∧
        range.sheet = sheet := by
  constructor
  · intro h
    rcases exists_part_of_readPair h with ⟨part, hleft, hright⟩
    rcases Part.readsLine_iff.mp hleft with ⟨l, hleft, hl⟩
    rcases Part.readsLine_iff.mp hright with ⟨r, hright, hr⟩
    rw [readPair_eq_joined hleft hright hl hr, joined_eq_ok_iff hleft hright hl hr] at h
    rcases h with ⟨⟨a, b, hpair⟩, hsheet⟩
    exact ⟨l, r, hleft, hright, ⟨part, a, b, hpair⟩, hsheet⟩
  · intro h
    rcases h with ⟨l, r, hleft, hright, ⟨part, a, b, ha, hb, hhull⟩, hsheet⟩
    rw [readPair_eq_joined hleft hright ha.shape_eq hb.shape_eq,
      joined_eq_ok_iff hleft hright ha.shape_eq hb.shape_eq]
    exact ⟨⟨a, b, ha, hb, hhull⟩, hsheet⟩

end Pairs

end Reference

end Precedents
