import Precedents.Proofs.Formula.Lexing
import Precedents.Proofs.Reference.Addressing

/-!
# What words name

A word names a column by its letters, a row by its digits, and a cell by both; a
`$` in front of either part is passed over.  The scanners read just these words in
full, and the address of a cell is read just from the words that name it.
-/

namespace Precedents

open Text

/-! ## Letters and digits behind a `$` -/

section Marked

open Scanner

variable {p : Char -> Bool} {s : Scanner} {word : List Char}

/-- Characters of a class, at least one, perhaps with a `$` in front. -/
structure Marked (p : Char -> Bool) (word own : List Char) : Prop where
  word_eq : word = own ∨ word = '$' :: own
  ne_nil : own ≠ []
  all : forall c, c ∈ own -> p c = true

theorem reads_dollar {W : List Char -> Prop} (hs : Reads W s) :
    Reads (fun word => exists own, (word = own ∨ word = '$' :: own) ∧ W own)
      (Shape.dollar >=> s) := by
  apply reads_mono (reads_seq (reads_maybe (reads_char '$')) hs)
  intro word hword
  rcases hword with ⟨mark, own, hread, hmark, hown⟩
  rw [hread]
  refine ⟨own, ?_, hown⟩
  rcases hmark with hmark | hmark
  · rw [hmark]
    exact Or.inl rfl
  · rw [hmark]
    exact Or.inr rfl

theorem Marked.filter_eq {own : List Char} (h : Marked p word own) (hp : p '$' = false) :
    word.filter p = own ∧ word.dropWhile (· == '$') = own := by
  have hfilter := List.filter_eq_self.mpr h.all
  have hdrop : own.dropWhile (· == '$') = own :=
    dropWhile_of_not_mem (not_mem_of_forall h.all hp)
  rcases h.word_eq with hword | hword
  · rw [hword]
    exact ⟨hfilter, hdrop⟩
  · rw [hword, List.filter_cons_of_neg (by simp [hp]), List.dropWhile_cons_of_pos rfl]
    exact ⟨hfilter, hdrop⟩

end Marked

/-! ## Names -/

def NamesColumn (word : List Char) (col : Int) : Prop :=
  exists letters, Marked isPlainLetter word letters ∧ letters.length ≤ 3 ∧
    col = Column.index (String.ofList letters) ∧ Grid.hasColumn col = true

/-- Digits, perhaps behind a `$` and not too many to be read, of a row on the grid. -/
def NamesRow (word : List Char) (row : Int) : Prop :=
  exists digits, Marked isPlainDigit word digits ∧
    digits.length ≤ Numeral.digitLimit ∧
    row = Nat.ofDigitChars 10 digits 0 ∧ Grid.hasRow row = true

def NamesCell (word : List Char) (row col : Int) : Prop :=
  exists left right, word = left ++ right ∧ NamesColumn left col ∧ NamesRow right row

/-! ## Reading behind a `$` -/

namespace Marked

open Scanner

variable {p q : Char -> Bool} {word own : List Char}

theorem isColumnWord (h : Marked isPlainLetter word own) (hlength : own.length ≤ 3) :
    IsColumnWord own :=
  ⟨h.all, h.ne_nil, hlength⟩

theorem isRowWord (h : Marked isPlainDigit word own) : IsRowWord own :=
  ⟨h.all, h.ne_nil⟩

theorem dollar_append (h : Marked p word own) (hp : p '$' = false) (rest : List Char) :
    Shape.dollar (word ++ rest) = Shape.dollar (own ++ rest) := by
  have hmark : '$' ∉ own := not_mem_of_forall h.all hp
  rcases h.word_eq with hword | hword
  · rw [hword]
  · cases own with
    | nil => exact absurd rfl h.ne_nil
    | cons c tail =>
        rw [hword, List.cons_append, List.cons_append, Shape.dollar_of_not_mem hmark]
        rfl

theorem seq_append (h : Marked p word own) (hp : p '$' = false) (s : Scanner)
    (rest : List Char) :
    (Shape.dollar >=> s) (word ++ rest) = (Shape.dollar >=> s) (own ++ rest) := by
  rw [seq_apply, seq_apply, h.dollar_append hp]

theorem filter_eq_nil (h : Marked p word own) (hmark : q '$' = false)
    (hother : forall c, p c = true -> q c = false) : word.filter q = [] := by
  have hown : own.filter q = [] := by
    apply List.filter_eq_nil_iff.mpr
    intro c hc
    simp [hother c (h.all c hc)]
  rcases h.word_eq with hword | hword
  · rw [hword, hown]
  · rw [hword, List.filter_cons_of_neg (by simp [hmark]), hown]

theorem head_not_letter (h : Marked isPlainDigit word own) :
    forall c, word.head? = some c -> isPlainLetter c = false := by
  intro c hc
  have hmem : c ∈ word := List.mem_of_mem_head? hc
  have hchar : c = '$' ∨ c ∈ own := by
    rcases h.word_eq with hword | hword
    · exact Or.inr (hword ▸ hmem)
    · rw [hword] at hmem
      exact List.mem_cons.mp hmem
  rcases hchar with hdollar | hown
  · rw [hdollar]
    decide
  · exact isPlainLetter_of_digit (h.all c hown)

end Marked

/-! ## The scanners read just the names -/

section Shapes

open Scanner

variable {word left right : List Char}

theorem reads_column :
    Reads (fun word => exists letters, Marked isPlainLetter word letters ∧
      letters.length ≤ 3) Shape.column := by
  apply reads_mono (reads_dollar (reads_seq reads_one (reads_atMost 2)))
  intro word hword
  rcases hword with ⟨own, hmark, first, tail, hown, ⟨c, hfirst, hc⟩, hlength, htail⟩
  rw [hfirst, List.singleton_append] at hown
  rw [hown] at hmark
  exact ⟨c :: tail, ⟨hmark, List.cons_ne_nil c tail,
    List.forall_mem_cons.mpr ⟨hc, htail⟩⟩, Nat.succ_le_succ hlength⟩

theorem reads_row : Reads (fun word => exists digits, Marked isPlainDigit word digits)
    Shape.row := by
  apply reads_mono (reads_dollar reads_many1)
  intro word hword
  rcases hword with ⟨own, hmark, hne, hall⟩
  exact ⟨own, hmark, hne, hall⟩

theorem shape_column_append {letters : List Char}
    (h : Marked isPlainLetter word letters) (hlength : letters.length ≤ 3)
    (hrest : forall c, right.head? = some c -> isPlainLetter c = false) :
    Shape.column (word ++ right) = some right :=
  (h.seq_append (by decide) _ right).trans
    (Shape.column_append (h.isColumnWord hlength) hrest)

theorem shape_column_iff :
    Shape.column word = some [] <->
      exists letters, Marked isPlainLetter word letters ∧ letters.length ≤ 3 := by
  constructor
  · intro h
    rw [← List.append_nil word] at h
    exact reads_column.word h
  · intro h
    rcases h with ⟨letters, hmarked, hlength⟩
    have hread := @shape_column_append word [] letters hmarked hlength (by simp)
    rwa [List.append_nil] at hread

theorem shape_row_iff :
    Shape.row word = some [] <-> exists digits, Marked isPlainDigit word digits := by
  constructor
  · intro h
    rw [← List.append_nil word] at h
    exact reads_row.word h
  · intro h
    rcases h with ⟨digits, hmarked⟩
    have hread := @Shape.row_append digits [] hmarked.isRowWord (by simp)
    have hsame := hmarked.seq_append (by decide) (many1 isPlainDigit) []
    rw [List.append_nil] at hsame
    exact hsame.trans hread

theorem shape_cell_iff :
    Shape.cell word = some [] <->
      exists left right, word = left ++ right ∧ Shape.column left = some [] ∧
        Shape.row right = some [] := by
  constructor
  · intro h
    rcases reads_seq reads_column reads_row word [] h with
      ⟨read, hword, left, right, hread, hleft, hright⟩
    rw [List.append_nil] at hword
    rw [hread] at hword
    exact ⟨left, right, hword, shape_column_iff.mpr hleft, shape_row_iff.mpr hright⟩
  · intro h
    rcases h with ⟨left, right, hword, hleft, hright⟩
    rcases shape_column_iff.mp hleft with ⟨letters, hmarked, hlength⟩
    rcases shape_row_iff.mp hright with ⟨digits, hdigits⟩
    rw [hword, Shape.cell, seq_apply,
      shape_column_append hmarked hlength hdigits.head_not_letter, Option.bind_some,
      hright]

/-- The letters of a cell are those of its column, and the digits those of its row. -/
theorem parts_append (hleft : Shape.column left = some [])
    (hright : Shape.row right = some []) :
    Cell.columnPart (left ++ right) = Cell.columnPart left ∧
      Cell.rowPart (left ++ right) = Cell.rowPart right := by
  rcases shape_column_iff.mp hleft with ⟨letters, hletters, _⟩
  rcases shape_row_iff.mp hright with ⟨digits, hdigits⟩
  have hcolumn := hdigits.filter_eq_nil (q := isPlainLetter) (by decide)
    fun _ => isPlainLetter_of_digit
  have hrow := hletters.filter_eq_nil (q := isPlainDigit) (by decide)
    fun _ => isPlainDigit_of_letter
  constructor
  · rw [Cell.columnPart, List.filter_append, hcolumn, List.append_nil, Cell.columnPart]
  · rw [Cell.rowPart, List.filter_append, hrow, List.nil_append, Cell.rowPart]

end Shapes

/-! ## What a word that is read names -/

section Named

variable {word : List Char} {row col : Int}

theorem namesColumn_iff :
    NamesColumn word col <-> Shape.column word = some [] ∧
      col = Column.index (String.ofList (Cell.columnPart word)) ∧
      Grid.hasColumn col = true := by
  constructor
  · intro h
    rcases h with ⟨letters, hmarked, hlength, hcol⟩
    refine ⟨shape_column_iff.mpr ⟨letters, hmarked, hlength⟩, ?_⟩
    rw [Cell.columnPart, (hmarked.filter_eq (by decide)).left]
    exact hcol
  · intro h
    rcases h with ⟨hshape, hcol⟩
    rcases shape_column_iff.mp hshape with ⟨letters, hmarked, hlength⟩
    rw [Cell.columnPart, (hmarked.filter_eq (by decide)).left] at hcol
    exact ⟨letters, hmarked, hlength, hcol⟩

theorem namesRow_iff :
    NamesRow word row <-> Shape.row word = some [] ∧
      exists n : Nat, Numeral.ofPlainDigits (Cell.rowPart word) = .ok n ∧ row = n ∧
        Grid.hasRow row = true := by
  constructor
  · intro h
    rcases h with ⟨digits, hmarked, hlength, hrow, hgrid⟩
    refine ⟨shape_row_iff.mpr ⟨digits, hmarked⟩, _, ?_, hrow, hgrid⟩
    rw [Cell.rowPart, (hmarked.filter_eq (by decide)).left]
    exact (Numeral.ofPlainDigits_eq_ok_iff hmarked.all).mpr ⟨hlength, rfl⟩
  · intro h
    rcases h with ⟨hshape, n, hread, hrow, hgrid⟩
    rcases shape_row_iff.mp hshape with ⟨digits, hmarked⟩
    rw [Cell.rowPart, (hmarked.filter_eq (by decide)).left] at hread
    rcases (Numeral.ofPlainDigits_eq_ok_iff hmarked.all).mp hread with ⟨hlength, hn⟩
    rw [hn] at hrow
    exact ⟨digits, hmarked, hlength, hrow, hgrid⟩

theorem namesCell_iff :
    NamesCell word row col <-> Shape.cell word = some [] ∧
      (exists n : Nat, Numeral.ofPlainDigits (Cell.rowPart word) = .ok n ∧ row = n ∧
        Grid.hasRow row = true) ∧
      col = Column.index (String.ofList (Cell.columnPart word)) ∧
      Grid.hasColumn col = true := by
  constructor
  · intro h
    rcases h with ⟨left, right, hword, hleft, hright⟩
    rcases namesColumn_iff.mp hleft with ⟨hleft, hcol⟩
    rcases namesRow_iff.mp hright with ⟨hright, hrow⟩
    rcases parts_append hleft hright with ⟨hletters, hdigits⟩
    refine ⟨shape_cell_iff.mpr ⟨left, right, hword, hleft, hright⟩, ?_⟩
    rw [hword, hletters, hdigits]
    exact ⟨hrow, hcol⟩
  · intro h
    rcases h with ⟨hshape, hrow, hcol⟩
    rcases shape_cell_iff.mp hshape with ⟨left, right, hword, hleft, hright⟩
    rcases parts_append hleft hright with ⟨hletters, hdigits⟩
    rw [hword, hletters] at hcol
    rw [hword, hdigits] at hrow
    exact ⟨left, right, hword, namesColumn_iff.mpr ⟨hleft, hcol⟩,
      namesRow_iff.mpr ⟨hright, hrow⟩⟩

end Named

/-! ## No white space -/

section Solid

variable {word : List Char} {row col : Int}

theorem isBlank_of_isCellChar {c : Char} (h : Terminal.isCellChar c = true) :
    isBlank c = false := by
  simp only [Terminal.isCellChar, Terminal.isColumnChar, Terminal.isRowChar,
    Bool.or_eq_true, beq_iff_eq] at h
  rcases h with (h | h) | h | h
  · rw [h]
    decide
  · exact isBlank_eq_false_of_letter h
  · rw [h]
    decide
  · exact isBlank_eq_false_of_digit h

theorem noBlank_of_cellChars (h : forall c, c ∈ word -> Terminal.isCellChar c = true) :
    NoBlank word :=
  fun c hc => isBlank_of_isCellChar (h c hc)

theorem NamesCell.noBlank (h : NamesCell word row col) : NoBlank word :=
  noBlank_of_cellChars (Terminal.takes_cell.all (namesCell_iff.mp h).left)

end Solid

/-! ## Addresses -/

/-- An address is read just from the words that name its cell, with white space around. -/
theorem Cell.readAddress_eq_ok_iff {text : String} {row col : Int} :
    readAddress text = .ok (row, col) <-> NamesCell (trim text.toList) row col := by
  rw [namesCell_iff]
  simp only [readAddress, Scanner.readsAll, beq_iff_eq]
  constructor
  · intro h
    split at h
    · rename_i hshape
      split at h
      · cases h
      · rename_i n hn
        split at h
        · rename_i hgrid
          rw [Bool.and_eq_true] at hgrid
          cases h
          exact ⟨hshape, ⟨n, hn, rfl, hgrid.left⟩, rfl, hgrid.right⟩
        · cases h
    · cases h
  · intro h
    rcases h with ⟨hshape, ⟨n, hn, hrow, hrowGrid⟩, hcol, hcolGrid⟩
    rw [hrow] at hrowGrid
    rw [hcol] at hcolGrid
    rw [if_pos hshape, hn]
    simp only [hrowGrid, hcolGrid, Bool.and_self, if_true, hrow, hcol]

end Precedents
