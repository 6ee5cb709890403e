import Precedents.Proofs.Reference.Pairing

/-!
# Two readers of references

A reference in a formula is read by the kind of its word, a reference in a text by
trying one kind after another.  On a word of a kind they agree: the kinds that are
tried earlier do not fit, and both find the same letters and the same digits in
it.  They refuse the same words, for the same reasons.
-/

namespace Precedents

open Text

/-! ## The parts of a pair -/

section Pairs

open Scanner

variable {part : Scanner} {p : Char -> Bool} {word : List Char}

def PairOf (part : Scanner) (word : List Char) : Prop :=
  exists left right, word = left ++ ':' :: right ∧ part left = some [] ∧
    part right = some []

theorem pairOf_of_shape (hstops : StopsAt [':'] part) (htakes : Takes anyChar part)
    (h : (part >=> char ':' >=> part >=> notBefore p) word = some []) :
    PairOf part word := by
  simp only [seq_apply, Option.bind_eq_some_iff] at h
  rcases h with ⟨middle, hleft, right, hcolon, last, hright, hlast⟩
  rcases htakes word middle hleft with ⟨left, hword, _⟩
  rcases reads_char ':' middle right hcolon with ⟨colon, hmiddle, heq⟩
  rw [heq, List.singleton_append] at hmiddle
  rw [hmiddle] at hword hleft
  rw [hword] at hleft
  have hnone : forall c, c ∈ last -> false = true := takes_notBefore.all hlast
  have hnil : last = [] := by
    rw [List.eq_nil_iff_forall_not_mem]
    intro c hc
    exact Bool.false_ne_true (hnone c hc)
  rw [hnil] at hright
  exact ⟨left, right, hword, hstops.word (startsIn_cons.mpr List.mem_cons_self) hleft,
    hright⟩

end Pairs

/-! ## Letters and digits of a word -/

section Parts

variable {word : List Char}

theorem columnName_eq (h : Shape.column word = some []) :
    Literal.columnName word = String.ofList (Cell.columnPart word) := by
  rcases shape_column_iff.mp h with ⟨letters, hmarked, _⟩
  rcases hmarked.filter_eq (by decide) with ⟨hfilter, hdrop⟩
  rw [Literal.columnName, Cell.columnPart, hfilter, hdrop]

theorem rowNumber_eq (h : Shape.row word = some []) :
    Literal.rowNumber word =
      ((Numeral.ofPlainDigits (Cell.rowPart word)).map Int.ofNat).mapError .numeral := by
  rcases shape_row_iff.mp h with ⟨digits, hmarked⟩
  rcases hmarked.filter_eq (by decide) with ⟨hfilter, hdrop⟩
  rw [Literal.rowNumber, Cell.rowPart, hfilter, hdrop,
    readInteger_eq_of_digits hmarked.all hmarked.ne_nil]

end Parts

namespace Reference

section Pairs

variable {text terminal : String} {left right : List Char} {sheet : Option String}

theorem readPair_cells (hleft : Shape.cell left = some [])
    (hright : Shape.cell right = some []) :
    readPair text left right sheet =
      Literal.range terminal (some .cells) left right sheet :=
  readPair_of_parts .cell hleft hright

theorem readPair_columns (hleft : Shape.column left = some [])
    (hright : Shape.column right = some []) :
    readPair text left right sheet =
      Literal.range terminal (some .columns) left right sheet := by
  rw [readPair_of_parts .column hleft hright, joined, Literal.range, columnName_eq hleft,
    columnName_eq hright]

theorem readPair_rows (hleft : Shape.row left = some []) (hright : Shape.row right = some []) :
    readPair text left right sheet =
      Literal.range terminal (some .rows) left right sheet := by
  rw [readPair_of_parts .row hleft hright, joined, Literal.range, rowNumber_eq hleft,
    rowNumber_eq hright, readRows]
  cases Numeral.ofPlainDigits (Cell.rowPart left) with
  | error error => rfl
  | ok first =>
      cases Numeral.ofPlainDigits (Cell.rowPart right) with
      | error error => rfl
      | ok last => rfl

end Pairs

/-! ## One word, two readers -/

section Words

variable {kind : ReferenceKind} {text word : String} {named default : Option String}

theorem read_of_cell (hsplit : Sheet.split text = .ok (named, word))
    (hcolon : ':' ∉ word.toList) :
    read text default = Literal.reference .cell word (named.or default) := by
  simp only [read, hsplit, bind, Except.bind, splitFirst_of_not_mem hcolon,
    Literal.reference, Literal.labelledReference]
  cases Cell.readAddress word with
  | error error => rfl
  | ok found => rfl

theorem read_of_pair {left right : List Char}
    (hsplit : Sheet.split text = .ok (named, word))
    (hword : word.toList = left ++ ':' :: right) (hcolon : ':' ∉ left)
    (hkind : kind ≠ .cell)
    (hpair : readPair text left right (named.or default) =
      Literal.range kind.terminal.label (some kind) left right (named.or default)) :
    read text default = Literal.reference kind word (named.or default) := by
  have hparts : splitFirst ':' word.toList = some (left, right) := by
    rw [hword]
    exact splitFirst_append hcolon right
  simp only [read, hsplit, bind, Except.bind, hparts, hpair, Literal.reference,
    Literal.labelledReference]
  cases kind with
  | cell => exact absurd rfl hkind
  | cells => rfl
  | columns => rfl
  | rows => rfl

theorem read_of_split (hshape : kind.terminal.shape word.toList = some [])
    (hsplit : Sheet.split text = .ok (named, word)) :
    read text default = Literal.reference kind word (named.or default) := by
  have hcolon : forall {part : Scanner} {q : Char -> Bool} {left : List Char},
      Scanner.Takes q part -> q ':' = false -> part left = some [] -> ':' ∉ left :=
    fun htakes hq hleft => Scanner.not_mem_of_forall (htakes.all hleft) hq
  have hcolumn : Scanner.StopsAt [':'] Shape.column :=
    Terminal.stopsAt_column (by decide) (by decide)
  have hrow : Scanner.StopsAt [':'] Shape.row :=
    Terminal.stopsAt_row (by decide) (by decide)
  cases kind with
  | cell =>
      apply read_of_cell hsplit
      exact hcolon (Scanner.takes_seq Terminal.takes_cell Scanner.takes_notBefore)
        (by decide) hshape
  | cells =>
      rcases pairOf_of_shape (Scanner.stopsAt_seq hcolumn hrow)
        (Scanner.takes_any Terminal.takes_cell) hshape with ⟨left, right, hword, hleft, hright⟩
      exact read_of_pair hsplit hword (hcolon Terminal.takes_cell (by decide) hleft)
        (by simp) (readPair_cells hleft hright)
  | columns =>
      rcases pairOf_of_shape hcolumn (Scanner.takes_any Terminal.takes_column) hshape with
        ⟨left, right, hword, hleft, hright⟩
      exact read_of_pair hsplit hword (hcolon Terminal.takes_column (by decide) hleft)
        (by simp) (readPair_columns hleft hright)
  | rows =>
      rcases pairOf_of_shape hrow (Scanner.takes_any Terminal.takes_row) hshape with
        ⟨left, right, hword, hleft, hright⟩
      exact read_of_pair hsplit hword (hcolon Terminal.takes_row (by decide) hleft)
        (by simp) (readPair_rows hleft hright)

end Words

/-! ## A sheet in front of a word -/

section Sheets

variable {kind : ReferenceKind} {word : String}

def isBodyChar (c : Char) : Bool :=
  Terminal.isCellChar c || c == ':'

theorem isBlank_of_isBodyChar {c : Char} (h : isBodyChar c = true) : isBlank c = false := by
  simp only [isBodyChar, Bool.or_eq_true, beq_iff_eq] at h
  rcases h with h | h
  · exact isBlank_of_isCellChar h
  · rw [h]
    decide

theorem isBodyChar_of_shape (h : kind.terminal.shape word.toList = some []) :
    forall c, c ∈ word.toList -> isBodyChar c = true := by
  have pair : forall {part : Scanner} {q : Char -> Bool} (p : Char -> Bool),
      Scanner.Takes q part -> (forall c, q c = true -> Terminal.isCellChar c = true) ->
      Scanner.Takes isBodyChar
        (part >=> Scanner.char ':' >=> part >=> Scanner.notBefore p) := by
    intro part q p htakes hq
    exact Terminal.takes_pair (Scanner.takes_mono htakes hq) p
  cases kind with
  | cell =>
      have htakes : Scanner.Takes Terminal.isCellChar Terminal.cellShape :=
        Scanner.takes_seq Terminal.takes_cell Scanner.takes_notBefore
      intro c hc
      simp [isBodyChar, htakes.all h c hc]
  | cells => exact (pair _ Terminal.takes_cell fun _ => id).all h
  | columns =>
      exact (pair _ Terminal.takes_column
        (by simp +contextual [Terminal.isCellChar])).all h
  | rows =>
      exact (pair _ Terminal.takes_row
        (by simp +contextual [Terminal.isCellChar])).all h

theorem noBlankEnd_of_shape (h : kind.terminal.shape word.toList = some []) :
    NoBlankEnd word.toList := by
  intro c hc
  exact isBlank_of_isBodyChar (isBodyChar_of_shape h c (List.mem_of_getLast? hc))

theorem split_word (h : kind.terminal.shape word.toList = some []) :
    Sheet.split word = .ok (none, word) := by
  have hchars := isBodyChar_of_shape h
  have hquote : word.toList.head? ≠ some apostrophe :=
    fun hhead => absurd (hchars _ (List.mem_of_mem_head? hhead)) (by decide)
  have hsolid : NoBlank word.toList := fun c hc => isBlank_of_isBodyChar (hchars c hc)
  have hbare : Sheet.Qualifies (trim word.toList) none word.toList := by
    rw [hsolid.trim_eq]
    exact .bare hquote (Scanner.not_mem_of_forall hchars (by decide))
  have hsplit := Sheet.split_of_qualifies hbare
  rwa [String.ofList_toList] at hsplit

theorem split_of_heads {qualifier name : String} (hname : Sheet.Heads qualifier name)
    (h : kind.terminal.shape word.toList = some []) :
    Sheet.split (qualifier ++ word) = .ok (some name, word) := by
  have hsplit := hname word.toList (noBlankEnd_of_shape h)
  rwa [String.ofList_toList] at hsplit

/--
The text of a reference is read as its word is in a formula, behind the word of a
sheet and without one.
-/
theorem read_qualified (h : kind.terminal.shape word.toList = some [])
    (qualifier : Option String)
    (hqualifier : forall own, qualifier = some own ->
      Terminal.sheet.shape own.toList = some []) :
    exists sheet, qualifier.mapM Literal.sheet = .ok sheet ∧
      read (qualifier.getD "" ++ word) none = Literal.reference kind word sheet := by
  cases qualifier with
  | none =>
      refine ⟨none, rfl, ?_⟩
      rw [Option.getD_none, String.empty_append]
      exact read_of_split h (split_word h)
  | some own =>
      have hshape : Terminal.sheetShape (own.toList ++ []) = some [] := by
        rw [List.append_nil]
        exact hqualifier own rfl
      rcases Sheet.exists_heads_of_shape hshape with ⟨name, _, hheads⟩
      rw [String.ofList_toList] at hheads
      refine ⟨some name, ?_, ?_⟩
      · rw [Option.mapM_some, hheads.sheet_eq]
        rfl
      · exact read_of_split h (split_of_heads hheads h)

theorem read_quoted_block :
    ReferenceKind.cells.terminal.shape "$b$02:A1".toList = some [] ∧
      Terminal.sheet.shape "'It''s'!".toList = some [] ∧
      read "'It''s'!$b$02:A1" none = .ok (.range ⟨1, 1, 2, 2, some "It's"⟩) := by
  have hword : ReferenceKind.cells.terminal.shape "$b$02:A1".toList = some [] := by
    decide +kernel
  have hsheet : Terminal.sheet.shape "'It''s'!".toList = some [] := by decide +kernel
  refine ⟨hword, hsheet, ?_⟩
  have hqualifier : forall own, some "'It''s'!" = some own ->
      Terminal.sheet.shape own.toList = some [] := by
    intro own hown
    rw [← Option.some_inj.mp hown]
    exact hsheet
  rcases read_qualified hword (some "'It''s'!") hqualifier with ⟨sheet, hname, hread⟩
  have hown : Option.mapM Literal.sheet (some "'It''s'!") = .ok (some "It's") := by
    decide +kernel
  rw [hown] at hname
  injection hname with hname
  rw [← hname] at hread
  exact hread.trans (by decide +kernel)

end Sheets

end Reference
end Precedents
