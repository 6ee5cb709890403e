import Precedents.Proofs.Function.LookingUp
import Precedents.Proofs.Function.Unknowns
import Precedents.Proofs.Reference.Rereading

/-!
# Addresses lead back to their cells

`ADDRESS` writes the letters of a column and the digits of a row, perhaps with a `$`
in front of either, and a sheet in front of all.  However the parts are marked, the
word names the cell, and whatever the sheet is called, it is split off again.  So the
address of a cell on the grid is read as that cell.
-/

namespace Precedents

open Text

/-! ## Marks -/

def marked (fixed : Bool) (part : String) : String :=
  (if fixed then "$" else "") ++ part

theorem marked_spec {p : Char -> Bool} (fixed : Bool) {part : String}
    (hne : part.toList ≠ []) (hall : forall c, c ∈ part.toList -> p c = true) :
    Marked p (marked fixed part).toList part.toList := by
  refine ⟨?_, hne, hall⟩
  cases fixed with
  | false => exact Or.inl (congrArg String.toList String.empty_append)
  | true => exact Or.inr String.toList_append

theorem namesColumn_marked (fixed : Bool) {col : Int} (h : Grid.hasColumn col = true) :
    NamesColumn (marked fixed (Column.letters col)).toList col := by
  have hbounds := Grid.hasColumn_iff.mp h
  rcases isColumnWord_letters h with ⟨hall, hne, hlength⟩
  refine ⟨_, marked_spec fixed hne hall, hlength, ?_, h⟩
  rw [String.ofList_toList, Column.index_letters (by omega)]

theorem namesRow_marked (fixed : Bool) {row : Int} (h : Grid.hasRow row = true) :
    NamesRow (marked fixed (toString row)).toList row := by
  have hbounds := Grid.hasRow_iff.mp h
  have hnonneg : 0 ≤ row := by omega
  have hword := isRowWord_toString hnonneg
  rcases (Numeral.ofPlainDigits_eq_ok_iff hword.digits).mp (ofPlainDigits_toString h) with
    ⟨hlength, hvalue⟩
  refine ⟨_, marked_spec fixed hword.ne_nil hword.digits, hlength, ?_, h⟩
  rw [← hvalue, Int.toNat_of_nonneg hnonneg]

/-! ## Cells behind a sheet -/

namespace Reference

variable {word : String} {row col : Int}

theorem writes_of_namesCell (h : NamesCell word.toList row col) (sheet : Option String) :
    Writes .cell word (.cell ⟨row, col, sheet⟩) := by
  have haddress : Cell.readAddress word = .ok (row, col) := by
    rw [Cell.readAddress_eq_ok_iff, h.noBlank.trim_eq]
    exact h
  constructor
  · show Terminal.cellShape word.toList = some []
    rw [Terminal.cellShape, Scanner.seq_apply, (namesCell_iff.mp h).left]
    rfl
  · simp only [Literal.reference, Literal.labelledReference, haddress]
    rfl

theorem read_qualifier_cell (h : NamesCell word.toList row col) (name : String)
    (default : Option String) :
    read (qualifier (some name) ++ word) default =
      .ok (.cell ⟨row, col, if name = "" then default else some name⟩) := by
  have hwrites := writes_of_namesCell h
  by_cases hname : name = ""
  · rw [qualifier, if_pos hname, if_pos hname, String.empty_append]
    have hsplit := split_word (hwrites none).shape_eq
    exact (read_of_split (hwrites none).shape_eq hsplit).trans (hwrites default).reference_eq
  · rw [qualifier, if_neg hname, if_neg hname]
    have hsplit := split_of_heads (Sheet.heads_word name) (hwrites none).shape_eq
    exact (read_of_split (hwrites none).shape_eq hsplit).trans
      (hwrites (some name)).reference_eq

end Reference

/-! ## Arguments that may be left out -/

namespace Argument

variable {args : List Value} {v : Value} {i : Nat} {n : Int}

theorem getElem?_of_omitted (h : args.getD i .missing = .missing) :
    args[i]? = none ∨ args[i]? = some .missing := by
  rw [List.getD_eq_getElem?_getD] at h
  cases harg : args[i]? with
  | none => exact Or.inl rfl
  | some v =>
      rw [harg, Option.getD_some] at h
      exact Or.inr (congrArg some h)

theorem getElem?_of_given (h : args.getD i .missing = v) (hv : v ≠ .missing) :
    args[i]? = some v := by
  rw [List.getD_eq_getElem?_getD] at h
  cases harg : args[i]? with
  | none =>
      rw [harg, Option.getD_none] at h
      exact absurd h.symm hv
  | some w =>
      rw [harg, Option.getD_some] at h
      exact congrArg some h

theorem IsWritten.ne_missing (h : IsWritten v n) : v ≠ .missing := by
  cases h with
  | int n => simp
  | text h => simp

theorem index_of_written (function : String) (h : IsWritten v n) (hn : 0 ≤ n) :
    index function v = .ok n.toNat :=
  (index_of_isWritten function h).trans (knownIndex_of_nonneg function hn)

theorem optionalIndex_of_written (function : String)
    (h : IsWritten (args.getD i .missing) n) (hn : 0 ≤ n) :
    Selection.optionalIndex function args i = .ok n.toNat := by
  rw [Selection.optionalIndex, getElem?_of_given rfl h.ne_missing]
  exact index_of_written function h hn

end Argument

/-! ## What is asked for -/

namespace AddressText

open Argument

/-- The argument for the sheet: any text, or none for the empty one. -/
inductive IsSheetArgument : Value -> String -> Prop
  | missing : IsSheetArgument .missing ""
  | text (name : String) : IsSheetArgument (.text name) name

structure Asks (args : List Value) (row col : Int) (name : String) : Prop where
  count : args.length ≤ 5
  row : IsWritten (args.getD 0 .missing) row
  col : IsWritten (args.getD 1 .missing) col
  style : args.getD 2 .missing = .missing ∨
    exists n, IsWritten (args.getD 2 .missing) n ∧ 1 ≤ n ∧ n ≤ 4
  letters : args.getD 3 .missing = .missing ∨ args.getD 3 .missing = .bool true
  sheet : IsSheetArgument (args.getD 4 .missing) name

variable {args : List Value} {row col : Int} {name : String}

theorem IsSheetArgument.sheetText_eq {v : Value} (h : IsSheetArgument v name) :
    sheetText v = name := by
  cases h with
  | missing => rfl
  | text name => rfl

theorem usesLetters_of_omitted (h : args.getD 3 .missing = .missing) :
    usesLetters args = true := by
  rcases getElem?_of_omitted h with h | h
  · rw [usesLetters, h]
  · rw [usesLetters, h]

theorem usesLetters_of_true (h : args.getD 3 .missing = .bool true) :
    usesLetters args = true := by
  rw [usesLetters, getElem?_of_given h (by simp)]
  rfl

theorem styleNumber_of_omitted (h : args.getD 2 .missing = .missing) :
    styleNumber args = .ok 1 := by
  rcases getElem?_of_omitted h with h | h
  · rw [styleNumber, h]
  · rw [styleNumber, h]

theorem styleNumber_of_given {v : Value} (h : args.getD 2 .missing = v)
    (hv : v ≠ .missing) : styleNumber args = index "ADDRESS" v := by
  rw [styleNumber, getElem?_of_given h hv]
  cases v with
  | missing => exact absurd rfl hv
  | _ => rfl

namespace Asks

theorem two_le_length (h : Asks args row col name) : 2 ≤ args.length := by
  have hcol := getElem?_of_given rfl h.col.ne_missing
  exact (List.getElem?_eq_some_iff.mp hcol).1

theorem usesLetters_eq (h : Asks args row col name) : usesLetters args = true := by
  rcases h.letters with hletters | hletters
  · exact usesLetters_of_omitted hletters
  · exact usesLetters_of_true hletters

theorem exists_style (h : Asks args row col name) :
    exists number style, styleNumber args = .ok number ∧ style? number = some style := by
  have hnumber : exists number, styleNumber args = .ok number ∧ 1 ≤ number ∧ number ≤ 4 := by
    rcases h.style with hstyle | ⟨n, hn, hlow, hhigh⟩
    · exact ⟨1, styleNumber_of_omitted hstyle, by omega, by omega⟩
    · refine ⟨n.toNat, ?_, by omega, by omega⟩
      rw [styleNumber_of_given rfl hn.ne_missing]
      exact index_of_written "ADDRESS" hn (by omega)
  rcases hnumber with ⟨number, hnumber, hlow, hhigh⟩
  have hstyle : style? number ≠ none := by
    rw [Ne, style?_eq_none_iff]
    omega
  rcases Option.ne_none_iff_exists'.mp hstyle with ⟨style, hstyle⟩
  exact ⟨number, style, hnumber, hstyle⟩

theorem ruling_eq (h : Asks args row col name) (hrow : 0 < row) (hcol : 0 < col) :
    exists style : Style, ruling args = .ok (some (.text
      (Reference.qualifier (some name) ++ lettered style row.toNat col.toNat))) := by
  rcases h.exists_style with ⟨number, style, hnumber, hstyle⟩
  have hcount : requireCount ReferenceFunction.address.name args 2 (some 5) = .ok () :=
    requireCount_ok h.two_le_length h.count
  have hrows := optionalIndex_of_written "ADDRESS" h.row (by omega)
  have hcols := optionalIndex_of_written "ADDRESS" h.col (by omega)
  have hzero : (decide (row.toNat = 0) || decide (col.toNat = 0)) = false := by
    simp
    omega
  refine ⟨style, ?_⟩
  have hwritten : ruling args = written args row.toNat col.toNat number := by
    unfold ruling
    simp only [hcount, hrows, hcols, hnumber]
    rfl
  rw [hwritten, written, hzero]
  simp only [hstyle, h.usesLetters_eq, h.sheet.sheetText_eq, Reference.qualifier]
  by_cases hname : name = ""
  · simp only [if_pos hname, String.empty_append]
    rfl
  · simp only [if_neg hname]
    rfl

end Asks

theorem lettered_eq (style : Style) (hrow : 0 ≤ row) (hcol : 0 ≤ col) :
    lettered style row.toNat col.toNat =
      marked style.fixedCol (Column.letters col) ++ marked style.fixedRow (toString row) := by
  have hdigits : toString row.toNat = toString row := by
    rw [← String.toList_inj, toList_toString_of_nonneg hrow]
    exact Nat.toList_repr
  rw [lettered, hdigits, Int.toNat_of_nonneg hcol]
  simp only [marked, String.append_assoc]

theorem namesCell_lettered (style : Style) (hrow : Grid.hasRow row = true)
    (hcol : Grid.hasColumn col = true) :
    Precedents.NamesCell (lettered style row.toNat col.toNat).toList row col := by
  have hrows := Grid.hasRow_iff.mp hrow
  have hcols := Grid.hasColumn_iff.mp hcol
  rw [lettered_eq style (by omega) (by omega), String.toList_append]
  exact ⟨_, _, rfl, namesColumn_marked style.fixedCol hcol,
    namesRow_marked style.fixedRow hrow⟩

/--
The address of a cell on the grid is read as the cell, on the sheet that is given
with it, or on the one that is asked for where that is empty.
-/
theorem address_located (h : Asks args row col name) (hrow : Grid.hasRow row = true)
    (hcol : Grid.hasColumn col = true) (position : Position) (default : Option String) :
    exists text, ReferenceFunction.address.handler position args = .value (.text text) ∧
      Reference.read text default =
        .ok (.cell ⟨row, col, if name = "" then default else some name⟩) := by
  have hrows := Grid.hasRow_iff.mp hrow
  have hcols := Grid.hasColumn_iff.mp hcol
  rcases h.ruling_eq (by omega) (by omega) with ⟨style, hruling⟩
  refine ⟨_, ?_, Reference.read_qualifier_cell (namesCell_lettered style hrow hcol)
    name default⟩
  show Verdict.ofRuling (ruling args) = _
  rw [hruling]
  rfl

theorem spaced_sheet_located :
    Asks [.text "007", .int 28, .missing, .bool true, .text " it's:! "] 7 28 " it's:! " ∧
      exists text, ReferenceFunction.address.handler (.mk 1 1 "S")
          [.text "007", .int 28, .missing, .bool true, .text " it's:! "] =
            .value (.text text) ∧
        Reference.read text (some "T") = .ok (.cell ⟨7, 28, some " it's:! "⟩) := by
  have hwrites : Numeral.Writes "007" 7 :=
    @Numeral.Writes.intro [] ['0', '0', '7'] false .none (by simp [Digits]; decide)
      (by decide) (by decide)
  have hasks : Asks [.text "007", .int 28, .missing, .bool true, .text " it's:! "] 7 28
      " it's:! " :=
    ⟨by decide, .text hwrites, .int 28, Or.inl rfl, Or.inr rfl, .text _⟩
  exact ⟨hasks, address_located hasks (by decide) (by decide) (.mk 1 1 "S") (some "T")⟩

end AddressText
end Precedents
