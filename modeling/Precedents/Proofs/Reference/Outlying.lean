import Precedents.Proofs.Reference.Naming
import Precedents.Proofs.Reference.Printing

/-!
# Addresses on and off the grid

A row and a column are written as an address whether they lie on the grid or not.  What
is written for a cell of the grid is read as that cell.  Anything else is refused: it
has no letters or too many of them, or the sign of a negative row, and then not the
shape of an address, or it has that shape and lies beyond the grid.
-/

namespace Precedents

open Text

namespace Cell

variable {row col : Int}

theorem shape_address_iff :
    Shape.cell (address row col).toList = some [] <->
      0 ≤ row ∧ IsColumnWord (Column.letters col).toList := by
  constructor
  · intro h
    have hrow : 0 ≤ row := by
      apply Int.not_lt.mp
      intro hneg
      have hsign : '-' ∈ (address row col).toList := by
        rw [toList_address, toList_toString_of_neg hneg]
        exact List.mem_append_right _ List.mem_cons_self
      exact absurd (Terminal.takes_cell.all h '-' hsign) (by decide)
    rcases shape_cell_iff.mp h with ⟨left, right, haddress, hleft, hright⟩
    rcases shape_column_iff.mp hleft with ⟨letters, hletters, hlength⟩
    have hsame : (Column.letters col).toList = letters := by
      calc (Column.letters col).toList
          = columnPart (address row col).toList := by
            rw [toList_address, columnPart_append isPlainLetter_of_mem_letters
              (isRowWord_toString hrow)]
        _ = columnPart left := by rw [haddress, (parts_append hleft hright).left]
        _ = letters := (hletters.filter_eq (by decide)).left
    rw [hsame]
    exact ⟨hrow, hletters.isColumnWord hlength⟩
  · intro h
    rw [← List.append_nil (address row col).toList]
    exact cell_address_of_words h.right h.left (by simp)

def refusal (row col : Int) : ReferenceError :=
  if 0 ≤ row ∧ 1 ≤ col ∧ col ≤ 18278 then .cellOffGrid (address row col)
  else .invalidCell (address row col)

/--
The address of a row and a column, of which the row can be written, is read as them if
they lie on the grid, and is refused otherwise.
-/
theorem readAddress_address_eq (row col : Int)
    (h : (toString row.natAbs).length ≤ Numeral.digitLimit) :
    readAddress (address row col) =
      if 1 ≤ row ∧ row ≤ 1048576 ∧ 1 ≤ col ∧ col ≤ 16384 then .ok (row, col)
      else .error (refusal row col) := by
  by_cases hwords : 0 ≤ row ∧ IsColumnWord (Column.letters col).toList
  · have hcols := isColumnWord_letters_iff.mp hwords.right
    have hrefusal : refusal row col = .cellOffGrid (address row col) :=
      if_pos ⟨hwords.left, hcols⟩
    have hshort : (toString row).length ≤ Numeral.digitLimit := by
      rw [← Int.natAbs_of_nonneg hwords.left]
      exact h
    rw [readAddress_of_words hwords.right hwords.left hshort, hrefusal]
    simp only [Bool.and_eq_true, Grid.hasRow_iff, Grid.hasColumn_iff, and_assoc]
  · have hshape : Scanner.readsAll Shape.cell (address row col).toList = false :=
      beq_eq_false_iff_ne.mpr (mt shape_address_iff.mp hwords)
    rw [isColumnWord_letters_iff] at hwords
    have hrefusal : refusal row col = .invalidCell (address row col) := if_neg hwords
    rw [if_neg (by omega), hrefusal]
    simp [readAddress, (noBlank_address row col).trim_eq, hshape]

theorem bounds_read :
    (toString (1048576 : Int).natAbs).length ≤ Numeral.digitLimit ∧
      readAddress (address 1048576 16384) = .ok (1048576, 16384) ∧
      readAddress (address 0 16385) = .error (.cellOffGrid "XFE0") ∧
      readAddress (address 1048577 18279) = .error (.invalidCell "AAAA1048577") := by
  have hlast := readAddress_address_eq 1048576 16384 (by decide +kernel)
  have hzero := readAddress_address_eq 0 16385 (by decide +kernel)
  have hfour := readAddress_address_eq 1048577 18279 (by decide +kernel)
  have hwritten : address 0 16385 = "XFE0" ∧ address 1048577 18279 = "AAAA1048577" := by
    decide +kernel
  refine ⟨by decide +kernel, ?_, ?_, ?_⟩
  · rw [hlast, if_pos (by decide)]
  · rw [hzero, if_neg (by decide), refusal, if_pos (by decide), hwritten.left]
  · rw [hfour, if_neg (by decide), refusal, if_neg (by decide), hwritten.right]

end Cell
end Precedents
