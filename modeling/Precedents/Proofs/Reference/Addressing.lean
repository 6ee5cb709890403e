import Precedents.Formula.Literal
import Precedents.Proofs.Number.NumberWord
import Precedents.Reference.Printer

/-!
# Columns and rows written and read

The letters of a column stand for its number, and the digits of a row for its
own.  On the grid a column has at most three letters, and a row is far from
having more digits than can be read.
-/

namespace Precedents

open Text

/-! ## Columns -/

namespace Column

theorem letter_of_place : forall place, place < 26 ->
    isPlainLetter (letter place) = true ∧
      upperChar (letter place) = [letter place] ∧
      (letter place).toNat = 65 + place := by
  decide

theorem letterList_of_pos {n : Nat} (h : 0 < n) :
    letterList n = letterList ((n - 1) / 26) ++ [letter ((n - 1) % 26)] := by
  rw [letterList, if_pos h]

theorem letterList_of_not_pos {n : Nat} (h : ¬ 0 < n) : letterList n = [] := by
  rw [letterList, if_neg h]

theorem letterList_forall {P : Char -> Prop}
    (h : forall place, place < 26 -> P (letter place)) (n : Nat) :
    forall c, c ∈ letterList n -> P c := by
  induction n using letterList.induct with
  | case1 n hpos ih =>
      intro c hc
      rw [letterList_of_pos hpos] at hc
      rcases List.mem_append.mp hc with hc | hc
      · exact ih c hc
      · rw [List.mem_singleton.mp hc]
        exact h _ (Nat.mod_lt _ (by decide))
  | case2 n hpos =>
      intro c hc
      rw [letterList_of_not_pos hpos] at hc
      cases hc

theorem isPlainLetter_of_mem {n : Nat} {c : Char} (h : c ∈ letterList n) :
    isPlainLetter c = true := by
  have hall : forall d, d ∈ letterList n -> isPlainLetter d = true :=
    letterList_forall (fun place hplace => (letter_of_place place hplace).left) n
  exact hall c h

theorem letterList_eq_nil_iff {n : Nat} : letterList n = [] <-> n = 0 := by
  by_cases hpos : 0 < n
  · rw [letterList_of_pos hpos]
    exact iff_of_false (by simp) (Nat.ne_of_gt hpos)
  · exact iff_of_true (letterList_of_not_pos hpos) (by omega)

theorem length_letterList_succ_iff {k bound : Nat}
    (h : forall m, (letterList m).length ≤ k <-> m ≤ bound) (n : Nat) :
    (letterList n).length ≤ k + 1 <-> n ≤ 26 * bound + 26 := by
  by_cases hpos : 0 < n
  · have hfront := h ((n - 1) / 26)
    rw [letterList_of_pos hpos, List.length_append, List.length_singleton,
      Nat.add_le_add_iff_right, hfront]
    omega
  · rw [letterList_of_not_pos hpos]
    exact iff_of_true (Nat.zero_le _) (by omega)

theorem length_letterList_le_iff {n : Nat} : (letterList n).length ≤ 3 <-> n ≤ 18278 := by
  have none : forall m, (letterList m).length ≤ 0 <-> m ≤ 0 := by
    intro m
    rw [Nat.le_zero, List.length_eq_zero_iff, letterList_eq_nil_iff, Nat.le_zero]
  exact length_letterList_succ_iff
    (length_letterList_succ_iff (length_letterList_succ_iff none)) n

theorem upper_letterList (n : Nat) :
    (letterList n).flatMap upperChar = letterList n := by
  have hsingle : forall c, c ∈ letterList n -> upperChar c = [c] :=
    letterList_forall
      (fun place hplace => (letter_of_place place hplace).right.left) n
  rw [List.flatMap_def, List.map_congr_left hsingle]
  exact List.flatMap_singleton' _

theorem foldl_letterList (n : Nat) :
    (letterList n).foldl (fun n c => n * 26 + ((c.toNat : Int) - 64)) 0 = n := by
  induction n using letterList.induct with
  | case1 n hpos ih =>
      have hplace := (letter_of_place ((n - 1) % 26) (Nat.mod_lt _ (by decide))).right.right
      rw [letterList_of_pos hpos, List.foldl_append, ih, List.foldl_cons,
        List.foldl_nil, hplace]
      omega
  | case2 n hpos =>
      rw [letterList_of_not_pos hpos, List.foldl_nil]
      omega

theorem index_ofList_letterList (n : Nat) :
    index (String.ofList (letterList n)) = n := by
  rw [index, upper, String.toList_ofList, String.toList_ofList, upper_letterList,
    foldl_letterList]

end Column

/-! ## Rows -/

theorem digits_toDigits (n : Nat) : Digits (Nat.toDigits 10 n) := by
  intro c hc
  have h := Nat.isDigit_of_mem_toDigits (by decide) (by decide) hc
  simp only [Char.isDigit, Bool.and_eq_true, decide_eq_true_eq] at h
  simp only [isPlainDigit, Bool.and_eq_true, decide_eq_true_eq]
  exact h

theorem digitValue?_of_isPlainDigit {c : Char} (h : isPlainDigit c = true) :
    digitValue? c = some (c.toNat - 48) := by
  have heq := isPlainDigit_forall (fun d => digitValue? d == some (d.toNat - 48))
    (by decide) h
  exact beq_iff_eq.mp heq

theorem filterMap_digitValue? {ds : List Char} (h : Digits ds) :
    ds.filterMap digitValue? = ds.map fun c => c.toNat - 48 := by
  induction ds with
  | nil => rfl
  | cons c ds ih =>
      have hc := digitValue?_of_isPlainDigit (h c List.mem_cons_self)
      rw [List.filterMap_cons_some hc, List.map_cons,
        ih fun d hd => h d (List.mem_cons_of_mem c hd)]

namespace Numeral

theorem value_eq_ofDigitChars {digits : List Char} (h : Digits digits) :
    value (digits.filterMap digitValue?) = Nat.ofDigitChars 10 digits 0 := by
  rw [filterMap_digitValue? h, value, List.foldl_map, Nat.ofDigitChars_eq_foldl]
  rfl

theorem ofPlainDigits_eq_ok_iff {digits : List Char} {n : Nat} (h : Digits digits) :
    ofPlainDigits digits = .ok n <->
      digits.length ≤ digitLimit ∧ n = Nat.ofDigitChars 10 digits 0 := by
  rw [ofPlainDigits, natural, value_eq_ofDigitChars h, filterMap_digitValue? h,
    List.length_map]
  by_cases hlength : digits.length ≤ digitLimit
  · simp [hlength, eq_comm]
  · simp [hlength]

theorem ofPlainDigits_toDigits {n : Nat} (h : (Nat.toDigits 10 n).length ≤ digitLimit) :
    ofPlainDigits (Nat.toDigits 10 n) = .ok n := by
  have hback := Nat.ofDigitChars_toDigits (b := 10) (n := n) (by decide) (by decide)
  exact (ofPlainDigits_eq_ok_iff (digits_toDigits n)).mpr ⟨h, hback.symm⟩

end Numeral

/-! ## Words of columns and rows -/

structure IsColumnWord (cs : List Char) : Prop where
  letters : forall c, c ∈ cs -> isPlainLetter c = true
  ne_nil : cs ≠ []
  length_le : cs.length ≤ 3

structure IsRowWord (cs : List Char) : Prop where
  digits : Digits cs
  ne_nil : cs ≠ []

theorem isPlainDigit_of_letter {c : Char} (h : isPlainLetter c = true) :
    isPlainDigit c = false := by
  cases hc : isPlainDigit c with
  | false => rfl
  | true =>
      have hnot := isPlainDigit_forall (fun d => !isPlainLetter d) (by decide) hc
      rw [h] at hnot
      cases hnot

theorem isPlainLetter_of_digit {c : Char} (h : isPlainDigit c = true) :
    isPlainLetter c = false := by
  cases hc : isPlainLetter c with
  | false => rfl
  | true =>
      rw [isPlainDigit_of_letter hc] at h
      cases h

theorem isBlank_eq_false_of_letter {c : Char} (h : isPlainLetter c = true) :
    isBlank c = false :=
  Terminal.isBlank_eq_false_of_opening (t := .cell) (by decide)
    (by simp [Terminal.opening, h])

theorem isBlank_eq_false_of_digit {c : Char} (h : isPlainDigit c = true) :
    isBlank c = false :=
  Terminal.isBlank_eq_false_of_opening (t := .rowRange) (by decide)
    (by simp [Terminal.opening, h])

section Words

variable {letters digits : List Char}

theorem IsColumnWord.dollar_not_mem (h : IsColumnWord letters) : '$' ∉ letters :=
  Scanner.not_mem_of_forall h.letters (by decide)

theorem IsRowWord.dollar_not_mem (h : IsRowWord digits) : '$' ∉ digits :=
  Scanner.not_mem_of_forall h.digits (by decide)

theorem dropWhile_of_not_mem {c : Char} {word : List Char} (h : c ∉ word) :
    word.dropWhile (· == c) = word := by
  apply dropWhile_eq_self
  intro d hd
  have hmem := List.mem_of_mem_head? hd
  simpa using fun heq : d = c => h (heq ▸ hmem)

theorem columnPart_append (hletters : forall c, c ∈ letters -> isPlainLetter c = true)
    (hrow : IsRowWord digits) : Cell.columnPart (letters ++ digits) = letters := by
  have hkeep := List.filter_eq_self.mpr hletters
  have hdrop : digits.filter isPlainLetter = [] := by
    apply List.filter_eq_nil_iff.mpr
    intro c hc
    simp [isPlainLetter_of_digit (hrow.digits c hc)]
  rw [Cell.columnPart, List.filter_append, hkeep, hdrop, List.append_nil]

theorem rowPart_append (hcol : IsColumnWord letters) (hrow : IsRowWord digits) :
    Cell.rowPart (letters ++ digits) = digits := by
  have hkeep := List.filter_eq_self.mpr hrow.digits
  have hdrop : letters.filter isPlainDigit = [] := by
    apply List.filter_eq_nil_iff.mpr
    intro c hc
    simp [isPlainDigit_of_letter (hcol.letters c hc)]
  rw [Cell.rowPart, List.filter_append, hkeep, hdrop, List.nil_append]

namespace Shape

open Scanner

variable {rest : List Char}

theorem dollar_of_not_mem {c : Char} {word : List Char} (h : '$' ∉ c :: word)
    (cs : List Char) : dollar (c :: cs) = some (c :: cs) := by
  have hc : c ≠ '$' := (List.ne_of_not_mem_cons h).symm
  simp [dollar, maybe, char, one, hc]

theorem atMost_append {p : Char -> Bool} {word : List Char} {n : Nat}
    (hword : forall c, c ∈ word -> p c = true) (hlength : word.length ≤ n)
    (hrest : forall c, rest.head? = some c -> p c = false) :
    atMost p n (word ++ rest) = some rest := by
  induction word generalizing n with
  | nil =>
      cases rest with
      | nil => cases n <;> rfl
      | cons c rest =>
          cases n with
          | zero => rfl
          | succ n => simp [atMost, hrest c rfl]
  | cons c word ih =>
      cases n with
      | zero => cases hlength
      | succ n =>
          rw [List.cons_append, atMost, if_pos (hword c List.mem_cons_self)]
          exact ih (fun d hd => hword d (List.mem_cons_of_mem c hd))
            (Nat.le_of_succ_le_succ hlength)

theorem column_append (h : IsColumnWord letters)
    (hrest : forall c, rest.head? = some c -> isPlainLetter c = false) :
    column (letters ++ rest) = some rest := by
  cases letters with
  | nil => exact absurd rfl h.ne_nil
  | cons c tail =>
      have htail : atMost isPlainLetter 2 (tail ++ rest) = some rest :=
        atMost_append (fun d hd => h.letters d (List.mem_cons_of_mem c hd))
          (Nat.le_of_succ_le_succ h.length_le) hrest
      rw [column, seq_apply, List.cons_append,
        dollar_of_not_mem h.dollar_not_mem, Option.bind_some, oneTo,
        seq_apply, one, if_pos (h.letters c List.mem_cons_self), Option.bind_some,
        htail]

theorem row_append (h : IsRowWord digits)
    (hrest : forall c, rest.head? = some c -> isPlainDigit c = false) :
    row (digits ++ rest) = some rest := by
  cases digits with
  | nil => exact absurd rfl h.ne_nil
  | cons c tail =>
      rw [row, seq_apply, List.cons_append,
        dollar_of_not_mem h.dollar_not_mem, Option.bind_some, many1,
        seq_apply, one, if_pos (h.digits c List.mem_cons_self), Option.bind_some,
        many, List.dropWhile_append_of_pos
          fun d hd => h.digits d (List.mem_cons_of_mem c hd),
        dropWhile_eq_self hrest]

theorem cell_append (hcol : IsColumnWord letters) (hrow : IsRowWord digits)
    (hrest : forall c, rest.head? = some c -> isPlainDigit c = false) :
    cell (letters ++ digits ++ rest) = some rest := by
  have hhead : forall c, (digits ++ rest).head? = some c ->
      isPlainLetter c = false := by
    intro c hc
    cases digits with
    | nil => exact absurd rfl hrow.ne_nil
    | cons d digits =>
        injection hc with hc
        rw [← hc]
        exact isPlainLetter_of_digit (hrow.digits d List.mem_cons_self)
  rw [cell, seq_apply, List.append_assoc, column_append hcol hhead,
    Option.bind_some, row_append hrow hrest]

end Shape

end Words
end Precedents
