import Precedents.Formula.Terminal
import Precedents.Proofs.Text.Cutting
import Precedents.Proofs.Text.Scanning

/-!
# The shapes of terminals

A terminal reads some characters from the start of a text and leaves the rest
as it is.  The first terminal of a text is found with the characters that it
reads.
-/

namespace Precedents

open Text

namespace Text

def anyChar (_ : Char) : Bool := true

namespace Scanner

variable {s : Scanner}

theorem takes_any {p : Char -> Bool} (hs : Takes p s) : Takes anyChar s :=
  takes_mono hs fun _ _ => rfl

theorem takes_literal (word : List Char) : Takes anyChar (literal word) := by
  induction word with
  | nil =>
      intro cs out h
      cases h
      exact ⟨[], rfl, by simp⟩
  | cons c word ih => exact takes_seq (takes_char rfl) ih

end Scanner

end Text

namespace Terminal

open Scanner

/-! ## What a shape leaves -/

theorem takes_quotedSheetRest : Takes anyChar quotedSheetRest := by
  intro cs out h
  unfold quotedSheetRest at h
  split at h
  · rename_i c name rest hrun
    cases h
    refine ⟨(c :: name) ++ [apostrophe, '!'], ?_, fun _ _ => rfl⟩
    rw [quotedRun_eq hrun]
    simp
  · cases h

theorem takes_stringRest : Takes anyChar stringRest := by
  intro cs
  fun_induction stringRest cs with
  | case1 =>
      intro out h
      cases h
  | case2 =>
      intro out h
      cases h
      exact ⟨[quoteMark], rfl, fun _ _ => rfl⟩
  | case3 =>
      intro out h
      cases h
  | case4 rest ih =>
      intro out h
      cases hrest : stringRest rest with
      | some found =>
          rw [hrest] at h
          cases h
          rcases ih out hrest with ⟨word, hcs, _⟩
          refine ⟨quoteMark :: quoteMark :: word, ?_, fun _ _ => rfl⟩
          rw [hcs]
          rfl
      | none =>
          rw [hrest] at h
          cases h
          exact ⟨[quoteMark], rfl, fun _ _ => rfl⟩
  | case5 d rest hd =>
      intro out h
      cases h
      exact ⟨[quoteMark], rfl, fun _ _ => rfl⟩
  | case6 c d rest hc ih =>
      intro out h
      rcases ih out h with ⟨word, hcs, _⟩
      refine ⟨c :: word, ?_, fun _ _ => rfl⟩
      rw [hcs]
      rfl

theorem takes_caseless {q : Char -> Bool} {word : List Char}
    (h : forall letter, letter ∈ word ->
      forall c, (upperChar c == [letter]) = true -> q c = true) :
    Takes q (caseless word) := by
  induction word with
  | nil =>
      intro cs out h
      cases h
      exact ⟨[], rfl, by simp⟩
  | cons letter word ih =>
      apply takes_seq
      · exact takes_mono takes_one (h letter List.mem_cons_self)
      · apply ih
        intro other hother
        exact h other (List.mem_cons_of_mem _ hother)

def isTruthChar (c : Char) : Bool :=
  ['T', 'R', 'U', 'E', 'F', 'A', 'L', 'S'].any fun letter =>
    upperChar c == [letter]

theorem takes_booleanShape : Takes isTruthChar booleanShape := by
  have word : forall letters : List Char,
      (forall letter, letter ∈ letters ->
        letter ∈ ['T', 'R', 'U', 'E', 'F', 'A', 'L', 'S']) ->
      Takes isTruthChar (caseless letters) := by
    intro letters hletters
    apply takes_caseless
    intro letter hletter c hc
    exact List.any_eq_true.mpr ⟨letter, hletters letter hletter, hc⟩
  exact takes_seq (takes_either (word _ (by decide)) (word _ (by decide)))
    takes_notBefore

theorem takes_errorShape : Takes anyChar errorShape := by
  intro cs out h
  rcases List.exists_of_findSome?_eq_some h with ⟨text, _, htext⟩
  exact takes_literal text.toList cs out htext

def isColumnChar (c : Char) : Bool :=
  c == '$' || isPlainLetter c

def isRowChar (c : Char) : Bool :=
  c == '$' || isPlainDigit c

def isCellChar (c : Char) : Bool :=
  isColumnChar c || isRowChar c

theorem takes_column : Takes isColumnChar Shape.column := by
  apply takes_seq (takes_maybe (takes_char rfl))
  exact takes_mono (takes_oneTo 2) (by simp +contextual [isColumnChar])

theorem takes_row : Takes isRowChar Shape.row := by
  apply takes_seq (takes_maybe (takes_char rfl))
  exact takes_mono takes_many1 (by simp +contextual [isRowChar])

theorem takes_cell : Takes isCellChar Shape.cell := by
  apply takes_seq
  · exact takes_mono takes_column (by simp +contextual [isCellChar])
  · exact takes_mono takes_row (by simp +contextual [isCellChar])

theorem isNameRest_of_isNameStart {c : Char} (h : isNameStart c = true) :
    isNameRest c = true := by
  simp only [isNameStart, Bool.and_eq_true] at h
  simp [isNameRest, h.left]

theorem takes_nameScanner : Takes isNameRest Sheet.nameScanner :=
  takes_seq (takes_mono takes_one fun _ => isNameRest_of_isNameStart) takes_many

def isNameChar (c : Char) : Bool :=
  isNameRest c || c == '\\'

theorem takes_nameShape : Takes isNameChar nameShape := by
  apply takes_seq
  · apply takes_either
    · apply takes_mono takes_one
      intro c hc
      simp [isNameChar, isNameRest_of_isNameStart hc]
    · exact takes_char rfl
  · exact takes_mono takes_many (by simp +contextual [isNameChar])

theorem takes_pair {part : Scanner} {q : Char -> Bool} (hpart : Takes q part)
    (p : Char -> Bool) :
    Takes (fun c => q c || c == ':')
      (part >=> char ':' >=> part >=> notBefore p) := by
  have hpart' : Takes (fun c => q c || c == ':') part :=
    takes_mono hpart (by simp +contextual)
  apply takes_seq hpart'
  apply takes_seq (takes_char (by simp))
  exact takes_seq hpart' takes_notBefore

theorem takes_numberShape : Takes anyChar numberShape := by
  have hdigits : Takes anyChar (many1 isPlainDigit) := takes_any takes_many1
  apply takes_seq
  · apply takes_either
    · apply takes_seq hdigits
      exact takes_maybe (takes_seq (takes_char rfl) (takes_any takes_many))
    · exact takes_seq (takes_char rfl) hdigits
  · apply takes_maybe
    apply takes_seq (takes_any takes_one)
    exact takes_seq (takes_maybe (takes_any takes_one)) hdigits

theorem takes_shape (t : Terminal) : Takes anyChar t.shape := by
  cases t with
  | functionName => exact takes_seq (takes_any takes_nameScanner) (takes_char rfl)
  | cellRange => exact takes_any (takes_pair takes_cell extendsWord)
  | rowRange => exact takes_any (takes_pair takes_row extendsRows)
  | columnRange => exact takes_any (takes_pair takes_column extendsWord)
  | cell => exact takes_any (takes_seq takes_cell takes_notBefore)
  | sheet =>
      apply takes_either
      · exact takes_seq (takes_char rfl) takes_quotedSheetRest
      · exact takes_seq (takes_any takes_nameScanner) (takes_char rfl)
  | error => exact takes_errorShape
  | boolean => exact takes_any takes_booleanShape
  | name => exact takes_any takes_nameShape
  | number => exact takes_numberShape
  | string => exact takes_seq (takes_char rfl) takes_stringRest
  | blank => exact takes_any takes_many1
  | notEqual => exact takes_literal _
  | atLeast => exact takes_literal _
  | atMost => exact takes_literal _
  | _ => exact takes_char rfl

/-! ## How a shape opens -/

def opening : Terminal -> Char -> Bool
  | functionName => isNameStart
  | cellRange | columnRange | cell => fun c => c == '$' || isPlainLetter c
  | rowRange => fun c => c == '$' || isPlainDigit c
  | sheet => fun c => c == apostrophe || isNameStart c
  | error => fun c => c == '#'
  | boolean => fun c => upperChar c == ['T'] || upperChar c == ['F']
  | name => fun c => isNameStart c || c == '\\'
  | number => fun c => isPlainDigit c || c == '.'
  | string => fun c => c == quoteMark
  | blank => isFiller
  | notEqual | atMost | less => fun c => c == '<'
  | atLeast | greater => fun c => c == '>'
  | ampersand => fun c => c == '&'
  | circumflex => fun c => c == '^'
  | comma => fun c => c == ','
  | equal => fun c => c == '='
  | leftBrace => fun c => c == '\x7b'
  | leftParen => fun c => c == '('
  | minus => fun c => c == '-'
  | percent => fun c => c == '%'
  | plus => fun c => c == '+'
  | rightBrace => fun c => c == '\x7d'
  | rightParen => fun c => c == ')'
  | semicolon => fun c => c == ';'
  | slash => fun c => c == '/'
  | star => fun c => c == '*'

theorem opens_column : Opens (fun c => c == '$' || isPlainLetter c) Shape.column :=
  opens_maybe_seq opens_one (opens_seq opens_one)

theorem opens_row : Opens (fun c => c == '$' || isPlainDigit c) Shape.row :=
  opens_maybe_seq opens_one (opens_seq opens_one)

theorem opens_errorShape : Opens (fun c => c == '#') errorShape := by
  intro cs out h
  rcases List.exists_of_findSome?_eq_some h with ⟨text, htext, hread⟩
  have opens : forall t, t ∈ errorTexts -> exists word, t.toList = '#' :: word := by
    simp [errorTexts]
  rcases opens text htext with ⟨word, hword⟩
  rw [hword] at hread
  exact opens_seq opens_one cs out hread

theorem opens_shape (t : Terminal) : Opens t.opening t.shape := by
  have hcell : Opens (fun c => c == '$' || isPlainLetter c) Shape.cell :=
    opens_seq opens_column
  cases t with
  | functionName => exact opens_seq (opens_seq opens_one)
  | cellRange => exact opens_seq hcell
  | rowRange => exact opens_seq opens_row
  | columnRange => exact opens_seq opens_column
  | cell => exact opens_seq hcell
  | sheet =>
      exact opens_either (opens_seq opens_one) (opens_seq (opens_seq opens_one))
  | error => exact opens_errorShape
  | boolean =>
      exact opens_seq (opens_either (opens_seq opens_one) (opens_seq opens_one))
  | name => exact opens_seq (opens_either opens_one opens_one)
  | number =>
      apply opens_seq
      exact opens_either (opens_seq (opens_seq opens_one)) (opens_seq opens_one)
  | string => exact opens_seq opens_one
  | blank => exact opens_seq opens_one
  | notEqual => exact opens_seq opens_one
  | atLeast => exact opens_seq opens_one
  | atMost => exact opens_seq opens_one
  | _ => exact opens_one

theorem isFiller_eq_false_of_opening {t : Terminal} {c : Char} (ht : t ≠ blank)
    (hc : t.opening c = true) : isFiller c = false := by
  cases hfiller : isFiller c with
  | false => rfl
  | true =>
      have hnone : forall d, d ∈ [' ', '\t', '\n', '\r', '\x0c'] ->
          t.opening d = false := by
        revert ht
        cases t <;> decide
      have hmem : c ∈ [' ', '\t', '\n', '\r', '\x0c'] := by
        simpa [isFiller, or_assoc] using hfiller
      rw [hnone c hmem] at hc
      cases hc

/-! ## The first terminal -/

def found (t : Terminal) (cs : List Char) : Option (List Char) :=
  (t.shape cs).map fun rest => cs.take (cs.length - rest.length)

theorem found_eq_some {t : Terminal} {cs word : List Char} :
    t.found cs = some word <->
      exists rest, cs = word ++ rest ∧ t.shape cs = some rest := by
  have front : forall rest, t.shape cs = some rest ->
      cs = cs.take (cs.length - rest.length) ++ rest := by
    intro rest h
    rcases takes_shape t cs rest h with ⟨own, hcs, _⟩
    simp [hcs]
  constructor
  · intro h
    rcases Option.map_eq_some_iff.mp h with ⟨rest, hrest, hword⟩
    refine ⟨rest, ?_, hrest⟩
    rw [<- hword]
    exact front rest hrest
  · intro h
    rcases h with ⟨rest, hcs, hrest⟩
    refine Option.map_eq_some_iff.mpr ⟨rest, hrest, ?_⟩
    exact List.append_cancel_right ((front rest hrest).symm.trans hcs)

theorem first?_eq (admits : Terminal -> Bool) (cs : List Char) :
    first? admits cs = inMatchOrder.findSome? fun t =>
      if admits t then (t.found cs).map fun word => (t, word) else none := by
  unfold first? found
  simp only [Option.map_map]
  rfl

theorem found_of_first? {admits : Terminal -> Bool} {cs word : List Char}
    {t : Terminal} (h : first? admits cs = some (t, word)) :
    admits t = true ∧ t.found cs = some word := by
  rw [first?_eq] at h
  rcases List.exists_of_findSome?_eq_some h with ⟨u, _, hu⟩
  split at hu
  · rename_i hadmits
    rcases Option.map_eq_some_iff.mp hu with ⟨own, hown, heq⟩
    cases heq
    exact ⟨hadmits, hown⟩
  · cases hu

def earlier (t : Terminal) : List Terminal :=
  inMatchOrder.takeWhile (· != t)

theorem inMatchOrder_split (t : Terminal) :
    exists later, inMatchOrder = t.earlier ++ t :: later := by
  cases t
  all_goals exact ⟨_, rfl⟩

theorem first?_of_found {admits : Terminal -> Bool} {cs word : List Char}
    {t : Terminal} (hadmits : admits t = true) (hfound : t.found cs = some word)
    (hearlier : forall u, u ∈ t.earlier -> u.shape cs = none) :
    first? admits cs = some (t, word) := by
  rcases inMatchOrder_split t with ⟨later, hsplit⟩
  rw [first?_eq, List.findSome?_eq_some_iff]
  refine ⟨t.earlier, t, later, hsplit, by simp [hadmits, hfound], ?_⟩
  intro u hu
  simp [found, hearlier u hu]

/-! ## White space -/

def blankCodes : List Nat :=
  blankRanges.flatMap fun range => List.range' range.1 (range.2 + 1 - range.1)

theorem toNat_mem_blankCodes {c : Char} (h : isBlank c = true) :
    c.toNat ∈ blankCodes := by
  rcases List.any_eq_true.mp h with ⟨range, hrange, hholds⟩
  refine List.mem_flatMap.mpr ⟨range, hrange, List.mem_range'_1.mpr ?_⟩
  simp only [CodeRange.holds, Bool.and_eq_true, decide_eq_true_eq] at hholds
  omega

theorem mem_inMatchOrder (t : Terminal) : t ∈ inMatchOrder := by
  rcases inMatchOrder_split t with ⟨later, h⟩
  rw [h]
  exact List.mem_append_right _ List.mem_cons_self

theorem isBlank_eq_false_of_opening {t : Terminal} {c : Char} (ht : t ≠ blank)
    (hc : t.opening c = true) : isBlank c = false := by
  cases hblank : isBlank c with
  | false => rfl
  | true =>
      have hall : forall n, n ∈ blankCodes -> forall u, u ∈ inMatchOrder ->
          u ≠ blank -> u.opening (Char.ofNat n) = false := by
        decide +kernel
      have hnone := hall c.toNat (toNat_mem_blankCodes hblank) t
        (mem_inMatchOrder t) ht
      rw [Char.ofNat_toNat, hc] at hnone
      cases hnone

end Terminal
end Precedents
