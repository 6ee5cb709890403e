import Precedents.Proofs.Number.NumberWord
import Precedents.Proofs.Reference.SheetWord

/-!
# Words that end at a break

A word that its terminal reads in full is read again in front of other text.  It
is enough that what follows cannot be a part of it; for most words, that it
starts with a filler or with a mark.
-/

namespace Precedents
namespace Terminal

open Text
open Scanner

def breakChars : List Char :=
  [' ', '\t', '\n', '\r', '\x0c', '=', '<', '>', '&', '+', '-', '*', '/', '^',
    '%', ',', ')', ';', '\x7d']

/-! ## Shapes that stop at breaks -/

section Stops

variable {bs : List Char}

theorem stopsAt_nameScanner (hstart : forall c, c ∈ bs -> isNameStart c = false)
    (hrest : forall c, c ∈ bs -> isNameRest c = false) :
    StopsAt bs Sheet.nameScanner :=
  stopsAt_seq (stopsAt_one hstart) (stopsAt_many hrest)

theorem stopsAt_dollar (h : '$' ∉ bs) : StopsAt bs Shape.dollar :=
  stopsAt_maybe (stopsAt_char h)

theorem stopsAt_column (hdollar : '$' ∉ bs)
    (hletter : forall c, c ∈ bs -> isPlainLetter c = false) :
    StopsAt bs Shape.column :=
  stopsAt_seq (stopsAt_dollar hdollar) (stopsAt_oneTo hletter 2)

theorem stopsAt_row (hdollar : '$' ∉ bs)
    (hdigit : forall c, c ∈ bs -> isPlainDigit c = false) :
    StopsAt bs Shape.row :=
  stopsAt_seq (stopsAt_dollar hdollar) (stopsAt_many1 hdigit)

theorem stopsAt_pair {part : Scanner} {p : Char -> Bool}
    (hpart : StopsAt bs part) (hcolon : ':' ∉ bs)
    (hp : forall c, c ∈ bs -> p c = false) :
    StopsAt bs (part >=> char ':' >=> part >=> notBefore p) :=
  stopsAt_seq hpart (stopsAt_seq (stopsAt_char hcolon)
    (stopsAt_seq hpart (stopsAt_notBefore hp)))

theorem stopsAt_caseless {word : List Char}
    (h : forall letter, letter ∈ word ->
      forall c, c ∈ bs -> (upperChar c == [letter]) = false) :
    StopsAt bs (caseless word) := by
  induction word with
  | nil =>
      intro cs rest _hrest
      rfl
  | cons letter word ih =>
      apply stopsAt_seq (stopsAt_one (h letter List.mem_cons_self))
      apply ih
      intro other hother
      exact h other (List.mem_cons_of_mem _ hother)

end Stops

theorem stopsAt_cell_breaks : StopsAt breakChars Shape.cell :=
  stopsAt_seq (stopsAt_column (by decide) (by decide))
    (stopsAt_row (by decide) (by decide))

theorem stopsAt_cellShape : StopsAt breakChars cellShape :=
  stopsAt_seq stopsAt_cell_breaks (stopsAt_notBefore (by decide))

theorem stopsAt_booleanShape : StopsAt breakChars booleanShape :=
  stopsAt_seq
    (stopsAt_either (stopsAt_caseless (by decide)) (stopsAt_caseless (by decide)))
    (stopsAt_notBefore (by decide))

theorem stopsAt_nameShape : StopsAt breakChars nameShape :=
  stopsAt_seq
    (stopsAt_either (stopsAt_one (by decide)) (stopsAt_char (by decide)))
    (stopsAt_many (by decide))

theorem stopsAt_plainSheet :
    StopsAt breakChars (Sheet.nameScanner >=> char '!') :=
  stopsAt_seq (stopsAt_nameScanner (by decide) (by decide))
    (stopsAt_char (by decide))

def beforeCell : List Terminal :=
  [functionName, cellRange, rowRange, columnRange]

def endsWord (c : Char) : Bool :=
  !(isNameStart c || isNameRest c || isPlainLetter c || isPlainDigit c || c == '$'
    || c == ':' || c == '(' || c == '.')

theorem stopsAt_of_mem_beforeCell {bs : List Char}
    (hbs : forall c, c ∈ bs -> endsWord c = true) {u : Terminal}
    (hu : u ∈ beforeCell) : StopsAt bs u.shape := by
  have ends : forall p : Char -> Bool, (forall c, endsWord c = true -> p c = false) ->
      forall c, c ∈ bs -> p c = false := by
    intro p hp c hc
    exact hp c (hbs c hc)
  have other : forall d, endsWord d = false -> d ∉ bs := by
    intro d hd hmem
    rw [hbs d hmem] at hd
    cases hd
  have hletter := ends isPlainLetter (by simp +contextual [endsWord])
  have hdigit := ends isPlainDigit (by simp +contextual [endsWord])
  have hword := ends extendsWord (by simp +contextual [endsWord, extendsWord])
  have hrows := ends extendsRows (by simp +contextual [endsWord, extendsRows])
  have hcolumn := stopsAt_column (other '$' (by decide)) hletter
  have hrow := stopsAt_row (other '$' (by decide)) hdigit
  have hcolon := other ':' (by decide)
  simp only [beforeCell, List.mem_cons, List.not_mem_nil, or_false] at hu
  rcases hu with hu | hu | hu | hu
  · rw [hu]
    apply stopsAt_seq
    · exact stopsAt_nameScanner (ends _ (by simp +contextual [endsWord]))
        (ends _ (by simp +contextual [endsWord]))
    · exact stopsAt_char (other '(' (by decide))
  · rw [hu]
    exact stopsAt_pair (stopsAt_seq hcolumn hrow) hcolon hword
  · rw [hu]
    exact stopsAt_pair hrow hcolon hrows
  · rw [hu]
    exact stopsAt_pair hcolumn hcolon hword

theorem endsWord_of_mem_breakChars :
    forall c, c ∈ breakChars -> endsWord c = true := by
  decide

/-! ## What a shape needs -/

/-- A function needs a parenthesis, and a range needs a colon. -/
def isJoint (c : Char) : Bool :=
  c == '(' || c == ':'

theorem needs_isJoint {u : Terminal} (hu : u ∈ beforeCell) :
    Needs isJoint u.shape := by
  have pair : forall {part : Scanner} {p : Char -> Bool}, Takes anyChar part ->
      Needs isJoint (part >=> char ':' >=> part >=> notBefore p) := by
    intro part p hpart
    apply needs_seq_right hpart
    apply needs_seq_left
    exact needs_mono needs_one (by simp +contextual [isJoint])
  simp only [beforeCell, List.mem_cons, List.not_mem_nil, or_false] at hu
  rcases hu with hu | hu | hu | hu
  · rw [hu]
    apply needs_seq_right takes_nameScanner
    exact needs_mono needs_one (by simp +contextual [isJoint])
  · rw [hu]
    exact pair (takes_any takes_cell)
  · rw [hu]
    exact pair (takes_any takes_row)
  · rw [hu]
    exact pair (takes_any takes_column)

theorem needs_letter_column : Needs isPlainLetter Shape.column :=
  needs_seq_right (takes_maybe (takes_char rfl) : Takes anyChar _)
    (needs_seq_left needs_one)

theorem needs_digit_row : Needs isPlainDigit Shape.row :=
  needs_seq_right (takes_maybe (takes_char rfl) : Takes anyChar _)
    (needs_seq_left needs_one)

theorem needs_digit_cell : Needs isPlainDigit Shape.cell :=
  needs_seq_right takes_column needs_digit_row

/-! ## Reading a word in front of other text -/

section Reading

variable {word rest text : List Char}

theorem literal_append (word rest : List Char) :
    literal word (word ++ rest) = some rest := by
  induction word with
  | nil => rfl
  | cons c word ih =>
      rw [literal, List.cons_append, seq_apply]
      simpa [char, one] using ih

theorem eq_of_literal (h : literal text word = some []) : word = text := by
  induction text generalizing word with
  | nil =>
      cases h
      rfl
  | cons c text ih =>
      rw [literal, seq_apply] at h
      rcases Option.bind_eq_some_iff.mp h with ⟨middle, hmiddle, hrest⟩
      rcases reads_char c word middle hmiddle with ⟨first, hword, hfirst⟩
      rw [hword, hfirst, ih hrest]
      rfl

theorem char_cons (c : Char) (rest : List Char) : char c (c :: rest) = some rest := by
  simp [char, one]

theorem eq_of_char {c : Char} (h : char c word = some []) : word = [c] := by
  rcases reads_char c word [] h with ⟨first, hword, hfirst⟩
  rw [hword, hfirst]
  rfl

theorem char_append {c : Char} (h : char c word = some []) :
    char c (word ++ rest) = some rest := by
  rw [eq_of_char h]
  exact char_cons c rest

theorem closed_word {s : Scanner} {q : Char -> Bool} {c : Char}
    (hstops : StopsAt [c] s) (htakes : Takes q s) (h : (s >=> char c) word = some []) :
    exists name, word = name ++ [c] ∧ s name = some [] := by
  rw [seq_apply] at h
  rcases Option.bind_eq_some_iff.mp h with ⟨middle, hmiddle, hlast⟩
  rcases reads_char c middle [] hlast with ⟨mark, hmark, heq⟩
  rw [heq, List.append_nil] at hmark
  rcases htakes word middle hmiddle with ⟨name, hword, _⟩
  rw [hmark] at hword hmiddle
  rw [hword] at hmiddle
  exact ⟨name, hword, hstops.word (startsIn_cons.mpr List.mem_cons_self) hmiddle⟩

theorem closed_append {s : Scanner} {c : Char} (hstops : StopsAt [c] s)
    {name : List Char} (hname : s name = some []) :
    (s >=> char c) (name ++ [c] ++ rest) = some rest := by
  have hmark : StartsIn [c] (c :: rest) := startsIn_cons.mpr List.mem_cons_self
  have hread := hstops.reads hname hmark
  rw [seq_apply, List.append_assoc, List.singleton_append, hread]
  exact char_cons c rest

theorem functionShape_append (h : functionShape word = some []) :
    functionShape (word ++ rest) = some rest := by
  have hstops : StopsAt ['('] Sheet.nameScanner :=
    stopsAt_nameScanner (by decide) (by decide)
  rcases closed_word hstops takes_nameScanner h with ⟨name, hword, hname⟩
  rw [hword]
  exact closed_append hstops hname

theorem quotedSheetRest_append (h : quotedSheetRest word = some []) :
    quotedSheetRest (word ++ rest) = some rest := by
  unfold quotedSheetRest at h
  split at h
  · rename_i c name tail hrun
    cases h
    have hmore : quotedRun apostrophe (c :: name ++ apostrophe :: '!' :: rest) =
        some (c :: name, '!' :: rest) := by
      apply quotedRun_append hrun
      rw [List.head?_cons]
      decide
    rw [quotedRun_eq hrun]
    simp only [List.cons_append, List.append_assoc, List.nil_append] at hmore ⊢
    rw [quotedSheetRest, hmore]
    rfl
  · cases h

theorem stopsAt_bang_nameScanner : StopsAt ['!'] Sheet.nameScanner :=
  stopsAt_nameScanner (by decide) (by decide)

theorem sheetShape_cases (h : sheetShape word = some []) :
    (exists body, word = apostrophe :: body ∧ quotedSheetRest body = some []) ∨
      exists name, word = name ++ ['!'] ∧ Sheet.nameScanner name = some [] := by
  simp only [sheetShape, either] at h
  cases hquoted : (char apostrophe >=> quotedSheetRest) word with
  | some out =>
      rw [hquoted] at h
      cases h
      rw [seq_apply] at hquoted
      rcases Option.bind_eq_some_iff.mp hquoted with ⟨body, hmark, hbody⟩
      rcases reads_char apostrophe word body hmark with ⟨first, hword, hfirst⟩
      rw [hfirst] at hword
      exact Or.inl ⟨body, hword, hbody⟩
  | none =>
      rw [hquoted] at h
      exact Or.inr (closed_word stopsAt_bang_nameScanner takes_nameScanner h)

theorem sheetShape_append (h : sheetShape word = some []) :
    sheetShape (word ++ rest) = some rest := by
  simp only [sheetShape, either]
  rcases sheetShape_cases h with ⟨body, hword, hbody⟩ | ⟨name, hword, hname⟩
  · rw [hword, List.cons_append, seq_apply, char_cons, Option.bind_some,
      quotedSheetRest_append hbody]
    rfl
  · have hother : (char apostrophe >=> quotedSheetRest) (word ++ rest) = none := by
      rcases opens_seq opens_one name [] hname with ⟨c, tail, hcons, hc⟩
      rw [hword, hcons]
      apply (opens_seq opens_one).fails
      simp only [beq_eq_false_iff_ne, ne_eq]
      intro heq
      rw [heq] at hc
      revert hc
      decide
    rw [hother, hword]
    exact closed_append stopsAt_bang_nameScanner hname

theorem errorShape_append (h : errorShape word = some []) :
    errorShape (word ++ rest) = some rest := by
  rcases List.exists_of_findSome?_eq_some h with ⟨text, htext, hread⟩
  rw [eq_of_literal hread]
  simp only [errorTexts, List.mem_cons, List.not_mem_nil, or_false] at htext
  rcases htext with h | h | h | h | h | h | h
  all_goals rw [h]
  all_goals simp [errorShape, errorTexts, literal, seq_apply, char, one]

theorem stringRest_append (hrest : rest.head? ≠ some quoteMark)
    (h : stringRest word = some []) : stringRest (word ++ rest) = some rest := by
  have closes : stringRest (quoteMark :: rest) = some rest := by
    cases rest with
    | nil => simp [stringRest]
    | cons d tail =>
        have hd : d ≠ quoteMark := by simpa using hrest
        simp [stringRest, hd]
  fun_induction stringRest word with
  | case1 => cases h
  | case2 => exact closes
  | case3 => cases h
  | case4 tail ih =>
      cases htail : stringRest tail with
      | none =>
          rw [htail] at h
          cases h
      | some out =>
          rw [htail] at h
          cases h
          simp [stringRest, ih htail]
  | case5 d tail hd => cases h
  | case6 c d tail hc ih =>
      simp only [List.cons_append] at ih ⊢
      simp [stringRest, hc, ih h]

theorem stringShape_append (hrest : rest.head? ≠ some quoteMark)
    (h : stringShape word = some []) :
    stringShape (word ++ rest) = some rest := by
  rw [stringShape, seq_apply] at h
  rcases Option.bind_eq_some_iff.mp h with ⟨body, hmark, hbody⟩
  rcases reads_char quoteMark word body hmark with ⟨first, hword, hfirst⟩
  rw [hword, hfirst, List.append_assoc, List.singleton_append, stringShape,
    seq_apply, char_cons]
  exact stringRest_append hrest hbody

theorem exponentShape_append (hrest : StartsIn breakChars rest)
    (h : exponentShape word = some []) :
    exponentShape (word ++ rest) = some rest := by
  have hdigits : StopsAt breakChars (many1 isPlainDigit) :=
    stopsAt_many1 (by decide)
  rw [exponentShape, seq_apply] at h ⊢
  rcases Option.bind_eq_some_iff.mp h with ⟨middle, hletter, hmiddle⟩
  rcases reads_one word middle hletter with ⟨first, hword, c, hfirst, hc⟩
  rw [hword, hfirst, List.append_assoc, List.singleton_append]
  simp only [one, hc, if_true, Option.bind_some]
  cases middle with
  | nil => cases hmiddle
  | cons d digits =>
      rw [seq_apply] at hmiddle ⊢
      by_cases hd : (d == '+' || d == '-') = true
      · simp only [maybe, one, List.cons_append, hd, if_true,
          Option.some_or, Option.bind_some] at hmiddle ⊢
        exact hdigits.reads hmiddle hrest
      · simp only [maybe, one, List.cons_append, hd, Bool.false_eq_true,
          if_false, Option.none_or, Option.bind_some] at hmiddle ⊢
        exact hdigits.reads hmiddle hrest

theorem numberShape_append (hrest : StartsIn breakChars rest)
    (h : numberShape word = some []) :
    numberShape (word ++ rest) = some rest := by
  have hmantissa : StopsAt breakChars
      (either (many1 isPlainDigit >=> maybe (char '.' >=> many isPlainDigit))
        (char '.' >=> many1 isPlainDigit)) := by
    apply stopsAt_either
    · apply stopsAt_seq (stopsAt_many1 (by decide))
      exact stopsAt_maybe
        (stopsAt_seq (stopsAt_char (by decide)) (stopsAt_many (by decide)))
    · exact stopsAt_seq (stopsAt_char (by decide)) (stopsAt_many1 (by decide))
  rw [numberShape, seq_apply] at h ⊢
  rcases Option.bind_eq_some_iff.mp h with ⟨middle, hfirst, hmiddle⟩
  rw [hmantissa word rest hrest, hfirst, Option.map_some, Option.bind_some]
  simp only [maybe] at hmiddle ⊢
  cases hpower : exponentShape middle with
  | some out =>
      rw [hpower] at hmiddle
      cases hmiddle
      rw [exponentShape_append hrest hpower]
      rfl
  | none =>
      rw [hpower] at hmiddle
      cases hmiddle
      have hnone : exponentShape rest = none := by
        cases rest with
        | nil => rfl
        | cons c tail =>
            apply (opens_seq opens_one).fails
            have hbreaks : forall d, d ∈ breakChars ->
                (d == 'e' || d == 'E') = false := by
              decide
            exact hbreaks c (startsIn_cons.mp hrest)
      rw [List.nil_append, hnone]
      rfl

end Reading

end Terminal
end Precedents
