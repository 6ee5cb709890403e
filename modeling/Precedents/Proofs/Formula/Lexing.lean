import Precedents.Proofs.Formula.Breaks

/-!
# Finding words in a text

Terminals are tried one after another, so a word is found only if all terminals
that come before its own fail.  Most fail by the first character, or by a
character that they need and the word does not have.  Names are the exception:
they must not be cells or truth values themselves.
-/

namespace Precedents
namespace Terminal

open Text
open Scanner

/-! ## What comes before a word -/

section Earlier

variable {word rest : List Char} {c : Char}

theorem beq_eq_false_of_class {q : Char -> Bool} {d : Char} (hd : q d = false)
    (hc : q c = true) : (c == d) = false := by
  simp only [beq_eq_false_iff_ne, ne_eq]
  intro heq
  rw [heq, hd] at hc
  cases hc

theorem fails_of_opening {us : List Terminal}
    (h : forall u, u ∈ us -> u.opening c = false) :
    forall u, u ∈ us -> u.shape (c :: rest) = none := by
  intro u hu
  exact (opens_shape u).fails (h u hu)

theorem fails_of_lack {bs : List Char}
    (hbs : forall d, d ∈ bs -> endsWord d = true) {u : Terminal}
    (hu : u ∈ beforeCell) {p : Char -> Bool} (hneeds : Needs p u.shape)
    (hword : forall d, d ∈ word -> p d = false) (hrest : StartsIn bs rest) :
    u.shape (word ++ rest) = none :=
  (stopsAt_of_mem_beforeCell hbs hu).fails (hneeds.fails hword) hrest

theorem fails_beforeCell {bs : List Char}
    (hbs : forall d, d ∈ bs -> endsWord d = true) {q : Char -> Bool}
    (hparen : q '(' = false) (hcolon : q ':' = false)
    (hword : forall d, d ∈ word -> q d = true) (hrest : StartsIn bs rest) :
    forall u, u ∈ beforeCell -> u.shape (word ++ rest) = none := by
  intro u hu
  apply fails_of_lack hbs hu (needs_isJoint hu) _ hrest
  intro d hd
  simp only [isJoint, Bool.or_eq_false_iff]
  exact ⟨beq_eq_false_of_class hparen (hword d hd),
    beq_eq_false_of_class hcolon (hword d hd)⟩

theorem isPlainDigit_eq_false_of_columnChar
    (h : (isColumnChar c || c == ':') = true) : isPlainDigit c = false := by
  cases hc : isPlainDigit c with
  | false => rfl
  | true =>
      have hnot := isPlainDigit_forall
        (fun d => !(isColumnChar d || d == ':')) (by decide) hc
      rw [h] at hnot
      cases hnot

theorem isPlainLetter_eq_false_of_rowChar
    (h : (isRowChar c || c == ':') = true) : isPlainLetter c = false := by
  simp only [isRowChar, Bool.or_eq_true, beq_iff_eq] at h
  rcases h with (h | h) | h
  · rw [h]
    decide
  · have hnot := isPlainDigit_forall (fun d => !isPlainLetter d) (by decide) h
    simpa using hnot
  · rw [h]
    decide

theorem function_fails {q : Char -> Bool} (hparen : q '(' = false)
    (hword : forall d, d ∈ word -> q d = true)
    (hrest : StartsIn breakChars rest) :
    functionName.shape (word ++ rest) = none := by
  have hneeds : Needs (· == '(') functionName.shape :=
    needs_seq_right takes_nameScanner needs_one
  apply fails_of_lack endsWord_of_mem_breakChars (by decide) hneeds _ hrest
  intro d hd
  exact beq_eq_false_of_class hparen (hword d hd)

theorem fails_before_cellRange (hword : cellRangeShape word = some [])
    (hrest : StartsIn breakChars rest) :
    forall u, u ∈ cellRange.earlier -> u.shape (word ++ rest) = none := by
  intro u hu
  rw [List.mem_singleton.mp (show u ∈ [functionName] from hu)]
  exact function_fails (by decide)
    ((takes_pair takes_cell extendsWord).all hword) hrest

theorem fails_before_rowRange (hword : rowRangeShape word = some [])
    (hrest : StartsIn breakChars rest) :
    forall u, u ∈ rowRange.earlier -> u.shape (word ++ rest) = none := by
  have hchars := (takes_pair takes_row extendsRows).all hword
  have hletter : Needs isPlainLetter cellRange.shape :=
    needs_seq_left (needs_seq_left needs_letter_column)
  intro u hu
  have hu : u ∈ [functionName, cellRange] := hu
  simp only [List.mem_cons, List.not_mem_nil, or_false] at hu
  rcases hu with hu | hu
  · rw [hu]
    exact function_fails (by decide) hchars hrest
  · rw [hu]
    apply fails_of_lack endsWord_of_mem_breakChars (by decide) hletter _ hrest
    intro d hd
    exact isPlainLetter_eq_false_of_rowChar (hchars d hd)

theorem fails_before_columnRange (hword : columnRangeShape word = some [])
    (hrest : StartsIn breakChars rest) :
    forall u, u ∈ columnRange.earlier -> u.shape (word ++ rest) = none := by
  have hchars := (takes_pair takes_column extendsWord).all hword
  have hdigits : forall d, d ∈ word -> isPlainDigit d = false := by
    intro d hd
    exact isPlainDigit_eq_false_of_columnChar (hchars d hd)
  intro u hu
  have hu : u ∈ [functionName, cellRange, rowRange] := hu
  simp only [List.mem_cons, List.not_mem_nil, or_false] at hu
  rcases hu with hu | hu | hu
  · rw [hu]
    exact function_fails (by decide) hchars hrest
  · rw [hu]
    exact fails_of_lack endsWord_of_mem_breakChars (by decide)
      (needs_seq_left needs_digit_cell) hdigits hrest
  · rw [hu]
    exact fails_of_lack endsWord_of_mem_breakChars (by decide)
      (needs_seq_left needs_digit_row) hdigits hrest

theorem fails_before_cell (hword : cellShape word = some [])
    (hrest : StartsIn breakChars rest) :
    forall u, u ∈ cell.earlier -> u.shape (word ++ rest) = none :=
  fails_beforeCell endsWord_of_mem_breakChars (by decide) (by decide)
    ((takes_seq takes_cell takes_notBefore).all hword) hrest

/-! ### Names, truth values and sheets -/

/--
What may not be extended is read in full or not at all from a word that would
extend it from its second character on.
-/
theorem notBefore_cases {s : Scanner} {p : Char -> Bool} {tail : List Char}
    (hs : Reads (fun read => read ≠ []) s)
    (htail : forall d, d ∈ tail -> p d = true) :
    (s >=> notBefore p) (c :: tail) = none ∨
      (s >=> notBefore p) (c :: tail) = some [] := by
  rw [seq_apply]
  cases hout : s (c :: tail) with
  | none => exact Or.inl rfl
  | some out =>
      cases out with
      | nil => exact Or.inr rfl
      | cons d out =>
          rcases hs (c :: tail) (d :: out) hout with ⟨front, heq, hfront⟩
          cases front with
          | nil => exact absurd rfl hfront
          | cons first front =>
              injection heq with _ heq
              have hd : p d = true := by
                apply htail
                rw [heq]
                exact List.mem_append_right _ List.mem_cons_self
              left
              simp [notBefore, hd]

theorem notBefore_fails {s : Scanner} {p : Char -> Bool} {mark : Char}
    (hs : Takes anyChar s) (hstops : StopsAt [mark] s) (hmark : p mark = true)
    (hword : forall d, d ∈ word -> p d = true) :
    (s >=> notBefore p) (word ++ mark :: rest) = none := by
  have hstart : StartsIn [mark] (mark :: rest) :=
    startsIn_cons.mpr List.mem_cons_self
  rw [seq_apply, hstops word (mark :: rest) hstart]
  cases hout : s word with
  | none => rfl
  | some out =>
      cases out with
      | nil => simp [notBefore, hmark]
      | cons d tail =>
          rcases hs word (d :: tail) hout with ⟨front, heq, _⟩
          have hd : p d = true := by
            apply hword
            rw [heq]
            exact List.mem_append_right _ List.mem_cons_self
          simp [notBefore, hd]

theorem fails_before_sheet (hword : sheetShape word = some []) :
    forall u, u ∈ sheet.earlier -> u.shape (word ++ rest) = none := by
  have hsplit : sheet.earlier = beforeCell ++ [cell] := rfl
  rw [hsplit]
  rcases sheetShape_cases hword with ⟨body, hword, _⟩ | ⟨name, hword, hname⟩
  · rw [hword]
    exact fails_of_opening (by decide)
  · have hchars := takes_nameScanner.all hname
    have hbang : forall d, d ∈ ['!'] -> endsWord d = true := by decide
    have hstart : StartsIn ['!'] ('!' :: rest) :=
      startsIn_cons.mpr List.mem_cons_self
    rw [hword, List.append_assoc, List.singleton_append]
    refine List.forall_mem_append.mpr ⟨?_, ?_⟩
    · exact fails_beforeCell hbang (by decide) (by decide) hchars hstart
    · intro u hu
      rw [List.mem_singleton.mp hu]
      apply notBefore_fails (takes_any takes_cell) _ rfl
      · intro d hd
        simp [extendsCell, extendsWord, hchars d hd]
      · exact stopsAt_seq (stopsAt_column (by decide) (by decide))
          (stopsAt_row (by decide) (by decide))

theorem sheet_fails {q : Char -> Bool} (hmark : q apostrophe = false)
    (hbang : q '!' = false) (hc : q c = true)
    (hword : forall d, d ∈ c :: word -> q d = true)
    (hrest : StartsIn breakChars rest) :
    sheet.shape (c :: word ++ rest) = none := by
  have hneeds : Needs (· == '!') (Sheet.nameScanner >=> char '!') :=
    needs_seq_right takes_nameScanner needs_one
  have hplain : (Sheet.nameScanner >=> char '!') (c :: word ++ rest) = none := by
    apply stopsAt_plainSheet.fails (hneeds.fails _) hrest
    intro d hd
    exact beq_eq_false_of_class hbang (hword d hd)
  have hquoted : (char apostrophe >=> quotedSheetRest) (c :: word ++ rest) =
      none :=
    (opens_seq opens_one).fails (beq_eq_false_of_class hmark hc)
  simp only [shape, sheetShape, either, hquoted, hplain]
  rfl

theorem fails_of_class {q : Char -> Bool}
    (hq : forall d, d ∈ ['(', ':', '!', '#', apostrophe] -> q d = false)
    (hne : word ≠ []) (hword : forall d, d ∈ word -> q d = true)
    (hrest : StartsIn breakChars rest) :
    forall u, u ∈ beforeCell ++ [sheet, error] ->
      u.shape (word ++ rest) = none := by
  cases word with
  | nil => exact absurd rfl hne
  | cons c word =>
      have hc := hword c List.mem_cons_self
      refine List.forall_mem_append.mpr ⟨?_, ?_⟩
      · exact fails_beforeCell endsWord_of_mem_breakChars (hq '(' (by decide))
          (hq ':' (by decide)) hword hrest
      · intro u hu
        simp only [List.mem_cons, List.not_mem_nil, or_false] at hu
        rcases hu with hu | hu
        · rw [hu]
          exact sheet_fails (hq apostrophe (by decide)) (hq '!' (by decide)) hc
            hword hrest
        · rw [hu]
          apply (opens_shape error).fails
          exact beq_eq_false_of_class (hq '#' (by decide)) hc

theorem ne_nil_of_shape {t : Terminal} (hword : t.shape word = some []) :
    word ≠ [] := by
  rcases opens_shape t word [] hword with ⟨c, tail, hcons, _⟩
  rw [hcons]
  exact List.cons_ne_nil c tail

theorem fails_before_boolean (hword : booleanShape word = some [])
    (hrest : StartsIn breakChars rest) :
    forall u, u ∈ boolean.earlier -> u.shape (word ++ rest) = none := by
  have hchars := takes_booleanShape.all hword
  have hother := fails_of_class (q := isTruthChar) (by decide)
    (ne_nil_of_shape (t := boolean) hword) hchars hrest
  intro u hu
  have hu : u ∈ beforeCell ++ [cell, sheet, error] := hu
  by_cases hcell : u = cell
  · rw [hcell]
    apply stopsAt_cellShape.fails ((needs_seq_left needs_digit_cell).fails _) hrest
    intro d hd
    cases hdigit : isPlainDigit d with
    | false => rfl
    | true =>
        have hnot := isPlainDigit_forall (fun e => !isTruthChar e) (by decide) hdigit
        rw [hchars d hd] at hnot
        cases hnot
  · apply hother
    simp only [List.mem_append, List.mem_cons, List.not_mem_nil, or_false, hcell,
      false_or] at hu ⊢
    exact hu

theorem isNameRest_of_mem_tail {tail : List Char}
    (h : nameShape (c :: tail) = some []) :
    forall d, d ∈ tail -> isNameRest d = true := by
  rw [nameShape, seq_apply] at h
  rcases Option.bind_eq_some_iff.mp h with ⟨middle, hfirst, hmany⟩
  have hreads := reads_either (reads_one (p := isNameStart)) (reads_char '\\')
  rcases hreads (c :: tail) middle hfirst with ⟨first, hcons, hone⟩
  have hmiddle : tail = middle := by
    rcases hone with ⟨d, hd, _⟩ | hd
    · rw [hd] at hcons
      injection hcons
    · rw [hd] at hcons
      injection hcons
  rw [hmiddle]
  exact takes_many.all hmany

theorem reads_cell_nonempty : Reads (fun read => read ≠ []) Shape.cell := by
  have hrow : Reads (fun read => read ≠ []) Shape.row := by
    apply reads_mono (reads_seq (takes_maybe (takes_char rfl) : Takes anyChar _)
      (reads_many1 (p := isPlainDigit)))
    intro read hread
    rcases hread with ⟨front, digits, heq, _, hdigits, _⟩
    rw [heq]
    exact List.append_ne_nil_of_right_ne_nil front hdigits
  apply reads_mono (reads_seq takes_column hrow)
  intro read hread
  rcases hread with ⟨front, digits, heq, _, hdigits⟩
  rw [heq]
  exact List.append_ne_nil_of_right_ne_nil front hdigits

theorem reads_truth_nonempty : Reads (fun read => read ≠ [])
    (either (caseless ['T', 'R', 'U', 'E'])
      (caseless ['F', 'A', 'L', 'S', 'E'])) := by
  have word : forall (letter : Char) (letters : List Char),
      Reads (fun read => read ≠ []) (caseless (letter :: letters)) := by
    intro letter letters
    have hrest : Takes anyChar (caseless letters) :=
      takes_caseless fun _ _ _ _ => rfl
    apply reads_mono (reads_seq reads_one hrest)
    intro read hread
    rcases hread with ⟨first, others, heq, ⟨d, hfirst, _⟩, _⟩
    rw [heq, hfirst]
    exact List.cons_ne_nil d others
  apply reads_mono (reads_either (word _ _) (word _ _))
  intro read hread
  rcases hread with hread | hread
  · exact hread
  · exact hread

theorem fails_before_name (hword : nameShape word = some [])
    (hcell : cellShape word ≠ some [])
    (hboolean : booleanShape word ≠ some [])
    (hrest : StartsIn breakChars rest) :
    forall u, u ∈ name.earlier -> u.shape (word ++ rest) = none := by
  have hne := ne_nil_of_shape (t := name) hword
  have hother := fails_of_class (by decide) hne (takes_nameShape.all hword) hrest
  cases word with
  | nil => exact absurd rfl hne
  | cons c tail =>
      have htail := isNameRest_of_mem_tail hword
      have hextendsWord : forall d, d ∈ tail -> extendsWord d = true := by
        intro d hd
        simp [extendsWord, htail d hd]
      have hextendsCell : forall d, d ∈ tail -> extendsCell d = true := by
        intro d hd
        simp [extendsCell, hextendsWord d hd]
      have hcellCases : cellShape (c :: tail) = none ∨ _ :=
        notBefore_cases reads_cell_nonempty hextendsCell
      have hbooleanCases : booleanShape (c :: tail) = none ∨ _ :=
        notBefore_cases reads_truth_nonempty hextendsWord
      intro u hu
      have hu : u ∈ beforeCell ++ [cell, sheet, error, boolean] := hu
      by_cases hucell : u = cell
      · rw [hucell]
        exact stopsAt_cellShape.fails (hcellCases.resolve_right hcell) hrest
      · by_cases huboolean : u = boolean
        · rw [huboolean]
          exact stopsAt_booleanShape.fails
            (hbooleanCases.resolve_right hboolean) hrest
        · apply hother
          simp only [List.mem_append, List.mem_cons, List.not_mem_nil, or_false,
            hucell, huboolean, false_or] at hu ⊢
          exact hu

theorem opening_before_number (hc : number.opening c = true) :
    forall u, u ∈ number.earlier -> u ≠ rowRange -> u.opening c = false := by
  have hall : (number.earlier.all fun u =>
      u == rowRange || !(u.opening c)) = true := by
    simp only [opening, Bool.or_eq_true, beq_iff_eq] at hc
    rcases hc with hc | hc
    · exact isPlainDigit_forall (fun d => number.earlier.all fun u =>
        u == rowRange || !(u.opening d)) (by decide) hc
    · rw [hc]
      decide
  intro u hu hrow
  have huc := List.all_eq_true.mp hall u hu
  simpa [hrow] using huc

theorem fails_before_number (hword : numberShape word = some [])
    (hrest : StartsIn breakChars rest) :
    forall u, u ∈ number.earlier -> u.shape (word ++ rest) = none := by
  have hnumber : Takes (fun d => isPlainDigit d || isNumberMark d) numberShape := by
    apply reads_mono reads_numberShape
    intro read hread d hd
    rcases hread with ⟨whole, fraction, power, hparts⟩
    simpa using hparts.digit_or_mark hd
  have hranges := fails_beforeCell endsWord_of_mem_breakChars (by decide)
    (by decide) (hnumber.all hword) hrest
  rcases opens_shape number word [] hword with ⟨c, tail, hcons, hc⟩
  intro u hu
  by_cases hrow : u = rowRange
  · apply hranges
    rw [hrow]
    decide
  · rw [hcons]
    exact (opens_shape u).fails (opening_before_number hc u hu hrow)

/-! ### Marks -/

def markChar? : Terminal -> Option Char
  | ampersand => some '&'
  | circumflex => some '^'
  | comma => some ','
  | equal => some '='
  | leftBrace => some '\x7b'
  | less => some '<'
  | leftParen => some '('
  | minus => some '-'
  | greater => some '>'
  | percent => some '%'
  | plus => some '+'
  | rightBrace => some '\x7d'
  | rightParen => some ')'
  | semicolon => some ';'
  | slash => some '/'
  | star => some '*'
  | _ => none

theorem shape_of_markChar? {t : Terminal} (h : t.markChar? = some c) :
    t.shape = char c := by
  cases t <;> cases h <;> rfl

theorem literal_pair_fails {first second : Char}
    (h : forall d, rest.head? = some d -> d ≠ second) :
    literal [first, second] (c :: rest) = none := by
  simp only [literal, seq_apply, char, one]
  split
  · cases rest with
    | nil => rfl
    | cons d rest =>
        have hd := h d rfl
        simp [seq_apply, one, hd]
  · rfl

/-- Only a mark of two characters can be mistaken for one of one character. -/
theorem pair_of_opening {t : Terminal} (h : t.markChar? = some c) :
    forall u, u ∈ t.earlier -> u.opening c = true ->
      (t = less ∧ (u = notEqual ∨ u = atMost)) ∨
        (t = greater ∧ u = atLeast) := by
  cases t
  all_goals cases h
  all_goals decide

def NoComparison (rest : List Char) : Prop :=
  forall d, rest.head? = some d -> d ≠ '=' ∧ d ≠ '>'

theorem fails_before_mark {t : Terminal} (h : t.markChar? = some c)
    (hrest : t = less ∨ t = greater -> NoComparison rest) :
    forall u, u ∈ t.earlier -> u.shape (c :: rest) = none := by
  intro u hu
  cases hopening : u.opening c with
  | false => exact (opens_shape u).fails hopening
  | true =>
      rcases pair_of_opening h u hu hopening with ⟨ht, hpair⟩ | ⟨ht, hpair⟩
      · have hnext := hrest (Or.inl ht)
        rcases hpair with hpair | hpair
        · rw [hpair]
          exact literal_pair_fails fun d hd => (hnext d hd).right
        · rw [hpair]
          exact literal_pair_fails fun d hd => (hnext d hd).left
      · have hnext := hrest (Or.inr ht)
        rw [hpair]
        exact literal_pair_fails fun d hd => (hnext d hd).left

theorem fails_before_pair {t : Terminal} {first second : Char}
    (hearlier : forall u, u ∈ t.earlier -> u.opening first = true ->
      u = notEqual ∧ second ≠ '>') :
    forall u, u ∈ t.earlier -> u.shape (first :: second :: rest) = none := by
  intro u hu
  cases hopening : u.opening first with
  | false => exact (opens_shape u).fails hopening
  | true =>
      rcases hearlier u hu hopening with ⟨hpair, hsecond⟩
      rw [hpair]
      apply literal_pair_fails
      intro d hd
      cases hd
      exact hsecond

/-! ## Words in front of what may follow them -/

/-- A word that ends where a break comes. -/
def isOpenEnded : Terminal -> Bool
  | boolean | cell | cellRange | columnRange | rowRange | error | name | number
  | string => true
  | _ => false

/-- What follows does not change the word of the terminal. -/
structure EndsBefore (t : Terminal) (rest : List Char) : Prop where
  breaks : t.isOpenEnded = true -> StartsIn breakChars rest
  comparison : t = less ∨ t = greater -> NoComparison rest

/-- The text is one of the terminal, and of no terminal in its place. -/
structure Spells (t : Terminal) (word : List Char) : Prop where
  shape_eq : t.shape word = some []
  not_cell : t = name -> cellShape word ≠ some []
  not_boolean : t = name -> booleanShape word ≠ some []

instance (t : Terminal) (word : List Char) : Decidable (t.Spells word) :=
  decidable_of_iff
    (t.shape word = some [] ∧ (t = name -> cellShape word ≠ some []) ∧
      (t = name -> booleanShape word ≠ some []))
    ⟨fun h => ⟨h.left, h.right.left, h.right.right⟩,
      fun h => ⟨h.shape_eq, h.not_cell, h.not_boolean⟩⟩

theorem shape_append {t : Terminal} (hword : t.shape word = some [])
    (hrest : t.EndsBefore rest) (hblank : t ≠ blank) :
    t.shape (word ++ rest) = some rest := by
  have pair : forall text : List Char, literal text word = some [] ->
      literal text (word ++ rest) = some rest := by
    intro text h
    rw [eq_of_literal h]
    exact literal_append text rest
  cases t with
  | functionName => exact functionShape_append hword
  | cellRange =>
      exact (stopsAt_of_mem_beforeCell endsWord_of_mem_breakChars (by decide)).reads
        hword (hrest.breaks rfl)
  | rowRange =>
      exact (stopsAt_of_mem_beforeCell endsWord_of_mem_breakChars (by decide)).reads
        hword (hrest.breaks rfl)
  | columnRange =>
      exact (stopsAt_of_mem_beforeCell endsWord_of_mem_breakChars (by decide)).reads
        hword (hrest.breaks rfl)
  | cell => exact stopsAt_cellShape.reads hword (hrest.breaks rfl)
  | sheet => exact sheetShape_append hword
  | error => exact errorShape_append hword
  | boolean => exact stopsAt_booleanShape.reads hword (hrest.breaks rfl)
  | name => exact stopsAt_nameShape.reads hword (hrest.breaks rfl)
  | number => exact numberShape_append (hrest.breaks rfl) hword
  | string =>
      apply stringShape_append _ hword
      intro hhead
      have hquote := hrest.breaks rfl quoteMark hhead
      revert hquote
      decide
  | blank => exact absurd rfl hblank
  | notEqual => exact pair _ hword
  | atLeast => exact pair _ hword
  | atMost => exact pair _ hword
  | _ => exact char_append hword

theorem fails_earlier {t : Terminal} (hword : t.Spells word)
    (hrest : t.EndsBefore rest) (hblank : t ≠ blank) :
    forall u, u ∈ t.earlier -> u.shape (word ++ rest) = none := by
  have hshape := hword.shape_eq
  have mark : forall c, t.markChar? = some c ->
      forall u, u ∈ t.earlier -> u.shape (word ++ rest) = none := by
    intro c hc
    rw [shape_of_markChar? hc] at hshape
    rw [eq_of_char hshape]
    exact fails_before_mark hc hrest.comparison
  cases t with
  | functionName =>
      intro u hu
      cases hu
  | cellRange => exact fails_before_cellRange hshape (hrest.breaks rfl)
  | rowRange => exact fails_before_rowRange hshape (hrest.breaks rfl)
  | columnRange => exact fails_before_columnRange hshape (hrest.breaks rfl)
  | cell => exact fails_before_cell hshape (hrest.breaks rfl)
  | sheet => exact fails_before_sheet hshape
  | error =>
      rcases opens_errorShape word [] hshape with ⟨c, tail, hcons, hc⟩
      rw [hcons, beq_iff_eq.mp hc]
      exact fails_of_opening (by decide)
  | boolean => exact fails_before_boolean hshape (hrest.breaks rfl)
  | name =>
      exact fails_before_name hshape (hword.not_cell rfl)
        (hword.not_boolean rfl) (hrest.breaks rfl)
  | number => exact fails_before_number hshape (hrest.breaks rfl)
  | string =>
      rcases opens_shape string word [] hshape with ⟨c, tail, hcons, hc⟩
      rw [hcons, beq_iff_eq.mp hc]
      exact fails_of_opening (by decide)
  | blank => exact absurd rfl hblank
  | notEqual =>
      rw [eq_of_literal hshape]
      exact fails_before_pair (by decide)
  | atLeast =>
      rw [eq_of_literal hshape]
      exact fails_before_pair (by decide)
  | atMost =>
      rw [eq_of_literal hshape]
      exact fails_before_pair (by decide)
  | ampersand => exact mark '&' rfl
  | circumflex => exact mark '^' rfl
  | comma => exact mark ',' rfl
  | equal => exact mark '=' rfl
  | leftBrace => exact mark '\x7b' rfl
  | less => exact mark '<' rfl
  | leftParen => exact mark '(' rfl
  | minus => exact mark '-' rfl
  | greater => exact mark '>' rfl
  | percent => exact mark '%' rfl
  | plus => exact mark '+' rfl
  | rightBrace => exact mark '\x7d' rfl
  | rightParen => exact mark ')' rfl
  | semicolon => exact mark ';' rfl
  | slash => exact mark '/' rfl
  | star => exact mark '*' rfl

/-- A word is found again in front of what does not change it. -/
theorem first?_append {admits : Terminal -> Bool} {t : Terminal}
    (hadmits : admits t = true) (hword : t.Spells word)
    (hrest : t.EndsBefore rest) (hblank : t ≠ blank) :
    first? admits (word ++ rest) = some (t, word) := by
  apply first?_of_found hadmits _ (fails_earlier hword hrest hblank)
  exact found_eq_some.mpr
    ⟨rest, rfl, shape_append hword.shape_eq hrest hblank⟩

theorem first?_blank {admits : Terminal -> Bool} {gap : List Char}
    (hadmits : admits blank = true) (hne : gap ≠ [])
    (hgap : forall d, d ∈ gap -> isFiller d = true)
    (hrest : forall d, rest.head? = some d -> isFiller d = false) :
    first? admits (gap ++ rest) = some (blank, gap) := by
  cases gap with
  | nil => exact absurd rfl hne
  | cons c gap =>
      have hc := hgap c List.mem_cons_self
      have hopening : (blank.earlier.all fun u => !(u.opening c)) = true := by
        simp only [isFiller, Bool.or_eq_true, beq_iff_eq] at hc
        rcases hc with (((hc | hc) | hc) | hc) | hc
        all_goals rw [hc]
        all_goals decide
      have hfound : blank.found (c :: gap ++ rest) = some (c :: gap) := by
        refine found_eq_some.mpr ⟨rest, rfl, ?_⟩
        have hgap' : forall d, d ∈ gap -> isFiller d = true := by
          intro d hd
          exact hgap d (List.mem_cons_of_mem c hd)
        have hstop : rest.dropWhile isFiller = rest := by
          cases rest with
          | nil => rfl
          | cons d rest => simp [hrest d rfl]
        simp only [shape, many1, seq_apply, List.cons_append, one, hc, if_true,
          Option.bind_some, many, List.dropWhile_append_of_pos hgap', hstop]
      apply first?_of_found hadmits hfound
      intro u hu
      have huc := List.all_eq_true.mp hopening u hu
      exact (opens_shape u).fails (by simpa using huc)

end Earlier

end Terminal
end Precedents
