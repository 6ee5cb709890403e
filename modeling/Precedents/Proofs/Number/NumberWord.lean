import Mathlib.Data.List.TakeDrop
import Precedents.Formula.Literal
import Precedents.Proofs.Formula.Shapes

/-!
# Numbers in formulas

A number is written with digits, a point with digits behind it, and a power of
ten.  One with a point or a power can always be read.  One without them can be
read unless it has too many digits.
-/

namespace Precedents

open Text
open Numeral

/-! ## Plain digits -/

def Digits (cs : List Char) : Prop :=
  forall c, c ∈ cs -> isPlainDigit c = true

theorem isPlainDigit_forall (p : Char -> Bool)
    (h : forall n, n < 58 -> isPlainDigit (Char.ofNat n) = true ->
      p (Char.ofNat n) = true) {c : Char} (hc : isPlainDigit c = true) :
    p c = true := by
  have hnine : c ≤ '9' := by
    simp only [isPlainDigit, Bool.and_eq_true, decide_eq_true_eq] at hc
    exact hc.right
  have hlt : c.toNat < 58 := Nat.lt_succ_of_le hnine
  have hp := h c.toNat hlt
  rw [Char.ofNat_toNat] at hp
  exact hp hc

theorem isDigit_of_isPlainDigit {c : Char} (h : isPlainDigit c = true) :
    isDigit c = true :=
  isPlainDigit_forall isDigit (by decide) h

def isNumberMark (c : Char) : Bool :=
  c == '.' || c == 'e' || c == 'E' || c == '+' || c == '-'

/-- A character that is neither space nor the low line. -/
def isSolid (c : Char) : Bool :=
  !isSpacing c && c != '_'

theorem isSolid_of_isPlainDigit {c : Char} (h : isPlainDigit c = true) :
    isSolid c = true :=
  isPlainDigit_forall isSolid (by decide) h

theorem ne_sign_of_isPlainDigit {c : Char} (h : isPlainDigit c = true) :
    c ≠ '-' ∧ c ≠ '+' := by
  have hne := isPlainDigit_forall (fun d => d != '-' && d != '+') (by decide) h
  simpa using hne

theorem isSolid_of_isNumberMark {c : Char} (h : isNumberMark c = true) :
    isSolid c = true := by
  simp only [isNumberMark, Bool.or_eq_true, beq_iff_eq] at h
  rcases h with (((h | h) | h) | h) | h
  all_goals rw [h]
  all_goals decide

theorem span_append {p : Char -> Bool} {run rest : List Char}
    (hrun : forall c, c ∈ run -> p c = true)
    (hrest : forall c, rest.head? = some c -> p c = false) :
    (run ++ rest).span p = (run, rest) := by
  have hstop : rest.takeWhile p = [] ∧ rest.dropWhile p = rest := by
    cases rest with
    | nil => exact ⟨rfl, rfl⟩
    | cons c rest =>
        have hc := hrest c rfl
        simp [hc]
  rw [List.span_eq_takeWhile_dropWhile, List.takeWhile_append_of_pos hrun,
    List.dropWhile_append_of_pos hrun, hstop.left, hstop.right, List.append_nil]

theorem Digits.isDigit {ds : List Char} (h : Digits ds) {c : Char}
    (hc : c ∈ ds) : isDigit c = true :=
  isDigit_of_isPlainDigit (h c hc)

/-! ## The text as it is read -/

theorem withoutSeparators_eq_self {cs : List Char} (h : '_' ∉ cs)
    (afterDigit : Bool) : withoutSeparators afterDigit cs = some cs := by
  induction cs generalizing afterDigit with
  | nil => simp [withoutSeparators]
  | cons c rest ih =>
      have hc : c ≠ '_' := by
        intro heq
        exact h (heq ▸ List.mem_cons_self ..)
      have hrest : '_' ∉ rest := by
        intro hmem
        exact h (List.mem_cons_of_mem c hmem)
      rw [withoutSeparators, ih hrest]
      · rfl
      · intro heq _
        exact hc heq
      · intro d tail heq _
        exact hc heq

theorem sign_eq_self {cs : List Char}
    (h : forall c, cs.head? = some c -> c ≠ '-' ∧ c ≠ '+') :
    sign cs = (false, cs) := by
  unfold sign
  split
  · exact absurd rfl (h '-' rfl).left
  · exact absurd rfl (h '+' rfl).right
  · rfl

/-! ## The parts of a number -/

def IsPower (cs : List Char) : Prop :=
  exists letter mark ds, cs = letter :: (mark ++ ds) ∧
    (letter = 'e' ∨ letter = 'E') ∧
    (mark = [] ∨ mark = ['+'] ∨ mark = ['-']) ∧ ds ≠ [] ∧ Digits ds

structure NumberParts (word whole fraction power : List Char) : Prop where
  word_eq : word = whole ++ (fraction ++ power)
  whole_digits : Digits whole
  fraction_eq : fraction = [] ∨ exists ds, fraction = '.' :: ds ∧ Digits ds
  power_eq : power = [] ∨ IsPower power
  has_digit : whole ≠ [] ∨ exists d ds, fraction = '.' :: d :: ds

def IsNumber (word : List Char) : Prop :=
  exists whole fraction power, NumberParts word whole fraction power

namespace Terminal

open Scanner

theorem reads_exponentShape : Reads IsPower exponentShape := by
  have hmark := reads_maybe
    (reads_one (p := fun c : Char => c == '+' || c == '-'))
  apply reads_mono (reads_seq reads_one (reads_seq hmark reads_many1))
  intro word hword
  rcases hword with ⟨first, second, heq, ⟨letter, hfirst, hletter⟩,
    mark, ds, hsecond, hmark, hne, hds⟩
  refine ⟨letter, mark, ds, ?_, ?_, ?_, hne, hds⟩
  · rw [heq, hfirst, hsecond]
    rfl
  · simpa using hletter
  · rcases hmark with hmark | hmark
    · exact Or.inl hmark
    · rcases hmark with ⟨c, hmark, hc⟩
      simp only [Bool.or_eq_true, beq_iff_eq] at hc
      rw [hmark]
      rcases hc with hc | hc
      · rw [hc]
        exact Or.inr (Or.inl rfl)
      · rw [hc]
        exact Or.inr (Or.inr rfl)

theorem reads_mantissa :
    Reads (fun word => exists whole fraction,
        NumberParts word whole fraction [])
      (either
        (many1 isPlainDigit >=> maybe (char '.' >=> many isPlainDigit))
        (char '.' >=> many1 isPlainDigit)) := by
  have hfraction := reads_maybe
    (reads_seq (reads_char '.') (takes_many (p := isPlainDigit)))
  apply reads_mono (reads_either (reads_seq reads_many1 hfraction)
    (reads_seq (reads_char '.') reads_many1))
  intro word hword
  rcases hword with hword | hword
  · rcases hword with ⟨whole, fraction, heq, ⟨hne, hwhole⟩, hfraction⟩
    refine ⟨whole, fraction, ?_, hwhole, ?_, Or.inl rfl, Or.inl hne⟩
    · rw [heq, List.append_nil]
    · rcases hfraction with hfraction | hfraction
      · exact Or.inl hfraction
      · rcases hfraction with ⟨point, ds, heq, hpoint, hds⟩
        rw [hpoint] at heq
        exact Or.inr ⟨ds, heq, hds⟩
  · rcases hword with ⟨point, ds, heq, hpoint, hne, hds⟩
    rw [hpoint] at heq
    refine ⟨[], '.' :: ds, ?_, ?_, Or.inr ⟨ds, rfl, hds⟩, Or.inl rfl, ?_⟩
    · rw [heq]
      simp
    · intro c hc
      cases hc
    · cases ds with
      | nil => exact absurd rfl hne
      | cons d ds => exact Or.inr ⟨d, ds, rfl⟩

theorem reads_numberShape : Reads IsNumber numberShape := by
  apply reads_mono (reads_seq reads_mantissa (reads_maybe reads_exponentShape))
  intro word hword
  rcases hword with ⟨first, power, heq, ⟨whole, fraction, hparts⟩, hpower⟩
  refine ⟨whole, fraction, power, ?_, hparts.whole_digits,
    hparts.fraction_eq, hpower, hparts.has_digit⟩
  rw [heq, hparts.word_eq]
  simp

end Terminal

/-! ## The characters of a number -/

theorem IsPower.digit_or_mark {cs : List Char} (h : IsPower cs) {c : Char}
    (hc : c ∈ cs) : isPlainDigit c = true ∨ isNumberMark c = true := by
  rcases h with ⟨letter, mark, ds, heq, hletter, hmark, _, hds⟩
  have hletterMark : isNumberMark letter = true := by
    rcases hletter with hletter | hletter
    all_goals rw [hletter]
    all_goals decide
  have hmarks : forall d, d ∈ mark -> isNumberMark d = true := by
    rcases hmark with hmark | hmark | hmark
    all_goals rw [hmark]
    all_goals decide
  rw [heq] at hc
  rcases List.mem_cons.mp hc with hc | hc
  · rw [hc]
    exact Or.inr hletterMark
  · rcases List.mem_append.mp hc with hc | hc
    · exact Or.inr (hmarks c hc)
    · exact Or.inl (hds c hc)

namespace NumberParts

variable {word whole fraction power : List Char}

theorem digit_or_mark (h : NumberParts word whole fraction power) {c : Char}
    (hc : c ∈ word) : isPlainDigit c = true ∨ isNumberMark c = true := by
  rw [h.word_eq] at hc
  rcases List.mem_append.mp hc with hc | hc
  · exact Or.inl (h.whole_digits c hc)
  · rcases List.mem_append.mp hc with hc | hc
    · rcases h.fraction_eq with hnil | ⟨ds, heq, hds⟩
      · rw [hnil] at hc
        cases hc
      · rw [heq] at hc
        rcases List.mem_cons.mp hc with hc | hc
        · rw [hc]
          exact Or.inr (by decide)
        · exact Or.inl (hds c hc)
    · rcases h.power_eq with hnil | hpower
      · rw [hnil] at hc
        cases hc
      · exact hpower.digit_or_mark hc

theorem isSolid (h : NumberParts word whole fraction power) {c : Char}
    (hc : c ∈ word) : isSolid c = true := by
  rcases h.digit_or_mark hc with hdigit | hmark
  · exact isSolid_of_isPlainDigit hdigit
  · exact isSolid_of_isNumberMark hmark

end NumberParts

theorem IsNumber.digits_or_any {word : List Char} (h : IsNumber word) :
    (Digits word ∧ word ≠ []) ∨
      (word.any fun c => c = '.' || c = 'e' || c = 'E') = true := by
  rcases h with ⟨whole, fraction, power, h⟩
  rw [h.word_eq]
  rcases h.fraction_eq with hfraction | ⟨ds, hfraction, _⟩
  · rcases h.power_eq with hpower | ⟨letter, mark, ds, hpower, hletter, _⟩
    · left
      rw [hfraction, hpower]
      rcases h.has_digit with hne | ⟨d, ds, hdigit⟩
      · simpa using ⟨h.whole_digits, hne⟩
      · rw [hfraction] at hdigit
        cases hdigit
    · right
      rw [hpower]
      rcases hletter with hletter | hletter
      all_goals simp [hletter]
  · right
    rw [hfraction]
    simp

/-! ## Reading numbers -/

theorem trimWhile_of_isSolid {cs : List Char}
    (h : forall c, c ∈ cs -> isSolid c = true) :
    trimWhile isSpacing cs = cs := by
  apply trimWhile_eq_self
  intro c hc
  have hsolid := h c hc
  simp only [isSolid, Bool.and_eq_true, Bool.not_eq_true'] at hsolid
  exact hsolid.left

theorem withoutSeparators_of_isSolid {cs : List Char}
    (h : forall c, c ∈ cs -> isSolid c = true) (afterDigit : Bool) :
    withoutSeparators afterDigit cs = some cs := by
  apply withoutSeparators_eq_self
  intro hmem
  have hsolid := h '_' hmem
  revert hsolid
  decide

theorem NumberParts.sign_eq {word whole fraction power : List Char}
    (h : NumberParts word whole fraction power) : sign word = (false, word) := by
  apply sign_eq_self
  intro c hc
  rw [h.word_eq] at hc
  cases whole with
  | cons d ds =>
      cases hc
      exact ne_sign_of_isPlainDigit (h.whole_digits _ List.mem_cons_self)
  | nil =>
      rcases h.has_digit with hne | ⟨d, ds, hfraction⟩
      · exact absurd rfl hne
      · rw [hfraction] at hc
        cases hc
        decide

theorem readExponent_of_isPower {cs : List Char} (h : IsPower cs) :
    exists n, Decimal.readExponent cs = some n := by
  rcases h with ⟨letter, mark, ds, heq, hletter, hmark, hne, hds⟩
  have hall : ds.all isDigit = true :=
    List.all_eq_true.mpr fun c hc => hds.isDigit hc
  have hsign : exists negative, sign (mark ++ ds) = (negative, ds) := by
    rcases hmark with hmark | hmark | hmark
    · rw [hmark]
      refine ⟨false, sign_eq_self ?_⟩
      intro c hc
      exact ne_sign_of_isPlainDigit (hds c (List.mem_of_mem_head? hc))
    · rw [hmark]
      exact ⟨false, rfl⟩
    · rw [hmark]
      exact ⟨true, rfl⟩
  rcases hsign with ⟨negative, hsign⟩
  rw [heq, Decimal.readExponent, if_pos (by simpa using hletter)]
  simp [hsign, hall, hne]

theorem readDigits_of_parts {word whole fraction power : List Char}
    (h : NumberParts word whole fraction power) (negative : Bool) :
    exists x, Decimal.readDigits negative word = some x := by
  have hexponent : exists n, Decimal.readExponent power = some n := by
    rcases h.power_eq with hpower | hpower
    · rw [hpower]
      exact ⟨0, rfl⟩
    · exact readExponent_of_isPower hpower
  have hhead : forall c, power.head? = some c ->
      isDigit c = false ∧ c ≠ '.' := by
    intro c hc
    rcases h.power_eq with hpower | ⟨letter, mark, ds, hpower, hletter, _⟩
    · rw [hpower] at hc
      cases hc
    · rw [hpower] at hc
      cases hc
      rcases hletter with hletter | hletter
      all_goals rw [hletter]
      all_goals decide
  have hfraction : exists ds, Decimal.fractionRun (fraction ++ power) = (ds, power) ∧
      (whole.isEmpty && ds.isEmpty) = false := by
    rcases h.fraction_eq with hnil | ⟨ds, hpoint, hds⟩
    · refine ⟨[], ?_, ?_⟩
      · rw [hnil, List.nil_append]
        unfold Decimal.fractionRun
        split
        · exact absurd rfl (hhead '.' rfl).right
        · rfl
      · rcases h.has_digit with hne | ⟨d, ds, hpoint⟩
        · simpa using hne
        · rw [hnil] at hpoint
          cases hpoint
    · refine ⟨ds, ?_, ?_⟩
      · rw [hpoint]
        exact span_append (fun c hc => hds.isDigit hc) fun c hc => (hhead c hc).left
      · rcases h.has_digit with hne | ⟨d, tail, heq⟩
        · simp [hne]
        · rw [hpoint] at heq
          cases heq
          simp
  have hwhole : word.span isDigit = (whole, fraction ++ power) := by
    rw [h.word_eq]
    apply span_append fun c hc => h.whole_digits.isDigit hc
    intro c hc
    rcases h.fraction_eq with hnil | ⟨ds, hpoint, _⟩
    · rw [hnil] at hc
      exact (hhead c hc).left
    · rw [hpoint] at hc
      cases hc
      decide
  rcases hexponent with ⟨n, hn⟩
  rcases hfraction with ⟨ds, hrun, hsome⟩
  simp only [Decimal.readDigits, hwhole, hrun, hsome, hn]
  exact ⟨_, rfl⟩

theorem read?_of_isNumber {word : List Char} (h : IsNumber word) :
    exists x, Decimal.read? (String.ofList word) = some x := by
  rcases h with ⟨whole, fraction, power, h⟩
  have hsolid : forall c, c ∈ word -> isSolid c = true := fun c hc => h.isSolid hc
  rcases readDigits_of_parts h false with ⟨x, hx⟩
  refine ⟨x, ?_⟩
  simp only [Decimal.read?, String.toList_ofList, trimWhile_of_isSolid hsolid,
    withoutSeparators_of_isSolid hsolid, h.sign_eq, hx]
  rfl

theorem readInteger_eq_of_digits {word : List Char} (h : Digits word)
    (hne : word ≠ []) :
    readInteger (String.ofList word) = (ofPlainDigits word).map Int.ofNat := by
  have hparts : NumberParts word word [] [] :=
    ⟨by simp, h, Or.inl rfl, Or.inl rfl, Or.inl hne⟩
  have hsolid : forall c, c ∈ word -> isSolid c = true :=
    fun c hc => hparts.isSolid hc
  have hrun : digitRun word = (word, []) := by
    have hspan : (word ++ []).span (fun c => isDigit c || c = '_') =
        (word, []) := by
      apply span_append
      · intro c hc
        simp [h.isDigit hc]
      · intro c hc
        cases hc
    rwa [List.append_nil] at hspan
  simp only [readInteger, String.toList_ofList, trimWhile_of_isSolid hsolid,
    hparts.sign_eq, hrun, withoutSeparators_of_isSolid hsolid,
    List.isEmpty_eq_false_iff.mpr hne, ofPlainDigits]
  cases natural (word.filterMap digitValue?) with
  | error e => rfl
  | ok n => rfl

theorem readInteger_of_digits {word : List Char} (h : Digits word)
    (hne : word ≠ []) :
    (exists n, readInteger (String.ofList word) = .ok n) <->
      word.length ≤ digitLimit := by
  have hlength : (word.filterMap digitValue?).length = word.length := by
    rw [List.length_filterMap_eq_countP]
    exact List.countP_eq_length.mpr fun c hc => h.isDigit hc
  rw [readInteger_eq_of_digits h hne, ofPlainDigits, natural, hlength]
  by_cases hle : word.length ≤ digitLimit
  · simp [hle, Except.map]
  · simp [hle, Except.map]

/-! ## Number literals -/

theorem any_mark_of_digits {cs : List Char} (h : Digits cs) :
    (cs.any fun c => c = '.' || c = 'e' || c = 'E') = false := by
  apply List.any_eq_false.mpr
  intro c hc
  have hplain := isPlainDigit_forall
    (fun d => !(d = '.' || d = 'e' || d = 'E')) (by decide) (h c hc)
  simpa using hplain

/-- A whole number with more digits than are read. -/
def Overlong (text : String) : Prop :=
  Digits text.toList ∧ digitLimit < text.toList.length

theorem Literal.number_ok_iff {text : String} (h : IsNumber text.toList) :
    (exists v, Literal.number text = .ok v) <-> ¬ Overlong text := by
  have hofList : String.ofList text.toList = text := String.ofList_toList
  unfold Literal.number
  rcases h.digits_or_any with ⟨hdigits, hne⟩ | hany
  · have hread := readInteger_of_digits hdigits hne
    rw [hofList] at hread
    rw [if_neg (by rw [any_mark_of_digits hdigits]; exact Bool.false_ne_true)]
    constructor
    · intro hok hover
      rcases hok with ⟨v, hok⟩
      cases hint : readInteger text with
      | error error =>
          rw [hint] at hok
          cases hok
      | ok n => exact absurd (hread.mp ⟨n, hint⟩) (Nat.not_le.mpr hover.right)
    · intro hshort
      have hle : text.toList.length ≤ digitLimit :=
        Nat.le_of_not_lt fun hlt => hshort ⟨hdigits, hlt⟩
      rcases hread.mpr hle with ⟨n, hn⟩
      rw [hn]
      exact ⟨.int n, rfl⟩
  · rcases read?_of_isNumber h with ⟨x, hx⟩
    rw [hofList] at hx
    rw [if_pos hany]
    constructor
    · intro _ hover
      rw [any_mark_of_digits hover.left] at hany
      cases hany
    · intro _
      refine ⟨.float x, ?_⟩
      simp only [Decimal.read, hx]
      rfl

theorem Literal.negativeNumber_ok_iff {text : String}
    (h : IsNumber text.toList) :
    (exists v, Literal.negativeNumber text = .ok v) <-> ¬ Overlong text := by
  rw [<- Literal.number_ok_iff h]
  unfold Literal.negativeNumber
  cases Literal.number text with
  | error error => simp [Except.map]
  | ok v => simp [Except.map]

end Precedents
