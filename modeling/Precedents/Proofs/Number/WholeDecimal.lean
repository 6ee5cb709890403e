import Mathlib.Tactic.Ring
import Precedents.Number.Decimal
import Precedents.Proofs.Reference.Addressing

/-!
# Whole numbers read as decimals

A whole number below `2 ^ 53` is a magnitude of its own: its significand is shifted
up until it fills the fraction, and nothing is rounded away.  So a whole number of
at most fifteen digits is read as a decimal without loss.
-/

namespace Precedents

namespace Binary64

/-! ## The parts of a code -/

section Fields

variable {field part : Nat}

/-- The code of a significand that fills the fraction, behind a field below the last two. -/
structure IsNormal (field part : Nat) : Prop where
  field_le : field ≤ 2044
  fraction_le : fractionSize ≤ part
  part_lt : part < 2 * fractionSize

theorem IsNormal.code_lt (h : IsNormal field part) :
    field * fractionSize + part < infinityCode := by
  have hfield := h.field_le
  have hpart := h.part_lt
  unfold infinityCode fractionSize at *
  omega

theorem IsNormal.code_eq (h : IsNormal field part) (negative : Bool) :
    (ofCode negative (field * fractionSize + part)).code =
      field * fractionSize + part :=
  Nat.min_eq_left (Nat.le_of_lt h.code_lt)

theorem IsNormal.isFinite (h : IsNormal field part) (negative : Bool) :
    (ofCode negative (field * fractionSize + part)).isFinite = true := by
  rw [Binary64.isFinite, h.code_eq, decide_eq_true_eq]
  exact h.code_lt

theorem IsNormal.significand_eq (h : IsNormal field part) (negative : Bool) :
    (ofCode negative (field * fractionSize + part)).significand = part := by
  have hlow := h.fraction_le
  have hhigh := h.part_lt
  rw [significand, h.code_eq]
  unfold fractionSize at *
  rw [if_neg (by omega)]
  omega

theorem IsNormal.exponent_eq (h : IsNormal field part) (negative : Bool) :
    (ofCode negative (field * fractionSize + part)).exponent = (field : Int) - 1074 := by
  have hlow := h.fraction_le
  have hhigh := h.part_lt
  rw [exponent, h.code_eq]
  unfold fractionSize at *
  rw [if_neg (by omega)]
  omega

end Fields

/-! ## Whole numbers -/

section Whole

variable {n : Nat}

theorem roundHalfEven_one (n : Nat) : roundHalfEven n 1 = n := by
  simp [roundHalfEven, Nat.mod_one]

theorem scaled_of_nonpos {e : Int} (h : e ≤ 0) (num den : Nat) :
    scaled num den e = (num * 2 ^ (-e).toNat, den) := by
  unfold scaled
  by_cases hzero : 0 ≤ e
  · have he : e = 0 := Int.le_antisymm h hzero
    simp [he]
  · rw [if_neg hzero, Nat.pow_eq]

theorem shifted_bounds (hpos : n ≠ 0) (hlt : n < 2 ^ 53) :
    Nat.log2 n ≤ 52 ∧ fractionSize ≤ n * 2 ^ (52 - Nat.log2 n) ∧
      n * 2 ^ (52 - Nat.log2 n) < 2 * fractionSize := by
  have hlog : Nat.log2 n ≤ 52 := Nat.le_of_lt_succ ((Nat.log2_lt hpos).mpr hlt)
  have hfraction : fractionSize = 2 ^ Nat.log2 n * 2 ^ (52 - Nat.log2 n) := by
    rw [← pow_add, Nat.add_sub_cancel' hlog]
    rfl
  have hdouble : 2 * fractionSize =
      2 ^ (Nat.log2 n + 1) * 2 ^ (52 - Nat.log2 n) := by
    rw [hfraction]
    ring
  refine ⟨hlog, ?_, ?_⟩
  · rw [hfraction]
    exact Nat.mul_le_mul_right _ (Nat.log2_self_le hpos)
  · rw [hdouble]
    exact Nat.mul_lt_mul_of_pos_right Nat.lt_log2_self (Nat.two_pow_pos _)

theorem roundingExponent_whole (hpos : n ≠ 0) (hlt : n < 2 ^ 53) :
    roundingExponent n 1 = (Nat.log2 n : Int) - 52 := by
  rcases shifted_bounds hpos hlt with ⟨hlog, hlow, _⟩
  have hfirst : max ((Nat.log2 n : Int) - Nat.log2 1 - 53) (-1074) =
      (Nat.log2 n : Int) - 53 := by
    have hone : Nat.log2 1 = 0 := by decide
    rw [hone]
    omega
  have hshift : (-((Nat.log2 n : Int) - 53)).toNat = 52 - Nat.log2 n + 1 := by
    omega
  have hlarge : ¬ n * 2 ^ (52 - Nat.log2 n + 1) < 2 * fractionSize := by
    rw [pow_succ, ← Nat.mul_assoc]
    omega
  simp only [roundingExponent, hfirst]
  rw [scaled_of_nonpos (by omega), hshift]
  simp only [Nat.div_one, if_neg hlarge]
  omega

theorem ofRatio_whole (hpos : n ≠ 0) (hlt : n < 2 ^ 53) (negative : Bool) :
    ofRatio negative n 1 =
      ofCode negative ((Nat.log2 n + 1022) * fractionSize +
        n * 2 ^ (52 - Nat.log2 n)) := by
  rcases shifted_bounds hpos hlt with ⟨hlog, _, _⟩
  have hshift : (-((Nat.log2 n : Int) - 52)).toNat = 52 - Nat.log2 n := by omega
  have hfield : ((Nat.log2 n : Int) - 52 + 1074).toNat = Nat.log2 n + 1022 := by
    omega
  simp only [ofRatio, if_neg hpos, roundingExponent_whole hpos hlt]
  rw [scaled_of_nonpos (by omega), hshift]
  simp only [roundHalfEven_one, hfield]

theorem wholePart_of_exponent {x : Binary64} {shift : Nat}
    (hsignificand : x.significand = n * 2 ^ shift) (hexponent : x.exponent = -shift) :
    x.wholePart = n := by
  unfold wholePart
  rw [hsignificand, hexponent]
  split
  · have hzero : shift = 0 := by omega
    simp [hzero]
  · rw [Int.neg_neg, Int.toNat_natCast, Nat.pow_eq]
    exact Nat.mul_div_cancel n (Nat.two_pow_pos shift)

theorem wholePart_of_zero {x : Binary64} (h : x.significand = 0) : x.wholePart = 0 := by
  simp [wholePart, h]

structure IsWholeNumber (x : Binary64) (n : Int) : Prop where
  isFinite : x.isFinite = true
  truncate_eq : x.truncate = n

def signed (negative : Bool) (n : Nat) : Int :=
  if negative then -(n : Int) else n

/-- A whole number below `2 ^ 53` is read as a decimal without loss. -/
theorem ofDecimal_isWholeNumber (hlt : n < 2 ^ 53) (negative : Bool) :
    (ofDecimal negative n 0).IsWholeNumber (signed negative n) := by
  by_cases hzero : n = 0
  · have hpart : (ofCode negative 0).wholePart = 0 := wholePart_of_zero rfl
    rw [hzero]
    refine ⟨rfl, ?_⟩
    change (ofCode negative 0).truncate = _
    rw [truncate, hpart]
    rfl
  · have hratio : ofDecimal negative n 0 = ofRatio negative n 1 := by
      simp [ofDecimal, hzero]
    rcases shifted_bounds hzero hlt with ⟨hlog, hlow, hhigh⟩
    have hnormal : IsNormal (Nat.log2 n + 1022) (n * 2 ^ (52 - Nat.log2 n)) :=
      ⟨by omega, hlow, hhigh⟩
    rw [hratio, ofRatio_whole hzero hlt]
    refine ⟨hnormal.isFinite negative, ?_⟩
    have hwhole : (ofCode negative ((Nat.log2 n + 1022) * fractionSize +
        n * 2 ^ (52 - Nat.log2 n))).wholePart = n := by
      apply wholePart_of_exponent (hnormal.significand_eq negative)
      rw [hnormal.exponent_eq negative]
      omega
    rw [truncate, hwhole]
    rfl

end Whole

end Binary64

/-! ## The text of a whole number -/

namespace Numeral

open Text

variable {digits : List Char}

theorem ofDigitChars_lt (h : Digits digits) (n : Nat) :
    Nat.ofDigitChars 10 digits n < (n + 1) * 10 ^ digits.length := by
  induction digits generalizing n with
  | nil => simp [Nat.ofDigitChars]
  | cons c rest ih =>
      have hc : c.toNat - '0'.toNat < 10 :=
        of_decide_eq_true (isPlainDigit_forall
          (fun d => decide (d.toNat - '0'.toNat < 10)) (by decide)
          (h c List.mem_cons_self))
      have hrest := ih (fun d hd => h d (List.mem_cons_of_mem c hd))
        (10 * n + (c.toNat - '0'.toNat))
      rw [Nat.ofDigitChars_cons, List.length_cons]
      calc Nat.ofDigitChars 10 rest (10 * n + (c.toNat - '0'.toNat))
          < (10 * n + (c.toNat - '0'.toNat) + 1) * 10 ^ rest.length := hrest
        _ ≤ (10 * (n + 1)) * 10 ^ rest.length := Nat.mul_le_mul_right _ (by omega)
        _ = (n + 1) * 10 ^ (rest.length + 1) := by ring

inductive IsSign : List Char -> Bool -> Prop where
  | none : IsSign [] false
  | plus : IsSign ['+'] false
  | minus : IsSign ['-'] true

/-- A whole number in plain digits, at most fifteen, with a sign that may be left out. -/
inductive Writes : String -> Int -> Prop where
  | intro {mark digits : List Char} {negative : Bool} (hmark : IsSign mark negative)
      (hdigits : Digits digits) (hne : digits ≠ []) (hlength : digits.length ≤ 15) :
      Writes (String.ofList (mark ++ digits))
        (Binary64.signed negative (Nat.ofDigitChars 10 digits 0))

theorem IsSign.isSolid {mark : List Char} {negative : Bool} (h : IsSign mark negative) :
    forall c, c ∈ mark -> isSolid c = true := by
  cases h with
  | none => decide
  | plus => decide
  | minus => decide

theorem IsSign.sign_append {mark : List Char} {negative : Bool}
    (h : IsSign mark negative) (hdigits : Digits digits) :
    sign (mark ++ digits) = (negative, digits) := by
  cases h with
  | none =>
      apply sign_eq_self
      intro c hc
      exact ne_sign_of_isPlainDigit (hdigits c (List.mem_of_mem_head? hc))
  | plus => rfl
  | minus => rfl

end Numeral

namespace Decimal

open Text
open Numeral

theorem readDigits_of_digits {digits : List Char} (h : Digits digits)
    (hne : digits ≠ []) (negative : Bool) :
    readDigits negative digits =
      some (Binary64.ofDecimal negative (Nat.ofDigitChars 10 digits 0) 0) := by
  have hrun : digits.span isDigit = (digits, []) := by
    have hspan := @span_append isDigit digits [] (fun c hc => h.isDigit hc) (by simp)
    rwa [List.append_nil] at hspan
  have hsome : digits.isEmpty = false := List.isEmpty_eq_false_iff.mpr hne
  simp only [readDigits, hrun, fractionRun, hsome, readExponent, List.append_nil,
    value_eq_ofDigitChars h]
  rfl

theorem read?_of_writes {s : String} {n : Int} (h : Writes s n) :
    exists x, read? s = some x ∧ x.IsWholeNumber n := by
  cases h with
  | @intro mark digits negative hmark hdigits hne hlength =>
      have hsolid : forall c, c ∈ mark ++ digits -> isSolid c = true := by
        intro c hc
        rcases List.mem_append.mp hc with hc | hc
        · exact hmark.isSolid c hc
        · exact isSolid_of_isPlainDigit (hdigits c hc)
      have hsmall : Nat.ofDigitChars 10 digits 0 < 2 ^ 53 :=
        calc Nat.ofDigitChars 10 digits 0
            < (0 + 1) * 10 ^ digits.length := ofDigitChars_lt hdigits 0
          _ ≤ (0 + 1) * 10 ^ 15 :=
              Nat.mul_le_mul_left _ (Nat.pow_le_pow_right (by decide) hlength)
          _ < 2 ^ 53 := by decide
      refine ⟨_, ?_, Binary64.ofDecimal_isWholeNumber hsmall negative⟩
      simp only [read?, String.toList_ofList, trimWhile_of_isSolid hsolid,
        withoutSeparators_of_isSolid hsolid, hmark.sign_append hdigits,
        readDigits_of_digits hdigits hne]
      rfl

end Decimal
end Precedents
