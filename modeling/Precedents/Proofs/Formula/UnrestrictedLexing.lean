import Precedents.Proofs.Formula.Lexing
import Precedents.Proofs.Formula.Recovering

/-!
# Looking for all terminals

A reader looks for the terminals that may come next, and only for those.  In
front of a token that it takes, all terminals together find the same token.
Inside an array this may fail in two ways: a truth value may be the name of a
sheet, and a number may be the first of two rows.  What stands behind the truth
value or the number is then something that no terminal starts with.
-/

namespace Precedents

/-! ## Lengths of words -/

namespace Text
namespace Scanner

theorem reads_atMost_length (p : Char -> Bool) (n : Nat) :
    Reads (fun word => word.length ≤ n) (atMost p n) := by
  intro cs out h
  induction n generalizing cs with
  | zero =>
      cases cs <;> cases h <;> exact ⟨[], rfl, Nat.le_refl 0⟩
  | succ n ih =>
      cases cs with
      | nil =>
          cases h
          exact ⟨[], rfl, Nat.zero_le _⟩
      | cons c rest =>
          rw [atMost] at h
          split at h
          · rcases ih rest h with ⟨word, heq, hle⟩
            exact ⟨c :: word, by rw [heq]; rfl, Nat.succ_le_succ hle⟩
          · cases h
            exact ⟨[], rfl, Nat.zero_le _⟩

end Scanner
end Text

namespace Terminal

open Text
open Scanner

theorem reads_caseless_length (letters : List Char) :
    Reads (fun word => word.length = letters.length) (caseless letters) := by
  induction letters with
  | nil =>
      intro cs out h
      cases h
      exact ⟨[], rfl, rfl⟩
  | cons letter letters ih =>
      apply reads_mono (reads_seq reads_one ih)
      intro word hword
      rcases hword with ⟨first, second, heq, ⟨c, hfirst, _⟩, hsecond⟩
      rw [heq, hfirst, List.length_append, hsecond, Nat.add_comm]
      rfl

/-! ## The order of the terminals -/

theorem mem_of_mem_takeWhile {t u : Terminal} {before after : List Terminal}
    (hu : u ∈ (before ++ t :: after).takeWhile (· != t)) : u ∈ before := by
  induction before with
  | nil => simp at hu
  | cons v before ih =>
      rw [List.cons_append, List.takeWhile_cons] at hu
      split at hu
      · rcases List.mem_cons.mp hu with heq | hu
        · rw [heq]
          exact List.mem_cons_self
        · exact List.mem_cons_of_mem v (ih hu)
      · cases hu

theorem fails_of_first? {admits : Terminal -> Bool} {cs word : List Char}
    {t : Terminal} (h : first? admits cs = some (t, word)) {u : Terminal}
    (hu : u ∈ t.earlier) (hadmits : admits u = true) : u.shape cs = none := by
  rw [first?_eq, List.findSome?_eq_some_iff] at h
  rcases h with ⟨before, v, after, hsplit, hv, hbefore⟩
  have hvt : v = t := by
    split at hv
    · rcases Option.map_eq_some_iff.mp hv with ⟨own, _, heq⟩
      cases heq
      rfl
    · cases hv
  rw [hvt] at hsplit
  rw [earlier, hsplit] at hu
  have hnone := hbefore u (mem_of_mem_takeWhile hu)
  simp only [hadmits, if_true, Option.map_eq_none_iff, found] at hnone
  exact hnone

theorem first?_all_of_first? {admits : Terminal -> Bool} {cs word : List Char}
    {t : Terminal} (h : first? admits cs = some (t, word))
    (hother : forall u, u ∈ t.earlier -> admits u = false -> u.shape cs = none) :
    first? (fun _ => true) cs = some (t, word) := by
  apply first?_of_found rfl (found_of_first? h).right
  intro u hu
  cases hadmits : admits u with
  | true => exact fails_of_first? h hu hadmits
  | false => exact hother u hu hadmits

theorem first?_or_first? {cs word : List Char} {t v : Terminal}
    (h : t.found cs = some word)
    (hfails : forall u, u ∈ t.earlier -> u ≠ v -> u.shape cs = none)
    (hearlier : forall u, u ∈ v.earlier -> u ∈ t.earlier ∧ u ≠ v) :
    first? (fun _ => true) cs = some (t, word) ∨
      exists own, v.found cs = some own ∧ first? (fun _ => true) cs = some (v, own) := by
  cases hv : v.found cs with
  | none =>
      left
      apply first?_of_found rfl h
      intro u hu
      by_cases huv : u = v
      · rw [huv]
        exact Option.map_eq_none_iff.mp hv
      · exact hfails u hu huv
  | some own =>
      refine Or.inr ⟨own, rfl, ?_⟩
      apply first?_of_found rfl hv
      intro u hu
      exact hfails u (hearlier u hu).left (hearlier u hu).right

/-! ## How words of the same text open -/

def openChar? : Terminal -> Option Char
  | error => some '#'
  | string => some quoteMark
  | notEqual | atMost | less => some '<'
  | atLeast | greater => some '>'
  | t => t.markChar?

theorem opening_of_openChar? {t : Terminal} {c d : Char}
    (h : t.openChar? = some c) (hd : t.opening d = true) : d = c := by
  cases t
  all_goals cases h
  all_goals exact beq_iff_eq.mp hd

theorem comparison_of_openChar? {t : Terminal} {c : Char}
    (h : t.openChar? = some c) :
    forall u, u ∈ t.earlier -> u.opening c = true ->
      t ∈ [notEqual, atLeast, atMost, less, greater] ∧
        u ∈ [notEqual, atLeast, atMost, less, greater] := by
  cases t
  all_goals cases h
  all_goals decide

theorem opening_bang (t : Terminal) : t.opening '!' = false := by
  cases t <;> decide

theorem opening_colon (t : Terminal) : t.opening ':' = false := by
  cases t <;> decide

/-! ## What a word ends before -/

/-- No text is left that starts with a character that satisfies `p`. -/
def Ends (p : Char -> Bool) (s : Scanner) : Prop :=
  forall cs out, s cs = some out -> forall d, out.head? = some d -> p d = false

theorem ends_notBefore {p : Char -> Bool} : Ends p (notBefore p) := by
  intro cs out h d hd
  cases cs with
  | nil =>
      cases h
      cases hd
  | cons c rest =>
      rw [notBefore] at h
      split at h
      · cases h
      · rename_i hc
        cases h
        cases hd
        exact Bool.eq_false_iff.mpr hc

theorem ends_seq {p : Char -> Bool} {s t : Scanner} (ht : Ends p t) :
    Ends p (s >=> t) := by
  intro cs out h
  rcases Option.bind_eq_some_iff.mp h with ⟨middle, _, hout⟩
  exact ht middle out hout

section Words

variable {s : Scanner} {q : Char -> Bool} {cs rest : List Char}

/-- A name with a mark behind it ends where a word ends that may not be extended. -/
theorem rest_of_name (hs : Takes q s)
    (hends : forall d, rest.head? = some d -> isNameRest d = false)
    (h : s cs = some rest) {mark : Char} (hmark : q mark = false)
    {out : List Char} (hname : (Sheet.nameScanner >=> char mark) cs = some out) :
    rest = mark :: out := by
  rcases hs cs rest h with ⟨word, hword, hchars⟩
  rcases reads_seq takes_nameScanner (reads_char mark) cs out hname with
    ⟨_, htext, name, second, heq, hrest, hsecond⟩
  rw [hword, heq, hsecond, List.append_assoc, List.singleton_append] at htext
  rcases List.append_eq_append_iff.mp htext with
    ⟨more, hmore, hends'⟩ | ⟨more, hmore, hends'⟩
  · cases more with
    | nil => exact hends'
    | cons d more =>
        have hd := hends d (by rw [hends']; rfl)
        have hnot := hrest d (by rw [hmore]; simp)
        rw [hd] at hnot
        cases hnot
  · cases more with
    | nil => exact hends'.symm
    | cons d more =>
        injection hends' with hd _
        have hin := hchars d (by rw [hmore]; simp)
        rw [← hd, hmark] at hin
        cases hin

theorem functionName_fails (hs : Takes q s) (hends : Ends extendsWord s)
    (hparen : q '(' = false) (h : s cs = some rest) :
    functionName.shape cs = none := by
  cases hname : functionName.shape cs with
  | none => rfl
  | some out =>
      have hnot : forall d, rest.head? = some d -> isNameRest d = false := by
        intro d hd
        have hword := hends cs rest h d hd
        simp only [extendsWord, Bool.or_eq_false_iff] at hword
        exact hword.left
      have hrest := rest_of_name hs hnot h hparen hname
      have hextends := hends cs rest h '(' (by rw [hrest]; rfl)
      cases hextends

end Words

/-! ## In front of a cell or a range -/

/-- No function is found where a reference is found. -/
theorem functionName_fails_of_reference {t : Terminal} {cs rest : List Char}
    (ht : (ReferenceKind.ofTerminal? t).isSome = true)
    (h : t.shape cs = some rest) : functionName.shape cs = none := by
  cases t with
  | cell =>
      have hends : Ends extendsWord cellShape := by
        intro cs out h d hd
        have hcell := ends_seq ends_notBefore cs out h d hd
        simp only [extendsCell, Bool.or_eq_false_iff] at hcell
        exact hcell.left.left
      exact functionName_fails (takes_seq takes_cell takes_notBefore) hends
        (by decide) h
  | cellRange =>
      exact functionName_fails (takes_pair takes_cell extendsWord)
        (ends_seq (ends_seq (ends_seq ends_notBefore))) (by decide) h
  | columnRange =>
      exact functionName_fails (takes_pair takes_column extendsWord)
        (ends_seq (ends_seq (ends_seq ends_notBefore))) (by decide) h
  | rowRange =>
      rcases opens_shape rowRange cs rest h with ⟨c, tail, hcs, hc⟩
      rw [hcs]
      apply (opens_shape functionName).fails
      simp only [opening, Bool.or_eq_true, beq_iff_eq] at hc
      rcases hc with hc | hc
      · rw [hc]
        decide
      · have hnot := isPlainDigit_forall (fun d => !isNameStart d) (by decide) hc
        show isNameStart c = false
        simpa using hnot
  | _ => cases ht

/-! ## In front of a truth value -/

theorem isTruthChar_eq_false {c : Char}
    (h : c ∈ ['$', ':', '(', '!', '#', apostrophe] ∨ isPlainDigit c = true) :
    isTruthChar c = false := by
  rcases h with h | h
  · have hall : forall d, d ∈ ['$', ':', '(', '!', '#', apostrophe] ->
        isTruthChar d = false := by decide
    exact hall c h
  · have hnot := isPlainDigit_forall (fun d => !isTruthChar d) (by decide) h
    simpa using hnot

theorem reads_booleanShape :
    Reads (fun word => 4 ≤ word.length ∧
      forall c, c ∈ word -> isTruthChar c = true) booleanShape := by
  intro cs out h
  have hlength : Reads (fun word => 4 ≤ word.length) booleanShape := by
    apply reads_mono (reads_seq (reads_either (reads_caseless_length _)
      (reads_caseless_length _)) (takes_notBefore (p := anyChar)))
    intro word hword
    rcases hword with ⟨first, second, heq, hfirst, _⟩
    rw [heq, List.length_append]
    rcases hfirst with hfirst | hfirst
    · rw [hfirst]
      exact Nat.le_add_right 4 _
    · rw [hfirst]
      exact Nat.le_trans (Nat.le_succ 4) (Nat.le_add_right 5 _)
  rcases hlength cs out h with ⟨word, hword, hle⟩
  rcases takes_booleanShape cs out h with ⟨own, hown, hchars⟩
  have hsame : word = own := List.append_cancel_right (hword.symm.trans hown)
  exact ⟨word, hword, hle, hsame ▸ hchars⟩

theorem head_mem_of_append_eq {short long front behind : List Char}
    (h : front ++ behind = short ++ long) (hlength : short.length < front.length) :
    exists d tail, long = d :: tail ∧ d ∈ front := by
  rcases List.append_eq_append_iff.mp h with ⟨more, hshort, _⟩ | ⟨more, hfront, hlong⟩
  · rw [hshort, List.length_append] at hlength
    omega
  · cases more with
    | nil =>
        rw [hfront, List.append_nil] at hlength
        exact absurd hlength (Nat.lt_irrefl _)
    | cons d more =>
        refine ⟨d, more ++ behind, hlong, ?_⟩
        rw [hfront]
        exact List.mem_append_right short List.mem_cons_self

section Truth

variable {word rest : List Char}

theorem column_of_truth (hlength : 4 ≤ word.length)
    (hword : forall c, c ∈ word -> isTruthChar c = true) {out : List Char}
    (h : Shape.column (word ++ rest) = some out) :
    exists d tail, out = d :: tail ∧ isTruthChar d = true := by
  have hreads := reads_seq (reads_maybe (reads_char '$'))
    (reads_seq (reads_one (p := isPlainLetter)) (reads_atMost_length isPlainLetter 2))
  rcases hreads _ out h with
    ⟨_, htext, dollar, letters, heq, hdollar, first, more, hletters,
      ⟨d, hfirst, _⟩, hmore⟩
  rw [heq] at htext
  rcases hdollar with hdollar | hdollar
  · rw [hdollar, List.nil_append, hletters, hfirst] at htext
    have hshort : ([d] ++ more).length < word.length := by
      simp only [List.length_append, List.length_cons, List.length_nil]
      omega
    rcases head_mem_of_append_eq htext hshort with ⟨e, tail, hout, hmem⟩
    exact ⟨e, tail, hout, hword e hmem⟩
  · rw [hdollar, List.append_assoc] at htext
    cases word with
    | nil => cases hlength
    | cons c word =>
        injection htext with hc _
        have htruth := hword c List.mem_cons_self
        rw [hc, isTruthChar_eq_false (Or.inl (by decide))] at htruth
        cases htruth

theorem column_seq_fails {s : Scanner} {p : Char -> Bool}
    (hs : Opens p s) (hp : forall c, p c = true -> isTruthChar c = false)
    (hlength : 4 ≤ word.length)
    (hword : forall c, c ∈ word -> isTruthChar c = true) :
    (Shape.column >=> s) (word ++ rest) = none := by
  rw [seq_apply]
  cases hcolumn : Shape.column (word ++ rest) with
  | none => rfl
  | some out =>
      rcases column_of_truth hlength hword hcolumn with ⟨d, tail, hout, htruth⟩
      rw [Option.bind_some, hout]
      apply hs.fails
      apply Bool.eq_false_iff.mpr
      intro hd
      rw [hp d hd] at htruth
      cases htruth

theorem cell_fails_of_truth (hlength : 4 ≤ word.length)
    (hword : forall c, c ∈ word -> isTruthChar c = true) :
    Shape.cell (word ++ rest) = none := by
  apply column_seq_fails opens_row _ hlength hword
  intro c hc
  simp only [Bool.or_eq_true, beq_iff_eq] at hc
  rcases hc with hc | hc
  · exact isTruthChar_eq_false (Or.inl (by rw [hc]; decide))
  · exact isTruthChar_eq_false (Or.inr hc)

theorem fails_of_truth_of_opening (hlength : 4 ≤ word.length)
    (hword : forall c, c ∈ word -> isTruthChar c = true) {u : Terminal}
    (hu : forall c, u.opening c = true ->
      c ∈ ['$', ':', '(', '!', '#', apostrophe] ∨ isPlainDigit c = true) :
    u.shape (word ++ rest) = none := by
  cases word with
  | nil => cases hlength
  | cons c word =>
      apply (opens_shape u).fails
      apply Bool.eq_false_iff.mpr
      intro hc
      have htruth := hword c List.mem_cons_self
      rw [isTruthChar_eq_false (hu c hc)] at htruth
      cases htruth

end Truth

theorem fails_before_truth {cs rest : List Char}
    (h : booleanShape cs = some rest) :
    forall u, u ∈ boolean.earlier -> u ≠ sheet -> u.shape cs = none := by
  rcases reads_booleanShape cs rest h with ⟨word, hcs, hlength, hword⟩
  have hcell : Shape.cell cs = none := by
    rw [hcs]
    exact cell_fails_of_truth hlength hword
  intro u hu hsheet
  have hu : u ∈ [functionName, cellRange, rowRange, columnRange, cell, sheet,
    error] := hu
  simp only [List.mem_cons, List.not_mem_nil, or_false, hsheet, false_or] at hu
  rcases hu with hu | hu | hu | hu | hu | hu
  · rw [hu]
    exact functionName_fails takes_booleanShape (ends_seq ends_notBefore)
      (by decide) h
  · rw [hu]
    show (Shape.cell >=> _) cs = none
    rw [seq_apply, hcell]
    rfl
  · rw [hu, hcs]
    apply fails_of_truth_of_opening hlength hword
    intro c hc
    simp only [Terminal.opening, Bool.or_eq_true, beq_iff_eq] at hc
    rcases hc with hc | hc
    · exact Or.inl (by rw [hc]; decide)
    · exact Or.inr hc
  · rw [hu, hcs]
    apply column_seq_fails (opens_seq opens_one) _ hlength hword
    intro c hc
    exact isTruthChar_eq_false (Or.inl (by rw [beq_iff_eq.mp hc]; decide))
  · rw [hu]
    show (Shape.cell >=> _) cs = none
    rw [seq_apply, hcell]
    rfl
  · rw [hu, hcs]
    apply fails_of_truth_of_opening hlength hword
    intro c hc
    exact Or.inl (by rw [beq_iff_eq.mp hc]; decide)

theorem rest_of_truth_sheet {cs rest out : List Char}
    (h : booleanShape cs = some rest) (hsheet : sheetShape cs = some out) :
    rest = '!' :: out := by
  rcases reads_booleanShape cs rest h with ⟨word, hcs, hlength, hword⟩
  have hplain : (Sheet.nameScanner >=> char '!') cs = some out := by
    unfold sheetShape either at hsheet
    rcases Option.or_eq_some_iff.mp hsheet with hquoted | ⟨_, hplain⟩
    · rcases (opens_seq opens_one) cs out hquoted with ⟨c, tail, htext, hc⟩
      cases word with
      | nil => cases hlength
      | cons d word =>
          rw [htext] at hcs
          injection hcs with hd _
          have htruth := hword d List.mem_cons_self
          rw [← hd, isTruthChar_eq_false
            (Or.inl (by rw [beq_iff_eq.mp hc]; decide))] at htruth
          cases htruth
    · exact hplain
  have hends : forall d, rest.head? = some d -> isNameRest d = false := by
    intro d hd
    have hextends := ends_seq ends_notBefore cs rest h d hd
    simp only [extendsWord, Bool.or_eq_false_iff] at hextends
    exact hextends.left
  exact rest_of_name takes_booleanShape hends h (by decide) hplain

/-! ## In front of a number -/

theorem numberShape_digits {digits rest : List Char} (hne : digits ≠ [])
    (hdigits : Digits digits) :
    numberShape (digits ++ ':' :: rest) = some (':' :: rest) := by
  cases digits with
  | nil => exact absurd rfl hne
  | cons c digits =>
      have hc := hdigits c List.mem_cons_self
      have hrun : (digits ++ ':' :: rest).dropWhile isPlainDigit =
          ':' :: rest := by
        rw [List.dropWhile_append_of_pos
          fun d hd => hdigits d (List.mem_cons_of_mem c hd)]
        rfl
      simp [numberShape, exponentShape, either, maybe, many1, many, one, char,
        seq_apply, hc, hrun]

theorem rest_of_number_rows {cs rest out : List Char}
    (h : numberShape cs = some rest) (hrows : rowRangeShape cs = some out) :
    exists tail, rest = ':' :: tail ∧ out.length ≤ rest.length := by
  rw [rowRangeShape, seq_apply] at hrows
  rcases Option.bind_eq_some_iff.mp hrows with ⟨behind, hrow, hcolon⟩
  rcases reads_seq (reads_maybe (reads_char '$'))
    (reads_many1 (p := isPlainDigit)) cs behind hrow with
    ⟨_, hcs, dollar, digits, heq, hdollar, hne, hdigits⟩
  rcases opens_seq opens_one behind out hcolon with ⟨c, tail, hbehind, hc⟩
  have hlength : out.length ≤ behind.length := by
    rcases (takes_seq (takes_char rfl) (takes_any (takes_seq takes_row
      (takes_notBefore (p := isRowChar))))) behind out hcolon with ⟨word, hword, _⟩
    rw [hword, List.length_append]
    exact Nat.le_add_left _ _
  rw [heq, hbehind, beq_iff_eq.mp hc] at hcs
  rw [hbehind, beq_iff_eq.mp hc] at hlength
  rcases hdollar with hdollar | hdollar
  · rw [hdollar, List.nil_append] at hcs
    rw [hcs, numberShape_digits hne hdigits] at h
    rw [← Option.some.inj h]
    exact ⟨tail, rfl, hlength⟩
  · rcases opens_shape number cs rest h with ⟨d, more, hmore, hd⟩
    rw [hdollar, hmore] at hcs
    injection hcs with hfirst _
    rw [hfirst] at hd
    cases hd

end Terminal

namespace Run

open Terminal

/-! ## What a reader of all terminals finds -/

/-- Where the reader takes a token, another one that is not shorter is found. -/
inductive Mistakes (cs : List Char) : Terminal -> List Char -> Prop where
  | sheet {word own rest : List Char}
      (hown : first? (fun _ => true) cs = some (.sheet, own))
      (hcs : cs = word ++ '!' :: rest) (hlength : word.length ≤ own.length) :
      Mistakes cs .boolean word
  | rows {word own rest : List Char}
      (hown : first? (fun _ => true) cs = some (.rowRange, own))
      (hcs : cs = word ++ ':' :: rest) (hlength : word.length ≤ own.length) :
      Mistakes cs .number word

variable {r : Reading} {cs word : List Char} {t : Terminal}

theorem first?_of_glance_expected (h : glance r cs = .expected t word) :
    first? (fun u => r.admits u || u == .blank) cs = some (t, word) := by
  unfold glance at h
  split at h
  · cases h
  · rename_i hfirst
    cases h
    exact hfirst
  · split at h
    · cases h
    · cases h

theorem glance_unopened (r : Reading) {c : Char}
    (hc : forall u : Terminal, u.opening c = false) (rest : List Char) :
    glance r (c :: rest) = .unreadable := by
  have hnone : forall admits : Terminal -> Bool, first? admits (c :: rest) = none := by
    intro admits
    rw [first?_eq, List.findSome?_eq_none_iff]
    intro u _
    rw [found, (opens_shape u).fails (hc u)]
    simp
  rw [glance, hnone, hnone]

theorem admits_of_glance (h : glance r cs = .expected t word) :
    r.admits t = true := by
  have hadmits := (found_of_first? (first?_of_glance_expected h)).left
  rw [Bool.or_eq_true, beq_iff_eq] at hadmits
  exact hadmits.resolve_right (ne_blank_of_glance h)

theorem first?_of_glance_blank (h : glance r cs = .blank word) :
    first? (fun _ => true) cs = some (.blank, word) := by
  have hfound := found_of_glance_blank h
  apply first?_of_found rfl hfound
  rcases found_eq_some.mp hfound with ⟨rest, hcs, hrest⟩
  rcases opens_shape .blank cs rest hrest with ⟨c, tail, htext, hc⟩
  intro u hu
  rw [htext]
  apply (opens_shape u).fails
  have hblank : forall v, v ∈ Terminal.blank.earlier -> v ≠ .blank := by decide
  apply Bool.eq_false_iff.mpr
  intro huc
  have hfiller : isFiller c = true := hc
  rw [isFiller_eq_false_of_opening (hblank u hu) huc] at hfiller
  cases hfiller

theorem admits_comparison {u : Terminal}
    (ht : t ∈ [Terminal.notEqual, .atLeast, .atMost, .less, .greater])
    (hu : u ∈ [Terminal.notEqual, .atLeast, .atMost, .less, .greater])
    (h : r.admits t = true) : r.admits u = true := by
  simp only [List.mem_cons, List.not_mem_nil, or_false] at ht hu
  rcases r with ⟨stack, phase⟩
  cases phase with
  | operator e => rcases hu with hu | hu | hu | hu | hu <;> rw [hu] <;> rfl
  | _ =>
      rcases ht with ht | ht | ht | ht | ht
      all_goals
        rw [ht] at h
        simp [Reading.admits, Reading.startsOperand, Reading.startsItem,
          Reading.followsItem, ReferenceKind.ofTerminal?] at h

theorem first?_of_openChar? (h : glance r cs = .expected t word) {c : Char}
    (hc : t.openChar? = some c) :
    first? (fun _ => true) cs = some (t, word) := by
  have hfirst := first?_of_glance_expected h
  apply first?_all_of_first? hfirst
  intro u hu hadmits
  rcases found_eq_some.mp (found_of_first? hfirst).right with ⟨rest, _, hrest⟩
  rcases opens_shape t cs rest hrest with ⟨d, tail, htext, hd⟩
  rw [htext, opening_of_openChar? hc hd]
  cases hopening : u.opening c with
  | false => exact (opens_shape u).fails hopening
  | true =>
      rcases comparison_of_openChar? hc u hu hopening with ⟨htc, huc⟩
      rw [admits_comparison htc huc (admits_of_glance h)] at hadmits
      cases hadmits

/-- All that is tried before a word is a word, or opens an operand. -/
theorem startsOperand_of_earlier (hblank : t ≠ .blank) (hc : t.openChar? = none) :
    forall u, u ∈ t.earlier -> Reading.startsOperand u = true := by
  cases t
  all_goals first | exact absurd rfl hblank | decide | cases hc

theorem reference_or_functionName
    (h : (ReferenceKind.ofTerminal? t).isSome = true) :
    forall u, u ∈ t.earlier ->
      (ReferenceKind.ofTerminal? u).isSome = true ∨ u = .functionName := by
  cases t
  all_goals first | decide | cases h

theorem truth_or_mistake (h : glance r cs = .expected .boolean word) :
    first? (fun _ => true) cs = some (.boolean, word) ∨
      Mistakes cs .boolean word := by
  have hfound := found_of_glance h
  rcases found_eq_some.mp hfound with ⟨rest, hcs, hrest⟩
  rcases first?_or_first? hfound (fails_before_truth hrest) (by decide) with
    hall | ⟨own, hsheet, hall⟩
  · exact Or.inl hall
  · rcases found_eq_some.mp hsheet with ⟨out, hown, hout⟩
    rw [rest_of_truth_sheet hrest hout] at hcs
    have hlength := congrArg List.length (hcs.symm.trans hown)
    simp only [List.length_append, List.length_cons] at hlength
    exact Or.inr (.sheet hall hcs (by omega))

theorem number_or_mistake (h : glance r cs = .expected .number word) :
    first? (fun _ => true) cs = some (.number, word) ∨
      Mistakes cs .number word := by
  have hfound := found_of_glance h
  rcases found_eq_some.mp hfound with ⟨rest, hcs, hrest⟩
  have hfails : forall u, u ∈ Terminal.number.earlier -> u ≠ .rowRange ->
      u.shape cs = none := by
    rcases opens_shape .number cs rest hrest with ⟨c, tail, htext, hc⟩
    intro u hu hrow
    rw [htext]
    exact (opens_shape u).fails (opening_before_number hc u hu hrow)
  rcases first?_or_first? hfound hfails (by decide) with hall | ⟨own, hrows, hall⟩
  · exact Or.inl hall
  · rcases found_eq_some.mp hrows with ⟨out, hown, hout⟩
    rcases rest_of_number_rows hrest hout with ⟨tail, htail, hle⟩
    have hlength := congrArg List.length (hcs.symm.trans hown)
    simp only [List.length_append] at hlength
    rw [htail] at hcs
    exact Or.inr (.rows hall hcs (by omega))

/-- A token that the reader takes is found among all terminals, but for mistakes. -/
theorem first?_of_glance (h : glance r cs = .expected t word) :
    first? (fun _ => true) cs = some (t, word) ∨ Mistakes cs t word := by
  cases hc : t.openChar? with
  | some c => exact Or.inl (first?_of_openChar? h hc)
  | none =>
      have hadmits := admits_of_glance h
      have hblank := ne_blank_of_glance h
      have hfirst := first?_of_glance_expected h
      have operand : (forall u, Reading.startsOperand u = true ->
          r.admits u = true) ->
          first? (fun _ => true) cs = some (t, word) := by
        intro hall
        apply first?_all_of_first? hfirst
        intro u hu hnot
        rw [hall u (startsOperand_of_earlier hblank hc u hu)] at hnot
        cases hnot
      rcases r with ⟨stack, phase⟩
      cases phase with
      | start =>
          left
          apply operand
          intro u hu
          exact Reading.admits_of_startsOperand .start hu
      | operand =>
          left
          apply operand
          intro u hu
          exact Reading.admits_of_startsOperand .operand hu
      | qualified sheet =>
          left
          apply first?_all_of_first? hfirst
          intro u hu hnot
          rcases reference_or_functionName hadmits u hu with hkind | hfunction
          · rw [show Reading.admits ⟨stack, .qualified sheet⟩ u = true from hkind]
              at hnot
            cases hnot
          · rw [hfunction]
            rcases found_eq_some.mp (found_of_first? hfirst).right with
              ⟨rest, _, hrest⟩
            exact functionName_fails_of_reference hadmits hrest
      | item rows row =>
          have hkind : t = .boolean ∨ t = .number := by
            revert hadmits hc
            cases t <;> simp [Reading.admits, Reading.startsItem, openChar?,
              markChar?]
          rcases hkind with hkind | hkind
          · rw [hkind] at h ⊢
            exact truth_or_mistake h
          · rw [hkind] at h ⊢
            exact number_or_mistake h
      | negatedItem rows row =>
          rw [beq_iff_eq.mp (show (t == .number) = true from hadmits)] at h ⊢
          exact number_or_mistake h
      | _ =>
          exfalso
          revert hadmits hc hblank
          cases t <;> simp [Reading.admits, Reading.followsOperand,
            Reading.followsItem, openChar?, markChar?, BinaryOp.ofTerminal?]

/-- No terminal starts with the mark behind a mistake. -/
theorem Mistakes.rest (h : Mistakes cs t word) :
    exists c rest, cs = word ++ c :: rest ∧ forall u : Terminal, u.opening c = false := by
  cases h with
  | sheet _ hcs _ => exact ⟨'!', _, hcs, opening_bang⟩
  | rows _ hcs _ => exact ⟨':', _, hcs, opening_colon⟩

end Run
end Precedents
