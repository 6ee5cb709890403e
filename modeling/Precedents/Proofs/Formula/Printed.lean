import Mathlib.Data.List.TakeWhile
import Precedents.Proofs.Formula.UnrestrictedLexing
import Precedents.Proofs.Formula.Reporting
import Precedents.Proofs.Formula.RoundTrip
import Precedents.Proofs.Reference.Printing
import Precedents.Proofs.Reference.Quoting

/-!
# The sum of printed references

References that are printed one after another as the arguments of a sum are read
as those references, if their sheets are written as words.  The first one whose
sheet is not makes the reader stop at its `!`.
-/

namespace Precedents

open Text

namespace Reference

def sum (refs : List Reference) : String :=
  "=SUM(" ++ ",".intercalate (refs.map text) ++ ")"

theorem toList_text {ref : Reference} {name : String} (hsheet : ref.sheet = some name)
    (hne : name ≠ "") : ref.text.toList = (Sheet.word name).toList ++ ref.body.toList := by
  rw [text, hsheet, qualifier, if_neg hne, String.toList_append]
  rfl

end Reference

inductive Expr.Prints : Expr -> Reference -> Prop where
  | mk {ref : Reference} {name : String} {kind : ReferenceKind}
      {sheet body : Lexeme} (hsheet : ref.sheet = some name)
      (hname : NamesSheet sheet.text name) (hbody : Writes kind body.text ref) :
      Expr.Prints (.reference kind (some sheet) body) ref

/-! ## Words in front of the reader -/

namespace Terminal

theorem exists_spells_of_plain {word : List Char}
    (h : Sheet.nameScanner word = some []) :
    exists t, t.Spells word ∧ (t = cell ∨ t = boolean ∨ t = name) := by
  by_cases hcell : cellShape word = some []
  · exact ⟨cell, ⟨hcell, by simp, by simp⟩, Or.inl rfl⟩
  · by_cases hboolean : booleanShape word = some []
    · exact ⟨boolean, ⟨hboolean, by simp, by simp⟩, Or.inr (Or.inl rfl)⟩
    · have hname : nameShape word = some [] := by
        rcases Scanner.opens_seq Scanner.opens_one word [] h with ⟨c, tail, hword, hc⟩
        rw [hword] at h ⊢
        simp only [Sheet.nameScanner, Scanner.seq_apply, Scanner.one, hc,
          if_true, Option.bind_some] at h
        simp only [nameShape, Scanner.seq_apply, Scanner.either, Scanner.one, hc,
          if_true, Option.some_or, Option.bind_some, h]
      exact ⟨name, ⟨hname, fun _ => hcell, fun _ => hboolean⟩, Or.inr (Or.inr rfl)⟩

theorem spells_of_kind {kind : ReferenceKind} {word : List Char}
    (h : kind.terminal.shape word = some []) : kind.terminal.Spells word := by
  refine ⟨h, ?_, ?_⟩
  all_goals
    intro hname
    cases kind <;> cases hname

theorem endsBefore_of_closed {t : Terminal} (rest : List Char)
    (hopen : t.isOpenEnded = false) (hless : t ≠ less) (hgreater : t ≠ greater) :
    t.EndsBefore rest := by
  constructor
  · intro h
    rw [hopen] at h
    cases h
  · intro h
    rcases h with h | h
    · exact absurd h hless
    · exact absurd h hgreater

theorem endsBefore_of_startsIn {t : Terminal} {rest : List Char}
    (hrest : Scanner.StartsIn breakChars rest) (ht : t.isOpenEnded = true) :
    t.EndsBefore rest := by
  refine ⟨fun _ => hrest, ?_⟩
  intro hcomparison
  rcases hcomparison with heq | heq
  all_goals
    rw [heq] at ht
    cases ht

end Terminal

/-! ## One reference -/

namespace Run

variable {patience offset : Nat} {ref : Reference} {rest : List Char}

theorem go_word {r next : Reading} {word : String} {t : Terminal}
    (h : r.shift ⟨⟨word, offset⟩, t⟩ = .ok next) (hword : t.Spells word.toList)
    (patience : Nat) (hrest : t.EndsBefore rest) :
    go r patience offset 0 (word.toList ++ rest) =
      after (.shift ⟨⟨word, offset⟩, t⟩)
        (go next patience (offset + word.toList.length) 0 rest) :=
  go_token h rfl hword hrest

theorem go_reference (h : ref.Grounded) (hline : ¬ ref.OnPlainLine) {c : Char}
    (hc : c ∈ Terminal.breakChars) (stack : List Frame) (patience offset : Nat)
    (rest : List Char) :
    exists first second e offset', Expr.Prints e ref ∧
      go ⟨stack, .operand⟩ patience offset 0 (ref.text.toList ++ c :: rest) =
        after (.shift first) (after (.shift second)
          (go ⟨stack, .operator e⟩ patience offset' 0 (c :: rest))) := by
  rcases h.named with ⟨name, hsheet, hne⟩
  rcases h.onGrid.exists_writes with ⟨kind, hbody⟩
  have hname := namesSheet_word hne fun hbad => hline ⟨name, hsheet, hbad⟩
  let sheet : Lexeme := ⟨Sheet.word name, offset⟩
  let body : Lexeme := ⟨ref.body, offset + (Sheet.word name).toList.length⟩
  have hfirst : Reading.shift ⟨stack, .operand⟩ ⟨sheet, .sheet⟩ =
      .ok ⟨stack, .qualified sheet⟩ := rfl
  have hsecond : Reading.shift ⟨stack, .qualified sheet⟩ ⟨body, kind.terminal⟩ =
      .ok ⟨stack, .operator (.reference kind (some sheet) body)⟩ := by
    cases kind <;> rfl
  have hopen : kind.terminal.isOpenEnded = true := by
    cases kind <;> rfl
  have hbreak : Scanner.StartsIn Terminal.breakChars (c :: rest) :=
    Scanner.startsIn_cons.mpr hc
  have hqualifier := go_word hfirst ⟨hname.shape_eq, by simp, by simp⟩ patience
    (Terminal.endsBefore_of_closed (ref.body.toList ++ c :: rest) rfl (by simp)
      (by simp))
  have hword := go_word hsecond (Terminal.spells_of_kind hbody.shape_eq) patience
    (Terminal.endsBefore_of_startsIn hbreak hopen)
  rw [Reference.toList_text hsheet hne, List.append_assoc]
  exact ⟨_, _, _, _, .mk hsheet hname hbody,
    hqualifier.trans (congrArg (after _) hword)⟩

/-- The first word behind which a line feed and `!` stand. -/
theorem exists_plain_of_plainLine {name : String} (h : Sheet.IsPlainLine name) :
    exists word, name.toList = word ++ ['\n'] ∧ Sheet.nameScanner word = some [] := by
  unfold Sheet.IsPlainLine at h
  rcases Scanner.opens_seq Scanner.opens_one name.toList _ h with ⟨c, tail, hname, hc⟩
  have htail : tail.dropWhile isNameRest = ['\n'] := by
    simpa [hname, Sheet.nameScanner, Scanner.seq_apply, Scanner.one, Scanner.many, hc]
      using h
  refine ⟨c :: tail.takeWhile isNameRest, ?_, ?_⟩
  · rw [hname, List.cons_append, ← htail, List.takeWhile_append_dropWhile]
  · have hall : (tail.takeWhile isNameRest).dropWhile isNameRest = [] :=
      List.dropWhile_eq_nil_iff.mpr fun d hd => List.mem_takeWhile_imp hd
    simp [Sheet.nameScanner, Scanner.seq_apply, Scanner.one, Scanner.many, hc, hall]

theorem go_plainLine {name : String} (hsheet : ref.sheet = some name)
    (hline : Sheet.IsPlainLine name) (stack : List Frame) :
    (go ⟨stack, .operand⟩ patience offset 0 (ref.text.toList ++ rest)).failures ≠
      [] := by
  rcases exists_plain_of_plainLine hline with ⟨word, hname, hplain⟩
  have hne : name ≠ "" := by
    intro heq
    rw [heq] at hname
    simp at hname
  have htext : ref.text.toList ++ rest =
      word ++ (['\n'] ++ '!' :: (ref.body.toList ++ rest)) := by
    have hquote : Sheet.quote name = name :=
      if_pos (Sheet.isPlain_iff.mpr (Or.inr hline))
    rw [Reference.toList_text hsheet hne, Sheet.word, hquote, String.toList_append,
      hname]
    simp
  rcases Terminal.exists_spells_of_plain hplain with ⟨t, hspells, ht⟩
  have hshift : exists e, Reading.shift ⟨stack, .operand⟩
      ⟨⟨String.ofList word, offset⟩, t⟩ = .ok ⟨stack, .operator e⟩ := by
    rcases ht with ht | ht | ht
    all_goals
      rw [ht]
      exact ⟨_, rfl⟩
  have hopen : t.isOpenEnded = true := by
    rcases ht with ht | ht | ht
    all_goals
      rw [ht]
      rfl
  rcases hshift with ⟨e, hshift⟩
  have hends : t.EndsBefore (['\n'] ++ '!' :: (ref.body.toList ++ rest)) :=
    Terminal.endsBefore_of_startsIn (Scanner.startsIn_cons.mpr (by decide)) hopen
  have htoken := go_word hshift (by rwa [String.toList_ofList]) patience hends
  rw [String.toList_ofList] at htoken
  rw [htext, htoken, failures_shift, go_gap (by decide) (by simp [Terminal.isFiller]),
    go, glance_unopened _ Terminal.opening_bang]
  cases patience with
  | zero => simp
  | succ left => simp

/-! ## References one after another -/

variable {function : Lexeme} {args : List (Option Expr)}

theorem go_comma (function : Lexeme) (args : List (Option Expr)) (e : Expr)
    (patience offset : Nat) (rest : List Char) :
    exists t next,
      go ⟨[.call function args], .operator e⟩ patience offset 0 (',' :: rest) =
        after (.shift t) (go ⟨[.call function (args ++ [some e])], .operand⟩ patience
          next 0 rest) := by
  have hshift : Reading.shift ⟨[.call function args], .operator e⟩
      ⟨⟨",", offset⟩, .comma⟩ =
      .ok ⟨[.call function (args ++ [some e])], .operand⟩ := rfl
  have hspells : Terminal.comma.Spells ",".toList := by decide
  have hgo := go_word hshift hspells patience
    (Terminal.endsBefore_of_closed rest rfl (by simp) (by simp))
  have htext : ",".toList ++ rest = ',' :: rest := by simp
  rw [htext] at hgo
  exact ⟨_, _, hgo⟩

theorem go_rightParen (function : Lexeme) (args : List (Option Expr)) (e : Expr)
    (patience offset : Nat) :
    (go ⟨[.call function args], .operator e⟩ patience offset 0 [')']).tree =
        some (.call function (args ++ [some e])) ∧
      (go ⟨[.call function args], .operator e⟩ patience offset 0 [')']).failures =
        [] := by
  have hshift : Reading.shift ⟨[.call function args], .operator e⟩
      ⟨⟨")", offset⟩, .rightParen⟩ =
      .ok ⟨[], .operator (.call function (args ++ [some e]))⟩ := rfl
  have hspells : Terminal.rightParen.Spells ")".toList := by decide
  have hgo := go_word hshift hspells patience
    (Terminal.endsBefore_of_closed [] rfl (by simp) (by simp))
  have htext : ")".toList ++ [] = [')'] := by simp
  rw [htext] at hgo
  rw [hgo]
  exact ⟨rfl, rfl⟩

theorem toList_intercalate_cons (ref : Reference) {others : List Reference}
    (h : others ≠ []) :
    (",".intercalate ((ref :: others).map Reference.text)).toList =
      ref.text.toList ++
        ',' :: (",".intercalate (others.map Reference.text)).toList := by
  rw [List.map_cons, String.intercalate_cons_of_ne_nil (by simpa using h)]
  simp [String.toList_append]

theorem go_argument (h : ref.Grounded) (hline : ¬ ref.OnPlainLine)
    (function : Lexeme) (args : List (Option Expr)) (patience offset : Nat)
    (rest : List Char) :
    exists first second third e next, Expr.Prints e ref ∧
      go ⟨[.call function args], .operand⟩ patience offset 0
          (ref.text.toList ++ ',' :: rest) =
        after (.shift first) (after (.shift second) (after (.shift third)
          (go ⟨[.call function (args ++ [some e])], .operand⟩ patience next 0
            rest))) := by
  rcases go_reference h hline (show ',' ∈ Terminal.breakChars by decide)
    [.call function args] patience offset rest with ⟨first, second, e, behind, he, hgo⟩
  rcases go_comma function args e patience behind rest with ⟨third, next, hcomma⟩
  rw [hcomma] at hgo
  exact ⟨first, second, third, e, next, he, hgo⟩

theorem go_arguments {refs : List Reference} (hne : refs ≠ [])
    (hrefs : forall ref, ref ∈ refs -> ref.Grounded ∧ ¬ ref.OnPlainLine)
    (function : Lexeme) (args : List (Option Expr)) (patience offset : Nat) :
    exists es, List.Forall₂ Expr.Prints es refs ∧
      (go ⟨[.call function args], .operand⟩ patience offset 0
        ((",".intercalate (refs.map Reference.text)).toList ++ [')'])).tree =
          some (.call function (args ++ es.map some)) ∧
      (go ⟨[.call function args], .operand⟩ patience offset 0
        ((",".intercalate (refs.map Reference.text)).toList ++ [')'])).failures =
          [] := by
  induction refs generalizing args offset with
  | nil => exact absurd rfl hne
  | cons ref others ih =>
      have href := hrefs ref List.mem_cons_self
      cases others with
      | nil =>
          rcases go_reference href.left href.right
            (show ')' ∈ Terminal.breakChars by decide) [.call function args] patience
            offset [] with ⟨first, second, e, behind, he, hgo⟩
          have hlast := go_rightParen function args e patience behind
          rw [List.map_singleton, String.intercalate_singleton, hgo]
          refine ⟨[e], .cons he .nil, ?_, ?_⟩
          · rw [tree_after, tree_after, hlast.left]
            rfl
          · rw [failures_shift, failures_shift, hlast.right]
      | cons other others =>
          have hcons := List.cons_ne_nil other others
          rcases go_argument href.left href.right function args patience offset
            ((",".intercalate ((other :: others).map Reference.text)).toList ++ [')'])
            with ⟨first, second, third, e, next, he, hgo⟩
          rcases ih hcons (fun r hr => hrefs r (List.mem_cons_of_mem ref hr))
            (args ++ [some e]) next with ⟨es, hes, htree, hfailures⟩
          rw [toList_intercalate_cons ref hcons, List.append_assoc, List.cons_append,
            hgo]
          refine ⟨e :: es, .cons he hes, ?_, ?_⟩
          · rw [tree_after, tree_after, tree_after, htree, List.map_cons,
              List.append_assoc]
            rfl
          · rw [failures_shift, failures_shift, failures_shift, hfailures]

/-- A printed reference whose sheet is no word makes the reader fail. -/
theorem go_arguments_plainLine {refs : List Reference}
    (hrefs : forall ref, ref ∈ refs -> ref.Grounded)
    (hline : exists ref, ref ∈ refs ∧ ref.OnPlainLine) :
    (go ⟨[.call function args], .operand⟩ patience offset 0
      ((",".intercalate (refs.map Reference.text)).toList ++ [')'])).failures ≠ [] := by
  induction refs generalizing args offset with
  | nil =>
      rcases hline with ⟨ref, hmem, _⟩
      cases hmem
  | cons ref others ih =>
      by_cases hbad : ref.OnPlainLine
      · rcases hbad with ⟨name, hsheet, hname⟩
        cases others with
        | nil =>
            rw [List.map_singleton, String.intercalate_singleton]
            exact go_plainLine hsheet hname _
        | cons other others =>
            rw [toList_intercalate_cons ref (List.cons_ne_nil other others),
              List.append_assoc]
            exact go_plainLine hsheet hname _
      · have hothers : exists r, r ∈ others ∧ r.OnPlainLine := by
          rcases hline with ⟨r, hmem, hr⟩
          rcases List.mem_cons.mp hmem with heq | hmem
          · rw [heq] at hr
            exact absurd hr hbad
          · exact ⟨r, hmem, hr⟩
        have hne : others ≠ [] := by
          rcases hothers with ⟨r, hmem, _⟩
          exact List.ne_nil_of_mem hmem
        rcases go_argument (hrefs ref List.mem_cons_self) hbad function args patience
          offset ((",".intercalate (others.map Reference.text)).toList ++ [')']) with
          ⟨first, second, third, e, next, _, hgo⟩
        rw [toList_intercalate_cons ref hne, List.append_assoc, List.cons_append,
          hgo, failures_shift, failures_shift, failures_shift]
        exact ih (fun r hr => hrefs r (List.mem_cons_of_mem ref hr)) hothers

/-! ## The whole sum -/

def sumWord : Lexeme := ⟨"SUM(", 1⟩

theorem ofText_sum (refs : List Reference) :
    exists first second offset', ofText (Reference.sum refs) =
      after (.shift first) (after (.shift second)
        (go ⟨[.call sumWord []], .operand⟩ Run.patience offset' 0
          ((",".intercalate (refs.map Reference.text)).toList ++ [')']))) := by
  have hequal : Reading.shift .empty ⟨⟨"=", 0⟩, .equal⟩ = .ok ⟨[], .operand⟩ := rfl
  have hcall : Reading.shift ⟨[], .operand⟩ ⟨sumWord, .functionName⟩ =
      .ok ⟨[.call sumWord []], .operand⟩ := rfl
  have htext : (Reference.sum refs).toList = "=".toList ++ ("SUM(".toList ++
      ((",".intercalate (refs.map Reference.text)).toList ++ [')'])) := by
    simp [Reference.sum, String.toList_append]
  have hmark := go_word hequal (by decide) Run.patience
    (Terminal.endsBefore_of_closed ("SUM(".toList ++
      ((",".intercalate (refs.map Reference.text)).toList ++ [')'])) rfl (by decide)
      (by decide))
  have hfunction := go_word hcall (by decide) Run.patience
    (Terminal.endsBefore_of_closed
      ((",".intercalate (refs.map Reference.text)).toList ++ [')']) rfl (by decide)
      (by decide))
  rw [ofText, htext]
  exact ⟨_, _, _, hmark.trans (congrArg (after _) hfunction)⟩

end Run

theorem Parse.ofText_sum {refs : List Reference} (hne : refs ≠ [])
    (hrefs : forall ref, ref ∈ refs -> ref.Grounded ∧ ¬ ref.OnPlainLine) :
    exists es, List.Forall₂ Expr.Prints es refs ∧
      (Parse.ofText (Reference.sum refs)).tree =
        some (.call Run.sumWord (es.map some)) ∧
      (Parse.ofText (Reference.sum refs)).diagnostics = [] := by
  rcases Run.ofText_sum refs with ⟨first, second, offset, hrun⟩
  rcases Run.go_arguments hne hrefs Run.sumWord [] Run.patience offset with
    ⟨es, hes, htree, hfailures⟩
  refine ⟨es, hes, ?_, ?_⟩
  · change (Run.ofText _).tree = _
    rw [hrun, Run.tree_after, Run.tree_after, htree]
    rfl
  · rw [Parse.diagnostics_eq_nil_iff, hrun, Run.failures_shift, Run.failures_shift,
      hfailures]

theorem Parse.ofText_sum_nil :
    (Parse.ofText (Reference.sum [])).tree = some (.call Run.sumWord [none]) ∧
      (Parse.ofText (Reference.sum [])).diagnostics = [] := by
  constructor
  · cbv
  · cbv

theorem Parse.diagnostics_sum_ne_nil {refs : List Reference}
    (hline : exists ref, ref ∈ refs ∧ ref.OnPlainLine)
    (hrefs : forall ref, ref ∈ refs -> ref.Grounded) :
    (Parse.ofText (Reference.sum refs)).diagnostics ≠ [] := by
  rcases Run.ofText_sum refs with ⟨first, second, offset, hrun⟩
  rw [Ne, Parse.diagnostics_eq_nil_iff, hrun, Run.failures_shift, Run.failures_shift]
  exact Run.go_arguments_plainLine hrefs hline

end Precedents
