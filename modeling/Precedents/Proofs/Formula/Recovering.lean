import Precedents.Formula.Parse
import Precedents.Proofs.Formula.Words

/-!
# Runs token by token

The reader goes through a text character by character.  Here its runs are taken
apart token by token: a blank is passed over, a token is taken, and a failure
drops a token or a character, until the text or the patience of the reader ends.
Statements about all runs are proved by induction on this relation.
-/

namespace Precedents

/-! ## Words are not empty -/

namespace Text
namespace Scanner

variable {s t : Scanner} {p : Char -> Bool}

def Consumes (s : Scanner) : Prop :=
  Reads (fun word => word ≠ []) s

theorem consumes_one : Consumes (one p) := by
  apply reads_mono reads_one
  intro word hword
  rcases hword with ⟨c, heq, _⟩
  rw [heq]
  exact List.cons_ne_nil c []

theorem consumes_seq_left (hs : Consumes s) (ht : Takes anyChar t) :
    Consumes (s >=> t) := by
  apply reads_mono (reads_seq hs ht)
  intro word hword
  rcases hword with ⟨first, second, heq, hfirst, _⟩
  rw [heq]
  exact List.append_ne_nil_of_left_ne_nil hfirst second

theorem consumes_seq_right (hs : Takes anyChar s) (ht : Consumes t) :
    Consumes (s >=> t) := by
  apply reads_mono (reads_seq hs ht)
  intro word hword
  rcases hword with ⟨first, second, heq, _, hsecond⟩
  rw [heq]
  exact List.append_ne_nil_of_right_ne_nil first hsecond

theorem consumes_either (hs : Consumes s) (ht : Consumes t) :
    Consumes (either s t) := by
  apply reads_mono (reads_either hs ht)
  intro word hword
  rcases hword with hword | hword
  · exact hword
  · exact hword

theorem consumes_many1 : Consumes (many1 p) :=
  consumes_seq_left consumes_one (takes_any takes_many)

theorem consumes_literal (c : Char) (word : List Char) :
    Consumes (literal (c :: word)) :=
  consumes_seq_left consumes_one (takes_literal word)

end Scanner
end Text

namespace Terminal

open Text
open Scanner

theorem consumes_column : Consumes Shape.column :=
  consumes_seq_right (takes_maybe (takes_char rfl))
    (consumes_seq_left consumes_one (takes_any (takes_atMost 2)))

theorem consumes_row : Consumes Shape.row :=
  consumes_seq_right (takes_maybe (takes_char rfl)) consumes_many1

theorem consumes_pair {part : Scanner} {p : Char -> Bool}
    (hpart : Consumes part) (htakes : Takes anyChar part) :
    Consumes (part >=> char ':' >=> part >=> notBefore p) :=
  consumes_seq_left hpart (takes_seq (takes_char rfl)
    (takes_seq htakes takes_notBefore))

theorem consumes_caseless (letter : Char) (word : List Char) :
    Consumes (caseless (letter :: word)) :=
  consumes_seq_left consumes_one (takes_caseless fun _ _ _ _ => rfl)

theorem consumes_errorShape : Consumes errorShape := by
  intro cs out h
  rcases List.exists_of_findSome?_eq_some h with ⟨text, htext, hread⟩
  have opens : forall t, t ∈ errorTexts -> exists word, t.toList = '#' :: word := by
    simp [errorTexts]
  rcases opens text htext with ⟨word, hword⟩
  rw [hword] at hread
  exact consumes_literal '#' word cs out hread

theorem consumes_numberShape : Consumes numberShape := by
  have hdigits : Takes anyChar (many1 isPlainDigit) := takes_any takes_many1
  apply consumes_seq_left
  · apply consumes_either
    · exact consumes_seq_left consumes_many1
        (takes_maybe (takes_seq (takes_char rfl) (takes_any takes_many)))
    · exact consumes_seq_left consumes_one hdigits
  · apply takes_maybe
    apply takes_seq (takes_any takes_one)
    exact takes_seq (takes_maybe (takes_any takes_one)) hdigits

theorem consumes_shape (t : Terminal) : Consumes t.shape := by
  have hcell : Consumes Shape.cell :=
    consumes_seq_left consumes_column (takes_any takes_row)
  have hname : Consumes Sheet.nameScanner :=
    consumes_seq_left consumes_one (takes_any takes_many)
  cases t with
  | functionName => exact consumes_seq_left hname (takes_char rfl)
  | cellRange => exact consumes_pair hcell (takes_any takes_cell)
  | rowRange => exact consumes_pair consumes_row (takes_any takes_row)
  | columnRange => exact consumes_pair consumes_column (takes_any takes_column)
  | cell => exact consumes_seq_left hcell takes_notBefore
  | sheet =>
      apply consumes_either
      · exact consumes_seq_left consumes_one takes_quotedSheetRest
      · exact consumes_seq_left hname (takes_char rfl)
  | error => exact consumes_errorShape
  | boolean =>
      apply consumes_seq_left _ takes_notBefore
      exact consumes_either (consumes_caseless _ _) (consumes_caseless _ _)
  | name =>
      apply consumes_seq_left _ (takes_any takes_many)
      exact consumes_either consumes_one consumes_one
  | number => exact consumes_numberShape
  | string => exact consumes_seq_left consumes_one takes_stringRest
  | blank => exact consumes_many1
  | notEqual => exact consumes_literal _ _
  | atLeast => exact consumes_literal _ _
  | atMost => exact consumes_literal _ _
  | _ => exact consumes_one

theorem split_of_found {t : Terminal} {cs word : List Char}
    (h : t.found cs = some word) :
    exists c tail rest, word = c :: tail ∧ cs = word ++ rest := by
  rcases found_eq_some.mp h with ⟨rest, hcs, hrest⟩
  rcases consumes_shape t cs rest hrest with ⟨own, hown, hne⟩
  have hword : word = own := List.append_cancel_right (hcs.symm.trans hown)
  rw [hword]
  cases own with
  | nil => exact absurd rfl hne
  | cons c tail => exact ⟨c, tail, rest, rfl, hown⟩

theorem length_pos_of_found {t : Terminal} {cs word : List Char}
    (h : t.found cs = some word) : 0 < word.length := by
  rcases split_of_found h with ⟨c, tail, _, hword, _⟩
  rw [hword]
  exact Nat.succ_pos tail.length

theorem split_cons_of_found {t : Terminal} {c : Char}
    {others word : List Char} (h : t.found (c :: others) = some word) :
    exists tail rest, word = c :: tail ∧ others = tail ++ rest := by
  rcases split_of_found h with ⟨d, tail, rest, hword, hcs⟩
  rw [hword, List.cons_append] at hcs
  injection hcs with hc hothers
  rw [hc]
  exact ⟨tail, rest, hword, hothers⟩

end Terminal

namespace Run

/-! ## What the reader sees -/

theorem found_of_glance_blank {r : Reading} {cs word : List Char}
    (h : glance r cs = .blank word) : Terminal.blank.found cs = some word := by
  unfold glance at h
  split at h
  · rename_i hfirst
    cases h
    exact (Terminal.found_of_first? hfirst).right
  · cases h
  · split at h
    · cases h
    · cases h

theorem ne_blank_of_glance {r : Reading} {cs word : List Char} {t : Terminal}
    (h : glance r cs = .expected t word) : t ≠ .blank := by
  unfold glance at h
  split at h
  · cases h
  · rename_i hblank hfirst
    cases h
    exact hblank
  · split at h
    · cases h
    · cases h

theorem found_of_glance_misplaced {r : Reading} {cs word : List Char}
    (h : glance r cs = .misplaced word) :
    exists t : Terminal, t.found cs = some word := by
  unfold glance at h
  split at h
  · cases h
  · cases h
  · split at h
    · rename_i t word' hfirst
      cases h
      exact ⟨t, (Terminal.found_of_first? hfirst).right⟩
    · cases h

/-! ## Runs -/

variable {run : Run}

@[simp] theorem tree_after (move : Move) : (after move run).tree = run.tree :=
  rfl

@[simp] theorem failures_shift (t : Token) :
    (after (.shift t) run).failures = run.failures :=
  rfl

@[simp] theorem failures_failure (f : Failure) :
    (after (.failure f) run).failures = f :: run.failures :=
  rfl

@[simp] theorem failures_stuck (f : Failure) : (stuck f).failures = [f] :=
  rfl

/-- A failure in front of a text, the reading that goes on, and the text behind it. -/
inductive Fails (r : Reading) (offset : Nat) :
    List Char -> Failure -> Reading -> List Char -> Prop where
  | refused {next : Reading} {t : Terminal} {word rest : List Char}
      (hglance : glance r (word ++ rest) = .expected t word)
      (hshift : r.shift ⟨⟨String.ofList word, offset⟩, t⟩ = .error next) :
      Fails r offset (word ++ rest)
        ⟨.token (String.ofList word), offset, offset + word.length,
          next.allowed⟩ next rest
  | misplaced {word rest : List Char}
      (hglance : glance r (word ++ rest) = .misplaced word) :
      Fails r offset (word ++ rest)
        ⟨.token (String.ofList word), offset, offset + word.length, r.wanted⟩
        r rest
  | unreadable {c : Char} {rest : List Char}
      (hglance : glance r (c :: rest) = .unreadable) :
      Fails r offset (c :: rest)
        ⟨.character c, offset, offset + 1, r.wanted⟩ r rest

/-- The run of a reader that gives up at the failure after its patience is spent. -/
inductive Recovers :
    Reading -> (patience offset : Nat) -> List Char -> Run -> Prop where
  | complete {r : Reading} {patience offset : Nat} {e : Expr}
      (h : r.close = .ok e) : Recovers r patience offset [] ⟨[], some e⟩
  | early {r refused : Reading} {patience offset : Nat}
      (h : r.close = .error refused) :
      Recovers r patience offset []
        (stuck ⟨.endOfInput, offset, offset, refused.allowed⟩)
  | blank {r : Reading} {patience offset : Nat} {word rest : List Char}
      {run : Run} (h : glance r (word ++ rest) = .blank word)
      (hrest : Recovers r patience (offset + word.length) rest run) :
      Recovers r patience offset (word ++ rest) run
  | token {r next : Reading} {patience offset : Nat} {t : Terminal}
      {word rest : List Char} {run : Run}
      (hglance : glance r (word ++ rest) = .expected t word)
      (hshift : r.shift ⟨⟨String.ofList word, offset⟩, t⟩ = .ok next)
      (hrest : Recovers next patience (offset + word.length) rest run) :
      Recovers r patience offset (word ++ rest)
        (after (.shift ⟨⟨String.ofList word, offset⟩, t⟩) run)
  | failure {r next : Reading} {patience offset : Nat} {f : Failure}
      {cs rest : List Char} {run : Run} (h : Fails r offset cs f next rest)
      (hrest : Recovers next patience f.finish rest run) :
      Recovers r (patience + 1) offset cs (after (.failure f) run)
  | spent {r next : Reading} {offset : Nat} {f : Failure} {cs rest : List Char}
      (h : Fails r offset cs f next rest) : Recovers r 0 offset cs (stuck f)

theorem Fails.split {r next : Reading} {offset : Nat} {cs rest : List Char}
    {f : Failure} (h : Fails r offset cs f next rest) :
    f.offset = offset ∧ f.found ≠ .endOfInput ∧
      exists c word, cs = c :: word ++ rest ∧
        f.finish = offset + (c :: word).length := by
  cases h with
  | @refused _ _ word _ hglance _ =>
      rcases Terminal.split_of_found (found_of_glance hglance) with
        ⟨c, tail, _, hword, _⟩
      refine ⟨rfl, by simp, c, tail, ?_, ?_⟩
      · rw [hword]
      · rw [hword]
  | @misplaced word _ hglance =>
      rcases found_of_glance_misplaced hglance with ⟨u, hfound⟩
      rcases Terminal.split_of_found hfound with ⟨c, tail, _, hword, _⟩
      refine ⟨rfl, by simp, c, tail, ?_, ?_⟩
      · rw [hword]
      · rw [hword]
  | @unreadable c _ _ => exact ⟨rfl, by simp, c, [], rfl, rfl⟩

theorem go_skip (r : Reading) (patience offset : Nat) (front rest : List Char) :
    go r patience offset front.length (front ++ rest) =
      go r patience (offset + front.length) 0 rest := by
  induction front generalizing offset with
  | nil => rfl
  | cons c front ih =>
      rw [List.cons_append, List.length_cons, go, ih]
      congr 1
      omega

theorem go_tail (r : Reading) (patience offset : Nat) (c : Char)
    (tail rest : List Char) :
    go r patience (offset + 1) ((c :: tail).length - 1) (tail ++ rest) =
      go r patience (offset + (c :: tail).length) 0 rest := by
  rw [List.length_cons, Nat.add_sub_cancel, go_skip]
  congr 1
  omega

theorem go_blank {r : Reading} {patience offset : Nat} {word rest : List Char}
    (h : glance r (word ++ rest) = .blank word) :
    go r patience offset 0 (word ++ rest) =
      go r patience (offset + word.length) 0 rest := by
  rcases Terminal.split_of_found (found_of_glance_blank h) with
    ⟨c, tail, _, hword, _⟩
  rw [hword, List.cons_append] at h ⊢
  rw [go, h]
  exact go_tail r patience offset c tail rest

theorem go_taken {r next : Reading} {patience offset : Nat} {t : Terminal}
    {word rest : List Char} (hglance : glance r (word ++ rest) = .expected t word)
    (hshift : r.shift ⟨⟨String.ofList word, offset⟩, t⟩ = .ok next) :
    go r patience offset 0 (word ++ rest) =
      after (.shift ⟨⟨String.ofList word, offset⟩, t⟩)
        (go next patience (offset + word.length) 0 rest) := by
  rcases Terminal.split_of_found (found_of_glance hglance) with
    ⟨c, tail, _, hword, _⟩
  rw [hword] at hglance hshift ⊢
  rw [List.cons_append] at hglance ⊢
  simp only [go, hglance, hshift]
  rw [go_tail next patience offset c tail rest]

/--
Behind a failure the reader stops or goes on as its patience says.  What it does
behind the word of the failure is left to `hbehind`.
-/
theorem recovers_failing {r next : Reading} {patience offset : Nat} {c : Char}
    {others tail rest : List Char} {f : Failure}
    (hfails : Fails r offset (c :: others) f next rest)
    (hothers : others = tail ++ rest) (hfinish : f.finish = offset + (c :: tail).length)
    (hbehind : forall left, Recovers next left (offset + (c :: tail).length) rest
      (go next left (offset + (c :: tail).length) 0 rest)) :
    Recovers r patience offset (c :: others)
      (match patience with
      | 0 => stuck f
      | left + 1 => after (.failure f)
          (go next left (offset + 1) ((c :: tail).length - 1) others)) := by
  cases patience with
  | zero => exact .spent hfails
  | succ left =>
      apply Recovers.failure hfails
      rw [hothers, go_tail, hfinish]
      exact hbehind left

theorem recovers_cons {r : Reading} {patience offset : Nat} {c : Char}
    {others : List Char}
    (hbehind : forall (next : Reading) (left : Nat) (tail rest : List Char),
      others = tail ++ rest ->
      Recovers next left (offset + (c :: tail).length) rest
        (go next left (offset + (c :: tail).length) 0 rest)) :
    Recovers r patience offset (c :: others) (go r patience offset 0 (c :: others)) := by
  rw [go]
  cases hglance : glance r (c :: others) with
  | blank word =>
      rcases Terminal.split_cons_of_found (found_of_glance_blank hglance) with
        ⟨tail, rest, hword, hothers⟩
      have hrest := hbehind r patience tail rest hothers
      rw [hword] at hglance ⊢
      rw [hothers] at hglance ⊢
      simp only [go_tail]
      exact .blank hglance hrest
  | expected terminal word =>
      rcases Terminal.split_cons_of_found (found_of_glance hglance) with
        ⟨tail, rest, hword, hothers⟩
      rw [hword] at hglance ⊢
      simp only
      cases hshift : r.shift ⟨⟨String.ofList (c :: tail), offset⟩, terminal⟩ with
      | ok next =>
          have hrest := hbehind next patience tail rest hothers
          rw [hothers] at hglance ⊢
          simp only [go_tail]
          exact .token hglance hshift hrest
      | error next =>
          apply recovers_failing _ hothers rfl fun left =>
            hbehind next left tail rest hothers
          rw [hothers] at hglance ⊢
          exact .refused hglance hshift
  | misplaced word =>
      rcases found_of_glance_misplaced hglance with ⟨u, hfound⟩
      rcases Terminal.split_cons_of_found hfound with ⟨tail, rest, hword, hothers⟩
      rw [hword] at hglance ⊢
      apply recovers_failing _ hothers rfl fun left => hbehind r left tail rest hothers
      rw [hothers] at hglance ⊢
      show Fails r offset (c :: tail ++ rest) _ r rest
      exact .misplaced hglance
  | unreadable =>
      have htail : others = [] ++ others := rfl
      exact recovers_failing (.unreadable hglance) htail rfl fun left =>
        hbehind r left [] others htail

/-- The reader runs as the relation says. -/
theorem recovers_go (r : Reading) (patience offset : Nat) (cs : List Char) :
    Recovers r patience offset cs (go r patience offset 0 cs) := by
  induction hlength : cs.length using Nat.strongRecOn
    generalizing r patience offset cs with
  | ind n ih =>
      cases cs with
      | nil =>
          rw [go]
          split
          · rename_i e hclose
            exact .complete hclose
          · rename_i refused hclose
            exact .early hclose
      | cons c others =>
          apply recovers_cons
          intro next left tail rest hothers
          apply ih rest.length _ _ _ _ _ rfl
          rw [← hlength, hothers, List.length_cons, List.length_append]
          omega

theorem recovers_ofText (text : String) :
    Recovers .empty patience 0 text.toList (ofText text) :=
  recovers_go .empty patience 0 text.toList

end Run
end Precedents
