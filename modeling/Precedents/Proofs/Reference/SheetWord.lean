import Precedents.Formula.Literal
import Precedents.Proofs.Formula.Shapes
import Precedents.Proofs.Reference.Qualifying

/-!
# Sheets in formulas

A word that ends in `!` stands for a sheet if it is a plain name or stands between
apostrophes.  Either way the same name is split off, whatever follows the word.
-/

namespace Precedents

open Text

namespace Sheet

variable {word name : String} {own body : List Char} {c : Char}

/-! ## Splitting -/

def Heads (word name : String) : Prop :=
  forall body, NoBlankEnd body ->
    split (word ++ String.ofList body) = .ok (some name, String.ofList body)

theorem isBlank_apostrophe : isBlank apostrophe = false := by
  decide

theorem isBlank_of_isNameStart (h : isNameStart c = true) : isBlank c = false :=
  Terminal.isBlank_eq_false_of_opening (t := .functionName) (by decide) h

theorem ne_apostrophe_of_isNameStart (h : isNameStart c = true) : c ≠ apostrophe := by
  intro heq
  rw [heq] at h
  revert h
  decide

theorem heads_of_qualifies (hfirst : isBlank c = false)
    (h : forall body, Qualifies (c :: (own ++ '!' :: body)) (some name) body) :
    Heads (String.ofList (c :: (own ++ ['!']))) name := by
  intro body hbody
  have hword : (String.ofList (c :: (own ++ ['!'])) ++ String.ofList body).toList =
      c :: (own ++ '!' :: body) := by
    simp
  have htrim : trim (c :: (own ++ '!' :: body)) = c :: (own ++ '!' :: body) :=
    trimWhile_of_ends (by simp [hfirst]) (noBlankEnd_append (c :: own) (by decide) hbody)
  apply split_of_qualifies
  rw [hword, htrim]
  exact h body

theorem heads_plain (hfirst : isNameStart c = true) (hmark : '!' ∉ c :: own) :
    Heads (String.ofList (c :: (own ++ ['!']))) (String.ofList (c :: own)) := by
  have hquote : (c :: own).head? ≠ some apostrophe := by
    simpa using ne_apostrophe_of_isNameStart hfirst
  exact heads_of_qualifies (isBlank_of_isNameStart hfirst) fun body => .plain hquote hmark

theorem heads_quoted
    (hcloses : forall rest, rest.head? ≠ some apostrophe ->
      quotedRun apostrophe (own ++ apostrophe :: rest) = some (own, rest)) :
    Heads (String.ofList (apostrophe :: (own ++ [apostrophe, '!'])))
      (String.ofList (undoubled apostrophe own)) := by
  have hqualifies : forall body, Qualifies (apostrophe :: ((own ++ [apostrophe]) ++ '!' :: body))
      (some (String.ofList (undoubled apostrophe own))) body := by
    intro body
    have hquoted : Qualifies (apostrophe :: (doubled apostrophe (undoubled apostrophe own) ++
        apostrophe :: '!' :: body)) _ body := .quoted
    rw [doubled_undoubled (hcloses [] (by simp))] at hquoted
    rwa [List.append_assoc]
  have hheads := heads_of_qualifies isBlank_apostrophe hqualifies
  rwa [List.append_assoc] at hheads

theorem Heads.sheet_eq (h : Heads word name) : Literal.sheet word = .ok name := by
  have hsplit := h [] noBlankEnd_nil
  have hword : word ++ String.ofList [] = word := String.append_empty
  rw [Literal.sheet, ← hword, hsplit]
  rfl

end Sheet

namespace Terminal

open Scanner

/-! ## The words of sheets -/

inductive IsSheetWord : List Char -> Prop
  | quoted {own : List Char} (hne : own ≠ [])
      (hcloses : forall rest, rest.head? ≠ some apostrophe ->
        quotedRun apostrophe (own ++ apostrophe :: rest) = some (own, rest)) :
      IsSheetWord (apostrophe :: (own ++ [apostrophe, '!']))
  | plain {c : Char} {own : List Char} (hfirst : isNameStart c = true)
      (hrest : forall d, d ∈ own -> isNameRest d = true) :
      IsSheetWord (c :: (own ++ ['!']))

theorem reads_nameScanner :
    Reads (fun word => exists c own, word = c :: own ∧ isNameStart c = true ∧
      forall d, d ∈ own -> isNameRest d = true) Sheet.nameScanner := by
  apply reads_mono (reads_seq reads_one takes_many)
  intro word hword
  rcases hword with ⟨first, own, heq, ⟨c, hfirst, hc⟩, hown⟩
  rw [hfirst] at heq
  exact ⟨c, own, heq, hc, hown⟩

theorem reads_quotedSheet : Reads IsSheetWord (char apostrophe >=> quotedSheetRest) := by
  have hrest : Reads (fun word => IsSheetWord (apostrophe :: word)) quotedSheetRest := by
    intro cs out h
    unfold quotedSheetRest at h
    split at h
    · rename_i c own rest hrun
      cases h
      refine ⟨c :: own ++ [apostrophe, '!'], ?_, .quoted (List.cons_ne_nil c own) ?_⟩
      · rw [quotedRun_eq hrun]
        simp
      · intro other hother
        exact quotedRun_append hrun hother
    · cases h
  apply reads_mono (reads_seq (reads_char apostrophe) hrest)
  intro word hword
  rcases hword with ⟨first, rest, heq, hfirst, hsheet⟩
  rw [heq, hfirst]
  exact hsheet

theorem reads_plainSheet : Reads IsSheetWord (Sheet.nameScanner >=> char '!') := by
  apply reads_mono (reads_seq reads_nameScanner (reads_char '!'))
  intro word hword
  rcases hword with ⟨name, mark, heq, ⟨c, own, hname, hc, hown⟩, hmark⟩
  rw [heq, hname, hmark]
  exact .plain hc hown

theorem reads_sheetShape : Reads IsSheetWord sheetShape := by
  apply reads_mono (reads_either reads_quotedSheet reads_plainSheet)
  intro word hword
  rcases hword with hword | hword
  · exact hword
  · exact hword

end Terminal

theorem Terminal.IsSheetWord.exists_heads {word : List Char}
    (h : Terminal.IsSheetWord word) :
    exists name, name ≠ "" ∧ Sheet.Heads (String.ofList word) name := by
  have nonempty : forall cs : List Char, cs ≠ [] -> String.ofList cs ≠ "" := by
    intro cs hne hempty
    exact hne (String.ofList_eq_empty_iff.mp hempty)
  cases h with
  | quoted hne hcloses =>
      exact ⟨_, nonempty _ (undoubled_ne_nil hne), Sheet.heads_quoted hcloses⟩
  | plain hfirst hrest =>
      refine ⟨_, nonempty _ (List.cons_ne_nil _ _), Sheet.heads_plain hfirst ?_⟩
      apply Scanner.not_mem_of_forall (p := isNameRest) _ (by decide)
      intro d hd
      rcases List.mem_cons.mp hd with hd | hd
      · rw [hd]
        exact Terminal.isNameRest_of_isNameStart hfirst
      · exact hrest d hd

section Shaped

variable {word rest : List Char}

theorem Sheet.exists_heads_of_shape (h : Terminal.sheetShape (word ++ rest) = some rest) :
    exists name, name ≠ "" ∧ Sheet.Heads (String.ofList word) name :=
  (Terminal.reads_sheetShape.word h).exists_heads

theorem Literal.sheet_of_sheetShape (h : Terminal.sheetShape (word ++ rest) = some rest) :
    exists name, Literal.sheet (String.ofList word) = .ok name := by
  rcases Sheet.exists_heads_of_shape h with ⟨name, _, hheads⟩
  exact ⟨name, hheads.sheet_eq⟩

/-- No word of a sheet names the empty one. -/
theorem sheet_ne_empty_of_shape (h : Terminal.sheetShape (word ++ rest) = some rest)
    {name : String} (hname : Literal.sheet (String.ofList word) = .ok name) :
    name ≠ "" := by
  rcases Sheet.exists_heads_of_shape h with ⟨own, hne, hheads⟩
  rw [hheads.sheet_eq] at hname
  injection hname with hname
  rw [← hname]
  exact hne

end Shaped
end Precedents
