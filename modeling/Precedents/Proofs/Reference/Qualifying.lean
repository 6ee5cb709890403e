import Precedents.Proofs.Text.Cutting
import Precedents.Reference.Sheet

/-!
# Texts with and without a sheet

A text that starts with an apostrophe has a quoted sheet in front; any other text
has one if there is a `!` in it, and then its first `!` ends the sheet.  These are
just the texts that are split, and each of them in one way only.
-/

namespace Precedents
namespace Sheet

open Text

inductive Qualifies : List Char -> Option String -> List Char -> Prop
  | bare {body : List Char} (hquote : body.head? ≠ some apostrophe)
      (hmark : '!' ∉ body) : Qualifies body none body
  | plain {name body : List Char} (hquote : name.head? ≠ some apostrophe)
      (hmark : '!' ∉ name) :
      Qualifies (name ++ '!' :: body) (some (String.ofList name)) body
  | quoted {name body : List Char} :
      Qualifies (apostrophe :: (doubled apostrophe name ++ apostrophe :: '!' :: body))
        (some (String.ofList name)) body

section Splitting

variable {text : String} {cs rest body : List Char} {named : Option String}

theorem Qualifies.exists_front (h : Qualifies cs named body) :
    exists front, cs = front ++ body := by
  cases h with
  | bare => exact ⟨[], rfl⟩
  | @plain name => exact ⟨name ++ ['!'], by simp⟩
  | @quoted name =>
      exact ⟨apostrophe :: (doubled apostrophe name ++ [apostrophe, '!']), by simp⟩

theorem split_of_quotedRun {own : List Char} (htrim : trim text.toList = apostrophe :: rest)
    (h : quotedRun apostrophe rest = some (own, '!' :: body)) :
    split text =
      .ok (some (String.ofList (undoubled apostrophe own)), String.ofList body) := by
  simp only [split, htrim, if_true, h]

theorem split_of_splitFirst {name : List Char}
    (hquote : (trim text.toList).head? ≠ some apostrophe)
    (h : splitFirst '!' (trim text.toList) = some (name, body)) :
    split text = .ok (some (String.ofList name), String.ofList body) := by
  cases hcs : trim text.toList with
  | nil =>
      rw [hcs] at h
      cases h
  | cons c rest =>
      rw [hcs] at h
      have hc : c ≠ apostrophe := by simpa [hcs] using hquote
      simp only [split, hcs, if_neg hc, h]

theorem split_of_no_mark (hquote : (trim text.toList).head? ≠ some apostrophe)
    (h : '!' ∉ trim text.toList) :
    split text = .ok (none, String.ofList (trim text.toList)) := by
  cases hcs : trim text.toList with
  | nil => simp only [split, hcs]
  | cons c rest =>
      rw [hcs] at h
      have hc : c ≠ apostrophe := by simpa [hcs] using hquote
      simp only [split, hcs, if_neg hc, splitFirst_of_not_mem h]

theorem qualifies_of_apostrophe (htrim : trim text.toList = apostrophe :: rest)
    (h : split text = .ok (named, String.ofList body)) :
    Qualifies (apostrophe :: rest) named body := by
  simp only [split, htrim, if_true] at h
  split at h
  · rename_i own found hrun
    injection h with h
    injection h with hname hbody
    rw [← hname, ← String.ofList_injective hbody, quotedRun_eq hrun]
    have hquoted : Qualifies (apostrophe :: (doubled apostrophe
        (undoubled apostrophe own) ++ apostrophe :: '!' :: found)) _ found :=
      .quoted
    rwa [doubled_undoubled hrun] at hquoted
  · cases h

theorem qualifies_of_split (h : split text = .ok (named, String.ofList body)) :
    Qualifies (trim text.toList) named body := by
  by_cases hquote : (trim text.toList).head? = some apostrophe
  · rcases List.head?_eq_some_iff.mp hquote with ⟨rest, htrim⟩
    rw [htrim]
    exact qualifies_of_apostrophe htrim h
  · cases hfound : splitFirst '!' (trim text.toList) with
    | none =>
        have hmark := splitFirst_eq_none_iff.mp hfound
        rw [split_of_no_mark hquote hmark] at h
        injection h with h
        injection h with hname hbody
        rw [← hname, ← String.ofList_injective hbody]
        exact .bare hquote hmark
    | some parts =>
        rw [split_of_splitFirst hquote hfound] at h
        injection h with h
        injection h with hname hbody
        rcases splitFirst_eq_some_iff.mp hfound with ⟨hcs, hmark⟩
        rw [← hname, ← String.ofList_injective hbody, hcs]
        refine .plain (fun hhead => hquote ?_) hmark
        rw [hcs, List.head?_append, hhead, Option.some_or]

theorem split_of_qualifies (h : Qualifies (trim text.toList) named body) :
    split text = .ok (named, String.ofList body) := by
  generalize hcs : trim text.toList = cs at h
  cases h with
  | bare hquote hmark =>
      rw [← hcs] at hquote hmark ⊢
      exact split_of_no_mark hquote hmark
  | @plain name _ hquote hmark =>
      have hhead : (trim text.toList).head? ≠ some apostrophe := by
        rw [hcs]
        cases name with
        | nil => simp [apostrophe]
        | cons c name => exact hquote
      exact split_of_splitFirst hhead (splitFirst_eq_some_iff.mpr ⟨hcs, hmark⟩)
  | @quoted name =>
      have hrun : quotedRun apostrophe
          (doubled apostrophe name ++ apostrophe :: '!' :: body) =
            some (doubled apostrophe name, '!' :: body) :=
        quotedRun_doubled (by simp [apostrophe]) name
      rw [split_of_quotedRun hcs hrun, undoubled_doubled]

theorem split_eq_ok_iff :
    split text = .ok (named, String.ofList body) <->
      Qualifies (trim text.toList) named body :=
  ⟨qualifies_of_split, split_of_qualifies⟩

end Splitting

end Sheet
end Precedents
