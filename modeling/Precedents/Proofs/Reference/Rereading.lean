import Precedents.Proofs.Reference.Agreement
import Precedents.Proofs.Reference.Grounding

/-!
# Printed references are read again

What is printed for a reference on the grid splits into its sheet and its body,
and the body is a word of a kind that stands for the reference.  So reading undoes
printing, except that a reference without a sheet takes the one that is asked for,
and that the empty sheet is not printed.
-/

namespace Precedents
namespace Reference

open Text

variable {ref other : Reference}

def shownSheet (ref : Reference) : Option String :=
  if ref.sheet = some "" then none else ref.sheet

theorem body_withSheet (ref : Reference) (sheet : Option String) :
    (ref.withSheet sheet).body = ref.body := by
  cases ref with
  | cell c => rfl
  | range r => rfl

theorem text_eq (ref : Reference) :
    ref.text = (ref.shownSheet.map Sheet.word).getD "" ++ ref.body := by
  rw [text, shownSheet]
  cases ref.sheet with
  | none => rfl
  | some name =>
      by_cases hname : name = ""
      · simp [qualifier, hname]
      · simp [qualifier, hname, Sheet.word]

theorem split_text (h : ref.OnGrid) :
    Sheet.split ref.text = .ok (ref.shownSheet, ref.body) := by
  rcases h.exists_writes with ⟨kind, hbody⟩
  rw [text_eq]
  cases ref.shownSheet with
  | none =>
      rw [Option.map_none, Option.getD_none, String.empty_append]
      exact split_word hbody.shape_eq
  | some name => exact split_of_heads (Sheet.heads_word name) hbody.shape_eq

theorem read_text_of_or_eq (h : ref.OnGrid) {default : Option String}
    (hsheet : ref.shownSheet.or default = ref.sheet.or default) :
    read ref.text default = .ok (ref.withSheet default) := by
  rcases (h.withSheet default).exists_writes with ⟨kind, hbody⟩
  rw [body_withSheet] at hbody
  have hreads := hbody.reference_eq
  rw [sheet_withSheet, ← hsheet] at hreads
  rw [← hreads]
  exact read_of_split hbody.shape_eq (split_text h)

/-- Reading undoes printing; a reference without a sheet takes the one asked for. -/
theorem read_text (h : ref.Proper) (default : Option String) :
    read ref.text default = .ok (ref.withSheet default) := by
  apply read_text_of_or_eq h.onGrid
  rw [shownSheet, if_neg h.named]

theorem read_text_columns :
    (Reference.range ⟨1, 2, 1048576, 3, some " it's:! "⟩).Proper ∧
      read "' it''s:! '!B:C" (some "T") =
        .ok (.range ⟨1, 2, 1048576, 3, some " it's:! "⟩) := by
  have hcorners : Range.Corners ⟨1, 2, 1048576, 3, some " it's:! "⟩ :=
    ⟨by decide, by decide, by decide, by decide, by decide, by decide⟩
  have hproper : (Reference.range ⟨1, 2, 1048576, 3, some " it's:! "⟩).Proper :=
    ⟨hcorners.onGrid, by decide⟩
  have hread := read_text hproper (some "T")
  have htext : (Reference.range ⟨1, 2, 1048576, 3, some " it's:! "⟩).text =
      "' it''s:! '!B:C" := by
    decide +kernel
  rw [htext] at hread
  exact ⟨hproper, hread⟩

/-- On a sheet, references are told apart by their texts. -/
theorem eq_of_text_eq (href : ref.OnGrid) (hother : other.OnGrid)
    (hrefSheet : ref.sheet ≠ none) (hotherSheet : other.sheet ≠ none)
    (htext : ref.text = other.text) : ref = other := by
  have hread : forall r : Reference, r.OnGrid -> r.sheet ≠ none ->
      read r.text (some "") = .ok r := by
    intro r hgrid hsheet
    rcases Option.ne_none_iff_exists'.mp hsheet with ⟨name, hname⟩
    rw [read_text_of_or_eq hgrid, withSheet_of_sheet_some hname]
    rw [shownSheet, hname]
    by_cases hempty : name = ""
    · rw [hempty]
      rfl
    · rw [if_neg (by simpa using hempty)]
  have hrefs : (Except.ok ref : Except ReferenceError Reference) = .ok other := by
    rw [← hread ref href hrefSheet, htext, hread other hother hotherSheet]
  injection hrefs

end Reference
end Precedents
