import Precedents.Proofs.Formula.Breaks
import Precedents.Proofs.Reference.SheetWord
import Precedents.Reference.Printer

/-!
# Sheets written and read

The name of a sheet is written as it is or between apostrophes, and either way it
is split off again as it was, and what stands behind it is left, but for white space at
its end.  What has been written is also a word of a formula,
with one exception: a plain name with a line feed behind it counts as plain, is
written without apostrophes, and is no word then.
-/

namespace Precedents

open Text

namespace Sheet

/-- A plain name with a line feed behind it. -/
def IsPlainLine (name : String) : Prop :=
  nameScanner name.toList = some ['\n']

instance (name : String) : Decidable (IsPlainLine name) := by
  unfold IsPlainLine
  infer_instance

theorem isPlain_iff {name : String} :
    isPlain name = true <-> nameScanner name.toList = some [] ∨ IsPlainLine name := by
  simp [isPlain, Scanner.readsLine, IsPlainLine]

def word (name : String) : String :=
  quote name ++ "!"

theorem plain_cases {name : String} (h : isPlain name = true) :
    exists c tail, name.toList = c :: tail ∧ isNameStart c = true ∧ '!' ∉ c :: tail := by
  have hread : exists rest, nameScanner name.toList = some rest ∧ '!' ∉ rest := by
    rcases isPlain_iff.mp h with h | h
    · exact ⟨[], h, List.not_mem_nil⟩
    · exact ⟨['\n'], h, by decide⟩
  rcases hread with ⟨rest, hread, hrest⟩
  rcases Terminal.reads_nameScanner _ rest hread with ⟨read, hname, c, own, hown, hc, hall⟩
  rw [hown] at hname
  refine ⟨c, own ++ rest, hname, hc, ?_⟩
  have hbang : '!' ∉ c :: own := by
    apply Scanner.not_mem_of_forall (p := isNameRest) _ (by decide)
    intro d hd
    rcases List.mem_cons.mp hd with hd | hd
    · rw [hd]
      exact Terminal.isNameRest_of_isNameStart hc
    · exact hall d hd
  rw [← List.cons_append, List.mem_append, not_or]
  exact ⟨hbang, hrest⟩

theorem toList_word_of_plain {name : String} (h : isPlain name = true) :
    (word name).toList = name.toList ++ ['!'] := by
  rw [word, quote, if_pos h, String.toList_append]
  rfl

theorem toList_word_of_quoted {name : String} (h : isPlain name ≠ true) :
    (word name).toList =
      apostrophe :: (doubled apostrophe name.toList ++ [apostrophe, '!']) := by
  rw [word, quote, if_neg h, String.toList_append, String.toList_ofList]
  simp

/-- Whatever the name, it is split off from where it has been written. -/
theorem heads_word (name : String) : Heads (word name) name := by
  by_cases h : isPlain name = true
  · rcases plain_cases h with ⟨c, tail, hname, hc, hmark⟩
    have hheads := heads_plain hc hmark
    have hword := toList_word_of_plain h
    rw [hname, List.cons_append] at hword
    rwa [← hword, ← hname, String.ofList_toList, String.ofList_toList] at hheads
  · have hheads := heads_quoted fun rest hrest =>
      quotedRun_doubled hrest name.toList
    rwa [← toList_word_of_quoted h, undoubled_doubled, String.ofList_toList,
      String.ofList_toList] at hheads

theorem split_quote (name rest : String) :
    split (quote name ++ "!" ++ rest) =
      .ok (some name, String.ofList (dropEndWhile isBlank rest.toList)) := by
  have hheads := heads_word name _ (noBlankEnd_dropEndWhile rest.toList)
  rw [split_eq_ok_iff, String.toList_append, String.toList_ofList] at hheads
  apply split_of_qualifies
  rw [String.toList_append, trim, ← trimWhile_append_dropEndWhile]
  exact hheads

/-- A sheet is split off as it was quoted, and the rest kept, just if no white space ends it. -/
theorem split_quote_iff (name rest : String) :
    split (quote name ++ "!" ++ rest) = .ok (some name, rest) <-> NoBlankEnd rest.toList := by
  rw [split_quote]
  constructor
  · intro h
    injection h with h
    injection h with _ hrest
    rw [← hrest, String.toList_ofList]
    exact noBlankEnd_dropEndWhile rest.toList
  · intro h
    rw [dropEndWhile_eq_self h, String.ofList_toList]

end Sheet

def Reference.OnPlainLine (ref : Reference) : Prop :=
  exists name, ref.sheet = some name ∧ Sheet.IsPlainLine name

structure NamesSheet (word name : String) : Prop where
  shape_eq : Terminal.sheetShape word.toList = some []
  sheet_eq : Literal.sheet word = .ok name

theorem sheetShape_plain {name : List Char} (h : Sheet.nameScanner name = some []) :
    Terminal.sheetShape (name ++ ['!']) = some [] := by
  have hplain : (Sheet.nameScanner >=> Scanner.char '!') (name ++ ['!'] ++ []) = some [] :=
    Terminal.closed_append Terminal.stopsAt_bang_nameScanner h
  rw [List.append_nil] at hplain
  rcases Terminal.reads_nameScanner _ _ h with ⟨_, hname, c, own, hown, hc, _⟩
  have hquoted : (Scanner.char apostrophe >=> Terminal.quotedSheetRest) (name ++ ['!']) =
      none := by
    rw [hname, hown]
    apply (Scanner.opens_seq Scanner.opens_one).fails
    simpa using Sheet.ne_apostrophe_of_isNameStart hc
  rw [Terminal.sheetShape, Scanner.either, hquoted, hplain]
  rfl

theorem sheetShape_quoted {own : List Char} (hne : own ≠ [])
    (hrun : quotedRun apostrophe (own ++ [apostrophe, '!']) = some (own, ['!'])) :
    Terminal.sheetShape (apostrophe :: (own ++ [apostrophe, '!'])) = some [] := by
  have hrest : Terminal.quotedSheetRest (own ++ [apostrophe, '!']) = some [] := by
    cases own with
    | nil => exact absurd rfl hne
    | cons c tail =>
        rw [Terminal.quotedSheetRest, hrun]
        rfl
  rw [Terminal.sheetShape, Scanner.either, Scanner.seq_apply, Terminal.char_cons,
    Option.bind_some, hrest]
  rfl

theorem namesSheet_word {name : String} (hne : name ≠ "")
    (hline : ¬ Sheet.IsPlainLine name) : NamesSheet (Sheet.word name) name := by
  refine ⟨?_, (Sheet.heads_word name).sheet_eq⟩
  by_cases h : Sheet.isPlain name = true
  · rw [Sheet.toList_word_of_plain h]
    exact sheetShape_plain ((Sheet.isPlain_iff.mp h).resolve_right hline)
  · rw [Sheet.toList_word_of_quoted h]
    apply sheetShape_quoted _ (quotedRun_doubled (by decide) name.toList)
    cases hname : name.toList with
    | nil => exact absurd (String.toList_eq_nil_iff.mp hname) hne
    | cons c cs =>
        rw [doubled_cons]
        split <;> simp

end Precedents
