import Precedents.Proofs.Reference.Pairing
import Precedents.Proofs.Reference.Qualifying

/-!
# Which texts are references

A text is a reference if it names a cell, or two cells, two columns or two rows
with a `:` between them, behind a sheet or without one.  Besides these, two kinds of
text are let through: white space between the sheet and a cell, and one line feed in
front of the `:`.
-/

namespace Precedents

open Text

namespace Reference

/-! ## Bodies -/

inductive IsBody (sheet : Option String) : List Char -> Reference -> Prop
  | cell {word : List Char} {row col : Int} (h : NamesCell word row col) :
      IsBody sheet word (.cell ⟨row, col, sheet⟩)
  | pair {left right : List Char} {range : Range} (h : IsPair left right range)
      (hsheet : range.sheet = sheet) : IsBody sheet (left ++ ':' :: right) (.range range)

/-- A cell behind white space, or a pair with a line feed in front of its colon. -/
inductive IsLooseBody (sheet : Option String) : List Char -> Reference -> Prop
  | blanks {front word : List Char} {row col : Int} (hne : front ≠ [])
      (hfront : forall c, c ∈ front -> isBlank c = true) (h : NamesCell word row col) :
      IsLooseBody sheet (front ++ word) (.cell ⟨row, col, sheet⟩)
  | lineFeed {left right : List Char} {range : Range} (h : IsPair left right range)
      (hsheet : range.sheet = sheet) :
      IsLooseBody sheet (left ++ '\n' :: ':' :: right) (.range range)

section Bodies

variable {text : String} {body left right : List Char} {range : Range}
  {ref other : Reference} {sheet : Option String}

theorem isPair_noBlank (h : IsPair left right range) : NoBlank (left ++ ':' :: right) := by
  rcases h with ⟨part, a, b, ha, hb, _⟩
  intro c hc
  rcases List.mem_append.mp hc with hc | hc
  · exact Part.noBlank_of_shape ha.shape_eq c hc
  · rcases List.mem_cons.mp hc with hc | hc
    · rw [hc]
      decide
    · exact Part.noBlank_of_shape hb.shape_eq c hc

theorem isPair_colon_not_mem (h : IsPair left right range) : ':' ∉ left := by
  rcases h with ⟨part, a, b, ha, _⟩
  exact Part.colon_not_mem_of_shape ha.shape_eq

theorem IsBody.noBlank (h : IsBody sheet body ref) : NoBlank body := by
  cases h with
  | cell h => exact h.noBlank
  | pair h => exact isPair_noBlank h

theorem IsLooseBody.exists_blank (h : IsLooseBody sheet body ref) :
    exists c, c ∈ body ∧ isBlank c = true := by
  cases h with
  | @blanks front _ _ _ hne hfront =>
      cases front with
      | nil => exact absurd rfl hne
      | cons c rest => exact ⟨c, List.mem_cons_self, hfront c List.mem_cons_self⟩
  | lineFeed => exact ⟨'\n', by simp, by decide⟩

theorem IsBody.not_isLooseBody (h : IsBody sheet body ref) :
    ¬ IsLooseBody sheet body other := by
  intro hloose
  rcases hloose.exists_blank with ⟨c, hc, hblank⟩
  rw [h.noBlank c hc] at hblank
  cases hblank

def readBody (text : String) (sheet : Option String) (body : List Char) :
    Except ReferenceError Reference :=
  match splitFirst ':' body with
  | none => do
      let (row, col) <- Cell.readAddress (String.ofList body)
      return .cell ⟨row, col, sheet⟩
  | some (left, right) => .range <$> readPair text left right sheet

theorem readBody_of_colon (h : ':' ∉ left) :
    readBody text sheet (left ++ ':' :: right) = .ok ref <->
      exists range, readPair text left right sheet = .ok range ∧ .range range = ref := by
  rw [readBody, splitFirst_append h]
  exact except_map_eq_ok

theorem readBody_of_no_colon (h : ':' ∉ body) :
    readBody text sheet body = .ok ref <->
      exists row col, NamesCell (trim body) row col ∧ .cell ⟨row, col, sheet⟩ = ref := by
  simp only [readBody, splitFirst_of_not_mem h, except_bind_eq_ok, pure, Except.pure,
    Except.ok.injEq, Prod.exists, Cell.readAddress_eq_ok_iff, String.toList_ofList]

theorem readBody_cell (front : List Char) {word : List Char} {row col : Int}
    (hfront : forall c, c ∈ front -> isBlank c = true) (h : NamesCell word row col) :
    readBody text sheet (front ++ word) = .ok (.cell ⟨row, col, sheet⟩) := by
  have hcolon : ':' ∉ front ++ word := by
    rw [List.mem_append, not_or]
    exact ⟨Scanner.not_mem_of_forall hfront (by decide),
      Part.colon_not_mem_of_shape (Part.Names.cell h).shape_eq⟩
  have htrim : trim (front ++ word) = word := by
    simpa using h.noBlank.trim_append front [] hfront (by simp)
  rw [readBody_of_no_colon hcolon, htrim]
  exact ⟨row, col, h, rfl⟩

theorem readBody_pair {l : List Char} (hleft : Lined left l) (h : IsPair l right range)
    (hsheet : range.sheet = sheet) :
    readBody text sheet (left ++ ':' :: right) = .ok (.range range) := by
  have hcolon : ':' ∉ left := by
    rcases hleft with hleft | hleft
    · rw [hleft]
      exact isPair_colon_not_mem h
    · rw [hleft, List.mem_append, not_or]
      exact ⟨isPair_colon_not_mem h, by decide⟩
  rw [readBody_of_colon hcolon]
  exact ⟨range, readPair_eq_ok_iff.mpr ⟨l, right, hleft, Or.inl rfl, h, hsheet⟩, rfl⟩

theorem readBody_of_isBody (h : IsBody sheet body ref) :
    readBody text sheet body = .ok ref := by
  cases h with
  | cell h => exact readBody_cell [] (by simp) h
  | pair h hsheet => exact readBody_pair (Or.inl rfl) h hsheet

theorem readBody_of_isLooseBody (h : IsLooseBody sheet body ref) :
    readBody text sheet body = .ok ref := by
  cases h with
  | @blanks front _ _ _ _ hfront h => exact readBody_cell front hfront h
  | @lineFeed left right range h hsheet =>
      have hread : readBody text sheet (left ++ ['\n'] ++ ':' :: right) =
          .ok (.range range) :=
        readBody_pair (Or.inr rfl) h hsheet
      rwa [List.append_assoc] at hread

theorem isBody_of_readBody (hlast : NoBlankEnd body)
    (h : readBody text sheet body = .ok ref) :
    IsBody sheet body ref ∨ IsLooseBody sheet body ref := by
  by_cases hcolon : ':' ∈ body
  · rcases List.eq_append_cons_of_mem hcolon with ⟨left, right, hbody, hleft⟩
    rw [hbody] at h hlast
    rcases (readBody_of_colon hleft).mp h with ⟨range, hrange, href⟩
    rcases readPair_eq_ok_iff.mp hrange with ⟨l, r, hl, hr, hpair, hsheet⟩
    have hright : right = r := by
      rcases hr with hr | hr
      · exact hr
      · rw [hr, ← List.cons_append, ← List.append_assoc] at hlast
        have hfeed : isBlank '\n' = false := hlast.of_append '\n' rfl
        exact absurd hfeed (by decide)
    rw [hbody, ← href, hright]
    rcases hl with hl | hl
    · rw [hl]
      exact Or.inl (.pair hpair hsheet)
    · rw [hl, List.append_assoc]
      exact Or.inr (.lineFeed hpair hsheet)
  · rcases (readBody_of_no_colon hcolon).mp h with ⟨row, col, hword, href⟩
    have hsplit : body.takeWhile isBlank ++ body.dropWhile isBlank = body :=
      List.takeWhile_append_dropWhile
    have hfront : forall c, c ∈ body.takeWhile isBlank -> isBlank c = true :=
      fun c hc => List.all_eq_true.mp List.all_takeWhile c hc
    rw [hlast.trim_eq] at hword
    rw [← href, ← hsplit]
    by_cases hnil : body.takeWhile isBlank = []
    · rw [hnil]
      exact Or.inl (.cell hword)
    · exact Or.inr (.blanks hnil hfront hword)

end Bodies

/-! ## Texts -/

/-- A body behind a sheet, or without one on the sheet that is asked for. -/
def IsText (default : Option String) (cs : List Char) (ref : Reference) : Prop :=
  exists named body, Sheet.Qualifies cs named body ∧ IsBody (named.or default) body ref

/-- A text with white space behind its sheet, or a line feed in front of its colon. -/
def IsLoose (default : Option String) (cs : List Char) (ref : Reference) : Prop :=
  exists named body, Sheet.Qualifies cs named body ∧
    IsLooseBody (named.or default) body ref

theorem read_eq_split_bind (text : String) (default : Option String) :
    read text default = Sheet.split text >>= fun found =>
      readBody text (found.1.or default) found.2.toList := by
  unfold read
  cases Sheet.split text with
  | error error => simp only [bind, Except.bind]
  | ok found =>
      cases hparts : splitFirst ':' found.2.toList with
      | none => simp only [bind, Except.bind, readBody, hparts, String.ofList_toList]
      | some parts => simp only [bind, Except.bind, readBody, hparts]

theorem read_eq_ok_iff {text : String} {default : Option String} {ref : Reference} :
    read text default = .ok ref <->
      exists named body, Sheet.Qualifies (trim text.toList) named body ∧
        readBody text (named.or default) body = .ok ref := by
  rw [read_eq_split_bind, except_bind_eq_ok]
  constructor
  · intro h
    rcases h with ⟨⟨named, body⟩, hsplit, hbody⟩
    rw [← String.ofList_toList (s := body)] at hsplit
    exact ⟨named, body.toList, Sheet.split_eq_ok_iff.mp hsplit, hbody⟩
  · intro h
    rcases h with ⟨named, body, hsplit, hbody⟩
    refine ⟨(named, String.ofList body), Sheet.split_eq_ok_iff.mpr hsplit, ?_⟩
    rw [String.toList_ofList]
    exact hbody

theorem IsText.not_isLoose {text : String} {default : Option String} {ref other : Reference}
    (h : IsText default (trim text.toList) ref) :
    ¬ IsLoose default (trim text.toList) other := by
  intro hloose
  rcases h with ⟨named, body, hsplit, hbody⟩
  rcases hloose with ⟨named', body', hsplit', hbody'⟩
  have hsame := Sheet.split_of_qualifies hsplit
  rw [Sheet.split_of_qualifies hsplit'] at hsame
  injection hsame with hsame
  injection hsame with hnamed hbodies
  rw [hnamed, String.ofList_injective hbodies] at hbody'
  exact hbody.not_isLooseBody hbody'

/--
A text is read as a reference just if it is one, or else if it only has white space
between its sheet and a cell, or one line feed in front of its colon.
-/
theorem read_accepts (text : String) (default : Option String) :
    (forall ref, read text default = .ok ref <->
      IsText default (trim text.toList) ref ∨ IsLoose default (trim text.toList) ref) ∧
    (forall ref other, IsText default (trim text.toList) ref ->
      ¬ IsLoose default (trim text.toList) other) := by
  refine ⟨fun ref => ?_, fun ref other => IsText.not_isLoose⟩
  rw [read_eq_ok_iff]
  constructor
  · intro h
    rcases h with ⟨named, body, hsplit, hread⟩
    rcases hsplit.exists_front with ⟨front, hfront⟩
    have hlast : NoBlankEnd (front ++ body) := hfront ▸ noBlankEnd_trim text.toList
    rcases isBody_of_readBody hlast.of_append hread with hbody | hbody
    · exact Or.inl ⟨named, body, hsplit, hbody⟩
    · exact Or.inr ⟨named, body, hsplit, hbody⟩
  · intro h
    rcases h with ⟨named, body, hsplit, hbody⟩ | ⟨named, body, hsplit, hbody⟩
    · exact ⟨named, body, hsplit, readBody_of_isBody hbody⟩
    · exact ⟨named, body, hsplit, readBody_of_isLooseBody hbody⟩

/-- White space behind the sheet is let through in front of a cell only. -/
example : read "A1\n:B2" none = .ok (.range ⟨1, 1, 2, 2, none⟩) ∧
    read "S! A1" none = .ok (.cell ⟨1, 1, some "S"⟩) ∧
    read "S! A:C" none = .error (.invalidReference "S! A:C") := by
  decide +kernel

end Reference

end Precedents
