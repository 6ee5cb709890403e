import Precedents.Proofs.Cover.ClosedForm
import Precedents.Proofs.Reference.Accepting
import Precedents.Proofs.Settings.NameLookup

/-!
# Targets that leave their sheet open

The text of an entry may name no sheet.  In an entry for all sheets it then stands for
the reference that the same text stands for in a formula, on the sheet of that formula.
An entry for one sheet puts it on its own sheet as the key spells it.  A lookup passes
over the case of letters and references do not, so the two are one reference just if
the key spells the sheet as it is asked for.
-/

namespace Precedents

/-! ## One text on different sheets -/

namespace Reference

section Open

variable {text : String} {sheet : Option String} {body : List Char} {ref : Reference}

theorem exists_open_of_readBody (h : readBody text sheet body = .ok ref) :
    exists raw, readBody text none body = .ok raw ∧ raw.sheet = none ∧
      raw.withSheet sheet = ref := by
  by_cases hcolon : ':' ∈ body
  · rcases List.eq_append_cons_of_mem hcolon with ⟨left, right, hbody, hleft⟩
    rw [hbody] at h ⊢
    rcases (readBody_of_colon hleft).mp h with ⟨range, hrange, href⟩
    rcases readPair_eq_ok_iff.mp hrange with
      ⟨l, r, hl, hr, ⟨part, a, b, ha, hb, hhull⟩, hsheet⟩
    let raw : Range := { range with sheet := none }
    have hbounds := Range.isHull_iff.mp hhull
    have hraw : raw.IsHull a b := Range.isHull_iff.mpr hbounds
    refine ⟨.range raw, (readBody_of_colon hleft).mpr ⟨raw, ?_, rfl⟩, rfl, ?_⟩
    · exact readPair_eq_ok_iff.mpr ⟨l, r, hl, hr, ⟨part, a, b, ha, hb, hraw⟩, rfl⟩
    · rw [← href, ← hsheet]
      rfl
  · rcases (readBody_of_no_colon hcolon).mp h with ⟨row, col, hword, href⟩
    refine ⟨.cell ⟨row, col, none⟩, ?_, rfl, ?_⟩
    · exact (readBody_of_no_colon hcolon).mpr ⟨row, col, hword, rfl⟩
    · rw [← href]
      rfl

theorem exists_open_of_read {rest : String} (hopen : Sheet.split text = .ok (none, rest))
    (h : read text sheet = .ok ref) :
    exists raw, read text none = .ok raw ∧ raw.sheet = none ∧ raw.withSheet sheet = ref := by
  simp only [read_eq_split_bind, hopen, bind, Except.bind, Option.none_or] at h ⊢
  exact exists_open_of_readBody h

end Open

end Reference

/-- On different sheets an open reference is not the same one. -/
theorem Reference.covers_withSheet_iff {raw : Reference} (hraw : raw.sheet = none)
    (first second : String) :
    (raw.withSheet (some first)).Covers (raw.withSheet (some second)) <-> second = first := by
  constructor
  · intro h
    have hsheet := h.sheet_eq
    rw [sheet_withSheet, sheet_withSheet, hraw, Option.none_or, Option.none_or] at hsheet
    exact Option.some.inj hsheet
  · intro h
    rw [h]
    exact covers_self _

namespace DefinedNames

variable {names : List (String × String)} {table : DefinedNames} {name sheet : String}

/-! ## The sheet of an open target -/

/-- The sheet of an open target: as the key of its entry spells it, or else the one that asks. -/
def home (key sheet : String) : String :=
  match Sheet.split key with
  | .ok (some own, _) => own
  | _ => sheet

theorem isKeyFor_of_last? {scope : Option String} {entry : String × String}
    (h : last? names scope name = some entry) : isKeyFor scope name entry.1 = true :=
  (List.mem_filter.mp (List.mem_of_getLast? h)).right

theorem isKeyFor_of_deciding? {entry : String × String}
    (h : deciding? names name sheet = some entry) :
    isKeyFor (some sheet) name entry.1 = true ∨ isKeyFor none name entry.1 = true := by
  rcases Option.or_eq_some_iff.mp h with hown | hall
  · split at hown
    · cases hown
    · exact Or.inl (isKeyFor_of_last? hown)
  · exact Or.inr (isKeyFor_of_last? hall.right)

/-- The key that decides has the sheet that asks, in letters of either case, or none. -/
theorem scope_of_deciding? {key target word : String} {own : Option String}
    (h : deciding? names name sheet = some (key, target))
    (hsplit : Sheet.split key = .ok (own, word)) :
    own = none ∨ exists spelled, own = some spelled ∧ Text.upper spelled = Text.upper sheet := by
  have hkey := isKeyFor_of_deciding? h
  simp only [isKeyFor, hsplit, Bool.and_eq_true, beq_iff_eq] at hkey
  rcases hkey with hkey | hkey
  · exact Or.inr (Option.map_eq_some_iff.mp hkey.left)
  · exact Or.inl (Option.map_eq_none_iff.mp hkey.left)

/--
An open target lies on the sheet of its key as that is spelled, and otherwise on the
sheet that asks.  This is the sheet that asks in letters of either case; only if it is
spelled alike does the name stand for the reference of the same text in a formula there,
so that the two are listed as one.
-/
theorem lookup_open_target (h : ofList names = .ok table) {key target rest : String}
    (hdeciding : deciding? names name sheet = some (key, target))
    (hopen : Sheet.split target = .ok (none, rest)) :
    exists raw found, Reference.read target none = .ok raw ∧
      table.lookup name sheet = some found ∧
      found = raw.withSheet (home key sheet) ∧
      Text.upper (home key sheet) = Text.upper sheet ∧
      (found.sheet = some sheet <-> home key sheet = sheet) ∧
      (forall actions,
        (Cover.after (actions ++ [.offer (raw.withSheet sheet)])).covers found = true <->
          (Cover.after actions).covers found = true ∨ home key sheet = sheet) := by
  have hrel := rel_resolved h name sheet
  rw [hdeciding] at hrel
  generalize hresolved : table.resolved name sheet = resolved at hrel
  cases hrel with
  | @some _ ref hstands =>
      rcases hstands with ⟨own, word, hsplit, href⟩
      rcases Reference.exists_open_of_read hopen href with ⟨raw, hraw, hsheet, hplaced⟩
      have hhome : own.or (some sheet) = some (home key sheet) ∧
          Text.upper (home key sheet) = Text.upper sheet := by
        rw [home, hsplit]
        rcases scope_of_deciding? hdeciding hsplit with hown | ⟨spelled, hown, hspelled⟩
        · rw [hown]
          exact ⟨rfl, rfl⟩
        · rw [hown]
          exact ⟨rfl, hspelled⟩
      refine ⟨raw, raw.withSheet (home key sheet), hraw, ?_, rfl, hhome.right, ?_, ?_⟩
      · rw [lookup_eq_resolved, hresolved, ← hplaced, Option.map_some,
          Reference.withSheet_withSheet, hhome.left]
      · rw [Reference.sheet_withSheet, hsheet, Option.none_or, Option.some.injEq]
      · intro actions
        rw [Cover.after_offer_covers_iff, Reference.covers_withSheet_iff hsheet]

def locals : List (String × String) :=
  [("Local", "A1"), ("sheet2!Local", "C3")]

def localsTable : DefinedNames where
  entries := [⟨none, "LOCAL", .cell ⟨1, 1, none⟩⟩,
    ⟨some "SHEET2", "LOCAL", .cell ⟨3, 3, some "sheet2"⟩⟩]

theorem local_beside_cell :
    ofList locals = .ok localsTable ∧
      exists found, localsTable.lookup "Local" "Sheet2" = some found ∧
        found.sheet ≠ some "Sheet2" ∧
        (Cover.after [.offer (.cell ⟨3, 3, some "Sheet2"⟩)]).covers found = false := by
  have htable : ofList locals = .ok localsTable := by rfl
  have hdeciding : deciding? locals "Local" "Sheet2" = some ("sheet2!Local", "C3") := by
    decide +kernel
  have hopen : Sheet.split "C3" = .ok (none, "C3") := by rfl
  have hread : Reference.read "C3" none = .ok (.cell ⟨3, 3, none⟩) := by rfl
  have hhome : home "sheet2!Local" "Sheet2" ≠ "Sheet2" := by decide +kernel
  rcases lookup_open_target htable hdeciding hopen with
    ⟨raw, found, hraw, hlookup, _, _, hsheet, hcovers⟩
  rw [hread] at hraw
  cases hraw
  refine ⟨htable, found, hlookup, fun h => hhome (hsheet.mp h), ?_⟩
  rw [Bool.eq_false_iff]
  intro h
  rcases (hcovers []).mp h with hnone | hsame
  · rcases (Cover.after_covers_iff [] found).mp hnone with ⟨_, hmem, _⟩
    cases hmem
  · exact hhome hsame

end DefinedNames
end Precedents
