import Precedents.Proofs.Settings.NameLookup

/-!
# Names that stand for something somewhere

A table holds a name if it has an entry for it, whatever sheet the entry is for.  A name
is found on the sheets that its entries are for, and on every sheet if one of them is
for all sheets.  No formula stands on the sheet with the empty name as far as a lookup
goes, so an entry whose key starts with `!` is held and never found.
-/

namespace Precedents
namespace DefinedNames

variable {names : List (String × String)} {table : DefinedNames}
variable {scope own : Option String} {name : String}

/-! ## The sheets of a name -/

/-- The sheets that the entries for a name are for, as their keys spell them; `none` is all. -/
def scopes (names : List (String × String)) (name : String) : List (Option String) :=
  names.filterMap fun entry =>
    match Sheet.split entry.1 with
    | .ok (own, word) => if Text.upper word = Text.upper name then some own else none
    | .error _ => none

theorem mem_scopes :
    own ∈ scopes names name <->
      exists entry word, entry ∈ names ∧ Sheet.split entry.1 = .ok (own, word) ∧
        Text.upper word = Text.upper name := by
  rw [scopes, List.mem_filterMap]
  constructor
  · intro h
    rcases h with ⟨entry, hmem, heq⟩
    split at heq
    · rename_i found word hsplit
      split at heq
      · rename_i hword
        injection heq with heq
        rw [heq] at hsplit
        exact ⟨entry, word, hmem, hsplit, hword⟩
      · cases heq
    · cases heq
  · intro h
    rcases h with ⟨entry, word, hmem, hsplit, hword⟩
    refine ⟨entry, hmem, ?_⟩
    simp only [hsplit, hword, if_true]

theorem isSome_last?_iff :
    (last? names scope name).isSome = true <->
      exists own, own ∈ scopes names name ∧ own.map Text.upper = scope.map Text.upper := by
  rw [last?, List.getLast?_isSome]
  constructor
  · intro h
    rcases List.exists_mem_of_ne_nil _ h with ⟨entry, hentry⟩
    rcases List.mem_filter.mp hentry with ⟨hmem, hkey⟩
    unfold isKeyFor at hkey
    split at hkey
    · rename_i own word hsplit
      simp only [Bool.and_eq_true, beq_iff_eq] at hkey
      exact ⟨own, mem_scopes.mpr ⟨entry, word, hmem, hsplit, hkey.right⟩, hkey.left⟩
    · cases hkey
  · intro h
    rcases h with ⟨own, hmem, hown⟩
    rcases mem_scopes.mp hmem with ⟨entry, word, hentry, hsplit, hword⟩
    apply List.ne_nil_of_mem
    refine List.mem_filter.mpr ⟨hentry, ?_⟩
    simp only [isKeyFor, hsplit, hown, hword, beq_self_eq_true, Bool.and_self]

/-! ## Holding a name -/

theorem isSome_find?_iff (h : ofList names = .ok table) (scope : Option String) :
    (table.find? (scope.map Text.upper) (Text.upper name)).isSome = true <->
      exists own, own ∈ scopes names name ∧ own.map Text.upper = scope.map Text.upper := by
  rw [← isSome_last?_iff, isSome_eq_of_rel (rel_find? h scope name)]

theorem contains_iff_scopes (h : ofList names = .ok table) :
    table.contains name = true <-> exists own, own ∈ scopes names name := by
  rw [contains, List.any_eq_true]
  constructor
  · intro hcontains
    rcases hcontains with ⟨entry, hmem, hname⟩
    rcases exists_read_of_mem h hmem with ⟨pair, hpair, hread⟩
    rcases parts_of_read hread with ⟨own, word, ref, hsplit, _, heq⟩
    rw [heq, beq_iff_eq] at hname
    exact ⟨own, mem_scopes.mpr ⟨pair, word, hpair, hsplit, hname⟩⟩
  · intro hscopes
    rcases hscopes with ⟨own, hown⟩
    have hfound := (isSome_find?_iff h own).mpr ⟨own, hown, rfl⟩
    rw [find?, Option.isSome_map, List.find?_isSome] at hfound
    rcases hfound with ⟨entry, hmem, hentry⟩
    rw [DefinedName.isFor, Bool.and_eq_true] at hentry
    exact ⟨entry, hmem, hentry.right⟩

/-! ## Finding a name -/

theorem found_iff_scopes (h : ofList names = .ok table) :
    (exists sheet ref, table.lookup name sheet = some ref) <->
      exists own, own ∈ scopes names name ∧ own ≠ some "" := by
  simp only [lookup, ← Option.isSome_iff_exists, Option.isSome_map, Option.isSome_or,
    Bool.or_eq_true]
  constructor
  · intro hfound
    rcases hfound with ⟨sheet, hfound | hfound⟩
    · split at hfound
      · cases hfound
      · rename_i hsheet
        rcases (isSome_find?_iff h (some sheet)).mp hfound with ⟨own, hmem, hown⟩
        refine ⟨own, hmem, ?_⟩
        intro hempty
        rw [hempty] at hown
        injection hown with hown
        exact hsheet ((Text.upper_eq_empty_iff sheet).mp hown.symm)
    · rcases (isSome_find?_iff h none).mp hfound with ⟨own, hmem, hown⟩
      rw [Option.map_none, Option.map_eq_none_iff] at hown
      exact ⟨own, hmem, by simp [hown]⟩
  · intro hscopes
    rcases hscopes with ⟨own, hmem, hne⟩
    have hfound := (isSome_find?_iff h own).mpr ⟨own, hmem, rfl⟩
    cases own with
    | none => exact ⟨"", Or.inr hfound⟩
    | some sheet =>
        have hsheet : sheet ≠ "" := fun hempty => hne (congrArg some hempty)
        refine ⟨sheet, Or.inl ?_⟩
        rw [if_neg hsheet]
        exact hfound

/--
A table holds a name just if the name is found on some sheet, unless there are entries
for the name and all of them are for the sheet with the empty name.  So the name of
every other entry is found.
-/
theorem contains_agrees_iff (h : ofList names = .ok table) (name : String) :
    ((table.contains name = true <->
        exists sheet ref, table.lookup name sheet = some ref) <->
      ((exists own, own ∈ scopes names name) ->
        exists own, own ∈ scopes names name ∧ own ≠ some "")) ∧
      (forall entry own word, entry ∈ names -> Sheet.split entry.1 = .ok (own, word) ->
        own ≠ some "" -> exists sheet ref, table.lookup word sheet = some ref) := by
  refine ⟨?_, ?_⟩
  · rw [contains_iff_scopes h, found_iff_scopes h]
    constructor
    · intro hagrees
      exact hagrees.mp
    · intro hsome
      refine ⟨hsome, ?_⟩
      intro hfound
      rcases hfound with ⟨own, hmem, _⟩
      exact ⟨own, hmem⟩
  · intro entry own word hmem hsplit hne
    exact (found_iff_scopes h).mpr ⟨own, mem_scopes.mpr ⟨entry, word, hmem, hsplit, rfl⟩, hne⟩

def tolls : List (String × String) :=
  [("!Toll", "A1"), ("!Fare", "B1"), ("Fare", "B2")]

def tollsTable : DefinedNames where
  entries := [⟨some "", "TOLL", .cell ⟨1, 1, some ""⟩⟩, ⟨some "", "FARE", .cell ⟨1, 2, some ""⟩⟩,
    ⟨none, "FARE", .cell ⟨2, 2, none⟩⟩]

theorem toll_never_found :
    ofList tolls = .ok tollsTable ∧ tollsTable.contains "toll" = true ∧
      (forall sheet, tollsTable.lookup "toll" sheet = none) ∧
      tollsTable.lookup "fare" "" = some (.cell ⟨2, 2, some ""⟩) := by
  have htable : ofList tolls = .ok tollsTable := by rfl
  have hcontains : tollsTable.contains "toll" = true := by decide +kernel
  have hscopes : scopes tolls "toll" = [some ""] := by decide +kernel
  refine ⟨htable, hcontains, ?_, by decide +kernel⟩
  intro sheet
  cases hlookup : tollsTable.lookup "toll" sheet with
  | none => rfl
  | some ref =>
      have hagrees : tollsTable.contains "toll" = true <->
          exists sheet ref, tollsTable.lookup "toll" sheet = some ref :=
        iff_of_true hcontains ⟨sheet, ref, hlookup⟩
      rcases (contains_agrees_iff htable "toll").left.mp hagrees
        ⟨some "", by rw [hscopes]; exact List.mem_cons_self⟩ with ⟨own, hmem, hne⟩
      rw [hscopes, List.mem_singleton] at hmem
      exact absurd hmem hne

end DefinedNames
end Precedents
