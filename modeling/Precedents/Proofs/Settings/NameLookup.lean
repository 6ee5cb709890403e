import Precedents.Proofs.Text.UpperCase
import Precedents.Settings.DefinedNames

/-!
# What a name stands for

A table of names is filled entry by entry, and a later entry takes the place of an
earlier one whose name and sheet differ from its own only in the case of letters.  So
the last entry for a name decides: the last one for the sheet, if there is one, and
otherwise the last one for all sheets.
-/

namespace Precedents

namespace DefinedNames

variable {names : List (String × String)} {table : DefinedNames}
variable {scope : Option String} {name sheet : String}

/-! ## The entry that decides -/

/-- The key is this name on this sheet, or for all sheets, in letters of either case. -/
def isKeyFor (scope : Option String) (name key : String) : Bool :=
  match Sheet.split key with
  | .ok (own, word) =>
      own.map Text.upper == scope.map Text.upper && Text.upper word == Text.upper name
  | .error _ => false

def last? (names : List (String × String)) (scope : Option String) (name : String) :
    Option (String × String) :=
  (names.filter fun entry => isKeyFor scope name entry.1).getLast?

/-- The entry that decides what a name stands for; the empty name is that of no sheet. -/
def deciding? (names : List (String × String)) (name sheet : String) :
    Option (String × String) :=
  (if sheet = "" then none else last? names (some sheet) name).or (last? names none name)

/-- The text of an entry is read on the sheet of its key, if it names none itself. -/
def Stands (entry : String × String) (ref : Reference) : Prop :=
  exists scope word, Sheet.split entry.1 = .ok (scope, word) ∧
    Reference.read entry.2 scope = .ok ref

theorem last?_cons (entry : String × String) (names : List (String × String))
    (scope : Option String) (name : String) :
    last? (entry :: names) scope name =
      (last? names scope name).or
        (if isKeyFor scope name entry.1 then some entry else none) := by
  unfold last?
  rw [← List.singleton_append, List.filter_append, List.getLast?_append]
  congr 1
  by_cases h : isKeyFor scope name entry.1 = true
  · simp [h]
  · simp [h]

/-! ## One entry -/

section Entries

variable {key target : String} {entry : DefinedName}

theorem parts_of_read (h : DefinedName.read key target = .ok entry) :
    exists own word ref, Sheet.split key = .ok (own, word) ∧
      Reference.read target own = .ok ref ∧
      entry = ⟨own.map Text.upper, Text.upper word, ref⟩ := by
  unfold DefinedName.read at h
  split at h
  · cases h
  · rename_i own word hsplit
    split at h
    · cases h
    · rename_i ref href
      split at h
      · cases h
      · cases h
        exact ⟨own, word, ref, hsplit, href, rfl⟩

theorem read_cases (h : DefinedName.read key target = .ok entry) :
    Stands (key, target) entry.target ∧
      forall scope name, entry.isFor (scope.map Text.upper) (Text.upper name) =
        isKeyFor scope name key := by
  rcases parts_of_read h with ⟨own, word, ref, hsplit, href, heq⟩
  rw [heq]
  refine ⟨⟨own, word, hsplit, href⟩, ?_⟩
  intro scope name
  simp only [DefinedName.isFor, isKeyFor, hsplit]

theorem mem_of_mem_put {other : DefinedName} {entries : List DefinedName}
    (h : other ∈ put entry entries) : other = entry ∨ other ∈ entries := by
  induction entries with
  | nil => exact Or.inl (List.mem_singleton.mp h)
  | cons first rest ih =>
      unfold put at h
      split at h
      · rcases List.mem_cons.mp h with h | h
        · exact Or.inl h
        · exact Or.inr (List.mem_cons_of_mem first h)
      · rcases List.mem_cons.mp h with h | h
        · exact Or.inr (by rw [h]; exact List.mem_cons_self)
        · rcases ih h with h | h
          · exact Or.inl h
          · exact Or.inr (List.mem_cons_of_mem first h)

/-- An entry that is put in is found, and hides just those for the same name. -/
theorem find?_put (entry : DefinedName) (entries : List DefinedName)
    (scope : Option String) (name : String) :
    (put entry entries).find? (fun e => e.isFor scope name) =
      if entry.isFor scope name then some entry
      else entries.find? fun e => e.isFor scope name := by
  induction entries with
  | nil =>
      rw [put, List.find?_cons]
      cases entry.isFor scope name with
      | true => rfl
      | false => rfl
  | cons other rest ih =>
      rw [put]
      by_cases hsame : other.isFor entry.scope entry.name = true
      · have hboth : other.isFor scope name = entry.isFor scope name := by
          simp only [DefinedName.isFor, Bool.and_eq_true, beq_iff_eq] at hsame ⊢
          rw [hsame.left, hsame.right]
        rw [if_pos hsame, List.find?_cons, List.find?_cons, hboth]
        cases entry.isFor scope name with
        | true => rfl
        | false => rfl
      · rw [if_neg hsame, List.find?_cons, ih, List.find?_cons]
        by_cases hother : other.isFor scope name = true
        · have hnot : entry.isFor scope name = false := by
            rw [Bool.eq_false_iff]
            intro hentry
            apply hsame
            simp only [DefinedName.isFor, Bool.and_eq_true, beq_iff_eq] at hother hentry ⊢
            rw [hentry.left, hentry.right]
            exact hother
          simp [hother, hnot]
        · simp [hother]

end Entries

/-! ## All entries -/

theorem mem_or_exists_read_of_addAll {last : DefinedNames} (h : addAll table names = .ok last)
    {entry : DefinedName} (hmem : entry ∈ last.entries) :
    entry ∈ table.entries ∨
      exists pair, pair ∈ names ∧ DefinedName.read pair.1 pair.2 = .ok entry := by
  induction names generalizing table with
  | nil =>
      cases h
      exact Or.inl hmem
  | cons pair rest ih =>
      rw [addAll] at h
      split at h
      · cases h
      · rename_i first hfirst
        rcases ih h with hmem | ⟨other, hother, hread⟩
        · rcases mem_of_mem_put hmem with heq | hmem
          · rw [heq]
            exact Or.inr ⟨pair, List.mem_cons_self, hfirst⟩
          · exact Or.inl hmem
        · exact Or.inr ⟨other, List.mem_cons_of_mem pair hother, hread⟩

theorem exists_read_of_mem (h : ofList names = .ok table) {entry : DefinedName}
    (hmem : entry ∈ table.entries) :
    exists pair, pair ∈ names ∧ DefinedName.read pair.1 pair.2 = .ok entry :=
  (mem_or_exists_read_of_addAll h hmem).resolve_left (by simp)

/-- What is found in a table that has been filled is what the last entry stands for. -/
theorem rel_find?_of_addAll {last : DefinedNames} (h : addAll table names = .ok last)
    {found : Option (String × String)} (scope : Option String) (name : String)
    (hfound : Option.Rel Stands found
      (table.find? (scope.map Text.upper) (Text.upper name))) :
    Option.Rel Stands ((last? names scope name).or found)
      (last.find? (scope.map Text.upper) (Text.upper name)) := by
  induction names generalizing table found with
  | nil =>
      cases h
      exact hfound
  | cons pair rest ih =>
      rw [addAll] at h
      split at h
      · cases h
      · rename_i entry hentry
        rcases read_cases hentry with ⟨hstands, hkey⟩
        rw [last?_cons, Option.or_assoc]
        apply ih h
        rw [DefinedNames.find?, find?_put, hkey]
        split
        · exact .some hstands
        · exact hfound

theorem rel_find? (h : ofList names = .ok table) (scope : Option String) (name : String) :
    Option.Rel Stands (last? names scope name)
      (table.find? (scope.map Text.upper) (Text.upper name)) := by
  have hrel := rel_find?_of_addAll h scope name Option.Rel.none
  rwa [Option.or_none] at hrel

theorem rel_or {found other : Option (String × String)} {a b : Option Reference}
    (h : Option.Rel Stands found a) (hother : Option.Rel Stands other b) :
    Option.Rel Stands (found.or other) (a.or b) := by
  cases h with
  | some h => exact .some h
  | none => exact hother

theorem isSome_eq_of_rel {found : Option (String × String)} {a : Option Reference}
    (h : Option.Rel Stands found a) : found.isSome = a.isSome := by
  cases h with
  | some _ => rfl
  | none => rfl

/-- What a name stands for on a sheet, before the sheet is filled in. -/
def resolved (table : DefinedNames) (name sheet : String) : Option Reference :=
  (if sheet = "" then none else table.find? (some (Text.upper sheet)) (Text.upper name)).or
    (table.find? none (Text.upper name))

theorem lookup_eq_resolved (table : DefinedNames) (name sheet : String) :
    table.lookup name sheet =
      (table.resolved name sheet).map fun ref => ref.withSheet sheet :=
  rfl

theorem rel_resolved (h : ofList names = .ok table) (name sheet : String) :
    Option.Rel Stands (deciding? names name sheet) (table.resolved name sheet) := by
  apply rel_or _ (rel_find? h none name)
  by_cases hsheet : sheet = ""
  · rw [if_pos hsheet, if_pos hsheet]
    exact .none
  · rw [if_neg hsheet, if_neg hsheet]
    exact rel_find? h (some sheet) name

theorem resolved_congr (table : DefinedNames) {name' sheet' : String}
    (hname : Text.upper name' = Text.upper name)
    (hsheet : Text.upper sheet' = Text.upper sheet) :
    table.resolved name' sheet' = table.resolved name sheet := by
  have hempty : sheet' = "" <-> sheet = "" := by
    rw [← Text.upper_eq_empty_iff, hsheet, Text.upper_eq_empty_iff]
  simp only [resolved, hname, hsheet, hempty]

/--
A name stands for what its deciding entry does, with the sheet filled in where that
has none, and for nothing if there is no entry.  The case of letters matters for the
sheet that is filled in, and for nothing else.
-/
theorem lookup_law (h : ofList names = .ok table) (name sheet : String) :
    exists found, Option.Rel Stands (deciding? names name sheet) found ∧
      forall name' sheet', Text.upper name' = Text.upper name ->
        Text.upper sheet' = Text.upper sheet ->
        table.lookup name' sheet' =
          found.map fun ref => ref.withSheet (some sheet') := by
  refine ⟨table.resolved name sheet, rel_resolved h name sheet, ?_⟩
  intro name' sheet' hname hsheet
  rw [lookup_eq_resolved, resolved_congr table hname hsheet]

def rates : List (String × String) :=
  [("Rate", "A1"), ("Sheet2!Rate", "D4"), ("sheet2!RATE", "B2"), ("RATE", "Data!C3")]

def ratesTable : DefinedNames where
  entries := [⟨none, "RATE", .cell ⟨3, 3, some "Data"⟩⟩,
    ⟨some "SHEET2", "RATE", .cell ⟨2, 2, some "sheet2"⟩⟩]

theorem later_rate_found :
    ofList rates = .ok ratesTable ∧
      deciding? rates "rate" "SHEET2" = some ("sheet2!RATE", "B2") ∧
      ratesTable.lookup "rAte" "Sheet2" = some (.cell ⟨2, 2, some "sheet2"⟩) := by
  have htable : ofList rates = .ok ratesTable := by rfl
  have hdeciding : deciding? rates "rate" "SHEET2" = some ("sheet2!RATE", "B2") := by
    decide +kernel
  have hsplit : Sheet.split "sheet2!RATE" = .ok (some "sheet2", "RATE") := by rfl
  have hread : Reference.read "B2" (some "sheet2") =
      .ok (.cell ⟨2, 2, some "sheet2"⟩) := by
    rfl
  refine ⟨htable, hdeciding, ?_⟩
  rcases lookup_law htable "rate" "SHEET2" with ⟨found, hrel, hlookup⟩
  rw [hlookup "rAte" "Sheet2" (by decide +kernel) (by decide +kernel)]
  rw [hdeciding] at hrel
  cases hrel with
  | some hstands =>
      rcases hstands with ⟨scope, word, hscope, hown⟩
      rw [hsplit] at hscope
      cases hscope
      rw [hread] at hown
      cases hown
      rfl

end DefinedNames
end Precedents
