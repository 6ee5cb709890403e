import Precedents.Proofs.Function.Ruling
import Precedents.Proofs.Reference.Printing
import Precedents.Proofs.Reference.Quoting
import Precedents.Proofs.Settings.NameLookup

/-!
# References that are read lie on the grid

What is read as a reference, from a formula or from a table of names, is a
rectangle of the grid.  A reference that lies on a sheet with a name is said to
be grounded, and so is every part of it.
-/

namespace Precedents

namespace Reference

theorem OnGrid.withSheet {ref : Reference} (h : ref.OnGrid) (sheet : Option String) :
    (ref.withSheet sheet).OnGrid := by
  refine ⟨upright_withSheet sheet h.upright, ?_⟩
  intro d hd
  cases ref with
  | cell c =>
      have hd : d = c.withSheet sheet := hd
      rw [hd]
      exact h.inside c rfl
  | range r => exact h.inside ⟨d.row, d.col, r.sheet⟩ ⟨rfl, hd.right⟩

theorem Proper.withSheet {ref : Reference} (h : ref.Proper) {name : String}
    (hname : name ≠ "") : (ref.withSheet (some name)).Grounded := by
  refine ⟨h.onGrid.withSheet _, ?_⟩
  rw [sheet_withSheet]
  cases hown : ref.sheet with
  | none => exact ⟨name, rfl, hname⟩
  | some own =>
      refine ⟨own, rfl, ?_⟩
      intro hempty
      rw [hempty] at hown
      exact h.named hown

theorem Grounded.proper {ref : Reference} (h : ref.Grounded) : ref.Proper := by
  rcases h.named with ⟨name, hname, hne⟩
  refine ⟨h.onGrid, ?_⟩
  rw [hname]
  simpa using hne

theorem OnGrid.of_within {part whole : Reference} (h : whole.OnGrid)
    (hpart : part.Within whole) : part.OnGrid :=
  ⟨hpart.upright, fun d hd => h.inside d (hpart.holds d hd)⟩

theorem Grounded.of_within {part whole : Reference} (h : whole.Grounded)
    (hpart : part.Within whole) : part.Grounded := by
  refine ⟨h.onGrid.of_within hpart, ?_⟩
  rw [hpart.sheet_eq]
  exact h.named

theorem topLeft_within {range : Range} (h : range.Upright) :
    (Reference.cell range.topLeft).Within (.range range) := by
  refine ⟨rfl, trivial, ?_⟩
  intro d hd
  have hd : d = range.topLeft := hd
  rw [hd]
  exact Range.holds_topLeft h

end Reference

/-! ## Cells and corners -/

theorem Cell.onGrid_of_readAddress {text : String} {row col : Int}
    (h : readAddress text = .ok (row, col)) :
    Grid.hasRow row = true ∧ Grid.hasColumn col = true := by
  unfold readAddress at h
  simp only at h
  split at h
  · split at h
    · cases h
    · split at h
      · rename_i hgrid
        rw [Bool.and_eq_true] at hgrid
        injection h with h
        injection h with hrow hcol
        rw [hrow, hcol] at hgrid
        exact hgrid
      · cases h
  · cases h

theorem Reference.onGrid_cell {row col : Int} (sheet : Option String)
    (hrow : Grid.hasRow row = true) (hcol : Grid.hasColumn col = true) :
    (Reference.cell ⟨row, col, sheet⟩).OnGrid := by
  refine ⟨trivial, ?_⟩
  intro d hd
  have hd : d = ⟨row, col, sheet⟩ := hd
  rw [hd]
  exact ⟨hrow, hcol⟩

namespace Range

theorem onGrid_ofCorners {a b : Int × Int} (sheet : Option String)
    (ha : Grid.hasRow a.1 = true ∧ Grid.hasColumn a.2 = true)
    (hb : Grid.hasRow b.1 = true ∧ Grid.hasColumn b.2 = true) :
    (Reference.range (ofCorners a b sheet)).OnGrid := by
  refine ⟨ofCorners_upright a b sheet, ?_⟩
  intro d hd
  rcases hd with ⟨_, hrow, hcol⟩
  simp only [ofCorners] at hrow hcol
  rw [Grid.hasRow_iff, Grid.hasColumn_iff] at ha hb ⊢
  omega

theorem onGrid_of_readCells {left right : String} {sheet : Option String} {r : Range}
    (h : readCells left right sheet = .ok r) :
    (Reference.range r).OnGrid ∧ r.sheet = sheet := by
  simp only [readCells, except_bind_eq_ok] at h
  rcases h with ⟨a, ha, b, hb, h⟩
  cases h
  exact ⟨onGrid_ofCorners sheet (Cell.onGrid_of_readAddress ha)
    (Cell.onGrid_of_readAddress hb), rfl⟩

theorem onGrid_of_ofColumns {first last : String} {sheet : Option String} {r : Range}
    (h : ofColumns first last sheet = .ok r) :
    (Reference.range r).OnGrid ∧ r.sheet = sheet := by
  simp only [ofColumns] at h
  split at h
  · rename_i hgrid
    cases h
    rw [Bool.and_eq_true] at hgrid
    exact ⟨onGrid_ofCorners sheet ⟨rfl, hgrid.left⟩ ⟨rfl, hgrid.right⟩, rfl⟩
  · cases h

theorem onGrid_of_ofRows {first last : Int} {sheet : Option String} {r : Range}
    (h : ofRows first last sheet = .ok r) :
    (Reference.range r).OnGrid ∧ r.sheet = sheet := by
  simp only [ofRows] at h
  split at h
  · rename_i hgrid
    cases h
    rw [Bool.and_eq_true] at hgrid
    exact ⟨onGrid_ofCorners sheet ⟨hgrid.left, rfl⟩ ⟨hgrid.right, rfl⟩, rfl⟩
  · cases h

end Range

/-! ## Words of formulas -/

namespace Literal

theorem onGrid_of_reference {kind : ReferenceKind} {text : String}
    {sheet : Option String} {ref : Reference} (h : reference kind text sheet = .ok ref) :
    ref.OnGrid ∧ ref.sheet = sheet := by
  unfold reference labelledReference at h
  split at h
  · rcases except_map_eq_ok.mp h with ⟨found, hfound, heq⟩
    have hgrid := Cell.onGrid_of_readAddress hfound
    rw [← heq]
    exact ⟨Reference.onGrid_cell sheet hgrid.left hgrid.right, rfl⟩
  · split at h
    · cases h
    · rcases except_map_eq_ok.mp h with ⟨r, hr, heq⟩
      rw [← heq]
      unfold range at hr
      split at hr
      · exact Range.onGrid_of_readCells hr
      · exact Range.onGrid_of_ofColumns hr
      · simp only [except_bind_eq_ok] at hr
        rcases hr with ⟨first, _, last, _, hr⟩
        exact Range.onGrid_of_ofRows hr
      · cases hr

theorem proper_of_reference {kind : ReferenceKind} {text : String}
    {sheet : Option String} {ref : Reference} (h : reference kind text sheet = .ok ref)
    (hsheet : sheet ≠ some "") : ref.Proper := by
  have hgrid := onGrid_of_reference h
  refine ⟨hgrid.left, ?_⟩
  rw [hgrid.right]
  exact hsheet

end Literal

/-! ## Names -/

namespace Reference

theorem onGrid_of_readPair {text : String} {left right : List Char}
    {sheet : Option String} {r : Range} (h : readPair text left right sheet = .ok r) :
    (Reference.range r).OnGrid := by
  unfold readPair at h
  split at h
  · exact (Range.onGrid_of_readCells h).left
  · split at h
    · exact (Range.onGrid_of_ofColumns h).left
    · split at h
      · simp only [readRows, except_bind_eq_ok] at h
        rcases h with ⟨first, _, last, _, h⟩
        exact (Range.onGrid_of_ofRows h).left
      · cases h

theorem onGrid_of_read {text : String} {default : Option String} {ref : Reference}
    (h : read text default = .ok ref) : ref.OnGrid := by
  simp only [read, except_bind_eq_ok] at h
  rcases h with ⟨parts, _, h⟩
  split at h
  · rcases except_bind_eq_ok.mp h with ⟨found, hfound, h⟩
    have hgrid := Cell.onGrid_of_readAddress hfound
    cases h
    exact onGrid_cell _ hgrid.left hgrid.right
  · rcases except_map_eq_ok.mp h with ⟨r, hr, heq⟩
    rw [← heq]
    exact onGrid_of_readPair hr

end Reference

namespace DefinedNames

theorem onGrid_of_ofList {names : List (String × String)} {table : DefinedNames}
    (h : ofList names = .ok table) {entry : DefinedName} (hmem : entry ∈ table.entries) :
    entry.target.OnGrid := by
  rcases exists_read_of_mem h hmem with ⟨pair, _, hread⟩
  rcases parts_of_read hread with ⟨own, word, ref, _, href, heq⟩
  rw [heq]
  exact Reference.onGrid_of_read href

theorem exists_entry_of_find? {table : DefinedNames} {scope : Option String}
    {name : String} {ref : Reference} (h : table.find? scope name = some ref) :
    exists entry, entry ∈ table.entries ∧ entry.target = ref := by
  rcases Option.map_eq_some_iff.mp h with ⟨entry, hentry, htarget⟩
  exact ⟨entry, List.mem_of_find?_eq_some hentry, htarget⟩

theorem exists_entry_of_lookup {table : DefinedNames} {name sheet : String}
    {ref : Reference} (h : table.lookup name sheet = some ref) :
    exists entry, entry ∈ table.entries ∧ entry.target.withSheet sheet = ref := by
  rcases Option.map_eq_some_iff.mp h with ⟨target, htarget, heq⟩
  have hentry : exists entry, entry ∈ table.entries ∧ entry.target = target := by
    rcases Option.or_eq_some_iff.mp htarget with hown | hall
    · split at hown
      · cases hown
      · exact exists_entry_of_find? hown
    · exact exists_entry_of_find? hall.right
  rcases hentry with ⟨entry, hmem, hown⟩
  exact ⟨entry, hmem, by rw [hown]; exact heq⟩

end DefinedNames
end Precedents
