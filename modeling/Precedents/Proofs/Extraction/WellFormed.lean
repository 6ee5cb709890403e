import Mathlib.Data.List.Nodup
import Precedents.Proofs.Extraction.Origins
import Precedents.Proofs.Reference.Rereading

/-!
# References of an extraction are well formed

Literals and the targets of names lie on the grid, and are put on a sheet where
they have none; every part of such a reference is one itself.  So all references
of an extraction lie on the grid of some sheet.  None comes twice, and on a sheet
a reference is known by its text, so no text comes twice either.
-/

namespace Precedents

namespace Reference

/-- The reference lies on the grid of a sheet, whose name may be empty. -/
structure Located (ref : Reference) : Prop where
  onGrid : ref.OnGrid
  sheet_ne : ref.sheet ≠ none

/-- All of it lies on the grid, and the corners of a range are in order. -/
def InGrid : Reference -> Prop
  | .cell c => Grid.hasRow c.row = true ∧ Grid.hasColumn c.col = true
  | .range r => r.Corners

theorem OnGrid.inGrid {ref : Reference} (h : ref.OnGrid) : ref.InGrid := by
  cases ref with
  | cell c => exact h.inside c rfl
  | range r => exact h.corners

theorem OnGrid.located_withSheet {ref : Reference} (h : ref.OnGrid) (name : String) :
    (ref.withSheet (some name)).Located := by
  refine ⟨h.withSheet _, ?_⟩
  rcases exists_sheet_withSheet ref name with ⟨own, hown⟩
  rw [hown]
  simp

theorem Located.of_within {part whole : Reference} (h : whole.Located)
    (hpart : part.Within whole) : part.Located := by
  refine ⟨h.onGrid.of_within hpart, ?_⟩
  rw [hpart.sheet_eq]
  exact h.sheet_ne

theorem nodup_map_text {refs : List Reference} (hnodup : refs.Nodup)
    (hrefs : forall ref, ref ∈ refs -> ref.Located) : (refs.map text).Nodup := by
  apply List.Nodup.map_on _ hnodup
  intro ref href other hother htext
  have hfirst := hrefs ref href
  have hsecond := hrefs other hother
  exact eq_of_text_eq hfirst.onGrid hsecond.onGrid hfirst.sheet_ne hsecond.sheet_ne htext

end Reference

namespace Extractor

variable {x : Extractor} {position : Position} {formula : String}

def ResolvesOnGrid (x : Extractor) : Prop :=
  forall name sheet ref, x.resolve name sheet = .found ref -> ref.OnGrid

theorem inherits_located (hresolve : x.ResolvesOnGrid) (position : Position) :
    x.Inherits position Reference.Located where
  literal _ href := href.onGrid.located_withSheet position.sheet
  name word ref href := (hresolve word _ ref href).located_withSheet position.sheet
  part _ _ hwhole hpart := hwhole.of_within hpart
  upright _ href := href.onGrid.upright
  settled ref href := by
    rcases Option.ne_none_iff_exists'.mp href.sheet_ne with ⟨name, hname⟩
    exact Reference.withSheet_of_sheet_some hname position.sheet

theorem nodup_references {strict : Option Bool} {found : Extraction}
    (h : (x.extractAt formula position strict).outcome = .ok found) :
    found.references.Nodup := by
  rcases exists_standing_of_extractAt h with ⟨notices, _, _, hreferences⟩
  rw [hreferences]
  exact Cover.nodup_standing _

end Extractor

namespace Settings

theorem resolvesOnGrid {d : Datum} {settings : Settings} (h : ofDatum d = .ok settings)
    {name sheet : String} {ref : Reference}
    (hfound : settings.resolve name sheet = .found ref) : ref.OnGrid := by
  rcases exists_entry_of_resolve hfound with ⟨entry, hentry, htarget⟩
  rw [← htarget]
  exact (onGrid_of_ofDatum h entry hentry).withSheet sheet

/--
The references of an extraction have a sheet and lie on the grid, with corners in
order, and no two of them are printed alike.
-/
theorem extractAt_wellFormed {d : Datum} {settings : Settings}
    (hsettings : ofDatum d = .ok settings) (functions : List String)
    (registered : ValueFunctions) {formula : String} {position : Position}
    {strict : Option Bool} {found : Extraction}
    (hfound : (Extractor.extractAt
      { settings.extractor functions with registered := registered }
      formula position strict).outcome = .ok found) :
    (forall ref, ref ∈ found.references -> ref.sheet ≠ none ∧ ref.InGrid) ∧
      (found.references.map Reference.text).Nodup := by
  have hlocated : forall ref, ref ∈ found.references -> ref.Located :=
    Extractor.inherits_of_extractAt rfl
      (Extractor.inherits_located (fun name sheet ref href => resolvesOnGrid hsettings href)
        position) hfound
  constructor
  · intro ref href
    exact ⟨(hlocated ref href).sheet_ne, (hlocated ref href).onGrid.inGrid⟩
  · exact Reference.nodup_map_text (Extractor.nodup_references hfound) hlocated

def blockSettings : Settings where
  names := [("Rates", "C9:B2")]
  table := ⟨[⟨none, "RATES", .range ⟨2, 2, 9, 3, none⟩⟩]⟩

def blockExtractor : Extractor :=
  { blockSettings.extractor [] with registered := {} }

theorem block_wellFormed :
    ofDatum (.map [(.text "names", .map [(.text "Rates", .text "C9:B2")])]) =
        .ok blockSettings ∧
      exists found,
        (blockExtractor.extractAt "=Rates+INDEX(D4:$D$1,2)+T!B:A" (.mk 9 1 "") none).outcome =
            .ok found ∧
          found.references.map Reference.text = ["B2:C9", "D1:D4", "T!A:B"] ∧
          (forall ref, ref ∈ found.references -> ref.sheet ≠ none ∧ ref.InGrid) ∧
          (found.references.map Reference.text).Nodup := by
  have hsettings : ofDatum (.map [(.text "names", .map
      [(.text "Rates", .text "C9:B2")])]) = .ok blockSettings := by rfl
  have htexts : (blockExtractor.extractAt "=Rates+INDEX(D4:$D$1,2)+T!B:A" (.mk 9 1 "")
      none).outcome.toOption.map (fun found => found.references.map Reference.text) =
        some ["B2:C9", "D1:D4", "T!A:B"] := by
    decide +kernel
  cases hfound : (blockExtractor.extractAt "=Rates+INDEX(D4:$D$1,2)+T!B:A" (.mk 9 1 "")
      none).outcome with
  | error error =>
      rw [hfound] at htexts
      cases htexts
  | ok found =>
      rw [hfound] at htexts
      exact ⟨hsettings, found, rfl, Option.some.inj htexts,
        extractAt_wellFormed hsettings [] {} hfound⟩

end Settings
end Precedents
