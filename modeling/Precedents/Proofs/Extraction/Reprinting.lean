import Precedents.Proofs.Extraction.Complaints
import Precedents.Proofs.Extraction.Origins
import Precedents.Proofs.Formula.Printed

/-!
# Printed references are extracted again

The references of an extraction lie on the grid of sheets with names, and none
of them covers another.  Summed up in a new formula they come out as they went
in, in the same order and without a diagnostic, unless one of their sheets is
printed as a plain name that is none.
-/

namespace Precedents
namespace Extractor

variable {x : Extractor} {position : Position} {formula : String}
variable {notices : List Notice} {v : Value} {refs : List Reference}

/-! ## The walk through a sum -/

theorem yields_prints {e : Expr} {ref : Reference} (h : e.Prints ref)
    (href : ref.Grounded) :
    (x.walk position formula e).Yields [] (.reference ref) := by
  cases h with
  | @mk _ name kind sheet body hsheet hname hbody =>
      have hmapM : (some sheet).mapM (fun word => Literal.sheet word.text) =
          .ok (some name) := by
        show (Literal.sheet sheet.text).map some = _
        rw [hname.sheet_eq]
        rfl
      have hliteral := hbody.reference_eq
      rw [hsheet] at hliteral
      rw [walk]
      simp only [referenceValue, hmapM, hliteral]
      have hmark : mark position ref = .reference ref :=
        congrArg Value.reference (placed_of_grounded href)
      rw [hmark]
      exact Traced.yields_pure.mpr ⟨rfl, rfl⟩

theorem yields_walkArgs_prints {es : List Expr}
    (h : List.Forall₂ Expr.Prints es refs)
    (hrefs : forall ref, ref ∈ refs -> ref.Grounded) :
    (walkArgs x position formula (es.map some)).Yields []
      (refs.map Value.reference) := by
  induction h with
  | nil => exact Traced.yields_pure.mpr ⟨rfl, rfl⟩
  | @cons e ref es refs he _ ih =>
      refine yields_walkArgs_some.mpr ⟨[], _, [], _, ?_, ?_, rfl, rfl⟩
      · exact yields_prints he (hrefs ref List.mem_cons_self)
      · exact ih fun r hr => hrefs r (List.mem_cons_of_mem ref hr)

theorem readNotices_grounded (hrefs : forall ref, ref ∈ refs -> ref.Grounded) :
    readNotices position (refs.map Value.reference) = refs.map Notice.read := by
  rw [readNotices, List.filterMap_map, ← List.filterMap_eq_map]
  apply List.filterMap_congr
  intro ref href
  have hplaced : placed position ref = ref := placed_of_grounded (hrefs ref href)
  show some (Notice.read (placed position ref)) = some (Notice.read ref)
  rw [hplaced]

theorem yields_call_sum (x : Extractor) (position : Position) (values : List Value) :
    exists unknown : List String,
      (x.call position (Literal.function Run.sumWord.text) values).Yields
        (readNotices position values ++ unknown.map .unknownFunction) .neutral := by
  have hname : Literal.function Run.sumWord.text = "SUM" := by decide +kernel
  have hnone : ReferenceFunction.ofName? (Text.upper "SUM") = none := by
    decide +kernel
  rw [hname]
  unfold call
  split
  · exact ⟨[], yields_plainCall.mpr ⟨List.append_nil _, rfl⟩⟩
  · refine ⟨[Text.upper "SUM"], ?_⟩
    simp only [referenceCall, hnone]
    refine Traced.yields_bind.mpr ⟨_, (), _, yields_readAll.mpr rfl, ?_, rfl⟩
    exact Traced.yields_bind.mpr ⟨_, (), [], Traced.yields_note.mpr rfl,
      Traced.yields_pure.mpr ⟨rfl, rfl⟩, rfl⟩

theorem yields_follow_sum (x : Extractor) (position : Position)
    (hrefs : forall ref, ref ∈ refs -> ref.Grounded ∧ ¬ ref.OnPlainLine) :
    exists unknown : List String,
      (x.follow position (Reference.sum refs)
        (Parse.ofText (Reference.sum refs))).Yields
          (refs.map .read ++ unknown.map .unknownFunction) .neutral := by
  have hgrounded : forall ref, ref ∈ refs -> ref.Grounded :=
    fun ref href => (hrefs ref href).left
  have hvalues : exists e, (Parse.ofText (Reference.sum refs)).tree = some e ∧
      exists args, x.use? position e = some (args,
        x.call position (Literal.function Run.sumWord.text)) ∧
        (walkArgs x position (Reference.sum refs) args).Yields []
          (refs.map Value.reference) := by
    by_cases hne : refs = []
    · rw [hne]
      exact ⟨_, Parse.ofText_sum_nil.left, _, rfl,
        Traced.yields_pure.mpr ⟨rfl, rfl⟩⟩
    · rcases Parse.ofText_sum hne hrefs with ⟨es, hes, htree, _⟩
      refine ⟨_, htree, es.map some, ?_, yields_walkArgs_prints hes hgrounded⟩
      cases hes with
      | nil => exact absurd rfl hne
      | cons he hes => rw [List.map_cons, use?]; simp
  rcases hvalues with ⟨e, htree, args, huse, hargs⟩
  rcases yields_call_sum x position (refs.map Value.reference) with ⟨unknown, hcall⟩
  rw [readNotices_grounded hgrounded] at hcall
  refine ⟨unknown, ?_⟩
  simp only [follow, followBy, htree]
  refine Traced.yields_bind.mpr ⟨_, .neutral, [], ?_,
    Traced.yields_pure.mpr ⟨rfl, rfl⟩, (List.append_nil _).symm⟩
  exact (yields_walk_of_use? huse).mpr ⟨[], _, _, hargs, hcall, rfl⟩

/-! ## The outcome for a sum -/

theorem sum_ne_empty (refs : List Reference) : Reference.sum refs ≠ "" := by
  intro h
  have hlist := congrArg String.toList h
  simp [Reference.sum, String.toList_append] at hlist

theorem extractAt_sum (x : Extractor) (position : Position)
    (hrefs : forall ref, ref ∈ refs -> ref.Grounded ∧ ¬ ref.OnPlainLine)
    (strict : Option Bool) :
    exists back, (x.extractAt (Reference.sum refs) position strict).outcome = .ok back ∧
      back.diagnostics = [] ∧ back.references = Cover.standing refs := by
  rcases yields_follow_sum x position hrefs with ⟨unknown, hyields⟩
  have hparse : (Parse.ofText (Reference.sum refs)).diagnostics = [] := by
    by_cases hne : refs = []
    · rw [hne]
      exact Parse.ofText_sum_nil.right
    · rcases Parse.ofText_sum hne hrefs with ⟨_, _, _, hnone⟩
      exact hnone
  have hunknown : (unknown.map Notice.unknownFunction).filterMap readReferences? = [] := by
    rw [List.filterMap_map]
    exact List.filterMap_eq_nil_iff.mpr fun _ _ => rfl
  have hread : (refs.map Notice.read).filterMap readReferences? = refs := by
    rw [List.filterMap_map]
    exact List.filterMap_some
  have hnone : (lenientOutcome (findingsOf (Reference.sum refs)
      (refs.map .read ++ unknown.map .unknownFunction)) .neutral).diagnostics = [] := by
    have hgrid : (refs.map Notice.read ++ unknown.map Notice.unknownFunction).filterMap
        Notice.offGrid? = [] := by
      rw [List.filterMap_append, List.filterMap_map, List.filterMap_map]
      simp [Notice.offGrid?, Function.comp_def]
    rw [lenientOutcome_diagnostics_eq_nil_iff, findingsOf,
      Findings.absorbAll_diagnostics, hgrid, List.append_nil]
    exact hparse
  refine ⟨_, ?_, hnone, ?_⟩
  · rw [extractAt_of_yields (sum_ne_empty refs) hyields strict]
    simp only [hnone, ne_eq, not_true_eq_false, and_false, if_false]
  · simp only [lenientOutcome, findingsOf, absorbAll_cover, List.filterMap_append,
      hread, hunknown, List.append_nil, Cover.foldl_add_entries]

theorem not_extractAt_sum (hrefs : forall ref, ref ∈ refs -> ref.Grounded)
    (hline : exists ref, ref ∈ refs ∧ ref.OnPlainLine) {strict : Option Bool}
    {back : Extraction}
    (h : (x.extractAt (Reference.sum refs) position strict).outcome = .ok back) :
    back.diagnostics ≠ [] := by
  rcases exists_yields_of_extractAt h with ⟨notices, v, hyields, hfound⟩
  intro hnil
  rw [hfound, lenientOutcome_diagnostics_eq_nil_iff,
    diagnostics_of_yields_follow hyields] at hnil
  exact Parse.diagnostics_sum_ne_nil hline hrefs (List.append_eq_nil_iff.mp hnil).left

end Extractor

namespace Settings

/--
The references of an extraction, printed and summed up at the same position,
come out again without a diagnostic and in their order, just when none of them
lies on a sheet whose name is a plain one with a line feed behind it.  All sheets
have names: that of the position, and those of the targets of the names.
-/
theorem extractAt_sum_iff {d : Datum} {settings : Settings}
    (hsettings : ofDatum d = .ok settings)
    (hnames : forall entry, entry ∈ settings.table.entries ->
      entry.target.sheet ≠ some "")
    (functions : List String) (registered : ValueFunctions) {formula : String}
    {position : Position} (hposition : position.sheet ≠ "") {strict : Option Bool}
    {found : Extraction}
    (hfound : (Extractor.extractAt
      { settings.extractor functions with registered := registered }
      formula position strict).outcome = .ok found) (again : Option Bool) :
    (exists back, (Extractor.extractAt
        { settings.extractor functions with registered := registered }
        (Reference.sum found.references) position again).outcome = .ok back ∧
      back.diagnostics = [] ∧ back.references = found.references) <->
    forall ref, ref ∈ found.references -> ¬ ref.OnPlainLine := by
  have hgrounded := Extractor.grounded_of_extractAt rfl
    (fun name sheet ref hsheet href => resolvesProper hsettings hnames hsheet href)
    hposition hfound
  constructor
  · intro h ref href hline
    rcases h with ⟨back, hback, hnone, _⟩
    exact Extractor.not_extractAt_sum hgrounded ⟨ref, href, hline⟩ hback hnone
  · intro h
    rcases Extractor.extractAt_sum
      { settings.extractor functions with registered := registered } position
      (fun ref href => ⟨hgrounded ref href, h ref href⟩) again with
      ⟨back, hback, hnone, hreferences⟩
    rcases Extractor.exists_standing_of_extractAt hfound with ⟨notices, _, _, hstanding⟩
    refine ⟨back, hback, hnone, ?_⟩
    rw [hreferences, hstanding, Cover.standing_standing]

def rateSettings : Settings where
  names := [("Rate", "'a b'!B:C")]
  table := ⟨[⟨none, "RATE", .range ⟨1, 2, 1048576, 3, some "a b"⟩⟩]⟩

def rateExtractor : Extractor :=
  { rateSettings.extractor [] with registered := {} }

theorem line_feed_not_reread :
    ofDatum (.map [(.text "names", .map [(.text "Rate", .text "'a b'!B:C")])]) =
        .ok rateSettings ∧
      exists found,
        (rateExtractor.extractAt "=Rate+'S\n'!A1" (.mk 9 1 "T") none).outcome =
            .ok found ∧
          Reference.sum found.references = "=SUM('a b'!B:C,S\n!A1)" ∧
          ¬ exists back,
            (rateExtractor.extractAt (Reference.sum found.references) (.mk 9 1 "T")
                none).outcome = .ok back ∧
              back.diagnostics = [] ∧ back.references = found.references := by
  have hsettings : ofDatum (.map [(.text "names", .map
      [(.text "Rate", .text "'a b'!B:C")])]) = .ok rateSettings := by rfl
  have hreferences : (rateExtractor.extractAt "=Rate+'S\n'!A1" (.mk 9 1 "T")
      none).outcome.toOption.map Extraction.references =
        some [.range ⟨1, 2, 1048576, 3, some "a b"⟩, .cell ⟨1, 1, some "S\n"⟩] := by
    decide +kernel
  cases hfound : (rateExtractor.extractAt "=Rate+'S\n'!A1" (.mk 9 1 "T") none).outcome with
  | error error =>
      rw [hfound] at hreferences
      cases hreferences
  | ok found =>
      rw [hfound] at hreferences
      have hlist : found.references = [.range ⟨1, 2, 1048576, 3, some "a b"⟩,
          .cell ⟨1, 1, some "S\n"⟩] := Option.some.inj hreferences
      refine ⟨hsettings, found, rfl, ?_, ?_⟩
      · rw [hlist]
        decide +kernel
      · intro hback
        have hnone := (extractAt_sum_iff hsettings (by decide) [] {} (by decide) hfound
          none).mp hback
        rw [hlist] at hnone
        exact hnone (.cell ⟨1, 1, some "S\n"⟩) (by simp) ⟨"S\n", rfl, by decide⟩

end Settings
end Precedents
