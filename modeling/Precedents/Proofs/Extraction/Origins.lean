import Precedents.Proofs.Extraction.Coverage
import Precedents.Proofs.Formula.Words
import Precedents.Proofs.Reference.Grounding
import Precedents.Settings.Basic

/-!
# Where references come from

A formula brings in references by its literals and its names, and a reference
that a call gives lies in one of its arguments.  So whatever is true of literals
and of what names stand for, and of every part of a reference that has it, is
true of all references that are read.  In this way the references of an
extraction lie on the grid, and on sheets with names if the formula stands on
such a sheet and no name leads away from them.
-/

namespace Precedents
namespace Extractor

variable {x : Extractor} {position : Position} {formula : String}
variable {notices : List Notice} {v : Value} {P : Reference -> Prop}

def ReadsOnly (P : Reference -> Prop) (notices : List Notice) : Prop :=
  forall ref, Notice.read ref ∈ notices -> P ref

def Bears (P : Reference -> Prop) (v : Value) : Prop :=
  forall ref, v = .reference ref -> P ref

/--
What a formula brings in satisfies `P` once it has been placed, and so does every
part of what satisfies it.
-/
structure Inherits (x : Extractor) (position : Position) (P : Reference -> Prop) :
    Prop where
  literal : forall ref, ref.Proper -> P (placed position ref)
  name : forall word ref, x.resolve word position.sheet = .found ref ->
    P (placed position ref)
  part : forall part whole, P whole -> part.Within whole -> P part
  upright : forall ref, P ref -> ref.Upright
  settled : forall ref, P ref -> placed position ref = ref

theorem readsOnly_nil : ReadsOnly P [] := by
  intro ref href
  cases href

theorem readsOnly_append {first second : List Notice}
    (hfirst : ReadsOnly P first) (hsecond : ReadsOnly P second) :
    ReadsOnly P (first ++ second) := by
  intro ref href
  rcases List.mem_append.mp href with href | href
  · exact hfirst ref href
  · exact hsecond ref href

theorem readsOnly_singleton {ref : Reference} (h : P ref) :
    ReadsOnly P [.read ref] := by
  intro own hown
  injection List.mem_singleton.mp hown with hown
  rw [hown]
  exact h

theorem bears_reference {ref : Reference} (h : P ref) :
    Bears P (.reference ref) := by
  intro own hown
  injection hown with hown
  rw [← hown]
  exact h

theorem bears_error (e : ErrorValue) : Bears P (.error e) := by
  intro ref href
  cases href

/-! ## Leaves -/

theorem sheet_ne_empty_of_mapM {sheet : Option Lexeme} {name : Option String}
    (hshaped : forall word, sheet = some word -> Token.Shaped ⟨word, .sheet⟩)
    (h : sheet.mapM (fun word => Literal.sheet word.text) = .ok name) :
    name ≠ some "" := by
  cases sheet with
  | none =>
      cases h
      simp
  | some word =>
      rcases hshaped word rfl with ⟨rest, hrest⟩
      rcases except_bind_eq_ok.mp h with ⟨own, hown, h⟩
      cases h
      have hword : Literal.sheet (String.ofList word.text.toList) = .ok own := by
        rw [String.ofList_toList]
        exact hown
      have hne := sheet_ne_empty_of_shape hrest hword
      simpa using hne

theorem inherits_leaf (hP : x.Inherits position P) {e : Expr}
    (hshaped : forall t, t ∈ e.ownTokens -> t.Shaped)
    (hleaf : x.use? position e = none)
    (h : (x.walk position formula e).Yields notices v) :
    ReadsOnly P notices ∧ Bears P v := by
  rcases leaf_cases hleaf with hconstant | ⟨kind, sheet, body, he⟩ | ⟨word, he⟩
  · rcases yields_constant hconstant h with ⟨hnotices, _, hv⟩
    rw [hnotices]
    exact ⟨readsOnly_nil, fun ref href => absurd href (hv ref)⟩
  · rw [he, walk] at h
    rcases yields_referenceValue h with ⟨name, hname, hmark | herror⟩
    · rcases hmark with ⟨ref, href, hnotices, hv⟩
      have hnamed : name ≠ some "" := by
        apply sheet_ne_empty_of_mapM _ hname
        intro word hword
        apply hshaped
        rw [he, hword]
        exact List.mem_cons_self
      rw [hnotices, hv]
      exact ⟨readsOnly_nil, bears_reference
        (hP.literal ref (Literal.proper_of_reference href hnamed))⟩
    · rcases herror with ⟨_, d, _, hnotices, hv⟩
      rw [hnotices, hv]
      refine ⟨?_, bears_error _⟩
      intro ref href
      cases List.mem_singleton.mp href
  · rw [he, walk] at h
    rcases yields_nameValue h with ⟨_, hnotices, hv⟩ | ⟨ref, href, hnotices, hv⟩
    · rw [hnotices, hv]
      refine ⟨?_, bears_error _⟩
      intro ref href
      cases List.mem_singleton.mp href
    · have hfound := hP.name _ _ href
      rw [hnotices, hv]
      exact ⟨readsOnly_singleton hfound, bears_reference hfound⟩

/-! ## Uses -/

theorem readsOnly_readNotices (hP : x.Inherits position P) {values : List Value}
    (h : forall v, v ∈ values -> Bears P v) :
    ReadsOnly P (readNotices position values) := by
  intro ref href
  rcases List.mem_filterMap.mp href with ⟨v, hv, heq⟩
  cases v with
  | reference own =>
      have hown := h _ hv own rfl
      injection heq with heq
      injection heq with heq
      rw [← heq, hP.settled own hown]
      exact hown
  | _ => cases heq

theorem inherits_of_use? (hx : x.handler = ReferenceFunction.handler)
    (hP : x.Inherits position P) {e : Expr}
    {args : List (Option Expr)} {use : List Value -> Traced Value}
    (huse : x.use? position e = some (args, use)) {values : List Value}
    (harguments : forall v, v ∈ values -> v.isArgument = true)
    (hvalues : forall v, v ∈ values -> Bears P v)
    (h : (use values).Yields notices v) : ReadsOnly P notices ∧ Bears P v := by
  constructor
  · rw [notices_of_use? huse h]
    apply readsOnly_append (readsOnly_readNotices hP hvalues)
    intro ref href
    rcases List.mem_map.mp href with ⟨_, _, heq⟩
    cases heq
  · intro ref href
    have hconsumes := consumes_of_use? hx huse harguments h
    rcases hconsumes.drawn.within ref href with ⟨whole, hwhole, hwithin⟩
    have hown := hvalues _ hwhole whole rfl
    exact hP.part ref whole hown (hwithin (hP.upright whole hown))

theorem inherits_walkArgs {args : List (Option Expr)}
    (hargs : forall c, c ∈ Expr.given args -> forall notices v,
      (x.walk position formula c).Yields notices v ->
        ReadsOnly P notices ∧ Bears P v)
    {values : List Value}
    (h : (walkArgs x position formula args).Yields notices values) :
    ReadsOnly P notices ∧ forall v, v ∈ values -> Bears P v := by
  induction args generalizing notices values with
  | nil =>
      rcases Traced.yields_pure.mp h with ⟨hnotices, hvalues⟩
      rw [hnotices, hvalues]
      exact ⟨readsOnly_nil, by simp⟩
  | cons arg rest ih =>
      cases arg with
      | none =>
          rcases yields_walkArgs_none.mp h with ⟨others, hvalues, hrest⟩
          have hothers := ih hargs hrest
          rw [hvalues]
          refine ⟨hothers.left, ?_⟩
          intro v hv
          rcases List.mem_cons.mp hv with hv | hv
          · rw [hv]
            intro ref href
            cases href
          · exact hothers.right v hv
      | some e =>
          rcases yields_walkArgs_some.mp h with
            ⟨first, w, second, others, hfirst, hsecond, hnotices, hvalues⟩
          have hhead := hargs e List.mem_cons_self first w hfirst
          have hothers := ih (fun c hc => hargs c (List.mem_cons_of_mem _ hc)) hsecond
          rw [hnotices, hvalues]
          refine ⟨readsOnly_append hhead.left hothers.left, ?_⟩
          intro v hv
          rcases List.mem_cons.mp hv with hv | hv
          · rw [hv]
            exact hhead.right
          · exact hothers.right v hv

/-! ## Whole formulas -/

theorem inherits_walk (hx : x.handler = ReferenceFunction.handler)
    (hP : x.Inherits position P) (e : Expr) (hshaped : e.Words Token.Shaped)
    (h : (x.walk position formula e).Yields notices v) :
    ReadsOnly P notices ∧ Bears P v := by
  induction e using Expr.children_induction generalizing notices v with
  | step e ih =>
      rcases Expr.words_iff.mp hshaped with ⟨hown, hchildren⟩
      cases huse : x.use? position e with
      | none => exact inherits_leaf hP hown huse h
      | some found =>
          rcases found with ⟨args, use⟩
          rcases (yields_walk_of_use? huse).mp h with
            ⟨first, values, second, hargs, hvalue, hnotices⟩
          have harguments : forall w, w ∈ values -> w.isArgument = true := by
            apply isArgument_of_yields_walkArgs _ hargs
            intro c _ own w hyields
            exact isFormulaValue_of_walk hx c hyields
          have hvalues := inherits_walkArgs (fun c hc notices v hyields => by
            rw [given_of_use? huse] at hc
            exact ih c hc (hchildren c hc) hyields) hargs
          have huses := inherits_of_use? hx hP huse harguments hvalues.right hvalue
          rw [hnotices]
          exact ⟨readsOnly_append hvalues.left huses.left, huses.right⟩

theorem readsOnly_finish (hP : x.Inherits position P) {w : Value} (hv : Bears P v)
    (h : (finish position v).Yields notices w) : ReadsOnly P notices := by
  rcases notices_of_yields_finish h with hnotices | ⟨ref, hnotices, hvalue⟩
  · rw [hnotices]
    exact readsOnly_nil
  · have href : P ref := by
      rcases hvalue with hvalue | ⟨r, hvalue, heq⟩
      · exact hv ref hvalue
      · have hwhole := hv (.range r) hvalue
        rw [heq]
        exact hP.part _ _ hwhole (Reference.topLeft_within (hP.upright _ hwhole))
    rw [hnotices, hP.settled ref href]
    exact readsOnly_singleton href

/-! ## What is salvaged -/

structure ProperHaul (haul : Salvage.Haul) : Prop where
  sheet : haul.sheet ≠ some ""
  references : forall ref, ref ∈ haul.references -> ref.Proper

theorem properHaul_add {haul : Salvage.Haul} (h : ProperHaul haul)
    (kind : ReferenceKind) (text : String) : ProperHaul (haul.add kind text) := by
  unfold Salvage.Haul.add
  split
  · rename_i ref href
    refine ⟨by simp, ?_⟩
    intro own hown
    rcases List.mem_append.mp hown with hown | hown
    · exact h.references own hown
    · rw [List.mem_singleton.mp hown]
      exact Literal.proper_of_reference href h.sheet
  · exact ⟨by simp, h.references⟩

theorem properHaul_take {haul next : Salvage.Haul} (h : ProperHaul haul)
    {terminal : Terminal} {cs word : List Char}
    (hword : terminal.found cs = some word)
    (hnext : haul.take terminal (String.ofList word) = .ok next) : ProperHaul next := by
  unfold Salvage.Haul.take at hnext
  split at hnext
  · rcases except_map_eq_ok.mp hnext with ⟨name, hname, heq⟩
    rcases Terminal.found_eq_some.mp hword with ⟨rest, hcs, hrest⟩
    rw [hcs] at hrest
    rw [← heq]
    exact ⟨by simpa using sheet_ne_empty_of_shape hrest hname, h.references⟩
  · cases hnext
    exact properHaul_add h _ _
  · cases hnext
    exact ⟨by simp, h.references⟩

theorem properHaul_go {haul last : Salvage.Haul} (h : ProperHaul haul)
    {budget skip : Nat} {cs : List Char}
    (hgo : Salvage.go haul budget skip cs = .ok last) : ProperHaul last := by
  fun_induction Salvage.go haul budget skip cs with
  | case1 =>
      cases hgo
      exact h
  | case2 =>
      cases hgo
      exact h
  | case3 haul c rest budget skip ih => exact ih h hgo
  | case4 =>
      cases hgo
      exact h
  | case5 haul c rest budget terminal word hfirst next hnext ih =>
      exact ih (properHaul_take h (Terminal.found_of_first? hfirst).right hnext) hgo
  | case6 => cases hgo

theorem readsOnly_salvage (hP : x.Inherits position P) {diagnostics : List Diagnostic}
    (h : (salvage position formula diagnostics).Yields notices v) :
    ReadsOnly P notices := by
  rcases notices_of_yields_salvage h with ⟨refs, hrefs, hnotices⟩
  rcases except_map_eq_ok.mp hrefs with ⟨last, hlast, heq⟩
  have hnothing : ProperHaul ⟨none, []⟩ := ⟨by simp, by simp⟩
  have hproper := properHaul_go hnothing hlast
  rw [hnotices]
  intro own hown
  rcases List.mem_map.mp hown with ⟨ref, href, hplaced⟩
  injection hplaced with hplaced
  rw [← hplaced]
  rw [← heq] at href
  exact hP.literal ref (hproper.references ref href)

/-! ## The references of an extraction -/

theorem readsOnly_follow (hx : x.handler = ReferenceFunction.handler)
    (hP : x.Inherits position P)
    (h : (x.follow position formula (Parse.ofText formula)).Yields notices v) :
    ReadsOnly P notices := by
  unfold follow followBy at h
  split at h
  · exact readsOnly_salvage hP h
  · rename_i e htree
    rcases Traced.yields_bind.mp h with ⟨first, w, second, hwalk, hfinish, hnotices⟩
    have hinherits := inherits_walk hx hP e (Parse.words_of_tree htree) hwalk
    rw [hnotices]
    exact readsOnly_append hinherits.left (readsOnly_finish hP hinherits.right hfinish)

/-- The references of an extraction are what stands of those that have been read. -/
theorem exists_standing_of_extractAt {strict : Option Bool} {found : Extraction}
    (h : (x.extractAt formula position strict).outcome = .ok found) :
    exists notices v,
      (x.follow position formula (Parse.ofText formula)).Yields notices v ∧
      found.references = Cover.standing (notices.filterMap readReferences?) := by
  rcases exists_follow_of_extractAt h with ⟨notices, v, hyields, hreferences⟩
  rw [absorbAll_cover, Cover.foldl_add_entries] at hreferences
  exact ⟨notices, v, hyields, hreferences⟩

theorem inherits_of_extractAt (hx : x.handler = ReferenceFunction.handler)
    (hP : x.Inherits position P) {strict : Option Bool} {found : Extraction}
    (h : (x.extractAt formula position strict).outcome = .ok found) :
    forall ref, ref ∈ found.references -> P ref := by
  rcases exists_standing_of_extractAt h with ⟨notices, v, hyields, hreferences⟩
  intro ref href
  rw [hreferences, Cover.mem_standing_iff] at href
  rcases List.mem_filterMap.mp href.left with ⟨notice, hnotice, heq⟩
  apply readsOnly_follow hx hP hyields
  cases notice with
  | read own =>
      injection heq with heq
      rwa [heq] at hnotice
  | _ => cases heq

/-! ## Sheets with names -/

def ResolvesProper (x : Extractor) : Prop :=
  forall name sheet ref, sheet ≠ "" ->
    x.resolve name sheet = .found ref -> ref.Proper

theorem placed_of_grounded {ref : Reference} (h : ref.Grounded) :
    placed position ref = ref := by
  rcases h.named with ⟨name, hname, _⟩
  exact Reference.withSheet_of_sheet_some hname position.sheet

theorem inherits_grounded (hresolve : x.ResolvesProper) (hsheet : position.sheet ≠ "") :
    x.Inherits position Reference.Grounded where
  literal _ href := href.withSheet hsheet
  name word ref href := (hresolve word _ ref hsheet href).withSheet hsheet
  part _ _ hwhole hpart := hwhole.of_within hpart
  upright _ href := href.onGrid.upright
  settled _ href := placed_of_grounded href

/-- All references of an extraction lie on the grid of a sheet with a name. -/
theorem grounded_of_extractAt (hx : x.handler = ReferenceFunction.handler)
    (hresolve : x.ResolvesProper) (hsheet : position.sheet ≠ "")
    {strict : Option Bool} {found : Extraction}
    (h : (x.extractAt formula position strict).outcome = .ok found) :
    forall ref, ref ∈ found.references -> ref.Grounded :=
  inherits_of_extractAt hx (inherits_grounded hresolve hsheet) h

end Extractor

/-! ## Settings -/

theorem Settings.onGrid_of_ofDatum {d : Datum} {settings : Settings}
    (h : ofDatum d = .ok settings) :
    forall entry, entry ∈ settings.table.entries -> entry.target.OnGrid := by
  simp only [ofDatum, except_bind_eq_ok] at h
  rcases h with ⟨names, _, functions, _, strict, _, log, _, table, htable, h⟩
  injection h with h
  rw [← h]
  exact fun entry => DefinedNames.onGrid_of_ofList htable

theorem Settings.exists_entry_of_resolve {settings : Settings} {name sheet : String}
    {ref : Reference} (h : settings.resolve name sheet = .found ref) :
    exists entry, entry ∈ settings.table.entries ∧
      entry.target.withSheet (some sheet) = ref := by
  unfold resolve at h
  split at h
  · cases h
  · rename_i own hlookup
    injection h with h
    rw [← h]
    exact DefinedNames.exists_entry_of_lookup hlookup

theorem Settings.resolvesProper {d : Datum} {settings : Settings}
    (h : ofDatum d = .ok settings)
    (hnames : forall entry, entry ∈ settings.table.entries ->
      entry.target.sheet ≠ some "")
    {name sheet : String} {ref : Reference} (hsheet : sheet ≠ "")
    (hfound : settings.resolve name sheet = .found ref) : ref.Proper := by
  rcases exists_entry_of_resolve hfound with ⟨entry, hentry, htarget⟩
  have hproper : entry.target.Proper :=
    ⟨onGrid_of_ofDatum h entry hentry, hnames entry hentry⟩
  rw [← htarget]
  exact (hproper.withSheet hsheet).proper

end Precedents
