import Mathlib.Control.Basic
import Precedents.Proofs.Cover.ClosedForm
import Precedents.Proofs.Extraction.Values

/-!
# Exact coverage

The references of an extraction cover the cells that the formula names and no
others.  A reference literal counts where an operator or a call uses it, a name
counts wherever it stands, and a literal that is the whole formula counts with
the one cell at which it is read.

The proof follows the tree.  What has been read on the way to the value of a
part covers the cells below that part, and a reference that comes out as the
value is the part itself, when it is a literal, or lies in what is covered.
-/

namespace Precedents

/-! ## The cells that a formula names -/

namespace Expr

/-- The reference that a formula is, if it is a literal on the grid. -/
def literal? : Expr -> Option Reference
  | .reference kind sheet body =>
      match sheet.mapM fun word => Literal.sheet word.text with
      | .ok own => (Literal.reference kind body.text own).toOption
      | .error _ => none
  | _ => none

end Expr

namespace Reference

/-- The cell at which a formula is read that is a reference and nothing else. -/
def anchor? : Reference -> Option Cell
  | .cell c => some c
  | .range r => if r.isSingleColumn then some r.topLeft else none

end Reference

namespace Extractor

/-- The cell lies in what a name of the formula stands for. -/
def NamesCell (x : Extractor) (position : Position) (e : Expr)
    (d : Cell) : Prop :=
  exists word ref, Expr.name word ∈ e.parts ∧
    x.resolve word.text position.sheet = .found ref ∧
    (placed position ref).Holds d

/-- The cell lies in a literal that is an operand or an argument. -/
def UsesCell (position : Position) (e : Expr) (d : Cell) : Prop :=
  exists part child ref, part ∈ e.parts ∧ child ∈ part.children ∧
    child.literal? = some ref ∧ (placed position ref).Holds d

/-- The formula is a literal, and is read at the cell. -/
def IsReadAt (position : Position) (e : Expr) (d : Cell) : Prop :=
  exists ref, e.literal? = some ref ∧ (placed position ref).anchor? = some d

def DependsOn (x : Extractor) (position : Position) (e : Expr)
    (d : Cell) : Prop :=
  UsesCell position e d ∨ NamesCell x position e d ∨ IsReadAt position e d

/-- The cell lies below a part, whatever the part is used for. -/
def Below (x : Extractor) (position : Position) (e : Expr) (d : Cell) : Prop :=
  UsesCell position e d ∨ NamesCell x position e d

def ReadFrom (x : Extractor) (position : Position) (e : Expr)
    (d : Cell) : Prop :=
  Below x position e d ∨
    exists ref, e.literal? = some ref ∧ (placed position ref).Holds d

def ResolvesUpright (x : Extractor) : Prop :=
  forall name sheet ref, x.resolve name sheet = .found ref -> ref.Upright

theorem below_iff {x : Extractor} {position : Position} {e : Expr} {d : Cell} :
    Below x position e d <->
      (exists word ref, e = .name word ∧
        x.resolve word.text position.sheet = .found ref ∧
        (placed position ref).Holds d) ∨
      exists c, c ∈ e.children ∧ ReadFrom x position c d := by
  constructor
  · intro h
    rcases h with huses | hnames
    · rcases huses with ⟨part, child, ref, hpart, hchild, hliteral, hholds⟩
      rcases Expr.mem_parts.mp hpart with hself | hinner
      · rw [hself] at hchild
        exact Or.inr ⟨child, hchild, Or.inr ⟨ref, hliteral, hholds⟩⟩
      · rcases hinner with ⟨c, hc, hpart⟩
        exact Or.inr ⟨c, hc, Or.inl (Or.inl
          ⟨part, child, ref, hpart, hchild, hliteral, hholds⟩)⟩
    · rcases hnames with ⟨word, ref, hpart, hresolve, hholds⟩
      rcases Expr.mem_parts.mp hpart with hself | hinner
      · exact Or.inl ⟨word, ref, hself.symm, hresolve, hholds⟩
      · rcases hinner with ⟨c, hc, hpart⟩
        exact Or.inr ⟨c, hc, Or.inl (Or.inr
          ⟨word, ref, hpart, hresolve, hholds⟩)⟩
  · intro h
    rcases h with hname | hchild
    · rcases hname with ⟨word, ref, heq, hresolve, hholds⟩
      refine Or.inr ⟨word, ref, ?_, hresolve, hholds⟩
      rw [heq]
      exact Expr.self_mem_parts _
    · rcases hchild with ⟨c, hc, hread⟩
      rcases hread with hbelow | hliteral
      · rcases hbelow with huses | hnames
        · rcases huses with ⟨part, child, ref, hpart, hrest⟩
          exact Or.inl ⟨part, child, ref,
            Expr.mem_parts.mpr (Or.inr ⟨c, hc, hpart⟩), hrest⟩
        · rcases hnames with ⟨word, ref, hpart, hrest⟩
          exact Or.inr ⟨word, ref,
            Expr.mem_parts.mpr (Or.inr ⟨c, hc, hpart⟩), hrest⟩
      · rcases hliteral with ⟨ref, hliteral, hholds⟩
        exact Or.inl ⟨e, c, ref, Expr.self_mem_parts e, hc, hliteral, hholds⟩

theorem below_of_childless {x : Extractor} {position : Position} {e : Expr}
    (hchildren : e.children = []) (hname : forall word, e ≠ .name word)
    (d : Cell) : ¬ Below x position e d := by
  rw [below_iff]
  intro h
  rcases h with hself | hchild
  · rcases hself with ⟨word, _, heq, _⟩
    exact hname word heq
  · rcases hchild with ⟨c, hc, _⟩
    rw [hchildren] at hc
    cases hc

/-! ## The value of a part -/

theorem upright_of_literalRange {label : String} {kind : Option ReferenceKind}
    {left right : List Char} {sheet : Option String} {r : Range}
    (h : Literal.range label kind left right sheet = .ok r) :
    (Reference.range r).Upright := by
  unfold Literal.range at h
  split at h
  · simp only [Range.readCells, except_bind_eq_ok] at h
    rcases h with ⟨a, _, b, _, h⟩
    cases h
    exact Range.ofCorners_upright a b sheet
  · simp only [Range.ofColumns] at h
    split at h
    · cases h
      exact Range.ofCorners_upright _ _ sheet
    · cases h
  · simp only [Range.ofRows, except_bind_eq_ok] at h
    rcases h with ⟨first, _, last, _, h⟩
    split at h
    · cases h
      exact Range.ofCorners_upright _ _ sheet
    · cases h
  · cases h

theorem upright_of_literal {kind : ReferenceKind} {text : String}
    {sheet : Option String} {ref : Reference}
    (h : Literal.reference kind text sheet = .ok ref) : ref.Upright := by
  unfold Literal.reference Literal.labelledReference at h
  split at h
  · rcases except_map_eq_ok.mp h with ⟨found, _, heq⟩
    rw [← heq]
    trivial
  · split at h
    · cases h
    · rcases except_map_eq_ok.mp h with ⟨r, hr, heq⟩
      rw [← heq]
      exact upright_of_literalRange hr

/--
What is known of the value of a part: a literal is the reference that it says,
and any other reference lies in what is below the part.
-/
structure Stands (x : Extractor) (position : Position) (e : Expr)
    (v : Value) : Prop where
  literal : forall own, e.literal? = some own ->
    v = .reference (placed position own)
  upright : forall ref, v = .reference ref -> ref.Upright
  settled : forall ref, v = .reference ref -> placed position ref = ref
  covered : forall ref, v = .reference ref -> e.literal? = none ->
    forall d, ref.Holds d -> Below x position e d

structure Covers (x : Extractor) (position : Position) (e : Expr)
    (notices : List Notice) (v : Value) : Prop where
  reads : forall d, Reads notices d <-> Below x position e d
  stands : Stands x position e v

theorem Covers.readFrom_iff {x : Extractor} {position : Position} {e : Expr}
    {notices : List Notice} {v : Value} (h : Covers x position e notices v)
    (d : Cell) :
    (Reads notices d ∨ exists ref, v = .reference ref ∧
      (placed position ref).Holds d) <-> ReadFrom x position e d := by
  constructor
  · intro hread
    rcases hread with hread | href
    · exact Or.inl ((h.reads d).mp hread)
    · rcases href with ⟨ref, hv, hholds⟩
      rw [h.stands.settled ref hv] at hholds
      cases hliteral : e.literal? with
      | none => exact Or.inl (h.stands.covered ref hv hliteral d hholds)
      | some own =>
          have hsame := hv.symm.trans (h.stands.literal own hliteral)
          injection hsame with hsame
          rw [hsame] at hholds
          exact Or.inr ⟨own, hliteral, hholds⟩
  · intro hfrom
    rcases hfrom with hbelow | hliteral
    · exact Or.inl ((h.reads d).mpr hbelow)
    · rcases hliteral with ⟨own, hliteral, hholds⟩
      refine Or.inr ⟨placed position own, h.stands.literal own hliteral, ?_⟩
      rw [placed_placed]
      exact hholds

/-! ## Leaves -/

theorem stands_of_no_reference {x : Extractor} {position : Position}
    {e : Expr} {v : Value} (hliteral : e.literal? = none)
    (hv : forall ref, v ≠ .reference ref) : Stands x position e v := by
  constructor
  · intro own h
    rw [hliteral] at h
    cases h
  · intro ref h
    exact absurd h (hv ref)
  · intro ref h
    exact absurd h (hv ref)
  · intro ref h
    exact absurd h (hv ref)

theorem covers_of_plain_leaf {x : Extractor} {position : Position} {e : Expr}
    (hchildren : e.children = []) (hname : forall word, e ≠ .name word)
    (hliteral : e.literal? = none) {notices : List Notice} {v : Value}
    (hnotices : forall d, ¬ Reads notices d)
    (hv : forall ref, v ≠ .reference ref) : Covers x position e notices v := by
  constructor
  · intro d
    constructor
    · intro h
      exact absurd h (hnotices d)
    · intro h
      exact absurd h (below_of_childless hchildren hname d)
  · exact stands_of_no_reference hliteral hv

theorem covers_constant {x : Extractor} {position : Position}
    {formula : String} {e : Expr} (he : IsConstant e)
    {notices : List Notice} {v : Value}
    (h : (x.walk position formula e).Yields notices v) :
    Covers x position e notices v := by
  rcases yields_constant he h with ⟨hnotices, _, hv⟩
  rw [hnotices]
  cases he <;> exact covers_of_plain_leaf rfl (by simp) rfl not_reads_nil hv

theorem covers_reference {x : Extractor} {position : Position}
    {formula : String} {kind : ReferenceKind} {sheet : Option Lexeme}
    {body : Lexeme} {notices : List Notice} {v : Value}
    (h : (referenceValue position formula kind sheet body).Yields notices v) :
    Covers x position (.reference kind sheet body) notices v := by
  rcases yields_referenceValue h with ⟨name, hname, hmark | herror⟩
  · rcases hmark with ⟨ref, href, hnotices, hv⟩
    have hliteral :
        (Expr.reference kind sheet body).literal? = some ref := by
      simp [Expr.literal?, hname, href, Except.toOption]
    have hmarked : v = .reference (placed position ref) := hv
    constructor
    · intro d
      rw [hnotices]
      constructor
      · intro hread
        exact absurd hread (not_reads_nil d)
      · intro hbelow
        refine absurd hbelow (below_of_childless rfl ?_ d)
        intro word hword
        cases hword
    · constructor
      · intro own hown
        rw [hliteral] at hown
        cases hown
        exact hmarked
      · intro other hother
        rw [hmarked] at hother
        cases hother
        exact placed_upright position (upright_of_literal href)
      · intro other hother
        rw [hmarked] at hother
        cases hother
        exact placed_placed position ref
      · intro other _ hnone
        rw [hliteral] at hnone
        cases hnone
  · rcases herror with ⟨error, d, href, hnotices, hv⟩
    apply covers_of_plain_leaf rfl
    · intro word hword
      cases hword
    · simp [Expr.literal?, hname, href, Except.toOption]
    · intro d
      rw [hnotices]
      simp [Reads]
    · intro ref
      rw [hv]
      simp

theorem covers_name {x : Extractor} {position : Position} {word : Lexeme}
    (hup : x.ResolvesUpright) {notices : List Notice} {v : Value}
    (h : (x.nameValue position word.text).Yields notices v) :
    Covers x position (.name word) notices v := by
  have hbelow : forall d, Below x position (.name word) d <->
      exists ref, x.resolve word.text position.sheet = .found ref ∧
        (placed position ref).Holds d := by
    intro d
    rw [below_iff]
    simp [Expr.children]
  rcases yields_nameValue h with hunknown | hfound
  · rcases hunknown with ⟨hresolve, hnotices, hv⟩
    constructor
    · intro d
      rw [hbelow, hnotices]
      simp [Reads, hresolve]
    · apply stands_of_no_reference rfl
      intro ref
      rw [hv]
      simp
  · rcases hfound with ⟨ref, hresolve, hnotices, hv⟩
    have hmarked : v = .reference (placed position ref) := hv
    constructor
    · intro d
      rw [hbelow, hnotices, reads_read, hresolve]
      simp
    · constructor
      · intro own hown
        cases hown
      · intro other hother
        rw [hmarked] at hother
        cases hother
        exact placed_upright position (hup _ _ _ hresolve)
      · intro other hother
        rw [hmarked] at hother
        cases hother
        exact placed_placed position ref
      · intro other hother _ d hd
        rw [hmarked] at hother
        cases hother
        exact (hbelow d).mpr ⟨ref, hresolve, hd⟩

theorem covers_leaf {x : Extractor} {position : Position} {formula : String}
    (hup : x.ResolvesUpright) {e : Expr} (huse : x.use? position e = none)
    {notices : List Notice} {v : Value}
    (h : (x.walk position formula e).Yields notices v) :
    Covers x position e notices v := by
  rcases leaf_cases huse with hconstant | ⟨kind, sheet, body, he⟩ | ⟨word, he⟩
  · exact covers_constant hconstant h
  · rw [he, walk] at h
    rw [he]
    exact covers_reference h
  · rw [he, walk] at h
    rw [he]
    exact covers_name hup h

/-! ## Operators and calls -/

structure ArgumentsCover (x : Extractor) (position : Position)
    (args : List (Option Expr)) (notices : List Notice)
    (values : List Value) : Prop where
  reads : forall d,
    (Reads notices d ∨ exists ref, Value.reference ref ∈ values ∧
      (placed position ref).Holds d) <->
    exists c, c ∈ Expr.given args ∧ ReadFrom x position c d
  upright : forall ref, Value.reference ref ∈ values -> ref.Upright
  settled : forall ref, Value.reference ref ∈ values ->
    placed position ref = ref

theorem argumentsCover {x : Extractor} {position : Position}
    {formula : String} {args : List (Option Expr)}
    (hargs : forall c, c ∈ Expr.given args -> forall notices v,
      (x.walk position formula c).Yields notices v ->
        Covers x position c notices v)
    {notices : List Notice} {values : List Value}
    (h : (walkArgs x position formula args).Yields notices values) :
    ArgumentsCover x position args notices values := by
  induction args generalizing notices values with
  | nil =>
      rcases Traced.yields_pure.mp h with ⟨hnotices, hvalues⟩
      rw [hnotices, hvalues]
      constructor
      · intro d
        simp [Reads, Expr.given]
      · intro ref href
        cases href
      · intro ref href
        cases href
  | cons arg rest ih =>
      cases arg with
      | none =>
          rcases yields_walkArgs_none.mp h with ⟨others, hvalues, hrest⟩
          have hcover := ih hargs hrest
          rw [hvalues]
          constructor
          · intro d
            simpa [Expr.given] using hcover.reads d
          · intro ref href
            exact hcover.upright ref (by simpa using href)
          · intro ref href
            exact hcover.settled ref (by simpa using href)
      | some e =>
          rcases yields_walkArgs_some.mp h with
            ⟨first, v, second, others, hfirst, hsecond, hnotices, hvalues⟩
          have he := hargs e (List.mem_cons_self ..) first v hfirst
          have hcover :=
            ih (fun c hc => hargs c (List.mem_cons_of_mem _ hc)) hsecond
          rw [hnotices, hvalues]
          constructor
          · intro d
            have hhead := he.readFrom_iff d
            have htail := hcover.reads d
            have hgiven : Expr.given (some e :: rest) =
                e :: Expr.given rest := rfl
            simp only [reads_append, List.mem_cons, or_and_right, exists_or,
              exists_eq_left, hgiven, ← hhead, ← htail, eq_comm (a := v)]
            exact or_or_or_comm
          · intro ref href
            rcases List.mem_cons.mp href with href | href
            · exact he.stands.upright ref href.symm
            · exact hcover.upright ref href
          · intro ref href
            rcases List.mem_cons.mp href with href | href
            · exact he.stands.settled ref href.symm
            · exact hcover.settled ref href

theorem shape_of_use? {x : Extractor} {position : Position} {e : Expr}
    {args : List (Option Expr)} {use : List Value -> Traced Value}
    (h : x.use? position e = some (args, use)) :
    e.literal? = none ∧ forall word, e ≠ .name word := by
  unfold use? at h
  split at h
  all_goals cases h
  all_goals exact ⟨rfl, by simp⟩

theorem covers_of_consumes {x : Extractor} {position : Position} {e : Expr}
    {args : List (Option Expr)} {use : List Value -> Traced Value}
    (huse : x.use? position e = some (args, use))
    {first second : List Notice} {values : List Value} {v : Value}
    (hargs : ArgumentsCover x position args first values)
    (hconsumes : Consumes position values second v) :
    Covers x position e (first ++ second) v := by
  rcases shape_of_use? huse with ⟨hliteral, hname⟩
  have hreads : forall d,
      Reads (first ++ second) d <-> Below x position e d := by
    intro d
    rw [reads_append, hconsumes.reads d, hargs.reads d, below_iff,
      given_of_use? huse]
    constructor
    · exact Or.inr
    · intro h
      rcases h with hself | hchild
      · rcases hself with ⟨word, _, heq, _⟩
        exact absurd heq (hname word)
      · exact hchild
  constructor
  · exact hreads
  · constructor
    · intro own hown
      rw [hliteral] at hown
      cases hown
    · intro ref href
      rcases hconsumes.drawn.within ref href with ⟨whole, hmem, hwithin⟩
      exact (hwithin (hargs.upright whole hmem)).upright
    · intro ref href
      rcases hconsumes.drawn.within ref href with ⟨whole, hmem, hwithin⟩
      rcases placed_sheet position whole with ⟨name, hsheet⟩
      rw [hargs.settled whole hmem] at hsheet
      rw [← (hwithin (hargs.upright whole hmem)).sheet_eq] at hsheet
      exact Reference.withSheet_of_sheet_some hsheet position.sheet
    · intro ref href _ d hd
      rcases hconsumes.drawn.within ref href with ⟨whole, hmem, hwithin⟩
      have hwhole := (hwithin (hargs.upright whole hmem)).holds d hd
      rw [← hargs.settled whole hmem] at hwhole
      apply (hreads d).mp
      rw [reads_append, hconsumes.reads d]
      exact Or.inr ⟨whole, hmem, hwhole⟩

/-! ## Whole formulas -/

theorem covers_walk {x : Extractor}
    (hx : x.handler = ReferenceFunction.handler) (hup : x.ResolvesUpright)
    {position : Position} {formula : String} (e : Expr)
    {notices : List Notice} {v : Value}
    (h : (x.walk position formula e).Yields notices v) :
    Covers x position e notices v := by
  induction e using Expr.children_induction generalizing notices v with
  | step e ih =>
      cases huse : x.use? position e with
      | none => exact covers_leaf hup huse h
      | some found =>
          rcases found with ⟨args, use⟩
          rcases (yields_walk_of_use? huse).mp h with
            ⟨first, values, second, hargs, hvalue, hnotices⟩
          have hvalues : forall w, w ∈ values -> w.isArgument = true := by
            apply isArgument_of_yields_walkArgs _ hargs
            intro c _ own w hyields
            exact isFormulaValue_of_walk hx c hyields
          have hcover : ArgumentsCover x position args first values := by
            apply argumentsCover _ hargs
            intro c hc own w hyields
            rw [given_of_use? huse] at hc
            exact ih c hc hyields
          rw [hnotices]
          exact covers_of_consumes huse hcover
            (consumes_of_use? hx huse hvalues hvalue)

theorem isReadAt_iff_of_literal {position : Position} {e : Expr}
    {own : Reference} (h : e.literal? = some own) (d : Cell) :
    IsReadAt position e d <-> (placed position own).anchor? = some d := by
  simp [IsReadAt, h]

theorem not_isReadAt_of_no_literal {position : Position} {e : Expr}
    (h : e.literal? = none) (d : Cell) : ¬ IsReadAt position e d := by
  simp [IsReadAt, h]

theorem holds_of_anchor? {ref : Reference} (hup : ref.Upright) {d : Cell}
    (h : ref.anchor? = some d) : ref.Holds d := by
  cases ref with
  | cell c =>
      cases h
      rfl
  | range r =>
      simp only [Reference.anchor?] at h
      split at h
      · cases h
        exact Range.holds_topLeft hup
      · cases h

theorem reads_finish {position : Position} {v w : Value}
    {notices : List Notice}
    (hsettled : forall ref, v = .reference ref -> placed position ref = ref)
    (h : (finish position v).Yields notices w) (d : Cell) :
    Reads notices d <->
      exists ref, v = .reference ref ∧ ref.anchor? = some d := by
  unfold finish at h
  split at h
  · rename_i c
    rw [(yields_read.mp h).left, reads_read, hsettled _ rfl]
    have hholds : (Reference.cell c).Holds d <-> c = d := eq_comm
    simp [Reference.anchor?, hholds]
  · rename_i r
    split at h
    · rename_i hsingle
      have hcell : placed position (.cell r.topLeft) = .cell r.topLeft := by
        rcases placed_sheet position (.range r) with ⟨name, hname⟩
        rw [hsettled _ rfl] at hname
        have hsheet : (Reference.cell r.topLeft).sheet = some name := hname
        exact Reference.withSheet_of_sheet_some hsheet position.sheet
      rw [(yields_read.mp h).left, reads_read, hcell]
      have hholds : (Reference.cell r.topLeft).Holds d <-> r.topLeft = d :=
        eq_comm
      simp [Reference.anchor?, hsingle, hholds]
    · rename_i hsingle
      rw [(Traced.yields_pure.mp h).left]
      simp [Reads, Reference.anchor?, hsingle]
  · rename_i hcell hrange
    rw [(Traced.yields_pure.mp h).left]
    constructor
    · intro hread
      exact absurd hread (not_reads_nil d)
    · intro href
      rcases href with ⟨ref, hv, _⟩
      cases ref with
      | cell c => exact (hcell c hv).elim
      | range r => exact (hrange r hv).elim

theorem reads_formula_iff {x : Extractor} {position : Position} {e : Expr}
    {first second : List Notice} {v w : Value}
    (hcovers : Covers x position e first v)
    (hfinish : (finish position v).Yields second w) (d : Cell) :
    Reads (first ++ second) d <-> DependsOn x position e d := by
  have hbelow : DependsOn x position e d <->
      Below x position e d ∨ IsReadAt position e d := or_assoc.symm
  rw [reads_append, hcovers.reads d, hbelow,
    reads_finish hcovers.stands.settled hfinish d]
  cases hliteral : e.literal? with
  | none =>
      constructor
      · intro h
        rcases h with hbelow | hanchor
        · exact Or.inl hbelow
        · rcases hanchor with ⟨ref, hv, hanchor⟩
          have hholds :=
            holds_of_anchor? (hcovers.stands.upright ref hv) hanchor
          exact Or.inl (hcovers.stands.covered ref hv hliteral d hholds)
      · intro h
        rcases h with hbelow | hread
        · exact Or.inl hbelow
        · exact absurd hread (not_isReadAt_of_no_literal hliteral d)
  | some own =>
      rw [isReadAt_iff_of_literal hliteral, hcovers.stands.literal own hliteral]
      simp

def readReferences? : Notice -> Option Reference
  | .read ref => some ref
  | _ => none

theorem absorbAll_cover (findings : Findings) (notices : List Notice) :
    (findings.absorbAll notices).cover =
      (notices.filterMap readReferences?).foldl Cover.add findings.cover := by
  unfold Findings.absorbAll
  induction notices generalizing findings with
  | nil => rfl
  | cons notice rest ih =>
      rw [List.foldl_cons, ih]
      cases notice with
      | unknownFunction function =>
          simp only [Findings.absorb, Findings.listMissing, readReferences?,
            List.filterMap_cons]
          split
          · rfl
          · rfl
      | _ => rfl

theorem exists_entry_holds_iff (ds : List Diagnostic) (notices : List Notice)
    (d : Cell) :
    (exists ref, ref ∈ ((({ diagnostics := ds } : Findings).absorbAll
        notices).cover.entries) ∧ ref.Holds d) <-> Reads notices d := by
  rw [absorbAll_cover, Cover.foldl_add_entries]
  have hcovers : forall ref : Reference,
      ref.Holds d <-> ref.Covers (.cell d) := by
    intro ref
    cases ref with
    | cell c => exact Iff.rfl
    | range r => exact Iff.rfl
  simp only [hcovers]
  rw [Cover.exists_standing_covers_iff]
  constructor
  · intro h
    rcases h with ⟨ref, hmem, hholds⟩
    rcases List.mem_filterMap.mp hmem with ⟨notice, hnotice, heq⟩
    cases notice with
    | read own =>
        cases heq
        exact ⟨ref, hnotice, (hcovers ref).mpr hholds⟩
    | _ => cases heq
  · intro h
    rcases h with ⟨ref, hnotice, hholds⟩
    exact ⟨ref, List.mem_filterMap.mpr ⟨.read ref, hnotice, rfl⟩,
      (hcovers ref).mp hholds⟩

theorem exists_follow_of_extractAt {x : Extractor} {formula : String}
    {position : Position} {strict : Option Bool} {result : Extraction}
    (h : (x.extractAt formula position strict).outcome = .ok result) :
    exists notices v,
      (x.follow position formula (Parse.ofText formula)).Yields notices v ∧
      result.references = (({ diagnostics :=
        (Parse.ofText formula).diagnostics } : Findings).absorbAll
          notices).cover.entries := by
  rcases exists_yields_of_extractAt h with ⟨notices, v, hyields, hresult⟩
  refine ⟨notices, v, hyields, ?_⟩
  rw [hresult]
  rfl

/--
The references of an extraction hold just the cells that the formula depends on:
those of the literals that it uses, those of the names in it, and the one cell
at which a formula is read that is a literal and nothing else.
-/
theorem references_hold_iff {x : Extractor}
    (hx : x.handler = ReferenceFunction.handler) (hup : x.ResolvesUpright)
    {formula : String} {position : Position} {strict : Option Bool} {e : Expr}
    (htree : (Parse.ofText formula).tree = some e) {result : Extraction}
    (hok : (x.extractAt formula position strict).outcome = .ok result)
    (d : Cell) :
    (exists ref, ref ∈ result.references ∧ ref.Holds d) <->
      UsesCell position e d ∨ NamesCell x position e d ∨
        IsReadAt position e d := by
  rcases exists_follow_of_extractAt hok with
    ⟨notices, w, hyields, hreferences⟩
  rw [hreferences, exists_entry_holds_iff]
  simp only [follow, followBy, htree] at hyields
  rcases Traced.yields_bind.mp hyields with
    ⟨first, v, second, hwalk, hfinish, hnotices⟩
  rw [hnotices]
  exact reads_formula_iff (covers_walk hx hup e hwalk) hfinish d

def rateExtractor : Extractor where
  resolve name _ :=
    if name = "Rate" then .found (.range ⟨1, 4, 3, 4, some "Data"⟩)
    else .unknown

def rateFormula : Expr :=
  .binary .subtract
    (.call ⟨"SUM(", 1⟩ [some (.reference .cells none ⟨"A1:B2", 5⟩),
      some (.name ⟨"Rate", 11⟩)])
    (.call ⟨"INDEX(", 17⟩ [some (.reference .columns none ⟨"C:C", 23⟩),
      some (.number ⟨"2", 27⟩)])

theorem rate_references_hold :
    (Parse.ofText "=SUM(A1:B2,Rate)-INDEX(C:C,2)").tree = some rateFormula ∧
      exists result,
        (rateExtractor.extractAt "=SUM(A1:B2,Rate)-INDEX(C:C,2)" (.mk 9 1 "S")
          none).outcome = .ok result ∧
        (exists ref, ref ∈ result.references ∧
          ref.Holds ⟨2, 4, some "Data"⟩) ∧
        ¬ UsesCell (.mk 9 1 "S") rateFormula ⟨2, 4, some "S"⟩ := by
  have hup : rateExtractor.ResolvesUpright := by
    intro name sheet ref h
    simp only [rateExtractor] at h
    split at h
    · cases h
      decide
    · cases h
  have htree : (Parse.ofText "=SUM(A1:B2,Rate)-INDEX(C:C,2)").tree =
      some rateFormula := by cbv
  have hreferences :
      (rateExtractor.extractAt "=SUM(A1:B2,Rate)-INDEX(C:C,2)" (.mk 9 1 "S")
        none).outcome.toOption.map Extraction.references =
      some [.range ⟨1, 4, 3, 4, some "Data"⟩, .range ⟨1, 1, 2, 2, some "S"⟩,
        .range ⟨1, 3, 1048576, 3, some "S"⟩] := by decide +kernel
  cases hok : (rateExtractor.extractAt "=SUM(A1:B2,Rate)-INDEX(C:C,2)"
      (.mk 9 1 "S") none).outcome with
  | error error =>
      rw [hok] at hreferences
      cases hreferences
  | ok result =>
      rw [hok] at hreferences
      injection hreferences with hreferences
      refine ⟨htree, result, rfl, ?_, ?_⟩
      · apply (references_hold_iff rfl hup htree hok _).mpr
        refine Or.inr (Or.inl ⟨⟨"Rate", 11⟩, _, ?_, rfl, ?_⟩)
        · simp [rateFormula, Expr.parts, Expr.partsOfArgs]
        · decide
      · intro huses
        have hholds := (references_hold_iff rfl hup htree hok
          ⟨2, 4, some "S"⟩).mpr (Or.inl huses)
        rw [hreferences] at hholds
        revert hholds
        decide

end Extractor
end Precedents
