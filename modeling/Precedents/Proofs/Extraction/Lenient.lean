import Precedents.Settings.Basic
import Precedents.Proofs.Extraction.DepthLimit
import Precedents.Proofs.Extraction.Values
import Precedents.Proofs.Formula.Words
import Precedents.Proofs.Number.NumberWord
import Precedents.Proofs.Reference.SheetWord

/-!
# When an extraction comes to an outcome

Diagnostics are no errors to a lenient extraction.  It still fails if there is no
room on the stack for the tree of the formula, or if the tree holds a whole number
with too many digits, and nothing else makes it fail.
-/

namespace Precedents

def Token.Readable (t : Token) : Prop :=
  t.terminal = .number -> ¬ Overlong t.text

theorem Token.isNumber_of_shaped {word : Lexeme}
    (h : Token.Shaped ⟨word, .number⟩) : IsNumber word.text.toList := by
  rcases h with ⟨rest, hrest⟩
  exact Terminal.reads_numberShape.word hrest

theorem Token.sheet_of_shaped {word : Lexeme}
    (h : Token.Shaped ⟨word, .sheet⟩) :
    exists name, Literal.sheet word.text = .ok name := by
  rcases h with ⟨rest, hrest⟩
  have hname := Literal.sheet_of_sheetShape hrest
  rwa [String.ofList_toList] at hname

def Resolution.IsAnswer : Resolution -> Prop
  | .unknown | .found _ => True
  | .invalid _ | .failed _ => False

theorem exists_mapM_ok {α β ε : Type} {f : α -> Except ε β} {as : List α} :
    (exists bs, as.mapM f = .ok bs) <->
      forall a, a ∈ as -> exists b, f a = .ok b := by
  induction as with
  | nil => simp [pure, Except.pure]
  | cons a rest ih =>
      simp only [List.mapM_cons, except_bind_eq_ok, List.forall_mem_cons, <- ih]
      constructor
      · intro h
        rcases h with ⟨bs, b, hb, others, hothers, _⟩
        exact ⟨⟨b, hb⟩, others, hothers⟩
      · intro h
        rcases h with ⟨⟨b, hb⟩, others, hothers⟩
        exact ⟨b :: others, b, hb, others, hothers, rfl⟩

namespace Extractor

variable {x : Extractor} {position : Position} {formula : String}

/-! ## Leaves -/

theorem itemValue_ok_iff {item : Item} (h : item.token.Shaped) :
    (exists v, itemValue item = .ok v) <-> item.token.Readable := by
  cases item with
  | number word =>
      have hnumber := Token.isNumber_of_shaped h
      exact (Literal.number_ok_iff hnumber).trans (by simp [Token.Readable, Item.token])
  | negative word =>
      have hnumber := Token.isNumber_of_shaped h
      exact (Literal.negativeNumber_ok_iff hnumber).trans
        (by simp [Token.Readable, Item.token])
  | _ => simp [itemValue, Token.Readable, Item.token]

theorem arrayValue_ok_iff {rows : List (List Item)}
    (h : forall item, item ∈ rows.flatten -> item.token.Shaped) :
    (exists v, arrayValue rows = .ok v) <->
      forall item, item ∈ rows.flatten -> item.token.Readable := by
  have hrows : (exists v, arrayValue rows = .ok v) <->
      exists vs, (rows.mapM fun row => row.mapM itemValue) = .ok vs := by
    unfold arrayValue
    cases rows.mapM fun row => row.mapM itemValue with
    | error error => simp
    | ok vs => simp
  rw [hrows, exists_mapM_ok]
  simp only [exists_mapM_ok, List.mem_flatten]
  constructor
  · intro hok item hitem
    rcases hitem with ⟨row, hrow, hitem⟩
    have hshaped := h item (List.mem_flatten.mpr ⟨row, hrow, hitem⟩)
    exact (itemValue_ok_iff hshaped).mp (hok row hrow item hitem)
  · intro hread row hrow item hitem
    have hshaped := h item (List.mem_flatten.mpr ⟨row, hrow, hitem⟩)
    exact (itemValue_ok_iff hshaped).mpr (hread item ⟨row, hrow, hitem⟩)

theorem exists_yields_ofExcept {α : Type} {outcome : Except Fault α} :
    (exists notices a, (Traced.ofExcept outcome).Yields notices a) <->
      exists a, outcome = .ok a := by
  simp [Traced.yields_ofExcept]

theorem exists_yields_referenceValue {kind : ReferenceKind}
    {sheet : Option Lexeme} {body : Lexeme}
    (h : forall word, sheet = some word -> Token.Shaped ⟨word, .sheet⟩) :
    exists notices v,
      (referenceValue position formula kind sheet body).Yields notices v := by
  have hname : exists name,
      sheet.mapM (fun word => Literal.sheet word.text) = .ok name := by
    cases sheet with
    | none => exact ⟨none, rfl⟩
    | some word =>
        rcases Token.sheet_of_shaped (h word rfl) with ⟨name, hname⟩
        refine ⟨some name, ?_⟩
        simp only [Option.mapM_some, hname]
        rfl
  rcases hname with ⟨name, hname⟩
  simp only [referenceValue, hname]
  cases Literal.reference kind body.text name with
  | ok ref => exact ⟨[], _, rfl, rfl⟩
  | error error => exact ⟨_, _, rfl, rfl⟩

theorem exists_yields_nameValue
    (hx : forall name sheet, (x.resolve name sheet).IsAnswer)
    (name : String) :
    exists notices v, (x.nameValue position name).Yields notices v := by
  have hanswer := hx name position.sheet
  unfold nameValue
  cases hresolve : x.resolve name position.sheet with
  | unknown => exact ⟨_, _, rfl, rfl⟩
  | found ref => exact ⟨_, _, rfl, rfl⟩
  | invalid kind =>
      rw [hresolve] at hanswer
      exact hanswer.elim
  | failed message =>
      rw [hresolve] at hanswer
      exact hanswer.elim

theorem exists_yields_leaf_iff
    (hx : forall name sheet, (x.resolve name sheet).IsAnswer)
    {e : Expr} (hleaf : x.use? position e = none)
    (hshaped : forall t, t ∈ e.ownTokens -> t.Shaped) :
    (exists notices v, (x.walk position formula e).Yields notices v) <->
      forall t, t ∈ e.ownTokens -> t.Readable := by
  cases e with
  | number word =>
      have hnumber := Token.isNumber_of_shaped
        (hshaped ⟨word, .number⟩ List.mem_cons_self)
      rw [walk, exists_yields_ofExcept]
      simp only [Expr.ownTokens, List.mem_singleton, forall_eq, Token.Readable,
        forall_const, <- Literal.number_ok_iff hnumber]
      cases Literal.number word.text with
      | error error => simp [Except.mapError]
      | ok v => simp [Except.mapError]
  | boolean word =>
      simp only [walk, Traced.yields_pure]
      simp [Expr.ownTokens, Token.Readable]
  | string word =>
      simp only [walk, Traced.yields_pure]
      simp [Expr.ownTokens, Token.Readable]
  | error word =>
      simp only [walk, Traced.yields_pure]
      simp [Expr.ownTokens, Token.Readable]
  | reference kind sheet body =>
      rw [walk]
      constructor
      · intro _ t ht hterminal
        rcases List.mem_append.mp ht with ht | ht
        · rcases sheet with _ | word
          · cases ht
          · rw [List.mem_singleton.mp ht] at hterminal
            cases hterminal
        · rw [List.mem_singleton.mp ht] at hterminal
          cases kind <;> cases hterminal
      · intro _
        apply exists_yields_referenceValue
        intro word hword
        apply hshaped
        rw [hword]
        exact List.mem_cons_self
  | name word =>
      rw [walk]
      constructor
      · intro _
        simp [Expr.ownTokens, Token.Readable]
      · intro _
        exact exists_yields_nameValue hx word.text
  | array rows =>
      rw [walk, exists_yields_ofExcept, arrayValue_ok_iff]
      · exact List.forall_mem_map.symm
      · intro item hitem
        exact hshaped item.token (List.mem_map_of_mem hitem)
  | call function args => exact absurd hleaf (use?_call_ne_none function args)
  | binary op left right => cases hleaf
  | sign op operand => cases hleaf
  | percent operand => cases hleaf

/-! ## The whole tree -/

theorem exists_yields_walkArgs_iff {args : List (Option Expr)} :
    (exists notices values,
        (walkArgs x position formula args).Yields notices values) <->
      forall c, c ∈ Expr.given args ->
        exists notices v, (x.walk position formula c).Yields notices v := by
  constructor
  · intro h c hc
    rcases h with ⟨notices, values, hyields⟩
    rcases exists_yields_of_yields_walkArgs hyields hc with ⟨own, v, hown, _⟩
    exact ⟨own, v, hown⟩
  · intro h
    induction args with
    | nil => exact ⟨[], [], by rw [walkArgs, Traced.yields_pure]; simp⟩
    | cons arg rest ih =>
        cases arg with
        | none =>
            rcases ih h with ⟨notices, values, hrest⟩
            exact ⟨notices, .missing :: values,
              yields_walkArgs_none.mpr ⟨values, rfl, hrest⟩⟩
        | some e =>
            have hothers : forall c, c ∈ Expr.given rest ->
                exists notices v,
                  (x.walk position formula c).Yields notices v := by
              intro c hc
              exact h c (List.mem_cons_of_mem _ hc)
            rcases h e List.mem_cons_self with ⟨first, v, hfirst⟩
            rcases ih hothers with ⟨second, values, hsecond⟩
            exact ⟨first ++ second, v :: values, yields_walkArgs_some.mpr
              ⟨first, v, second, values, hfirst, hsecond, rfl, rfl⟩⟩

theorem readable_of_use? {e : Expr} {args : List (Option Expr)}
    {use : List Value -> Traced Value}
    (h : x.use? position e = some (args, use)) :
    forall t, t ∈ e.ownTokens -> t.Readable := by
  intro t ht hterminal
  unfold use? at h
  split at h
  · rw [List.mem_singleton.mp ht] at hterminal
    cases hterminal
  · rw [List.mem_singleton.mp ht] at hterminal
    cases hterminal
  · cases ht
  · cases ht
  · cases ht
  · cases h

theorem exists_yields_walk_iff (hx : x.handler = ReferenceFunction.handler)
    (hresolve : forall name sheet, (x.resolve name sheet).IsAnswer)
    (e : Expr) (hshaped : e.Words Token.Shaped) :
    (exists notices v, (x.walk position formula e).Yields notices v) <->
      e.Words Token.Readable := by
  induction e using Expr.children_induction with
  | step e ih =>
      rcases Expr.words_iff.mp hshaped with ⟨hown, hchildren⟩
      rw [Expr.words_iff]
      cases huse : x.use? position e with
      | none =>
          rw [exists_yields_leaf_iff hresolve huse hown,
            children_of_use?_eq_none huse]
          simp
      | some found =>
          rcases found with ⟨args, use⟩
          have hargs : (exists notices values,
              (walkArgs x position formula args).Yields notices values) <->
                forall c, c ∈ e.children -> c.Words Token.Readable := by
            rw [exists_yields_walkArgs_iff, given_of_use? huse]
            exact forall₂_congr fun c hc => ih c hc (hchildren c hc)
          rw [<- hargs]
          constructor
          · intro h
            rcases h with ⟨notices, v, hyields⟩
            rcases (yields_walk_of_use? huse).mp hyields with
              ⟨first, values, second, hfirst, _, _⟩
            exact ⟨readable_of_use? huse, first, values, hfirst⟩
          · intro h
            rcases h.right with ⟨first, values, hfirst⟩
            have hvalues : forall w, w ∈ values -> w.isArgument = true := by
              apply isArgument_of_yields_walkArgs _ hfirst
              intro c _ notices v hyields
              exact isFormulaValue_of_walk hx c hyields
            rcases yields_of_use? hx huse hvalues with ⟨second, v, hsecond, _⟩
            exact ⟨first ++ second, v, (yields_walk_of_use? huse).mpr
              ⟨first, values, second, hfirst, hsecond, rfl⟩⟩

/-! ## What is salvaged -/

theorem take_ok (haul : Salvage.Haul) {terminal : Terminal} {word : List Char}
    (h : Token.Shaped ⟨⟨String.ofList word, 0⟩, terminal⟩) :
    exists next, haul.take terminal (String.ofList word) = .ok next := by
  unfold Salvage.Haul.take
  split
  · rcases Token.sheet_of_shaped h with ⟨name, hname⟩
    rw [hname]
    exact ⟨_, rfl⟩
  · exact ⟨_, rfl⟩
  · exact ⟨_, rfl⟩

theorem salvage_go_ok (haul : Salvage.Haul) (budget skip : Nat)
    (cs : List Char) : exists last, Salvage.go haul budget skip cs = .ok last := by
  induction cs generalizing haul budget skip with
  | nil => exact ⟨haul, by rw [Salvage.go]⟩
  | cons c rest ih =>
      cases budget with
      | zero => exact ⟨haul, by rw [Salvage.go]⟩
      | succ budget =>
          cases skip with
          | succ skip =>
              rw [Salvage.go]
              exact ih haul budget skip
          | zero =>
              rw [Salvage.go]
              split
              · exact ⟨haul, rfl⟩
              · rename_i terminal word hfirst
                have hshaped := Token.shaped_of_found
                  (Terminal.found_of_first? hfirst).right 0
                rcases take_ok haul hshaped with ⟨next, hnext⟩
                rw [hnext]
                exact ih next budget (word.length - 1)

theorem exists_yields_readReferences (refs : List Reference) :
    exists notices, (readReferences position refs).Yields notices () := by
  induction refs with
  | nil => exact ⟨[], rfl, rfl⟩
  | cons ref rest ih =>
      rcases ih with ⟨notices, hrest⟩
      rw [readReferences]
      exact ⟨_, Traced.yields_bind.mpr
        ⟨_, standIn ref, notices, yields_read.mpr ⟨rfl, rfl⟩, hrest, rfl⟩⟩

theorem exists_yields_salvage (diagnostics : List Diagnostic) :
    exists notices v,
      (salvage position formula diagnostics).Yields notices v := by
  unfold salvage Salvage.references
  simp only
  rcases salvage_go_ok ⟨none, []⟩
      ((diagnostics.head?.map fun d => d.offset.toNat).getD formula.length) 0
      formula.toList with ⟨last, hlast⟩
  rw [hlast]
  rcases exists_yields_readReferences last.references with ⟨notices, hrefs⟩
  exact ⟨_, _, Traced.yields_bind.mpr
    ⟨notices, (), [], hrefs, Traced.yields_pure.mpr ⟨rfl, rfl⟩, rfl⟩⟩

/-! ## The outcome -/

theorem exists_yields_finish (position : Position) (v : Value) :
    exists notices w, (finish position v).Yields notices w := by
  unfold finish
  split
  · exact ⟨_, _, yields_read.mpr ⟨rfl, rfl⟩⟩
  · split
    · exact ⟨_, _, yields_read.mpr ⟨rfl, rfl⟩⟩
    · exact ⟨_, _, Traced.yields_pure.mpr ⟨rfl, rfl⟩⟩
  · exact ⟨_, _, Traced.yields_pure.mpr ⟨rfl, rfl⟩⟩

theorem exists_yields_follow_iff
    (hx : x.handler = ReferenceFunction.handler)
    (hresolve : forall name sheet, (x.resolve name sheet).IsAnswer) :
    (exists notices v,
        (x.follow position formula (Parse.ofText formula)).Yields notices v) <->
      forall e, (Parse.ofText formula).tree = some e ->
        e.Words Token.Readable := by
  unfold follow followBy
  cases htree : (Parse.ofText formula).tree with
  | none =>
      constructor
      · intro _ e he
        cases he
      · intro _
        exact exists_yields_salvage _
  | some e =>
      have hwalk : (exists notices v,
          (x.walk position formula e).Yields notices v) <->
            e.Words Token.Readable :=
        exists_yields_walk_iff hx hresolve e (Parse.words_of_tree htree)
      constructor
      · intro h own hown
        cases hown
        rcases h with ⟨notices, v, hyields⟩
        rcases Traced.yields_bind.mp hyields with ⟨first, w, _, hfirst, _, _⟩
        exact hwalk.mp ⟨first, w, hfirst⟩
      · intro h
        rcases hwalk.mpr (h e rfl) with ⟨first, w, hfirst⟩
        rcases exists_yields_finish position w with ⟨second, v, hsecond⟩
        exact ⟨_, v, Traced.yields_bind.mpr
          ⟨first, w, second, hfirst, hsecond, rfl⟩⟩

theorem extractAt_lenient_ok_iff_follow (x : Extractor) {formula : String}
    (hformula : formula ≠ "") (position : Position) :
    (exists found,
        (x.extractAt formula position (some false)).outcome = .ok found) <->
      exists notices v, (x.follow position formula
        (Parse.ofText formula)).Yields notices v := by
  unfold extractAt report
  rw [if_neg hformula]
  simp only
  split
  · rename_i fault hfault
    simp [Traced.Yields, hfault]
  · rename_i v hv
    simp [Traced.Yields, hv, conclude]

end Extractor

theorem Settings.isAnswer_resolve (settings : Settings) (name sheet : String) :
    (settings.resolve name sheet).IsAnswer := by
  unfold Settings.resolve
  split
  · trivial
  · trivial

/--
A lenient extraction comes to an outcome if and only if there is a formula and, where
it has a tree, recovered or not, the stack has room for its levels and it holds no
whole number with too many digits.
-/
theorem Settings.extractWithin_lenient_ok_iff (settings : Settings)
    (functions : List String) (registered : ValueFunctions) (room : Nat)
    (formula : String) (position : Position) :
    (exists found,
        (Extractor.extractWithin
          { settings.extractor functions with registered := registered, room := room }
          formula position (some false)).outcome = .ok found) <->
      formula ≠ "" ∧ forall e, (Parse.ofText formula).tree = some e ->
        e.height ≤ room ∧ forall p, p ∈ e.parts -> forall t, t ∈ p.ownTokens ->
          t.terminal = .number -> ¬ Overlong t.text := by
  simp only [Extractor.extractWithin_ok_iff, exists_and_left]
  by_cases hformula : formula = ""
  · simp [Extractor.extractAt, Extractor.report, hformula]
  · rw [Extractor.extractAt_lenient_ok_iff_follow _ hformula,
      Extractor.exists_yields_follow_iff rfl settings.isAnswer_resolve]
    constructor
    · intro h
      exact ⟨hformula, fun e htree => ⟨h.left e htree, h.right e htree⟩⟩
    · intro h
      exact ⟨fun e htree => (h.right e htree).left, fun e htree => (h.right e htree).right⟩

end Precedents
