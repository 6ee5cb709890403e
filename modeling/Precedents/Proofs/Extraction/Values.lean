import Precedents.Proofs.Extraction.Walking

/-!
# Every part has the value of a formula

Whatever the names stand for, a part that comes to a value comes to one that a
formula may have, so the handlers get nothing but arguments.
-/

namespace Precedents

namespace Literal

theorem isItem_of_number {text : String} {v : Value}
    (h : number text = .ok v) : v.isItem = true := by
  unfold number at h
  split at h
  · rcases except_map_eq_ok.mp h with ⟨y, _, heq⟩
    rw [← heq]
    rfl
  · rcases except_map_eq_ok.mp h with ⟨n, _, heq⟩
    rw [← heq]
    rfl

theorem isItem_of_negativeNumber {text : String} {v : Value}
    (h : negativeNumber text = .ok v) : v.isItem = true := by
  rcases except_map_eq_ok.mp h with ⟨w, hnumber, heq⟩
  rw [← heq]
  cases w with
  | int n => rfl
  | float y => rfl
  | _ => exact isItem_of_number hnumber

end Literal

namespace Extractor

variable {x : Extractor} {position : Position} {formula : String}

theorem isItem_of_itemValue {item : Item} {v : Value}
    (h : itemValue item = .ok v) : v.isItem = true := by
  cases item with
  | number word => exact Literal.isItem_of_number h
  | negative word => exact Literal.isItem_of_negativeNumber h
  | string word =>
      cases h
      rfl
  | boolean word =>
      cases h
      rfl
  | error word =>
      cases h
      rfl

theorem exists_of_mem_mapM {α β ε : Type} {f : α -> Except ε β}
    {as : List α} {bs : List β} (h : as.mapM f = .ok bs) {b : β}
    (hb : b ∈ bs) : exists a, a ∈ as ∧ f a = .ok b := by
  induction as generalizing bs with
  | nil =>
      cases h
      cases hb
  | cons a rest ih =>
      rw [List.mapM_cons, except_bind_eq_ok] at h
      rcases h with ⟨first, hfirst, h⟩
      rcases except_bind_eq_ok.mp h with ⟨others, hothers, h⟩
      cases h
      rcases List.mem_cons.mp hb with hb | hb
      · rw [hb]
        exact ⟨a, List.mem_cons_self .., hfirst⟩
      · rcases ih hothers hb with ⟨c, hc, hfc⟩
        exact ⟨c, List.mem_cons_of_mem _ hc, hfc⟩

theorem isFormulaValue_of_arrayValue {rows : List (List Item)} {v : Value}
    (h : arrayValue rows = .ok v) : v.isFormulaValue = true := by
  unfold arrayValue at h
  split at h
  · rename_i items hitems
    cases h
    apply Value.isFormulaValue_list_rows
    intro row hrow w hw
    rcases exists_of_mem_mapM hitems hrow with ⟨source, _, hsource⟩
    rcases exists_of_mem_mapM hsource hw with ⟨item, _, hitem⟩
    exact isItem_of_itemValue hitem
  · cases h

theorem yields_referenceValue {kind : ReferenceKind} {sheet : Option Lexeme}
    {body : Lexeme} {notices : List Notice} {v : Value}
    (h : (referenceValue position formula kind sheet body).Yields notices v) :
    exists name, sheet.mapM (fun word => Literal.sheet word.text) = .ok name ∧
      ((exists ref, Literal.reference kind body.text name = .ok ref ∧
        notices = [] ∧ v = mark position ref) ∨
      exists error d, Literal.reference kind body.text name = .error error ∧
        notices = [.offGrid d] ∧ v = .error .ref) := by
  unfold referenceValue at h
  split at h
  · exact absurd h Traced.not_yields_fail
  · rename_i name hname
    refine ⟨name, hname, ?_⟩
    split at h
    · rename_i ref href
      rcases Traced.yields_pure.mp h with ⟨hnotices, hv⟩
      exact Or.inl ⟨ref, href, hnotices, hv⟩
    · rename_i error herror
      rcases Traced.yields_bind.mp h with
        ⟨first, _, second, hnote, hpure, heq⟩
      rcases Traced.yields_pure.mp hpure with ⟨hsecond, hv⟩
      rw [Traced.yields_note.mp hnote, hsecond, List.append_nil] at heq
      exact Or.inr ⟨error, _, herror, heq, hv⟩

theorem yields_nameValue {name : String} {notices : List Notice} {v : Value}
    (h : (x.nameValue position name).Yields notices v) :
    (x.resolve name position.sheet = .unknown ∧
      notices = [.unknownName name] ∧ v = .error .name) ∨
    exists ref, x.resolve name position.sheet = .found ref ∧
      notices = [.read (placed position ref)] ∧ v = mark position ref := by
  unfold nameValue at h
  split at h
  · rename_i hunknown
    rcases Traced.yields_bind.mp h with ⟨first, _, second, hnote, hpure, heq⟩
    rcases Traced.yields_pure.mp hpure with ⟨hsecond, hv⟩
    rw [Traced.yields_note.mp hnote, hsecond, List.append_nil] at heq
    exact Or.inl ⟨hunknown, heq, hv⟩
  · exact absurd h Traced.not_yields_fail
  · exact absurd h Traced.not_yields_fail
  · rename_i ref hfound
    rcases Traced.yields_bind.mp h with ⟨first, _, second, hread, hpure, heq⟩
    rcases Traced.yields_pure.mp hpure with ⟨hsecond, hv⟩
    rw [(yields_read.mp hread).left, hsecond, List.append_nil] at heq
    refine Or.inr ⟨ref, hfound, ?_, hv⟩
    rw [heq]
    change [Notice.read (placed position (placed position ref))] = _
    rw [placed_placed]

/-! ## Leaves -/

inductive IsConstant : Expr -> Prop where
  | number (word : Lexeme) : IsConstant (.number word)
  | boolean (word : Lexeme) : IsConstant (.boolean word)
  | string (word : Lexeme) : IsConstant (.string word)
  | error (word : Lexeme) : IsConstant (.error word)
  | array (rows : List (List Item)) : IsConstant (.array rows)

theorem leaf_cases {e : Expr} (h : x.use? position e = none) :
    IsConstant e ∨
      (exists kind sheet body, e = .reference kind sheet body) ∨
      exists word, e = .name word := by
  cases e with
  | number word => exact Or.inl (.number word)
  | boolean word => exact Or.inl (.boolean word)
  | string word => exact Or.inl (.string word)
  | error word => exact Or.inl (.error word)
  | array rows => exact Or.inl (.array rows)
  | reference kind sheet body => exact Or.inr (Or.inl ⟨kind, sheet, body, rfl⟩)
  | name word => exact Or.inr (Or.inr ⟨word, rfl⟩)
  | call function args => exact absurd h (use?_call_ne_none function args)
  | binary op left right => cases h
  | sign op operand => cases h
  | percent operand => cases h

theorem ne_reference_of_isItem {v : Value} (h : v.isItem = true)
    (ref : Reference) : v ≠ .reference ref := by
  intro heq
  rw [heq] at h
  cases h

theorem ne_reference_of_arrayValue {rows : List (List Item)} {v : Value}
    (h : arrayValue rows = .ok v) (ref : Reference) : v ≠ .reference ref := by
  intro heq
  unfold arrayValue at h
  split at h
  · cases h
    cases heq
  · cases h

theorem yields_constant {e : Expr} (he : IsConstant e)
    {notices : List Notice} {v : Value}
    (h : (x.walk position formula e).Yields notices v) :
    notices = [] ∧ v.isFormulaValue = true ∧
      forall ref, v ≠ .reference ref := by
  cases he with
  | number word =>
      rw [walk] at h
      rcases Traced.yields_ofExcept.mp h with ⟨hnotices, hok⟩
      have hitem := Literal.isItem_of_number (except_mapError_eq_ok.mp hok)
      exact ⟨hnotices, Value.isFormulaValue_of_isItem hitem,
        ne_reference_of_isItem hitem⟩
  | array rows =>
      rw [walk] at h
      rcases Traced.yields_ofExcept.mp h with ⟨hnotices, hok⟩
      exact ⟨hnotices, isFormulaValue_of_arrayValue hok,
        ne_reference_of_arrayValue hok⟩
  | _ =>
      rw [walk] at h
      rcases Traced.yields_pure.mp h with ⟨hnotices, hv⟩
      rw [hv]
      exact ⟨hnotices, rfl, by simp⟩

theorem notices_of_leaf {e : Expr} (hleaf : x.use? position e = none)
    {notices : List Notice} {v : Value}
    (h : (x.walk position formula e).Yields notices v) :
    (exists word, e = .name word ∧
      (x.resolve word.text position.sheet = .unknown ∧
          notices = [.unknownName word.text] ∨
        exists ref, x.resolve word.text position.sheet = .found ref ∧
          notices = [.read (placed position ref)])) ∨
    (forall word, e ≠ .name word) ∧
      (notices = [] ∨ exists d, notices = [.offGrid d]) := by
  rcases leaf_cases hleaf with hconstant | ⟨kind, sheet, body, he⟩ | ⟨word, he⟩
  · refine Or.inr ⟨?_, Or.inl (yields_constant hconstant h).left⟩
    intro word he
    rw [he] at hconstant
    cases hconstant
  · rw [he, walk] at h
    refine Or.inr ⟨by simp [he], ?_⟩
    rcases yields_referenceValue h with
      ⟨_, _, ⟨_, _, hnotices, _⟩ | ⟨_, d, _, hnotices, _⟩⟩
    · exact Or.inl hnotices
    · exact Or.inr ⟨d, hnotices⟩
  · rw [he, walk] at h
    refine Or.inl ⟨word, he, ?_⟩
    rcases yields_nameValue h with ⟨hname, hnotices, _⟩ | ⟨ref, hname, hnotices, _⟩
    · exact Or.inl ⟨hname, hnotices⟩
    · exact Or.inr ⟨ref, hname, hnotices⟩

theorem isFormulaValue_of_leaf {e : Expr} (h : x.use? position e = none)
    {notices : List Notice} {v : Value}
    (hyields : (x.walk position formula e).Yields notices v) :
    v.isFormulaValue = true := by
  rcases leaf_cases h with hconstant | ⟨kind, sheet, body, he⟩ | ⟨word, he⟩
  · exact (yields_constant hconstant hyields).right.left
  · rw [he, walk] at hyields
    rcases yields_referenceValue hyields with ⟨_, _, hmark | herror⟩
    · rcases hmark with ⟨ref, _, _, hv⟩
      rw [hv]
      rfl
    · rcases herror with ⟨error, d, _, _, hv⟩
      rw [hv]
      rfl
  · rw [he, walk] at hyields
    rcases yields_nameValue hyields with hunknown | hfound
    · rw [hunknown.right.right]
      rfl
    · rcases hfound with ⟨ref, _, _, hv⟩
      rw [hv]
      rfl

/-! ## All parts -/

theorem isArgument_of_yields_walkArgs {args : List (Option Expr)}
    (hargs : forall c, c ∈ Expr.given args ->
      forall notices v, (x.walk position formula c).Yields notices v ->
        v.isFormulaValue = true)
    {notices : List Notice} {values : List Value}
    (h : (walkArgs x position formula args).Yields notices values) :
    forall v, v ∈ values -> v.isArgument = true := by
  intro v hv
  rcases missing_or_exists_of_yields_walkArgs h hv with hmissing | hchild
  · rw [hmissing]
    rfl
  · rcases hchild with ⟨c, own, hc, hyields⟩
    exact Value.isArgument_of_isFormulaValue (hargs c hc own v hyields)

theorem isFormulaValue_of_walk (hx : x.handler = ReferenceFunction.handler)
    (e : Expr) {notices : List Notice} {v : Value}
    (h : (x.walk position formula e).Yields notices v) :
    v.isFormulaValue = true := by
  induction e using Expr.children_induction generalizing notices v with
  | step e ih =>
      cases huse : x.use? position e with
      | none => exact isFormulaValue_of_leaf huse h
      | some found =>
          rcases found with ⟨args, use⟩
          rcases (yields_walk_of_use? huse).mp h with
            ⟨first, values, second, hargs, hvalue, _⟩
          have hvalues : forall w, w ∈ values -> w.isArgument = true := by
            apply isArgument_of_yields_walkArgs _ hargs
            intro c hc notices v hyields
            rw [given_of_use? huse] at hc
            exact ih c hc hyields
          exact (consumes_of_use? hx huse hvalues hvalue).drawn.isFormulaValue

end Extractor
end Precedents
