import Precedents.Formula.Parse
import Precedents.Proofs.Formula.Recovering
import Precedents.Proofs.Formula.Shifting
import Precedents.Proofs.Formula.Steps

/-!
# Reading back what is written down

A formula is read back from every text that renders it.  In front of each token
the reader looks for just the terminals that may come next.  What may come next
after a word ends that word, so the word is found again with its own terminal,
and fillers are passed over.
-/

namespace Precedents

/-! ## What may follow a word -/

namespace Reading

variable {r next : Reading} {t : Token}

def AtBreak (r : Reading) : Prop :=
  (exists e, r.phase = .operator e) ∨
    exists rows row, r.phase = .separator rows row

theorem atBreak_of_step (h : Step r t next)
    (ht : t.terminal.isOpenEnded = true) : next.AtBreak := by
  have hmark : forall {op : BinaryOp},
      BinaryOp.ofTerminal? t.terminal = some op -> next.AtBreak := by
    intro op hop
    revert ht hop
    cases t.terminal <;> simp [Terminal.isOpenEnded, BinaryOp.ofTerminal?]
  cases h with
  | leaf _ _ => exact Or.inl ⟨_, rfl⟩
  | qualified kind => exact Or.inl ⟨_, rfl⟩
  | power hop => exact hmark hop
  | operator hop _ _ => exact hmark hop
  | item _ => exact Or.inr ⟨_, _, rfl⟩
  | negated => exact Or.inr ⟨_, _, rfl⟩
  | _ => cases ht

theorem mem_breakChars_of_atBreak {u : Terminal} {c : Char} (hr : r.AtBreak)
    (hu : r.admits u = true) (hc : u.opening c = true) :
    c ∈ Terminal.breakChars := by
  rcases hr with ⟨e, hphase⟩ | ⟨rows, row, hphase⟩
  · simp only [admits, hphase] at hu
    cases u
    all_goals cases hu
    all_goals
      rw [beq_iff_eq.mp hc]
      decide
  · simp only [admits, hphase] at hu
    cases u
    all_goals cases hu
    all_goals
      rw [beq_iff_eq.mp hc]
      decide

theorem phase_of_step_comparison (h : Step r t next)
    (ht : t.terminal = .less ∨ t.terminal = .greater) :
    next.phase = .operand := by
  cases h with
  | leaf _ hleaf =>
      have hstarts := startsOperand_of_leaf hleaf
      rcases ht with ht | ht
      all_goals
        rw [ht] at hstarts
        cases hstarts
  | qualified kind => cases kind <;> simp [ReferenceKind.terminal] at ht
  | power _ => rfl
  | operator _ _ _ => rfl
  | item hitem =>
      have hstarts := startsItem_of_item? hitem
      rcases ht with ht | ht
      all_goals
        rw [ht] at hstarts
        cases hstarts
  | _ => simp at ht

theorem noComparison_of_operand {u : Terminal} {c : Char}
    (hr : r.phase = .operand) (hu : r.admits u = true)
    (hc : u.opening c = true) : c ≠ '=' ∧ c ≠ '>' := by
  have hopening : forall d, d ∈ ['=', '>'] ->
      forall v, startsOperand v = true ∨ v = .comma ∨ v = .rightParen ->
        v.opening d = false := by
    intro d hd v hv
    simp only [List.mem_cons, List.not_mem_nil, or_false] at hd
    rcases hd with hd | hd
    all_goals
      rw [hd]
      cases v
      all_goals first | decide | simp [startsOperand] at hv
  have hkind : startsOperand u = true ∨ u = .comma ∨ u = .rightParen := by
    simp only [admits, hr, Bool.or_eq_true, Bool.and_eq_true, beq_iff_eq] at hu
    rcases hu with hu | ⟨_, hu⟩
    · exact Or.inl hu
    · exact Or.inr hu
  constructor
  · intro heq
    rw [heq, hopening '=' (by decide) u hkind] at hc
    cases hc
  · intro heq
    rw [heq, hopening '>' (by decide) u hkind] at hc
    cases hc

end Reading

/-! ## What stands in front of the reader -/

namespace Terminal

theorem isFiller_head_eq_false {t : Terminal} {word rest : List Char} {c : Char}
    (ht : t ≠ blank) (hword : t.shape word = some [])
    (hc : (word ++ rest).head? = some c) : isFiller c = false := by
  rcases opens_shape t word [] hword with ⟨first, tail, hcons, hfirst⟩
  rw [hcons] at hc
  injection hc with hc
  rw [← hc]
  exact isFiller_eq_false_of_opening ht hfirst

theorem mem_breakChars_of_isFiller {c : Char} (h : isFiller c = true) :
    c ∈ breakChars := by
  simp only [isFiller, Bool.or_eq_true, beq_iff_eq] at h
  rcases h with (((h | h) | h) | h) | h
  all_goals
    rw [h]
    decide

theorem noComparison_of_isFiller {c : Char} (h : isFiller c = true) :
    c ≠ '=' ∧ c ≠ '>' := by
  constructor
  · intro heq
    rw [heq] at h
    cases h
  · intro heq
    rw [heq] at h
    cases h

end Terminal

theorem Laid.head {offset : Nat} {ts : List Token} {cs : List Char} {c : Char}
    (h : Laid offset ts cs) (hc : cs.head? = some c) :
    Terminal.isFiller c = true ∨
      exists t us, ts = t :: us ∧ t.terminal.opening c = true := by
  cases h with
  | last hgap => exact Or.inl (hgap c (List.mem_of_head? hc))
  | @token _ gap cs t ts hgap hoffset hword hrest =>
      cases gap with
      | cons d gap =>
          injection hc with hc
          rw [← hc]
          exact Or.inl (hgap d List.mem_cons_self)
      | nil =>
          rcases Terminal.opens_shape t.terminal t.text.toList [] hword.shape_eq
            with ⟨first, tail, hcons, hfirst⟩
          rw [hcons] at hc
          injection hc with hc
          rw [← hc]
          exact Or.inr ⟨t, ts, rfl, hfirst⟩

/-- What stands behind a token that has been taken does not change its word. -/
theorem Laid.endsBefore {r next last : Reading} {t : Token} {offset : Nat}
    {ts : List Token} {cs : List Char} (h : Laid offset ts cs)
    (ht : Reading.Step r t next) (hts : Shifts next ts last) :
    t.terminal.EndsBefore cs := by
  have hadmits : forall u us, ts = u :: us -> next.admits u.terminal = true := by
    intro u us heq
    rw [heq] at hts
    cases hts with
    | cons hu _ => exact Reading.admits_of_step (Reading.step_of_shift hu)
  constructor
  · intro hopen c hc
    rcases h.head hc with hfiller | ⟨u, us, heq, hopening⟩
    · exact Terminal.mem_breakChars_of_isFiller hfiller
    · exact Reading.mem_breakChars_of_atBreak (Reading.atBreak_of_step ht hopen)
        (hadmits u us heq) hopening
  · intro hcomparison c hc
    rcases h.head hc with hfiller | ⟨u, us, heq, hopening⟩
    · exact Terminal.noComparison_of_isFiller hfiller
    · exact Reading.noComparison_of_operand
        (Reading.phase_of_step_comparison ht hcomparison)
        (hadmits u us heq) hopening

/-! ## The run of the reader -/

namespace Run

variable {r next last : Reading} {patience offset : Nat} {e : Expr}

theorem go_gap {gap rest : List Char}
    (hgap : forall c, c ∈ gap -> Terminal.isFiller c = true)
    (hrest : forall c, rest.head? = some c -> Terminal.isFiller c = false) :
    go r patience offset 0 (gap ++ rest) =
      go r patience (offset + gap.length) 0 rest := by
  cases gap with
  | nil => rfl
  | cons c gap =>
      have hfirst : Terminal.first? (fun t => r.admits t || t == .blank)
          (c :: (gap ++ rest)) = some (.blank, c :: gap) :=
        Terminal.first?_blank (by simp) (List.cons_ne_nil c gap) hgap hrest
      have hglance : glance r (c :: (gap ++ rest)) = .blank (c :: gap) := by
        simp only [glance, hfirst]
      simp only [List.cons_append, go, hglance, List.length_cons,
        Nat.add_sub_cancel, go_skip]
      congr 1
      omega

theorem go_token {t : Token} {rest : List Char} (ht : r.shift t = .ok next)
    (hoffset : t.offset = offset) (hword : t.terminal.Spells t.text.toList)
    (hrest : t.terminal.EndsBefore rest) :
    go r patience offset 0 (t.text.toList ++ rest) =
      after (.shift t)
        (go next patience (offset + t.text.toList.length) 0 rest) := by
  have hadmits := Reading.admits_of_step (Reading.step_of_shift ht)
  have hblank : t.terminal ≠ .blank := Reading.ne_blank_of_admits hadmits
  have hfirst : Terminal.first? (fun u => r.admits u || u == .blank)
      (t.text.toList ++ rest) = some (t.terminal, t.text.toList) :=
    Terminal.first?_append (by simp [hadmits]) hword hrest hblank
  have hglance : glance r (t.text.toList ++ rest) =
      .expected t.terminal t.text.toList := by
    simp only [glance, hfirst]
  have htoken : (⟨⟨String.ofList t.text.toList, offset⟩, t.terminal⟩ : Token) = t := by
    rw [String.ofList_toList, ← hoffset]
  cases hchars : t.text.toList with
  | nil => exact absurd hchars (Terminal.ne_nil_of_shape hword.shape_eq)
  | cons c tail =>
      rw [hchars] at hglance htoken
      rw [List.cons_append] at hglance ⊢
      simp only [go, hglance, htoken, ht, List.length_cons, Nat.add_sub_cancel,
        go_skip]
      congr 2
      omega

/-- The reader takes just the tokens that are laid out, and reaches the end. -/
theorem go_of_laid {ts : List Token} {cs : List Char} (hlaid : Laid offset ts cs)
    (hshifts : Shifts r ts last) (hclose : last.close = .ok e) :
    go r patience offset 0 cs = ⟨ts.map .shift, some e⟩ := by
  induction hlaid generalizing r with
  | @last offset gap hgap =>
      have hpast : go r patience offset 0 (gap ++ []) = _ := go_gap hgap (by simp)
      rw [List.append_nil] at hpast
      cases hshifts
      rw [hpast, go, hclose]
      rfl
  | @token offset gap cs t ts hgap hoffset hword hrest ih =>
      cases hshifts with
      | cons ht hts =>
          have hstep := Reading.step_of_shift ht
          have hblank := Reading.ne_blank_of_admits (Reading.admits_of_step hstep)
          rw [go_gap hgap, go_token ht hoffset hword (hrest.endsBefore hstep hts),
            ih hts]
          · rfl
          · intro c hc
            exact Terminal.isFiller_head_eq_false hblank hword.shape_eq hc

end Run

/-! ## The round trip -/

theorem laid_word {t : Terminal} {word : String} (h : t.Spells word.toList) (offset : Nat) :
    Laid offset [⟨⟨word, offset⟩, t⟩] word.toList := by
  have hlaid : Laid offset [⟨⟨word, offset⟩, t⟩] ([] ++ (word.toList ++ [])) :=
    .token (by simp) rfl h (.last (by simp))
  simpa using hlaid

theorem Laid.append {offset : Nat} {ts us : List Token} {cs ds : List Char}
    (h : Laid offset ts cs) (hrest : Laid (offset + cs.length) us ds) :
    Laid offset (ts ++ us) (cs ++ ds) := by
  induction h with
  | @last offset gap hgap =>
      rw [List.nil_append]
      cases hrest with
      | @last _ gap' hgap' =>
          exact .last (List.forall_mem_append.mpr ⟨hgap, hgap'⟩)
      | @token _ gap' cs t ts hgap' hoffset hword hrest =>
          rw [← List.append_assoc]
          refine .token (List.forall_mem_append.mpr ⟨hgap, hgap'⟩) ?_ hword ?_
          · rw [hoffset, List.length_append, Nat.add_assoc]
          · rwa [List.length_append, ← Nat.add_assoc]
  | @token offset gap cs t ts hgap hoffset hword hlaid ih =>
      rw [List.append_assoc, List.append_assoc, List.cons_append]
      refine .token hgap hoffset hword (ih ?_)
      rwa [List.length_append, List.length_append, ← Nat.add_assoc, ← Nat.add_assoc] at hrest

theorem Run.exists_tokens_of_renders {e : Expr} {text : String} (h : e.Renders text) :
    exists ts, Run.ofText text = ⟨List.map .shift ts, some e⟩ := by
  rcases h with ⟨ts, hspelled, hlaid⟩
  rcases shifts_of_spelled hspelled with ⟨last, hshifts, hclose⟩
  rcases hlaid with hlaid | ⟨mark, hlaid⟩
  · exact ⟨ts, Run.go_of_laid hlaid (shifts_start hshifts hclose) hclose⟩
  · exact ⟨⟨mark, .equal⟩ :: ts,
      Run.go_of_laid hlaid (Shifts.cons rfl hshifts) hclose⟩

theorem Run.failures_map_shift (ts : List Token) (tree : Option Expr) :
    Run.failures ⟨ts.map .shift, tree⟩ = [] := by
  simp [Run.failures, List.filterMap_map]

theorem ofText_of_laid {e : Expr} {ts : List Token} {text : String}
    (hspelled : Spelled (.operand 1 e) ts) (hlaid : Laid 1 ts text.toList) :
    Parse.ofText ("=" ++ text) = ⟨some e, []⟩ := by
  have hequal : Terminal.equal.Spells "=".toList := by decide
  have hall := (laid_word hequal 0).append hlaid
  rw [← String.toList_append] at hall
  rcases Run.exists_tokens_of_renders ⟨ts, hspelled, Or.inr ⟨_, hall⟩⟩ with ⟨read, hrun⟩
  rw [Parse.ofText, hrun, Parse.ofRun, Run.failures_map_shift]
  rfl

theorem ofText_bareCall {word : String}
    (hword : Terminal.functionName.Spells word.toList) :
    Parse.ofText ("=" ++ (word ++ ")")) = ⟨some (.call ⟨word, 1⟩ [none]), []⟩ := by
  have hclose : Terminal.rightParen.Spells ")".toList := by decide
  have hlaid := (laid_word hword 1).append (laid_word hclose _)
  rw [← String.toList_append] at hlaid
  exact ofText_of_laid (.call _ _ (.last .omitted)) hlaid

/--
Every rendering of a formula is read as that formula, without any complaint.
-/
theorem Parse.ofText_of_renders {e : Expr} {text : String} (h : e.Renders text) :
    Parse.ofText text = ⟨some e, []⟩ := by
  rcases Run.exists_tokens_of_renders h with ⟨ts, hrun⟩
  rw [Parse.ofText, hrun, Parse.ofRun, Run.failures_map_shift]
  rfl

def surcharge : Expr :=
  .sign .minus (.percent (.binary .add (.name ⟨"Rate", 3⟩)
    (.call ⟨"F(", 8⟩ [none, some (.number ⟨"2", 12⟩)])))

theorem renders_surcharge : surcharge.Renders "=-(Rate+F( ,2))%" := by
  have call : Spelled
      (.operand 4 (.call ⟨"F(", 8⟩ [none, some (.number ⟨"2", 12⟩)]))
      [⟨⟨"F(", 8⟩, .functionName⟩, ⟨⟨",", 11⟩, .comma⟩,
        ⟨⟨"2", 12⟩, .number⟩, ⟨⟨")", 13⟩, .rightParen⟩] :=
    .call _ _ (.more _ .omitted (.last (.given (.number _))))
  have sum : Spelled (.operand 1 _) _ := .binary ⟨⟨"+", 7⟩, .plus⟩ rfl (by decide)
    (.name ⟨"Rate", 3⟩) call
  have share : Spelled (.operand 5 _) _ := .percent ⟨"%", 15⟩ (by decide)
    (.paren ⟨"(", 2⟩ ⟨")", 14⟩ sum)
  refine ⟨_, .sign .minus ⟨"-", 1⟩ (by decide) share, Or.inr ⟨⟨"=", 0⟩, ?_⟩⟩
  have none : forall c, c ∈ ([] : List Char) -> Terminal.isFiller c = true := by
    simp
  have space : forall c, c ∈ [' '] -> Terminal.isFiller c = true := by decide
  exact .token none rfl (by decide) <| .token none rfl (by decide) <|
    .token none rfl (by decide) <| .token none rfl (by decide) <|
    .token none rfl (by decide) <| .token none rfl (by decide) <|
    .token space rfl (by decide) <| .token none rfl (by decide) <|
    .token none rfl (by decide) <| .token none rfl (by decide) <|
    .token none rfl (by decide) <| .last none

theorem ofText_surcharge : surcharge.Renders "=-(Rate+F( ,2))%" ∧
    Parse.ofText "=-(Rate+F( ,2))%" = ⟨some surcharge, []⟩ :=
  ⟨renders_surcharge, Parse.ofText_of_renders renders_surcharge⟩

end Precedents
