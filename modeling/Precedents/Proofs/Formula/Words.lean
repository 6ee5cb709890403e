import Precedents.Formula.Parse
import Precedents.Proofs.Formula.Subformulas
import Precedents.Proofs.Formula.Shapes
import Precedents.Proofs.Formula.Steps

/-!
# Where the words of a tree come from

A reader puts no word into a tree that it has not read.  A property of tokens
therefore holds of all words of what has been read, after every token and after
every refusal, if it holds of the tokens.
-/

namespace Precedents

namespace Item

def token : Item -> Token
  | .number word => ⟨word, .number⟩
  | .negative word => ⟨word, .number⟩
  | .string word => ⟨word, .string⟩
  | .boolean word => ⟨word, .boolean⟩
  | .error word => ⟨word, .error⟩

end Item

namespace Expr

/-- The tokens that stand in a part itself and not in its children. -/
def ownTokens : Expr -> List Token
  | .number word => [⟨word, .number⟩]
  | .boolean word => [⟨word, .boolean⟩]
  | .string word => [⟨word, .string⟩]
  | .error word => [⟨word, .error⟩]
  | .reference kind sheet body =>
      (sheet.map fun word => ⟨word, .sheet⟩).toList ++ [⟨body, kind.terminal⟩]
  | .name word => [⟨word, .name⟩]
  | .call function _ => [⟨function, .functionName⟩]
  | .array rows => rows.flatten.map Item.token
  | .binary _ _ _ => []
  | .sign _ _ => []
  | .percent _ => []

def Words (P : Token -> Prop) (e : Expr) : Prop :=
  forall p, p ∈ e.parts -> forall t, t ∈ p.ownTokens -> P t

theorem words_iff {P : Token -> Prop} {e : Expr} :
    e.Words P <->
      (forall t, t ∈ e.ownTokens -> P t) ∧
        forall c, c ∈ e.children -> c.Words P := by
  constructor
  · intro h
    constructor
    · exact h e (self_mem_parts e)
    · intro c hc p hp
      exact h p (mem_parts.mpr (Or.inr ⟨c, hc, hp⟩))
  · intro h p hp
    rcases mem_parts.mp hp with heq | hchild
    · rw [heq]
      exact h.left
    · rcases hchild with ⟨c, hc, hpc⟩
      exact h.right c hc p hpc

theorem words_of_single {P : Token -> Prop} {e : Expr} {t : Token}
    (hchildren : e.children = []) (hown : e.ownTokens = [t]) (ht : P t) :
    e.Words P := by
  refine words_iff.mpr ⟨?_, ?_⟩
  · intro u hu
    rw [hown] at hu
    rw [List.mem_singleton.mp hu]
    exact ht
  · intro c hc
    rw [hchildren] at hc
    cases hc

end Expr

/-! ## The words of a reading -/

namespace Frame

def Words (P : Token -> Prop) : Frame -> Prop
  | .binary _ left => left.Words P
  | .sign _ => True
  | .paren => True
  | .call function args =>
      P ⟨function, .functionName⟩ ∧ forall c, some c ∈ args -> c.Words P

variable {P : Token -> Prop}

theorem words_fill {e : Expr} {frame : Frame} (he : e.Words P)
    (hframe : frame.Words P) : (frame.fill e).Words P := by
  cases frame with
  | binary op left =>
      refine Expr.words_iff.mpr ⟨?_, ?_⟩
      · simp [fill, Expr.ownTokens]
      · intro c hc
        rcases List.mem_cons.mp hc with hc | hc
        · rw [hc]
          exact hframe
        · rw [List.mem_singleton.mp hc]
          exact he
  | sign op =>
      refine Expr.words_iff.mpr ⟨?_, ?_⟩
      · simp [fill, Expr.ownTokens]
      · intro c hc
        rw [List.mem_singleton.mp hc]
        exact he
  | paren => exact he
  | call function args =>
      refine Expr.words_iff.mpr ⟨?_, ?_⟩
      · intro t ht
        rw [List.mem_singleton.mp ht]
        exact hframe.left
      · intro c hc
        rcases List.mem_append.mp (Expr.mem_given.mp hc) with hc | hc
        · exact hframe.right c hc
        · cases List.mem_singleton.mp hc
          exact he

theorem words_unwind (level : Nat) {stack : List Frame} {e : Expr}
    (hstack : forall frame, frame ∈ stack -> frame.Words P)
    (he : e.Words P) :
    (forall frame, frame ∈ (unwind level stack e).1 -> frame.Words P) ∧
      (unwind level stack e).2.Words P := by
  induction stack generalizing e with
  | nil => exact ⟨hstack, he⟩
  | cons frame stack ih =>
      rw [unwind]
      split
      · apply ih
        · intro other hother
          exact hstack other (List.mem_cons_of_mem _ hother)
        · exact words_fill he (hstack frame (List.mem_cons_self ..))
      · exact ⟨hstack, he⟩

end Frame

def Phase.Words (P : Token -> Prop) : Phase -> Prop
  | .start => True
  | .operand => True
  | .qualified sheet => P ⟨sheet, .sheet⟩
  | .operator left => left.Words P
  | .complete whole => whole.Words P
  | .item rows row => forall item, item ∈ rows.flatten ++ row -> P item.token
  | .negatedItem rows row =>
      forall item, item ∈ rows.flatten ++ row -> P item.token
  | .separator rows row =>
      forall item, item ∈ rows.flatten ++ row -> P item.token

namespace Reading

variable {P : Token -> Prop} {r : Reading}

structure Words (P : Token -> Prop) (r : Reading) : Prop where
  stack : forall frame, frame ∈ r.stack -> frame.Words P
  phase : r.phase.Words P

/-- All words of the reading that goes on satisfy `P`, after a token or a refusal. -/
def Goes (P : Token -> Prop) : Except Reading Reading -> Prop
  | .ok next => next.Words P
  | .error next => next.Words P

theorem words_empty (P : Token -> Prop) : empty.Words P := by
  constructor
  · intro frame hframe
    cases hframe
  · trivial

theorem words_cons {stack : List Frame} {frame : Frame} {phase : Phase}
    (hstack : forall other, other ∈ stack -> other.Words P)
    (hframe : frame.Words P) (hphase : phase.Words P) :
    Words P ⟨frame :: stack, phase⟩ := by
  constructor
  · intro other hother
    rcases List.mem_cons.mp hother with hother | hother
    · rw [hother]
      exact hframe
    · exact hstack other hother
  · exact hphase

theorem words_call {function : Lexeme} {args : List (Option Expr)}
    {arg : Option Expr} (hcall : (Frame.call function args).Words P)
    (harg : forall e, arg = some e -> e.Words P) :
    (Frame.call function (args ++ [arg])).Words P := by
  refine ⟨hcall.left, ?_⟩
  intro c hc
  rcases List.mem_append.mp hc with hc | hc
  · exact hcall.right c hc
  · exact harg c (List.mem_singleton.mp hc).symm

theorem words_leaf {t : Token} {e : Expr} (h : Leaf t e) (ht : P t) :
    e.Words P := by
  cases h with
  | _ => exact Expr.words_of_single rfl rfl ht

theorem words_whole {stack : List Frame} {whole : Expr} (hr : r.Words P)
    (h : Whole r stack whole) :
    (forall frame, frame ∈ stack -> frame.Words P) ∧ whole.Words P := by
  cases h with
  | operator hunwind =>
      have hall := Frame.words_unwind 1 hr.stack hr.phase
      rw [show Frame.unwind 1 _ _ = _ from hunwind] at hall
      exact hall
  | complete => exact ⟨hr.stack, hr.phase⟩

theorem words_argument {stack : List Frame} {arg : Option Expr}
    (hr : r.Words P) (h : Argument r stack arg) :
    (forall frame, frame ∈ stack -> frame.Words P) ∧
      forall e, arg = some e -> e.Words P := by
  cases h with
  | omitted => exact ⟨hr.stack, by simp⟩
  | given hwhole =>
      have hall := words_whole hr hwhole
      refine ⟨hall.left, ?_⟩
      intro e he
      cases he
      exact hall.right

theorem words_row {rows : List (List Item)} {row : List Item} {item : Item}
    (hitems : forall other, other ∈ rows.flatten ++ row -> P other.token)
    (hitem : P item.token) :
    forall other, other ∈ rows.flatten ++ (row ++ [item]) -> P other.token := by
  intro other hother
  rw [<- List.append_assoc] at hother
  rcases List.mem_append.mp hother with hother | hother
  · exact hitems other hother
  · rw [List.mem_singleton.mp hother]
    exact hitem

theorem token_of_item? {t : Token} {item : Item} (h : item? t = some item) :
    item.token = t := by
  rcases t with ⟨word, terminal⟩
  unfold item? at h
  split at h
  all_goals cases h
  all_goals rename_i hterminal
  all_goals rw [show terminal = _ from hterminal]
  all_goals rfl

theorem words_step {t : Token} {next : Reading} (hr : r.Words P) (ht : P t)
    (h : Step r t next) : next.Words P := by
  have hstack := hr.stack
  have hphase := hr.phase
  cases h with
  | equal => exact ⟨hstack, trivial⟩
  | leaf _ hleaf => exact ⟨hstack, words_leaf hleaf ht⟩
  | sheet _ => exact ⟨hstack, ht⟩
  | qualified kind =>
      refine ⟨hstack, Expr.words_iff.mpr ⟨?_, by simp [Expr.children]⟩⟩
      intro u hu
      rcases List.mem_append.mp hu with hu | hu
      · rw [List.mem_singleton.mp hu]
        exact hphase
      · rw [List.mem_singleton.mp hu]
        exact ht
  | call _ => exact words_cons hstack ⟨ht, by simp⟩ trivial
  | nextArgument hargument =>
      have hall := words_argument hr hargument
      rcases List.forall_mem_cons.mp hall.left with ⟨hcall, hrest⟩
      exact words_cons hrest (words_call hcall hall.right) trivial
  | closeCall hargument =>
      have hall := words_argument hr hargument
      rcases List.forall_mem_cons.mp hall.left with ⟨hcall, hrest⟩
      have hmore := words_call hcall hall.right
      refine ⟨hrest, Expr.words_iff.mpr ⟨?_, ?_⟩⟩
      · intro u hu
        rw [List.mem_singleton.mp hu]
        exact hmore.left
      · intro c hc
        exact hmore.right c (Expr.mem_given.mp hc)
  | paren _ => exact words_cons hstack trivial trivial
  | closeParen hwhole =>
      have hall := words_whole hr hwhole
      exact ⟨(List.forall_mem_cons.mp hall.left).right, hall.right⟩
  | minus _ => exact words_cons hstack trivial trivial
  | plus _ => exact words_cons hstack trivial trivial
  | percent =>
      refine ⟨hstack, Expr.words_iff.mpr ⟨by simp [Expr.ownTokens], ?_⟩⟩
      intro c hc
      rw [List.mem_singleton.mp hc]
      exact hphase
  | power _ => exact words_cons hstack hphase trivial
  | @operator _ _ _ _ _ op _ _ hunwind =>
      have hall := Frame.words_unwind op.level hstack hphase
      rw [hunwind] at hall
      exact words_cons hall.left hall.right trivial
  | array _ => exact ⟨hstack, by simp [Phase.Words]⟩
  | item hitem =>
      refine ⟨hstack, words_row hphase ?_⟩
      rw [token_of_item? hitem]
      exact ht
  | negation => exact ⟨hstack, hphase⟩
  | negated => exact ⟨hstack, words_row hphase ht⟩
  | nextItem => exact ⟨hstack, hphase⟩
  | nextRow =>
      refine ⟨hstack, ?_⟩
      simpa [Phase.Words] using hphase
  | closeArray =>
      refine ⟨hstack, Expr.words_iff.mpr ⟨?_, by simp [Expr.children]⟩⟩
      intro u hu
      rcases List.mem_map.mp hu with ⟨item, hitem, heq⟩
      rw [<- heq]
      apply hphase item
      simpa using hitem

theorem words_shift {t : Token} (hr : r.Words P) (ht : P t) :
    Goes P (r.shift t) := by
  have houtcome := outcome_shift r t
  generalize r.shift t = outcome at houtcome
  cases houtcome with
  | taken hstep => exact words_step hr ht hstep
  | refused => exact hr
  | unwound hwhole =>
      have hall := words_whole hr hwhole
      exact ⟨hall.left, hall.right⟩

theorem words_close {e : Expr} (hr : r.Words P) (h : r.close = .ok e) :
    e.Words P := by
  rcases r with ⟨stack, phase⟩
  have hphase := hr.phase
  cases phase with
  | operator left =>
      have hall := Frame.words_unwind 1 hr.stack hphase
      simp only [close] at h
      split at h
      · cases h
        exact hall.right
      · cases h
  | complete whole =>
      simp only [close] at h
      split at h
      · cases h
        exact hphase
      · cases h
  | _ => cases h

end Reading

/-! ## The words of a run -/

def Token.Shaped (t : Token) : Prop :=
  exists rest, t.terminal.shape (t.text.toList ++ rest) = some rest

theorem Token.shaped_of_found {terminal : Terminal} {cs word : List Char}
    (h : terminal.found cs = some word) (offset : Nat) :
    Token.Shaped ⟨⟨String.ofList word, offset⟩, terminal⟩ := by
  rcases Terminal.found_eq_some.mp h with ⟨rest, hcs, hrest⟩
  refine ⟨rest, ?_⟩
  rw [hcs] at hrest
  simpa using hrest

namespace Run

theorem found_of_glance {r : Reading} {cs word : List Char} {t : Terminal}
    (h : glance r cs = .expected t word) : t.found cs = some word := by
  unfold glance at h
  split at h
  · cases h
  · rename_i hfirst
    cases h
    exact (Terminal.found_of_first? hfirst).right
  · split at h
    · cases h
    · cases h

inductive Continues (r : Reading) (offset : Nat) (rest : List Char) :
    Run -> Prop
  | blank (patience skip : Nat) :
      Continues r offset rest (go r patience (offset + 1) skip rest)
  | token {token : Token} {next : Reading} (patience skip : Nat)
      (htoken : token.Shaped) (hshift : r.shift token = .ok next) :
      Continues r offset rest
        (after (.shift token) (go next patience (offset + 1) skip rest))
  | refusal {token : Token} {next : Reading} (f : Failure)
      (patience skip : Nat) (htoken : token.Shaped)
      (hshift : r.shift token = .error next) :
      Continues r offset rest
        (after (.failure f) (go next patience (offset + 1) skip rest))
  | failure (f : Failure) (patience skip : Nat) :
      Continues r offset rest
        (after (.failure f) (go r patience (offset + 1) skip rest))
  | stuck (f : Failure) : Continues r offset rest (stuck f)

theorem continues (r : Reading) (patience offset skip : Nat) (c : Char)
    (rest : List Char) :
    Continues r offset rest (go r patience offset skip (c :: rest)) := by
  cases skip with
  | succ skip =>
      rw [go]
      exact .blank patience skip
  | zero =>
      rw [go]
      split
      · exact .blank patience _
      · rename_i terminal word hglance
        have htoken := Token.shaped_of_found (found_of_glance hglance) offset
        simp only
        split
        · rename_i next hshift
          exact .token patience _ htoken hshift
        · rename_i next hshift
          split
          · exact .stuck _
          · exact .refusal _ _ _ htoken hshift
      · simp only
        split
        · exact .stuck _
        · exact .failure _ _ _
      · simp only
        split
        · exact .stuck _
        · exact .failure _ _ _

theorem words_of_go {r : Reading} {patience offset skip : Nat}
    {cs : List Char} {e : Expr} (hr : r.Words Token.Shaped)
    (h : (go r patience offset skip cs).tree = some e) :
    e.Words Token.Shaped := by
  induction cs generalizing r patience offset skip with
  | nil =>
      rw [go] at h
      split at h
      · rename_i whole hclose
        cases h
        exact Reading.words_close hr hclose
      · cases h
  | cons c rest ih =>
      have hgoes := continues r patience offset skip c rest
      generalize go r patience offset skip (c :: rest) = run at h hgoes
      cases hgoes with
      | blank patience skip => exact ih hr h
      | token patience skip htoken hshift =>
          have hnext := Reading.words_shift hr htoken
          rw [hshift] at hnext
          exact ih hnext h
      | refusal f patience skip htoken hshift =>
          have hnext := Reading.words_shift hr htoken
          rw [hshift] at hnext
          exact ih hnext h
      | failure f patience skip => exact ih hr h
      | stuck f => cases h

end Run

/-- Every word in the tree of a text is a word of its terminal, recovered or not. -/
theorem Parse.words_of_tree {text : String} {e : Expr}
    (h : (ofText text).tree = some e) : e.Words Token.Shaped :=
  Run.words_of_go (Reading.words_empty _) h

end Precedents
