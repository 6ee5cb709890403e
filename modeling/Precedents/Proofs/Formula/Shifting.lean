import Precedents.Proofs.Formula.Rendering

/-!
# Reading the tokens of a formula

A reader that waits for an operand takes all tokens of one.  It then holds a
part of the operand in its phase and the rest in frames on its stack, none of
which lets go of the operand before a token of the operand's level comes.
-/

namespace Precedents

inductive Shifts : Reading -> List Token -> Reading -> Prop where
  | nil (r : Reading) : Shifts r [] r
  | cons {r next last : Reading} {t : Token} {ts : List Token}
      (h : r.shift t = .ok next) (hrest : Shifts next ts last) :
      Shifts r (t :: ts) last

namespace Shifts

variable {r middle last : Reading} {t : Token} {ts us : List Token}

theorem append (hfirst : Shifts r ts middle) (hsecond : Shifts middle us last) :
    Shifts r (ts ++ us) last := by
  induction hfirst with
  | nil r => exact hsecond
  | cons h _ ih => exact cons h (ih hsecond)

theorem single (h : r.shift t = .ok last) : Shifts r [t] last :=
  cons h (nil last)

theorem snoc (hfirst : Shifts r ts middle) (h : middle.shift t = .ok last) :
    Shifts r (ts ++ [t]) last :=
  append hfirst (single h)

end Shifts

namespace Frame

def fillAll (frames : List Frame) (e : Expr) : Expr :=
  frames.foldl (fun operand frame => frame.fill operand) e

/-- The innermost frame lets go of an operand when a token of the level comes. -/
def Loose (level : Nat) (stack : List Frame) : Prop :=
  forall frame, stack.head? = some frame -> frame.level < level

theorem loose_cons {level : Nat} {frame : Frame} {stack : List Frame} :
    Loose level (frame :: stack) <-> frame.level < level := by
  simp [Loose]

theorem loose_nil (level : Nat) : Loose level [] := by
  simp [Loose]

theorem Loose.mono {level higher : Nat} {stack : List Frame}
    (h : Loose level stack) (hle : level ≤ higher) : Loose higher stack := by
  intro frame hframe
  exact Nat.lt_of_lt_of_le (h frame hframe) hle

theorem level_lt_percentLevel (frame : Frame) : frame.level < percentLevel := by
  cases frame with
  | binary op left =>
      change op.level < percentLevel
      cases op <;> decide
  | sign op => exact Nat.lt_add_one_of_lt (Nat.lt_add_one _)
  | paren => exact Nat.zero_lt_succ _
  | call function args => exact Nat.zero_lt_succ _

theorem fillAll_snoc (frames : List Frame) (frame : Frame) (e : Expr) :
    fillAll (frames ++ [frame]) e = frame.fill (fillAll frames e) := by
  simp [fillAll]

/-- Frames that hold an operand tightly enough are put together with it. -/
theorem unwind_append {level : Nat} {frames stack : List Frame} {e : Expr}
    (hframes : forall frame, frame ∈ frames -> level ≤ frame.level)
    (hstack : Loose level stack) :
    unwind level (frames ++ stack) e = (stack, fillAll frames e) := by
  induction frames generalizing e with
  | nil =>
      cases stack with
      | nil => rfl
      | cons frame stack =>
          have hlt := loose_cons.mp hstack
          rw [List.nil_append, unwind, if_neg (by omega)]
          rfl
  | cons frame frames ih =>
      have hle := hframes frame List.mem_cons_self
      rw [List.cons_append, unwind, if_pos hle, ih]
      · rfl
      · intro other hother
        exact hframes other (List.mem_cons_of_mem _ hother)

end Frame

/-! ## Arrays -/

theorem shifts_item {item : Item} {ts : List Token} (h : ItemSpelled item ts)
    (stack : List Frame) (rows : List (List Item)) (row : List Item) :
    Shifts ⟨stack, .item rows row⟩ ts
      ⟨stack, .separator rows (row ++ [item])⟩ := by
  cases h with
  | number word => exact .single rfl
  | negative mark word => exact .cons rfl (.single rfl)
  | string word => exact .single rfl
  | boolean word => exact .single rfl
  | error word => exact .single rfl

theorem shifts_row {row : List Item} {ts : List Token} (h : RowSpelled row ts)
    (stack : List Frame) (rows : List (List Item)) (front : List Item) :
    Shifts ⟨stack, .item rows front⟩ ts
      ⟨stack, .separator rows (front ++ row)⟩ := by
  induction h generalizing front with
  | last hitem => exact shifts_item hitem stack rows front
  | @more item _ _ _ mark hitem _ ih =>
      apply (shifts_item hitem stack rows front).append
      apply Shifts.cons rfl
      have hrest := ih (front ++ [item])
      rw [List.append_assoc] at hrest
      exact hrest

theorem shifts_rows {rows : List (List Item)} {ts : List Token}
    (h : RowsSpelled rows ts) (stack : List Frame)
    (front : List (List Item)) (right : Lexeme) :
    Shifts ⟨stack, .item front []⟩ (ts ++ [⟨right, .rightBrace⟩])
      ⟨stack, .operator (.array (front ++ rows))⟩ := by
  induction h generalizing front with
  | last hrow => exact (shifts_row hrow stack front []).snoc rfl
  | @more row _ _ _ mark hrow _ ih =>
      rw [List.append_assoc, List.cons_append]
      apply (shifts_row hrow stack front []).append
      apply Shifts.cons rfl
      have hrest := ih (front ++ [row])
      rw [List.append_assoc] at hrest
      exact hrest

/-! ## Operands -/

/-- Places ask for a level up to that of signs, or for that of percent marks. -/
def AskedFor (level : Nat) : Prop :=
  level ≤ SignOp.level ∨ percentLevel ≤ level

/--
The reader takes the tokens of an operand on top of any stack, unless a frame
there would let go of the operand too late.  From the level of signs on nothing
inside an operand makes a frame let go.
-/
def ReadsOperand (level : Nat) (e : Expr) (ts : List Token) : Prop :=
  AskedFor level ->
    forall stack, (level < SignOp.level -> Frame.Loose level stack) ->
      exists frames rest,
        Shifts ⟨stack, .operand⟩ ts ⟨frames ++ stack, .operator rest⟩ ∧
          (forall frame, frame ∈ frames -> level ≤ frame.level) ∧
          Frame.fillAll frames rest = e

def ReadsPhrase : Phrase -> List Token -> Prop
  | .operand level e, ts => ReadsOperand level e ts
  | .argument arg, ts => forall function args stack,
      (forall mark, Shifts ⟨.call function args :: stack, .operand⟩
        (ts ++ [⟨mark, .comma⟩])
        ⟨.call function (args ++ [arg]) :: stack, .operand⟩) ∧
      (forall right, Shifts ⟨.call function args :: stack, .operand⟩
        (ts ++ [⟨right, .rightParen⟩])
        ⟨stack, .operator (.call function (args ++ [arg]))⟩)
  | .arguments args, ts => forall function front stack right,
      Shifts ⟨.call function front :: stack, .operand⟩
        (ts ++ [⟨right, .rightParen⟩])
        ⟨stack, .operator (.call function (front ++ args))⟩

section Operands

variable {level : Nat} {e left right : Expr} {ts us : List Token}

theorem readsOperand_of_shifts
    (h : forall stack, Shifts ⟨stack, .operand⟩ ts ⟨stack, .operator e⟩) :
    ReadsOperand level e ts := by
  intro _hlevel stack _hstack
  exact ⟨[], e, h stack, by simp, rfl⟩

theorem shifts_of_readsOperand (h : ReadsOperand percentLevel e ts)
    (stack : List Frame) : Shifts ⟨stack, .operand⟩ ts ⟨stack, .operator e⟩ := by
  have hlevel : AskedFor percentLevel := Or.inr (Nat.le_refl _)
  have hstack : percentLevel < SignOp.level -> Frame.Loose percentLevel stack :=
    fun hlt => absurd hlt (by decide)
  rcases h hlevel stack hstack with ⟨frames, rest, hshifts, hframes, hfill⟩
  cases frames with
  | nil =>
      have hrest : rest = e := hfill
      rw [hrest] at hshifts
      exact hshifts
  | cons frame frames =>
      have hle := hframes frame List.mem_cons_self
      have hlt := frame.level_lt_percentLevel
      omega

theorem shifts_unwound (h : ReadsOperand 1 e ts) (frame : Frame)
    (hframe : frame.level = 0) (stack : List Frame) :
    exists frames rest,
      Shifts ⟨frame :: stack, .operand⟩ ts
        ⟨frames ++ frame :: stack, .operator rest⟩ ∧
      Frame.unwindAll (frames ++ frame :: stack) rest = (frame :: stack, e) := by
  have hlevel : AskedFor 1 := Or.inl (by decide)
  have hloose : Frame.Loose 1 (frame :: stack) := by
    rw [Frame.loose_cons, hframe]
    exact Nat.one_pos
  rcases h hlevel (frame :: stack) (fun _ => hloose) with
    ⟨frames, rest, hshifts, hframes, hfill⟩
  refine ⟨frames, rest, hshifts, ?_⟩
  rw [Frame.unwindAll, Frame.unwind_append hframes hloose, hfill]

theorem reads_under {inner : Nat} (h : ReadsOperand inner e ts) (frame : Frame)
    (hloose : inner < SignOp.level -> frame.level < inner)
    (hinner : level ≤ inner) (hframe : level ≤ frame.level)
    (hasked : AskedFor inner) (stack : List Frame) :
    exists frames rest,
      Shifts ⟨frame :: stack, .operand⟩ ts ⟨frames ++ stack, .operator rest⟩ ∧
        (forall other, other ∈ frames -> level ≤ other.level) ∧
        Frame.fillAll frames rest = frame.fill e := by
  have hstack : inner < SignOp.level -> Frame.Loose inner (frame :: stack) := by
    intro hlt
    exact Frame.loose_cons.mpr (hloose hlt)
  rcases h hasked (frame :: stack) hstack with
    ⟨frames, rest, hshifts, hframes, hfill⟩
  refine ⟨frames ++ [frame], rest, ?_, ?_, ?_⟩
  · rw [List.append_assoc]
    exact hshifts
  · intro other hother
    rcases List.mem_append.mp hother with hmem | hmem
    · exact Nat.le_trans hinner (hframes other hmem)
    · rw [List.mem_singleton.mp hmem]
      exact hframe
  · rw [Frame.fillAll_snoc, hfill]

theorem shift_operator {op : BinaryOp} {mark : Token}
    (hmark : BinaryOp.ofTerminal? mark.terminal = some op) (hop : op ≠ .power)
    {frames stack : List Frame}
    (hframes : forall frame, frame ∈ frames -> op.level ≤ frame.level)
    (hstack : Frame.Loose op.level stack) :
    Reading.shift ⟨frames ++ stack, .operator e⟩ mark =
      .ok ⟨.binary op (Frame.fillAll frames e) :: stack, .operand⟩ := by
  have hunwind := Frame.unwind_append (e := e) hframes hstack
  simp only [Reading.shift, Reading.shiftOperator, hmark]
  cases op with
  | power => exact absurd rfl hop
  | _ => simp only [hunwind]

theorem shift_power {mark : Token}
    (hmark : BinaryOp.ofTerminal? mark.terminal = some .power)
    (stack : List Frame) :
    Reading.shift ⟨stack, .operator e⟩ mark =
      .ok ⟨.binary .power e :: stack, .operand⟩ := by
  simp only [Reading.shift, Reading.shiftOperator, hmark]

theorem reads_power {mark : Token}
    (hmark : BinaryOp.ofTerminal? mark.terminal = some .power)
    (hlevel : level ≤ BinaryOp.power.level)
    (hleft : ReadsOperand percentLevel left ts)
    (hright : ReadsOperand SignOp.level right us) :
    ReadsOperand level (.binary .power left right) (ts ++ mark :: us) := by
  intro hasked stack _hstack
  have hsign : level ≤ SignOp.level := by
    simp only [AskedFor, SignOp.level, percentLevel] at hasked ⊢
    simp only [BinaryOp.level] at hlevel
    omega
  rcases reads_under hright (.binary .power left) (by simp) hsign hlevel
    (Or.inl (Nat.le_refl _)) stack with ⟨frames, rest, hshifts, hframes, hfill⟩
  refine ⟨frames, rest, ?_, hframes, hfill⟩
  apply (shifts_of_readsOperand hleft stack).append
  exact Shifts.cons (shift_power hmark stack) hshifts

theorem reads_operator {op : BinaryOp} {mark : Token}
    (hmark : BinaryOp.ofTerminal? mark.terminal = some op) (hop : op ≠ .power)
    (hlevel : level ≤ op.level)
    (hleft : ReadsOperand op.level left ts)
    (hright : ReadsOperand (op.level + 1) right us) :
    ReadsOperand level (.binary op left right) (ts ++ mark :: us) := by
  intro _hasked stack hstack
  have hsign : op.level < SignOp.level := by
    cases op with
    | power => exact absurd rfl hop
    | _ => decide
  have hloose : Frame.Loose op.level stack :=
    (hstack (Nat.lt_of_le_of_lt hlevel hsign)).mono hlevel
  rcases hleft (Or.inl (Nat.le_of_lt hsign)) stack (fun _ => hloose) with
    ⟨frames, rest, hshifts, hframes, hfill⟩
  have hmarked := shift_operator (e := rest) hmark hop hframes hloose
  rw [hfill] at hmarked
  rcases reads_under hright (.binary op left) (fun _ => Nat.lt_succ_self _)
    (Nat.le_succ_of_le hlevel) hlevel (Or.inl hsign) stack with
    ⟨others, last, hothers, hlevels, hwhole⟩
  exact ⟨others, last, hshifts.append (Shifts.cons hmarked hothers), hlevels, hwhole⟩

theorem reads_sign (op : SignOp) (mark : Lexeme) (hlevel : level ≤ SignOp.level)
    (h : ReadsOperand SignOp.level e ts) :
    ReadsOperand level (.sign op e) (⟨mark, op.terminal⟩ :: ts) := by
  intro _hasked stack _hstack
  rcases reads_under h (.sign op) (by simp) hlevel hlevel
    (Or.inl (Nat.le_refl _)) stack with ⟨frames, rest, hshifts, hframes, hfill⟩
  refine ⟨frames, rest, Shifts.cons ?_ hshifts, hframes, hfill⟩
  cases op with
  | minus => rfl
  | plus => rfl

theorem reads_percent (mark : Lexeme) (h : ReadsOperand percentLevel e ts) :
    ReadsOperand level (.percent e) (ts ++ [⟨mark, .percent⟩]) := by
  apply readsOperand_of_shifts
  intro stack
  exact (shifts_of_readsOperand h stack).snoc rfl

theorem reads_paren (left right : Lexeme) (h : ReadsOperand 1 e ts) :
    ReadsOperand level e (⟨left, .leftParen⟩ :: (ts ++ [⟨right, .rightParen⟩])) := by
  apply readsOperand_of_shifts
  intro stack
  rcases shifts_unwound h .paren rfl stack with ⟨frames, rest, hshifts, hunwind⟩
  apply Shifts.cons rfl
  apply hshifts.snoc
  simp only [Reading.shift, Reading.shiftOperator, BinaryOp.ofTerminal?, hunwind]
  rfl

end Operands

theorem reads_given {e : Expr} {ts : List Token} (h : ReadsOperand 1 e ts) :
    ReadsPhrase (.argument (some e)) ts := by
  intro function args stack
  rcases shifts_unwound h (.call function args) rfl stack with
    ⟨frames, rest, hshifts, hunwind⟩
  constructor
  · intro mark
    apply hshifts.snoc
    simp only [Reading.shift, Reading.shiftOperator, BinaryOp.ofTerminal?, hunwind]
    rfl
  · intro right
    apply hshifts.snoc
    simp only [Reading.shift, Reading.shiftOperator, BinaryOp.ofTerminal?, hunwind]
    rfl

/-- The reader takes the tokens of every phrase. -/
theorem reads_of_spelled {p : Phrase} {ts : List Token} (h : Spelled p ts) :
    ReadsPhrase p ts := by
  induction h with
  | number word => exact readsOperand_of_shifts fun _ => .single rfl
  | boolean word => exact readsOperand_of_shifts fun _ => .single rfl
  | string word => exact readsOperand_of_shifts fun _ => .single rfl
  | error word => exact readsOperand_of_shifts fun _ => .single rfl
  | name word => exact readsOperand_of_shifts fun _ => .single rfl
  | reference kind body =>
      apply readsOperand_of_shifts
      intro stack
      cases kind <;> exact .single rfl
  | qualified kind sheet body =>
      apply readsOperand_of_shifts
      intro stack
      cases kind <;> exact .cons rfl (.single rfl)
  | array left right h =>
      apply readsOperand_of_shifts
      intro stack
      exact .cons rfl (shifts_rows h stack [] right)
  | call function right _ ih =>
      apply readsOperand_of_shifts
      intro stack
      exact .cons rfl (ih function [] stack right)
  | @binary _ op _ _ _ _ mark hmark hlevel _ _ ihleft ihright =>
      cases op with
      | power => exact reads_power hmark hlevel ihleft ihright
      | _ => exact reads_operator hmark (by decide) hlevel ihleft ihright
  | sign op mark hlevel _ ih => exact reads_sign op mark hlevel ih
  | percent mark _ _ ih => exact reads_percent mark ih
  | paren left right _ ih => exact reads_paren left right ih
  | omitted =>
      intro function args stack
      exact ⟨fun _ => .single rfl, fun _ => .single rfl⟩
  | given _ ih => exact reads_given ih
  | last _ ih =>
      intro function front stack right
      exact (ih function front stack).2 right
  | @more arg _ _ _ mark _ _ ih ihargs =>
      intro function front stack right
      have hrest := ihargs function (front ++ [arg]) stack right
      rw [List.append_assoc] at hrest
      have hfirst := ((ih function front stack).1 mark).append hrest
      rw [List.append_assoc] at hfirst
      rw [List.append_assoc]
      exact hfirst

/-! ## Whole formulas -/

theorem shifts_of_spelled {e : Expr} {ts : List Token}
    (h : Spelled (.operand 1 e) ts) :
    exists last, Shifts ⟨[], .operand⟩ ts last ∧ last.close = .ok e := by
  have hreads : ReadsOperand 1 e ts := reads_of_spelled h
  have hloose : Frame.Loose 1 [] := Frame.loose_nil 1
  rcases hreads (Or.inl (by decide)) [] (fun _ => hloose) with
    ⟨frames, rest, hshifts, hframes, hfill⟩
  refine ⟨⟨frames ++ [], .operator rest⟩, hshifts, ?_⟩
  simp only [Reading.close, Frame.unwindAll, Frame.unwind_append hframes hloose, hfill]
  rfl

theorem shift_start {t : Token} {next : Reading}
    (h : Reading.shift ⟨[], .operand⟩ t = .ok next) :
    Reading.empty.shift t = .ok next := by
  rcases t with ⟨word, terminal⟩
  cases terminal <;> first | exact h | cases h

theorem shifts_start {e : Expr} {last : Reading} {ts : List Token}
    (h : Shifts ⟨[], .operand⟩ ts last) (hclose : last.close = .ok e) :
    Shifts .empty ts last := by
  cases h with
  | nil r => cases hclose
  | cons hfirst hrest => exact Shifts.cons (shift_start hfirst) hrest

end Precedents
