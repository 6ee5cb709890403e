import Precedents.Proofs.Function.Ruling

/-!
# Data that is not known

An index that is not known is read as zero, and a rule refuses an index only for
being too large.  So what is refused for data that is not known is refused for
every number in its place.  The style of an address is the one exception: zero is
no style, so a style that is not known is refused, and the four styles are not.
-/

namespace Precedents

open Argument

variable {α β γ : Type}

/-! ## Refusals -/

def IsRefused (x : Except Refusal α) : Prop :=
  exists refusal, x = .error refusal

theorem isRefused_error (refusal : Refusal) :
    IsRefused (.error refusal : Except Refusal α) :=
  ⟨refusal, rfl⟩

theorem not_isRefused_ok (a : α) : ¬ IsRefused (.ok a) := by
  intro h
  rcases h with ⟨refusal, h⟩
  cases h

theorem not_isRefused_pure (a : α) : ¬ IsRefused (pure a) :=
  not_isRefused_ok a

theorem isRefused_bind {x : Except Refusal α} {next : α -> Except Refusal β} :
    IsRefused (x >>= next) <->
      IsRefused x ∨ exists a, x = .ok a ∧ IsRefused (next a) := by
  cases x with
  | error refusal =>
      exact iff_of_true (isRefused_error _) (Or.inl (isRefused_error _))
  | ok a =>
      constructor
      · intro h
        exact Or.inr ⟨a, rfl, h⟩
      · intro h
        rcases h with h | ⟨b, hb, h⟩
        · exact absurd h (not_isRefused_ok a)
        · cases hb
          exact h

theorem isRefused_seq {x : Except Refusal α} {y : Except Refusal β} :
    IsRefused (x >>= fun _ => y) <-> IsRefused x ∨ IsRefused y := by
  rw [isRefused_bind]
  cases x with
  | error refusal =>
      exact iff_of_true (Or.inl (isRefused_error _)) (Or.inl (isRefused_error _))
  | ok a => simp

theorem isRefused_both {x : Except Refusal α} {y : Except Refusal β}
    {next : α -> β -> Except Refusal γ} :
    IsRefused (x >>= fun a => y >>= fun b => next a b) <->
      IsRefused x ∨ IsRefused y ∨
        exists a b, x = .ok a ∧ y = .ok b ∧ IsRefused (next a b) := by
  simp only [isRefused_bind]
  cases x with
  | error refusal =>
      exact iff_of_true (Or.inl (isRefused_error _)) (Or.inl (isRefused_error _))
  | ok a => simp

theorem isRefused_ite {c : Prop} [Decidable c] {refusal : Refusal} {a : α} :
    IsRefused (if c then .error refusal else pure a) <-> c := by
  split
  · rename_i hc
    exact iff_of_true (isRefused_error _) hc
  · rename_i hc
    exact iff_of_false (not_isRefused_pure a) hc

theorem isRefused_ofRuling {r : Ruling} :
    (exists refusal, Verdict.ofRuling r = .refused refusal) <-> IsRefused r := by
  cases r with
  | error refusal => exact iff_of_true ⟨refusal, rfl⟩ (isRefused_error refusal)
  | ok result =>
      refine iff_of_false ?_ (not_isRefused_ok result)
      intro h
      rcases h with ⟨refusal, h⟩
      cases result with
      | none => cases h
      | some v => cases h

/-! ## Arguments that are replaced -/

namespace Value

def isUnknown : Value -> Bool
  | .reference _ | .block _ _ => true
  | _ => false

end Value

namespace Argument

theorem index_unknown (function : String) {u : Value} (h : u.isUnknown = true) :
    index function u = .ok 0 := by
  cases u with
  | reference r => rfl
  | block rows cols => rfl
  | _ => cases h

theorem index_int (function : String) (n : Nat) :
    index function (.int n) = .ok n := by
  simp [index, knownIndex, Int.not_lt.mpr (Int.natCast_nonneg n)]

theorem requireCount_set (function : String) (args : List Value) (low : Nat)
    (high : Option Nat) (i : Nat) (v : Value) :
    requireCount function (args.set i v) low high =
      requireCount function args low high := by
  rw [requireCount, List.length_set]
  rfl

theorem isRefused_requireCount {function : String} {args : List Value}
    {low high : Nat} :
    IsRefused (requireCount function args low (some high)) <->
      args.length < low ∨ high < args.length := by
  unfold requireCount countRefusal
  simp only [Option.any_some, Bool.or_eq_true, decide_eq_true_eq]
  by_cases h : args.length < low ∨ high < args.length
  · rw [if_pos h]
    exact iff_of_true (isRefused_error _) h
  · rw [if_neg h]
    exact iff_of_false (not_isRefused_ok ()) h

end Argument

namespace Selection

theorem optionalIndex_set_self {function : String} {args : List Value} {i : Nat}
    (hi : i < args.length) (v : Value) :
    optionalIndex function (args.set i v) i = index function v := by
  rw [optionalIndex, List.getElem?_set_self hi]

theorem optionalIndex_set_ne (function : String) (args : List Value) {i j : Nat}
    (hij : i ≠ j) (v : Value) :
    optionalIndex function (args.set i v) j = optionalIndex function args j := by
  rw [optionalIndex, optionalIndex, List.getElem?_set_ne hij]

/-- With a number in its place, data that is not known is read as nothing smaller. -/
theorem exists_optionalIndex_int {function : String} {args : List Value} {i j : Nat}
    (hi : i < args.length) {u : Value} (hu : u.isUnknown = true) (n : Nat) {k : Nat}
    (h : optionalIndex function (args.set i u) j = .ok k) :
    exists k', optionalIndex function (args.set i (.int n)) j = .ok k' ∧ k ≤ k' := by
  by_cases hij : i = j
  · rw [← hij, optionalIndex_set_self hi] at h ⊢
    rw [index_unknown function hu] at h
    cases h
    exact ⟨n, index_int function n, Nat.zero_le n⟩
  · rw [optionalIndex_set_ne function args hij] at h ⊢
    exact ⟨k, h, Nat.le_refl k⟩

theorem isRefused_optionalIndex_int {function : String} {args : List Value} {i j : Nat}
    (hi : i < args.length) {u : Value} (hu : u.isUnknown = true) (n : Nat)
    (h : IsRefused (optionalIndex function (args.set i u) j)) :
    IsRefused (optionalIndex function (args.set i (.int n)) j) := by
  by_cases hij : i = j
  · rw [← hij, optionalIndex_set_self hi, index_unknown function hu] at h
    exact absurd h (not_isRefused_ok 0)
  · rw [optionalIndex_set_ne function args hij] at h ⊢
    exact h

theorem headD_set (args : List Value) {i : Nat} (hi : i ≠ 0) (v : Value) :
    (args.set i v).headD .missing = args.headD .missing := by
  cases args with
  | nil => rfl
  | cons a rest =>
      cases i with
      | zero => exact absurd rfl hi
      | succ i => rfl

/-! ## Functions that select -/

theorem isRefused_part {range : Range} {row col : Nat} :
    IsRefused (part range row col) <-> range.rows < row ∨ range.cols < col := by
  unfold part
  split
  · rename_i hout
    rw [Bool.or_eq_true, decide_eq_true_eq, decide_eq_true_eq] at hout
    exact iff_of_true (isRefused_error _) hout
  · rename_i hin
    rw [Bool.or_eq_true, decide_eq_true_eq, decide_eq_true_eq] at hin
    refine iff_of_false ?_ hin
    simp only
    split
    · exact not_isRefused_ok _
    · exact not_isRefused_ok _

theorem isRefused_part_mono {range : Range} {row col row' col' : Nat}
    (h : IsRefused (part range row col)) (hrow : row ≤ row') (hcol : col ≤ col') :
    IsRefused (part range row' col') := by
  rw [isRefused_part] at h ⊢
  omega

def selected (target : Value) (count row col : Nat) : Ruling :=
  match target with
  | .reference (.cell _) =>
      if 1 < row || 1 < col then .error ⟨.ref, "INDEX: index out of range"⟩
      else return some target
  | .reference (.range range) => do
      let ref <- rangePart range count row col
      return some (.reference ref)
  | _ => return target.rows?.bind fun rows => item? rows row col

theorem isRefused_selected_mono {target : Value} {count row col row' col' : Nat}
    (h : IsRefused (selected target count row col)) (hrow : row ≤ row')
    (hcol : col ≤ col') : IsRefused (selected target count row' col') := by
  unfold selected at h ⊢
  split at h
  · simp only [isRefused_ite, Bool.or_eq_true, decide_eq_true_eq] at h ⊢
    omega
  · rw [isRefused_bind] at h ⊢
    rcases h with h | ⟨ref, _, h⟩
    · refine Or.inl ?_
      unfold rangePart at h ⊢
      split at h
      · rw [if_pos ‹_›]
        exact isRefused_part_mono h (Nat.le_refl 0) hrow
      · rw [if_neg ‹_›]
        exact isRefused_part_mono h hrow hcol
    · exact absurd h (not_isRefused_pure _)
  · exact absurd h (not_isRefused_pure _)

theorem isRefused_indexed {args : List Value} :
    IsRefused (indexed args) <->
      IsRefused (requireCount ReferenceFunction.index.name args 2 (some 4)) ∨
        IsRefused (optionalIndex "INDEX" args 1) ∨
        IsRefused (optionalIndex "INDEX" args 2) ∨
        exists row col, optionalIndex "INDEX" args 1 = .ok row ∧
          optionalIndex "INDEX" args 2 = .ok col ∧
          IsRefused (selected (args.headD .missing) args.length row col) := by
  have heq : indexed args = (do
      requireCount ReferenceFunction.index.name args 2 (some 4)
      let row <- optionalIndex "INDEX" args 1
      let col <- optionalIndex "INDEX" args 2
      selected (args.headD .missing) args.length row col) := rfl
  rw [heq, isRefused_seq, isRefused_both]

theorem indexed_refused {args : List Value} {i : Nat} (hi : i ≠ 0)
    (hargs : i < args.length) {u : Value} (hu : u.isUnknown = true) (n : Nat)
    (h : IsRefused (indexed (args.set i u))) :
    IsRefused (indexed (args.set i (.int n))) := by
  rw [isRefused_indexed] at h ⊢
  rw [requireCount_set, headD_set args hi, List.length_set] at h ⊢
  rcases h with hcount | hrow | hcol | ⟨row, col, hrow, hcol, h⟩
  · exact Or.inl hcount
  · exact Or.inr (Or.inl (isRefused_optionalIndex_int hargs hu n hrow))
  · exact Or.inr (Or.inr (Or.inl (isRefused_optionalIndex_int hargs hu n hcol)))
  · rcases exists_optionalIndex_int hargs hu n hrow with ⟨row', hrow', hrows⟩
    rcases exists_optionalIndex_int hargs hu n hcol with ⟨col', hcol', hcols⟩
    exact Or.inr (Or.inr (Or.inr ⟨row', col', hrow', hcol',
      isRefused_selected_mono h hrows hcols⟩))

theorem choose_refused {args : List Value} (hargs : 0 < args.length)
    {u : Value} (hu : u.isUnknown = true) (n : Nat)
    (h : IsRefused (choose (args.set 0 u))) :
    IsRefused (choose (args.set 0 (.int n))) := by
  unfold choose at h ⊢
  rw [isRefused_seq, requireCount_set, optionalIndex_set_self hargs] at h ⊢
  rcases h with hcount | h
  · exact Or.inl hcount
  · rw [index_unknown "CHOOSE" hu, isRefused_bind] at h
    rcases h with h | ⟨_, hzero, h⟩
    · exact absurd h (not_isRefused_ok 0)
    · cases hzero
      exact absurd (isRefused_ite.mp h) (Nat.not_lt_zero _)

end Selection

/-! ## Lookups -/

namespace Lookup

open Selection

theorem table_refused {function : ReferenceFunction} {side : Int × Int -> Int}
    {args : List Value} (hargs : 2 < args.length) {u : Value}
    (hu : u.isUnknown = true) (n : Nat)
    (h : IsRefused (table function side (args.set 2 u))) :
    IsRefused (table function side (args.set 2 (.int n))) := by
  unfold table at h ⊢
  rw [isRefused_seq, requireCount_set, optionalIndex_set_self hargs] at h ⊢
  rcases h with hcount | h
  · exact Or.inl hcount
  · rw [index_unknown function.name hu, isRefused_bind] at h
    rcases h with h | ⟨_, hzero, h⟩
    · exact absurd h (not_isRefused_ok 0)
    · cases hzero
      split at h
      · exact absurd (isRefused_ite.mp h) (by simp)
      · exact absurd h (not_isRefused_pure _)

end Lookup

/-! ## Addresses -/

namespace AddressText

open Selection

theorem style?_eq_none_iff {n : Nat} : style? n = none <-> n = 0 ∨ 4 < n := by
  unfold style?
  split
  · simp
  · simp
  · simp
  · simp
  · rename_i h1 h2 h3 h4
    refine iff_of_true rfl ?_
    simp only [imp_false] at h1 h2 h3 h4
    omega

theorem styleNumber_set_self {args : List Value} (hargs : 2 < args.length)
    {v : Value} (hv : v ≠ .missing) :
    styleNumber (args.set 2 v) = index "ADDRESS" v := by
  rw [styleNumber, List.getElem?_set_self hargs]
  cases v with
  | missing => exact absurd rfl hv
  | _ => rfl

theorem styleNumber_set_ne (args : List Value) {i : Nat} (hi : i ≠ 2) (v : Value) :
    styleNumber (args.set i v) = styleNumber args := by
  rw [styleNumber, styleNumber, List.getElem?_set_ne hi]

def written (args : List Value) (row col number : Nat) : Ruling := do
  if row = 0 || col = 0 then return none
  match style? number with
  | none => .error ⟨.value, "ADDRESS: abs_num " ++ toString number ++ " not in 1-4"⟩
  | some style =>
      let cell := if usesLetters args then lettered style row col else counted style row col
      let sheet := sheetText (args.getD 4 .missing)
      return some (.text (if sheet = "" then cell else Sheet.quote sheet ++ "!" ++ cell))

theorem isRefused_written {args : List Value} {row col number : Nat} :
    IsRefused (written args row col number) <->
      (row ≠ 0 ∧ col ≠ 0) ∧ (number = 0 ∨ 4 < number) := by
  unfold written
  split
  · rename_i hzero
    rw [Bool.or_eq_true, decide_eq_true_eq, decide_eq_true_eq] at hzero
    refine iff_of_false (not_isRefused_pure _) ?_
    omega
  · rename_i hzero
    rw [Bool.or_eq_true, decide_eq_true_eq, decide_eq_true_eq, not_or] at hzero
    rw [← style?_eq_none_iff]
    cases style? number with
    | none => exact iff_of_true (isRefused_error _) ⟨hzero, rfl⟩
    | some style => simp [not_isRefused_pure]

theorem isRefused_ruling {args : List Value} :
    IsRefused (ruling args) <->
      IsRefused (requireCount ReferenceFunction.address.name args 2 (some 5)) ∨
        IsRefused (optionalIndex "ADDRESS" args 0) ∨
        IsRefused (optionalIndex "ADDRESS" args 1) ∨
        exists row col, optionalIndex "ADDRESS" args 0 = .ok row ∧
          optionalIndex "ADDRESS" args 1 = .ok col ∧
          (IsRefused (styleNumber args) ∨
            exists number, styleNumber args = .ok number ∧
              (row ≠ 0 ∧ col ≠ 0) ∧ (number = 0 ∨ 4 < number)) := by
  have heq : ruling args = (do
      requireCount ReferenceFunction.address.name args 2 (some 5)
      let row <- optionalIndex "ADDRESS" args 0
      let col <- optionalIndex "ADDRESS" args 1
      let number <- styleNumber args
      written args row col number) := rfl
  rw [heq, isRefused_seq, isRefused_both]
  simp only [isRefused_bind, isRefused_written]

theorem ruling_refused {args : List Value} {i : Nat} (hi : i ≠ 2)
    (hargs : i < args.length) {u : Value} (hu : u.isUnknown = true) (n : Nat)
    (h : IsRefused (ruling (args.set i u))) :
    IsRefused (ruling (args.set i (.int n))) := by
  rw [isRefused_ruling] at h ⊢
  simp only [requireCount_set, styleNumber_set_ne args hi] at h ⊢
  rcases h with hcount | hrow | hcol | ⟨row, col, hrow, hcol, h⟩
  · exact Or.inl hcount
  · exact Or.inr (Or.inl (isRefused_optionalIndex_int hargs hu n hrow))
  · exact Or.inr (Or.inr (Or.inl (isRefused_optionalIndex_int hargs hu n hcol)))
  · rcases exists_optionalIndex_int hargs hu n hrow with ⟨row', hrow', hrows⟩
    rcases exists_optionalIndex_int hargs hu n hcol with ⟨col', hcol', hcols⟩
    refine Or.inr (Or.inr (Or.inr ⟨row', col', hrow', hcol', ?_⟩))
    rcases h with hstyle | ⟨number, hnumber, hcell, hstyle⟩
    · exact Or.inl hstyle
    · refine Or.inr ⟨number, hnumber, ?_, hstyle⟩
      omega

/-- The arguments name a cell, whatever its style: its row and column are known. -/
def NamesCell (args : List Value) : Prop :=
  args.length ≤ 5 ∧ exists row col, optionalIndex "ADDRESS" args 0 = .ok row ∧
    optionalIndex "ADDRESS" args 1 = .ok col ∧ row ≠ 0 ∧ col ≠ 0

theorem isRefused_style_iff {args : List Value} (hargs : 2 < args.length) {v : Value}
    {number : Nat} (hv : v ≠ .missing) (hnumber : index "ADDRESS" v = .ok number) :
    IsRefused (ruling (args.set 2 v)) <->
      IsRefused (requireCount ReferenceFunction.address.name args 2 (some 5)) ∨
        IsRefused (optionalIndex "ADDRESS" args 0) ∨
        IsRefused (optionalIndex "ADDRESS" args 1) ∨
        exists row col, optionalIndex "ADDRESS" args 0 = .ok row ∧
          optionalIndex "ADDRESS" args 1 = .ok col ∧
          (row ≠ 0 ∧ col ≠ 0) ∧ (number = 0 ∨ 4 < number) := by
  rw [isRefused_ruling]
  simp only [requireCount_set, styleNumber_set_self hargs hv, hnumber,
    optionalIndex_set_ne "ADDRESS" args (show 2 ≠ 0 by decide),
    optionalIndex_set_ne "ADDRESS" args (show 2 ≠ 1 by decide)]
  simp [not_isRefused_ok]

/-- Where a cell is named, just the style may be refused. -/
theorem isRefused_style_of_namesCell {args : List Value} (hargs : 2 < args.length)
    (hname : NamesCell args) {v : Value} {number : Nat} (hv : v ≠ .missing)
    (hnumber : index "ADDRESS" v = .ok number) :
    IsRefused (ruling (args.set 2 v)) <-> number = 0 ∨ 4 < number := by
  rcases hname with ⟨hcount, row, col, hrow, hcol, hzero⟩
  rw [isRefused_style_iff hargs hv hnumber, hrow, hcol, isRefused_requireCount]
  constructor
  · intro h
    rcases h with h | h | h | ⟨_, _, _, _, _, hstyle⟩
    · omega
    · exact absurd h (not_isRefused_ok row)
    · exact absurd h (not_isRefused_ok col)
    · exact hstyle
  · intro hstyle
    exact Or.inr (Or.inr (Or.inr ⟨row, col, rfl, rfl, hzero, hstyle⟩))

theorem refused_for_style_iff {args : List Value} (hargs : 2 < args.length)
    {u : Value} (hu : u.isUnknown = true) (n : Nat) :
    (IsRefused (ruling (args.set 2 u)) -> IsRefused (ruling (args.set 2 (.int n)))) <->
      ¬ (NamesCell args ∧ 1 ≤ n ∧ n ≤ 4) := by
  have hmissing : u ≠ .missing := by
    intro h
    rw [h] at hu
    cases hu
  have hunknown := index_unknown "ADDRESS" hu
  by_cases hname : NamesCell args
  · rw [isRefused_style_of_namesCell hargs hname hmissing hunknown,
      isRefused_style_of_namesCell hargs hname (by simp) (index_int "ADDRESS" n)]
    constructor
    · intro h hstyle
      have hrefused := h (Or.inl rfl)
      omega
    · intro h _
      by_cases hstyle : 1 ≤ n ∧ n ≤ 4
      · exact absurd ⟨hname, hstyle⟩ h
      · omega
  · refine iff_of_true ?_ fun h => hname h.left
    rw [isRefused_style_iff hargs hmissing hunknown,
      isRefused_style_iff hargs (by simp) (index_int "ADDRESS" n)]
    intro h
    rcases h with hcount | hrow | hcol | ⟨row, col, hrow, hcol, hzero, _⟩
    · exact Or.inl hcount
    · exact Or.inr (Or.inl hrow)
    · exact Or.inr (Or.inr (Or.inl hcol))
    · refine Or.inl (isRefused_requireCount.mpr (Or.inr ?_))
      apply Nat.lt_of_not_le
      intro hcount
      exact hname ⟨hcount, row, col, hrow, hcol, hzero⟩

end AddressText

/-! ## The law for all functions -/

namespace ReferenceFunction

def indexPlaces : ReferenceFunction -> List Nat
  | .index => [1, 2]
  | .choose => [0]
  | .vlookup | .hlookup => [2]
  | .address => [0, 1, 2]
  | _ => []

theorem refused_for_number_iff {f : ReferenceFunction} {i : Nat}
    (hi : i ∈ f.indexPlaces) {args : List Value} (hargs : i < args.length)
    (position : Position) {u : Value} (hu : u.isUnknown = Bool.true) (n : Nat) :
    (IsRefused (f.ruling position (args.set i u)) ->
      IsRefused (f.ruling position (args.set i (.int n)))) <->
        ¬ ((f = .address ∧ i = 2) ∧ AddressText.NamesCell args ∧ 1 ≤ n ∧ n ≤ 4) := by
  cases f with
  | index =>
      simp only [indexPlaces, List.mem_cons, List.not_mem_nil, or_false] at hi
      refine iff_of_true ?_ (by simp)
      exact Selection.indexed_refused (by omega) hargs hu n
  | choose =>
      refine iff_of_true ?_ (by simp)
      cases List.mem_singleton.mp hi
      exact Selection.choose_refused hargs hu n
  | vlookup | hlookup =>
      refine iff_of_true ?_ (by simp)
      cases List.mem_singleton.mp hi
      exact Lookup.table_refused hargs hu n
  | address =>
      simp only [indexPlaces, List.mem_cons, List.not_mem_nil, or_false] at hi
      by_cases hstyle : i = 2
      · subst hstyle
        refine (AddressText.refused_for_style_iff hargs hu n).trans ?_
        simp
      · exact iff_of_true (AddressText.ruling_refused hstyle hargs hu n) (by simp [hstyle])
  | _ => cases hi

/--
What a function refuses for data that is not known, read as an index, it refuses
for every number in its place, unless the data stands for the style of an address
whose row and column are known, and the number is a style.
-/
theorem handler_refused_iff {f : ReferenceFunction} {i : Nat}
    (hi : i ∈ f.indexPlaces) {args : List Value} (hargs : i < args.length)
    (position : Position) {u : Value} (hu : u.isUnknown = Bool.true) (n : Nat) :
    ((exists refusal, f.handler position (args.set i u) = .refused refusal) ->
      exists refusal, f.handler position (args.set i (.int n)) = .refused refusal) <->
        ¬ ((f = .address ∧ i = 2) ∧ AddressText.NamesCell args ∧ 1 ≤ n ∧ n ≤ 4) := by
  unfold handler
  rw [isRefused_ofRuling, isRefused_ofRuling]
  exact refused_for_number_iff hi hargs position hu n

theorem unknown_style_refused :
    (exists refusal, ReferenceFunction.address.handler (.mk 1 1 "S")
        [.int 1, .int 1, .reference (.cell ⟨9, 9, none⟩)] = .refused refusal) ∧
      ¬ exists refusal, ReferenceFunction.address.handler (.mk 1 1 "S")
        [.int 1, .int 1, .int 1] = .refused refusal := by
  have hname : AddressText.NamesCell [.int 1, .int 1, .missing] :=
    ⟨by decide, 1, 1, rfl, rfl, by decide, by decide⟩
  have hplace : 2 ∈ ReferenceFunction.address.indexPlaces := by decide
  have hargs : 2 < [Value.int 1, .int 1, .missing].length := by decide
  have hunknown : (Value.reference (.cell ⟨9, 9, none⟩)).isUnknown = Bool.true := rfl
  have hlaw := handler_refused_iff hplace hargs (.mk 1 1 "S") hunknown 1
  apply Classical.not_imp.mp
  intro h
  exact hlaw.mp h ⟨⟨rfl, rfl⟩, hname, by decide⟩

end ReferenceFunction
end Precedents
