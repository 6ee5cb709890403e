import Precedents.Proofs.Extraction.Coverage
import Precedents.Proofs.Extraction.Lenient
import Precedents.Proofs.Formula.UnrestrictedLexing
import Precedents.Proofs.Formula.Places
import Precedents.Proofs.Formula.Reporting

/-!
# What is salvaged

A formula without a tree is read again, with all terminals and with white space,
up to its first diagnostic.  Up to there the tokens are those that the reader has
taken.  Two things differ: a sheet is lost if white space stands between it and
its reference, and the number in front of a stray colon in an array may be the
first of two rows.
-/

namespace Precedents

/-! ## Literals among tokens -/

namespace Expr

/-- A literal that has its sheet only if nothing stands between the two. -/
def joined : Expr -> Expr
  | .reference kind (some sheet) body =>
      if sheet.offset + sheet.text.length = body.offset then
        .reference kind (some sheet) body
      else .reference kind none body
  | e => e

end Expr

def literalsOf (sheet : Option Lexeme) : List Token -> List Expr
  | [] => []
  | t :: rest =>
      match t.terminal, ReferenceKind.ofTerminal? t.terminal with
      | .sheet, _ => literalsOf (some t.toLexeme) rest
      | _, some kind => .reference kind sheet t.toLexeme :: literalsOf none rest
      | _, none => literalsOf none rest

/-- The rows on the grid that start with the last of some tokens, if that is a number. -/
def strayRows? (text : List Char) (tokens : List Token) : Option Reference :=
  match tokens.getLast? with
  | some ⟨word, .number⟩ =>
      (Terminal.rowRange.found (text.drop word.offset)).bind fun own =>
        (Literal.reference .rows (String.ofList own) none).toOption
  | _ => none

def joinedOf (sheet : Option Lexeme) (tokens : List Token) : List Reference :=
  (literalsOf sheet tokens).filterMap fun e => e.joined.literal?

theorem strayRows?_cons {text : List Char} {t : Token} {tokens : List Token}
    (h : t.terminal = .number ->
      Terminal.rowRange.found (text.drop t.offset) = none) :
    strayRows? text (t :: tokens) = strayRows? text tokens := by
  cases tokens with
  | cons u tokens => rw [strayRows?, List.getLast?_cons_cons, strayRows?]
  | nil =>
      rcases t with ⟨word, terminal⟩
      cases terminal with
      | number =>
          show (Terminal.rowRange.found (text.drop word.offset)).bind _ = none
          rw [h rfl]
          rfl
      | _ => rfl

/-! ## Salvaging word by word -/

namespace Salvage

open Terminal

variable {haul next : Haul}

theorem go_zero (haul : Haul) (skip : Nat) (cs : List Char) :
    go haul 0 skip cs = .ok haul := by
  cases cs with
  | nil => rfl
  | cons c rest => rfl

theorem go_skip (haul : Haul) (budget : Nat) (front rest : List Char) :
    go haul budget front.length (front ++ rest) =
      go haul (budget - front.length) 0 rest := by
  induction front generalizing budget with
  | nil => rfl
  | cons c front ih =>
      cases budget with
      | zero => rw [Nat.zero_sub, go_zero, go_zero]
      | succ budget =>
          rw [List.length_cons, List.cons_append, go, ih, Nat.succ_sub_succ]

theorem go_word {budget : Nat} {t : Terminal} {word rest : List Char}
    (hbudget : 0 < budget)
    (hfirst : first? (fun _ => true) (word ++ rest) = some (t, word))
    (htake : haul.take t (String.ofList word) = .ok next) :
    go haul budget 0 (word ++ rest) = go next (budget - word.length) 0 rest := by
  rcases split_of_found (found_of_first? hfirst).right with ⟨c, tail, _, hword, _⟩
  rw [hword] at hfirst htake ⊢
  rw [List.cons_append] at hfirst ⊢
  cases budget with
  | zero => cases hbudget
  | succ budget =>
      rw [go]
      simp only [hfirst, htake]
      rw [List.length_cons, Nat.add_sub_cancel, go_skip, Nat.succ_sub_succ]

/-! ## Salvaging token by token -/

/-- The sheet that has been read last, and what is left of it at a place. -/
inductive Pending (offset : Nat) : Option Lexeme -> Option String -> Prop where
  | nothing : Pending offset none none
  | touching {sheet : Lexeme} {name : String}
      (hname : Literal.sheet sheet.text = .ok name)
      (h : sheet.offset + sheet.text.length = offset) :
      Pending offset (some sheet) (some name)
  | apart {sheet : Lexeme} (h : sheet.offset + sheet.text.length < offset) :
      Pending offset (some sheet) none

theorem Pending.behindBlank {offset : Nat} {sheet : Option Lexeme}
    {name : Option String} (h : Pending offset sheet name) {n : Nat}
    (hn : 0 < n) : Pending (offset + n) sheet none := by
  cases h with
  | nothing => exact .nothing
  | touching _ h => exact .apart (h ▸ Nat.lt_add_of_pos_right hn)
  | apart h => exact .apart (Nat.lt_add_right n h)

theorem add_eq {offset : Nat} {sheet : Option Lexeme}
    (h : Pending offset sheet haul.sheet) (kind : ReferenceKind) (text : String) :
    haul.add kind text = ⟨none, haul.references ++
      ((Expr.reference kind sheet ⟨text, offset⟩).joined.literal?).toList⟩ := by
  have hadd : haul.add kind text = ⟨none, haul.references ++
      (Literal.reference kind text haul.sheet).toOption.toList⟩ := by
    unfold Haul.add
    cases Literal.reference kind text haul.sheet with
    | ok ref => rfl
    | error error => simp [Except.toOption]
  rw [hadd]
  congr 3
  generalize haul.sheet = name at h
  cases h with
  | nothing => rfl
  | touching hname hoffset =>
      simp only [Expr.joined, hoffset, if_true, Expr.literal?, Option.mapM_some,
        hname]
      rfl
  | apart hoffset =>
      simp only [Expr.joined, if_neg (Nat.ne_of_lt hoffset)]
      rfl

/--
The haul takes a token.  What it has then and the literals still to come are the
same as before, and a sheet is pending only behind the token of a sheet.
-/
def Takes (haul : Haul) (offset : Nat) (sheet : Option Lexeme) (t : Terminal)
    (word : List Char) : Prop :=
  exists next later, haul.take t (String.ofList word) = .ok next ∧
    Pending (offset + word.length) later next.sheet ∧
    (t = .sheet ∨ later = none) ∧
    forall tokens, next.references ++ joinedOf later tokens =
      haul.references ++
        joinedOf sheet (⟨⟨String.ofList word, offset⟩, t⟩ :: tokens)

theorem takes_reference {offset : Nat} {sheet : Option Lexeme}
    (h : Pending offset sheet haul.sheet) (kind : ReferenceKind) (word : List Char) :
    Takes haul offset sheet kind.terminal word := by
  have htake : haul.take kind.terminal (String.ofList word) =
      .ok (haul.add kind (String.ofList word)) := by
    cases kind <;> rfl
  rw [add_eq h] at htake
  refine ⟨_, none, htake, .nothing, Or.inr rfl, ?_⟩
  intro tokens
  have hliterals : literalsOf sheet
      (⟨⟨String.ofList word, offset⟩, kind.terminal⟩ :: tokens) =
        .reference kind sheet ⟨String.ofList word, offset⟩ ::
          literalsOf none tokens := by
    cases kind <;> rfl
  rw [joinedOf, joinedOf, hliterals, List.filterMap_cons, List.append_assoc]
  cases Expr.literal? (Expr.joined _) <;> rfl

theorem takes_token {offset : Nat} {sheet : Option Lexeme}
    (h : Pending offset sheet haul.sheet) {t : Terminal} {word : List Char}
    (hshaped : Token.Shaped ⟨⟨String.ofList word, offset⟩, t⟩) :
    Takes haul offset sheet t word := by
  cases t with
  | sheet =>
      rcases Token.sheet_of_shaped hshaped with ⟨name, hname⟩
      have htake : haul.take .sheet (String.ofList word) =
          .ok ⟨some name, haul.references⟩ := by
        show (Literal.sheet (String.ofList word)).map _ = _
        rw [hname]
        rfl
      refine ⟨_, some ⟨String.ofList word, offset⟩, htake, ?_, Or.inl rfl,
        fun _ => rfl⟩
      apply Pending.touching hname
      rw [String.length_ofList]
  | cell => exact takes_reference h .cell word
  | cellRange => exact takes_reference h .cells word
  | columnRange => exact takes_reference h .columns word
  | rowRange => exact takes_reference h .rows word
  | _ => exact ⟨⟨none, haul.references⟩, none, rfl, .nothing, Or.inr rfl,
      fun _ => rfl⟩

end Salvage

/-! ## Salvaging up to the first failure -/

namespace Run

open Terminal

variable {r : Reading} {patience offset : Nat} {cs : List Char} {run : Run}

def tokensBefore (run : Run) (stop : Nat) : List Token :=
  run.tokens.filter fun t => t.offset < stop

theorem tokensBefore_eq_nil (h : Recovers r patience offset cs run) {stop : Nat}
    (hstop : stop ≤ offset) : run.tokensBefore stop = [] := by
  apply List.filter_eq_nil_iff.mpr
  intro t ht hlt
  have hle := (offset_bounds h (mem_tokens.mp ht)).left
  have hlt : t.offset < stop := of_decide_eq_true hlt
  exact Nat.not_lt_of_le (Nat.le_trans hstop hle) hlt

theorem tokensBefore_shift {t : Token} {stop : Nat} (h : t.offset < stop) :
    (after (.shift t) run).tokensBefore stop = t :: run.tokensBefore stop :=
  List.filter_cons_of_pos (decide_eq_true h)

theorem le_offset_of_head? (h : Recovers r patience offset cs run)
    {first : Failure} (hfirst : run.failures.head? = some first) :
    offset ≤ first.offset :=
  (offset_bounds h (mem_failures.mp (List.mem_of_head? hfirst))).left

theorem offset_of_unreadable (h : Recovers r patience offset cs run) {c : Char}
    {rest : List Char} (hcs : cs = c :: rest)
    (hc : forall u : Terminal, u.opening c = false) {first : Failure}
    (hfirst : run.failures.head? = some first) : first.offset = offset := by
  cases h with
  | complete _ => cases hcs
  | early _ => cases hcs
  | blank hglance _ =>
      rw [hcs, glance_unopened r hc rest] at hglance
      cases hglance
  | token hglance _ _ =>
      rw [hcs, glance_unopened r hc rest] at hglance
      cases hglance
  | failure hfails _ =>
      cases hfirst
      exact hfails.split.left
  | spent hfails =>
      cases hfirst
      exact hfails.split.left

def Salvages (haul : Salvage.Haul) (offset : Nat) (front cs : List Char)
    (sheet : Option Lexeme) (run : Run) (stop : Nat) : Prop :=
  exists last, Salvage.go haul (stop - offset) 0 cs = .ok last ∧
    last.references = haul.references ++ joinedOf sheet (run.tokensBefore stop) ++
      (strayRows? (front ++ cs) (run.tokensBefore stop)).toList

theorem salvages_nothing (h : Recovers r patience offset cs run)
    (haul : Salvage.Haul) (front : List Char) (sheet : Option Lexeme) {stop : Nat}
    (hstop : stop = offset) : Salvages haul offset front cs sheet run stop := by
  refine ⟨haul, ?_, ?_⟩
  · rw [hstop, Nat.sub_self, Salvage.go_zero]
  · rw [tokensBefore_eq_nil h (Nat.le_of_eq hstop)]
    simp [joinedOf, literalsOf, strayRows?]

def Awaits (r : Reading) (sheet : Option Lexeme) : Prop :=
  sheet = none ∨ exists word, r.phase = .qualified word

theorem awaits_of_step {next : Reading} {t : Token} (h : Reading.Step r t next)
    {sheet : Option Lexeme} (hsheet : t.terminal = .sheet ∨ sheet = none) :
    Awaits next sheet := by
  rcases hsheet with ht | hnone
  · right
    cases h with
    | leaf _ hleaf =>
        cases hleaf with
        | reference kind body => cases kind <;> cases ht
        | _ => cases ht
    | sheet _ => exact ⟨_, rfl⟩
    | qualified kind => cases kind <;> cases ht
    | power hmark =>
        rw [ht] at hmark
        cases hmark
    | operator hmark _ _ =>
        rw [ht] at hmark
        cases hmark
    | item hitem =>
        have hstarts := Reading.startsItem_of_item? hitem
        rw [ht] at hstarts
        cases hstarts
    | _ => cases ht
  · exact Or.inl hnone

theorem Awaits.eq_none {sheet : Option Lexeme} {word : List Char} {t : Terminal}
    (h : Awaits r sheet) (hadmits : r.admits t = true)
    (hmistakes : Mistakes cs t word) : sheet = none := by
  rcases h with hnone | ⟨own, hphase⟩
  · exact hnone
  · simp only [Reading.admits, hphase] at hadmits
    cases hmistakes with
    | sheet _ _ _ => cases hadmits
    | rows _ _ _ => cases hadmits

/-- The last token in front of a mistake is salvaged as another one. -/
theorem salvages_mistake {t : Terminal} {word rest front : List Char}
    (h : Mistakes (word ++ rest) t word) (hword : 0 < word.length)
    (hoffset : offset = front.length) {haul : Salvage.Haul}
    (hhaul : haul.sheet = none) {sheet : Option Lexeme} {stop : Nat}
    (hstop : stop = offset + word.length)
    (hrun : run.tokensBefore stop = [⟨⟨String.ofList word, offset⟩, t⟩]) :
    Salvages haul offset front (word ++ rest) sheet run stop := by
  have hbudget : stop - offset = word.length := by omega
  have reached : forall {u : Terminal} {own : List Char} {next : Salvage.Haul},
      first? (fun _ => true) (word ++ rest) = some (u, own) ->
      word.length ≤ own.length -> haul.take u (String.ofList own) = .ok next ->
      Salvage.go haul (stop - offset) 0 (word ++ rest) = .ok next := by
    intro u own next hall hlength htake
    rcases found_eq_some.mp (found_of_first? hall).right with ⟨behind, hcs, _⟩
    rw [hcs] at hall ⊢
    rw [hbudget, Salvage.go_word hword hall htake, Nat.sub_eq_zero_of_le hlength,
      Salvage.go_zero]
  unfold Salvages
  rw [hrun]
  cases h with
  | @sheet _ own _ hall _ hlength =>
      have hshaped := Token.shaped_of_found (found_of_first? hall).right 0
      rcases Token.sheet_of_shaped hshaped with ⟨name, hname⟩
      refine ⟨⟨some name, haul.references⟩, reached hall hlength ?_, ?_⟩
      · show (Literal.sheet (String.ofList own)).map _ = _
        rw [hname]
        rfl
      · simp [joinedOf, literalsOf, ReferenceKind.ofTerminal?, strayRows?]
  | @rows _ own _ hall _ hlength =>
      refine ⟨_, reached hall hlength rfl, ?_⟩
      have htext : (front ++ (word ++ rest)).drop offset = word ++ rest := by
        rw [hoffset, List.drop_left]
      have hstray : strayRows? (front ++ (word ++ rest))
          [⟨⟨String.ofList word, offset⟩, .number⟩] =
            (Literal.reference .rows (String.ofList own) none).toOption := by
        show (rowRange.found (List.drop offset _)).bind _ = _
        rw [htext, (found_of_first? hall).right]
        rfl
      rw [hstray]
      show (haul.add .rows (String.ofList own)).references = _
      unfold Salvage.Haul.add
      rw [hhaul]
      cases Literal.reference .rows (String.ofList own) none with
      | ok ref => simp [joinedOf, literalsOf, ReferenceKind.ofTerminal?, Except.toOption]
      | error error =>
          simp [joinedOf, literalsOf, ReferenceKind.ofTerminal?, Except.toOption]

theorem salvages_blank {haul : Salvage.Haul} {sheet : Option Lexeme}
    {word rest front : List Char} {stop : Nat}
    (hfirst : first? (fun _ => true) (word ++ rest) = some (.blank, word))
    (hstop : offset < stop)
    (hrest : Salvages ⟨none, haul.references⟩ (offset + word.length) (front ++ word)
      rest sheet run stop) :
    Salvages haul offset front (word ++ rest) sheet run stop := by
  rcases hrest with ⟨last, hlast, hreferences⟩
  refine ⟨last, ?_, ?_⟩
  · rw [Salvage.go_word (by omega) hfirst rfl, ← hlast, Nat.sub_add_eq]
  · rw [hreferences, List.append_assoc front]

theorem salvages_token {haul next : Salvage.Haul} {sheet later : Option Lexeme}
    {t : Terminal} {word rest front : List Char} {stop : Nat}
    (hfirst : first? (fun _ => true) (word ++ rest) = some (t, word))
    (hoffset : offset = front.length) (hstop : offset < stop)
    (htake : haul.take t (String.ofList word) = .ok next)
    (hkept : forall tokens, next.references ++ joinedOf later tokens =
      haul.references ++ joinedOf sheet (⟨⟨String.ofList word, offset⟩, t⟩ :: tokens))
    (hrest : Salvages next (offset + word.length) (front ++ word) rest later run stop) :
    Salvages haul offset front (word ++ rest) sheet
      (after (.shift ⟨⟨String.ofList word, offset⟩, t⟩) run) stop := by
  rcases hrest with ⟨last, hlast, hreferences⟩
  refine ⟨last, ?_, ?_⟩
  · rw [Salvage.go_word (by omega) hfirst htake, ← hlast, Nat.sub_add_eq]
  · have hstray : strayRows? (front ++ (word ++ rest))
        (⟨⟨String.ofList word, offset⟩, t⟩ :: run.tokensBefore stop) =
          strayRows? (front ++ (word ++ rest)) (run.tokensBefore stop) := by
      apply strayRows?_cons
      intro ht
      have ht : t = .number := ht
      rw [ht] at hfirst
      show rowRange.found ((front ++ (word ++ rest)).drop offset) = none
      rw [hoffset, List.drop_left, found, fails_of_first? hfirst (by decide) rfl]
      rfl
    rw [tokensBefore_shift hstop, hreferences, hkept, hstray, List.append_assoc front]

/-- Up to the first failure the tokens that were taken are salvaged. -/
theorem salvages_of_recovers (h : Recovers r patience offset cs run)
    {front : List Char} (hoffset : offset = front.length) {first : Failure}
    (hfirst : run.failures.head? = some first) {haul : Salvage.Haul}
    {sheet : Option Lexeme} (hsheet : Salvage.Pending offset sheet haul.sheet)
    (hawaits : Awaits r sheet) :
    Salvages haul offset front cs sheet run first.offset := by
  induction h generalizing front haul sheet with
  | complete _ => cases hfirst
  | @early r refused patience offset hclose =>
      cases hfirst
      have hrun : Recovers r patience offset [] _ := .early hclose
      exact salvages_nothing hrun haul front sheet rfl
  | @blank r patience offset word rest run hglance hrest ih =>
      have hle := le_offset_of_head? hrest hfirst
      have hpos := length_pos_of_found (found_of_glance_blank hglance)
      have hnext : offset + word.length = (front ++ word).length := by
        rw [hoffset, List.length_append]
      let dropped : Salvage.Haul := ⟨none, haul.references⟩
      have hdropped : Salvage.Pending (offset + word.length) sheet dropped.sheet :=
        hsheet.behindBlank hpos
      exact salvages_blank (first?_of_glance_blank hglance) (by omega)
        (ih hnext hfirst hdropped hawaits)
  | @token r next patience offset t word rest run hglance hshift hrest ih =>
      have hfound := found_of_glance hglance
      have hle := le_offset_of_head? hrest hfirst
      have hpos := length_pos_of_found hfound
      have hstop : offset < first.offset := by omega
      rcases first?_of_glance hglance with hall | hmistakes
      · rcases Salvage.takes_token hsheet (Token.shaped_of_found hfound offset)
          with ⟨later, sheet', htake, hpending, hlater, hkept⟩
        have hnext : offset + word.length = (front ++ word).length := by
          rw [hoffset, List.length_append]
        exact salvages_token hall hoffset hstop htake hkept (ih hnext hfirst hpending
          (awaits_of_step (Reading.step_of_shift hshift) hlater))
      · rcases hmistakes.rest with ⟨c, tail, hcs, hc⟩
        have hfirst' := offset_of_unreadable hrest
          (List.append_cancel_left hcs) hc hfirst
        have hnone := hawaits.eq_none (admits_of_glance hglance) hmistakes
        have hhaul : haul.sheet = none := by
          rw [hnone] at hsheet
          generalize haul.sheet = name at hsheet
          cases hsheet
          rfl
        apply salvages_mistake hmistakes hpos hoffset hhaul hfirst'
        rw [tokensBefore_shift hstop,
          tokensBefore_eq_nil hrest (Nat.le_of_eq hfirst')]
  | failure hfails hrest _ =>
      cases hfirst
      exact salvages_nothing (.failure hfails hrest) haul front sheet
        hfails.split.left
  | spent hfails =>
      cases hfirst
      exact salvages_nothing (.spent hfails) haul front sheet hfails.split.left

end Run

/-! ## What an extraction salvages -/

/-- The tokens that the reader has taken in front of the first diagnostic. -/
def acceptedTokens (formula : String) : List Token :=
  match (Parse.ofText formula).diagnostics.head? with
  | some d => (Run.ofText formula).tokens.filter fun t => (t.offset : Int) < d.offset
  | none => (Run.ofText formula).tokens

theorem exists_first_failure {formula : String}
    (htree : (Parse.ofText formula).tree = none) :
    exists first d, (Run.ofText formula).failures.head? = some first ∧
      (Parse.ofText formula).diagnostics.head? = some d ∧
      d.offset = first.offset := by
  have hne : (Run.ofText formula).failures ≠ [] := by
    intro hnil
    rcases (Run.tree_eq_none_iff (Run.recovers_ofText formula)).mp htree with
      hspent | ⟨f, hf, _⟩
    · rw [hnil] at hspent
      cases hspent
    · rw [hnil] at hf
      cases hf
  cases hfailures : (Run.ofText formula).failures with
  | nil => exact absurd hfailures hne
  | cons first rest =>
      refine ⟨first, first.diagnostic formula, rfl, ?_, rfl⟩
      show (List.map _ (Parse.reported _ none _)).head? = _
      rw [hfailures]
      rfl

theorem acceptedTokens_eq {formula : String} {first : Failure} {d : Diagnostic}
    (hd : (Parse.ofText formula).diagnostics.head? = some d)
    (hoffset : d.offset = first.offset) :
    acceptedTokens formula = (Run.ofText formula).tokensBefore first.offset := by
  simp only [acceptedTokens, hd, hoffset, Int.ofNat_lt]
  rfl

namespace Extractor

variable {x : Extractor} {position : Position} {formula : String}

/-- Without a tree an extraction reads what is salvaged of the accepted tokens. -/
theorem notices_of_salvage (htree : (Parse.ofText formula).tree = none)
    {notices : List Notice} {v : Value}
    (h : (x.follow position formula (Parse.ofText formula)).Yields notices v) :
    notices = (joinedOf none (acceptedTokens formula) ++
      (strayRows? formula.toList (acceptedTokens formula)).toList).map
        fun ref => .read (placed position ref) := by
  rcases exists_first_failure htree with ⟨first, d, hfirst, hd, hoffset⟩
  have hsalvages : Run.Salvages ⟨none, []⟩ 0 [] formula.toList none
      (Run.ofText formula) first.offset :=
    Run.salvages_of_recovers (Run.recovers_ofText formula) rfl hfirst .nothing
      (Or.inl rfl)
  rcases hsalvages with ⟨last, hlast, hreferences⟩
  have hstop : ((Parse.ofText formula).diagnostics.head?.map
      fun d => d.offset.toNat).getD formula.length = first.offset := by
    rw [hd, Option.map_some, Option.getD_some, hoffset, Int.toNat_natCast]
  simp only [follow, followBy, htree] at h
  rcases notices_of_yields_salvage h with ⟨refs, hrefs, hnotices⟩
  rw [hstop] at hrefs
  rw [Nat.sub_zero] at hlast
  rw [Salvage.references, hlast] at hrefs
  injection hrefs with hrefs
  rw [hnotices, ← hrefs, hreferences, acceptedTokens_eq hd hoffset]
  rfl

theorem reads_map_iff {refs : List Reference} {d : Cell} :
    Reads (refs.map fun ref => .read (placed position ref)) d <->
      exists ref, ref ∈ refs ∧ (placed position ref).Holds d := by
  constructor
  · intro h
    rcases h with ⟨own, hmem, hholds⟩
    rcases List.mem_map.mp hmem with ⟨ref, href, heq⟩
    cases heq
    exact ⟨ref, href, hholds⟩
  · intro h
    rcases h with ⟨ref, href, hholds⟩
    exact ⟨_, List.mem_map_of_mem href, hholds⟩

/--
Without a tree the references of an extraction hold just the cells of the
literals on the grid that were taken in front of the first diagnostic, each with
the sheet that it touches, and of the rows that a last number may start.  So if
every literal touches its sheet and there are no such rows, they hold the cells
of these literals.
-/
theorem salvaged_hold_iff (x : Extractor) {formula : String}
    (hformula : formula ≠ "") (htree : (Parse.ofText formula).tree = none)
    (position : Position) :
    exists found, (x.extractAt formula position (some false)).outcome = .ok found ∧
      (forall d, (exists ref, ref ∈ found.references ∧ ref.Holds d) <->
        (exists e ref, e ∈ literalsOf none (acceptedTokens formula) ∧
          e.joined.literal? = some ref ∧ (placed position ref).Holds d) ∨
        exists ref, strayRows? formula.toList (acceptedTokens formula) = some ref ∧
          (placed position ref).Holds d) ∧
      ((forall e, e ∈ literalsOf none (acceptedTokens formula) -> e.joined = e) ->
        strayRows? formula.toList (acceptedTokens formula) = none ->
        forall d, (exists ref, ref ∈ found.references ∧ ref.Holds d) <->
          exists e ref, e ∈ literalsOf none (acceptedTokens formula) ∧
            e.literal? = some ref ∧ (placed position ref).Holds d) := by
  have hfollow : exists notices v,
      (x.follow position formula (Parse.ofText formula)).Yields notices v := by
    simp only [follow, followBy, htree]
    exact exists_yields_salvage _
  rcases (extractAt_lenient_ok_iff_follow x hformula position).mpr hfollow with
    ⟨found, hok⟩
  rcases exists_follow_of_extractAt hok with ⟨notices, v, hyields, hreferences⟩
  have hcells : forall d, (exists ref, ref ∈ found.references ∧ ref.Holds d) <->
      (exists e ref, e ∈ literalsOf none (acceptedTokens formula) ∧
        e.joined.literal? = some ref ∧ (placed position ref).Holds d) ∨
      exists ref, strayRows? formula.toList (acceptedTokens formula) = some ref ∧
        (placed position ref).Holds d := by
    intro d
    rw [hreferences, exists_entry_holds_iff, notices_of_salvage htree hyields,
      reads_map_iff]
    simp only [List.mem_append, Option.mem_toList, joinedOf,
      List.mem_filterMap, or_and_right, exists_or]
    apply or_congr_left
    constructor
    · intro h
      rcases h with ⟨ref, ⟨e, he, hliteral⟩, hholds⟩
      exact ⟨e, ref, he, hliteral, hholds⟩
    · intro h
      rcases h with ⟨e, ref, he, hliteral, hholds⟩
      exact ⟨ref, ⟨e, he, hliteral⟩, hholds⟩
  refine ⟨found, hok, hcells, ?_⟩
  intro hjoined hstray d
  rw [hcells d, hstray]
  constructor
  · intro h
    rcases h with ⟨e, ref, he, hliteral, hholds⟩ | ⟨ref, hnone, _⟩
    · rw [hjoined e he] at hliteral
      exact ⟨e, ref, he, hliteral, hholds⟩
    · cases hnone
  · intro h
    rcases h with ⟨e, ref, he, hliteral, hholds⟩
    refine Or.inl ⟨e, ref, he, ?_, hholds⟩
    rw [hjoined e he]
    exact hliteral

theorem parted_sheet_lost :
    literalsOf none (acceptedTokens "=S! A1+") =
        [.reference .cell (some ⟨"S!", 1⟩) ⟨"A1", 4⟩] ∧
      exists found, (extractAt {} "=S! A1+" (.mk 9 1 "T") (some false)).outcome =
          .ok found ∧
        (exists ref, ref ∈ found.references ∧ ref.Holds ⟨1, 1, some "T"⟩) ∧
        ¬ exists ref, ref ∈ found.references ∧ ref.Holds ⟨1, 1, some "S"⟩ := by
  have htree : (Parse.ofText "=S! A1+").tree = none := by decide +kernel
  have htokens : acceptedTokens "=S! A1+" =
      [⟨⟨"=", 0⟩, .equal⟩, ⟨⟨"S!", 1⟩, .sheet⟩, ⟨⟨"A1", 4⟩, .cell⟩,
        ⟨⟨"+", 6⟩, .plus⟩] := by decide +kernel
  have hliterals : literalsOf none (acceptedTokens "=S! A1+") =
      [.reference .cell (some ⟨"S!", 1⟩) ⟨"A1", 4⟩] := by
    rw [htokens]
    rfl
  have hstray : strayRows? "=S! A1+".toList (acceptedTokens "=S! A1+") = none := by
    rw [htokens]
    rfl
  have hjoined : (Expr.reference .cell (some ⟨"S!", 1⟩) ⟨"A1", 4⟩).joined.literal? =
      some (.cell ⟨1, 1, none⟩) := by decide +kernel
  rcases salvaged_hold_iff {} (by decide) htree (.mk 9 1 "T") with
    ⟨found, hok, hcells, _⟩
  refine ⟨hliterals, found, hok, ?_, ?_⟩
  · apply (hcells _).mpr
    rw [hliterals]
    exact Or.inl ⟨_, _, List.mem_cons_self, hjoined, rfl⟩
  · intro h
    rw [hcells, hliterals, hstray] at h
    rcases h with ⟨e, ref, he, hliteral, hholds⟩ | ⟨ref, hnone, _⟩
    · rw [List.mem_singleton.mp he, hjoined] at hliteral
      cases hliteral
      revert hholds
      decide
    · cases hnone

end Extractor
end Precedents
