import Precedents.Proofs.Extraction.Breaking
import Precedents.Proofs.Formula.RoundTrip
import Precedents.Proofs.Reference.Addressing

/-!
# Literals are read back

A number, a truth value, an error value, a text and an array of such items each have
a text that stands for them in a formula.  A formula that is made of this text alone
has just the value it was written for, and nothing is found or reported on the way.
-/

namespace Precedents

open Text

/-! ## Texts of values -/

namespace Value

/-- How an item is written.  The marks inside a text are doubled. -/
def itemText : Value -> String
  | .int n => toString n
  | .bool b => if b then "TRUE" else "FALSE"
  | .text s => String.ofList (quoteMark :: (doubled quoteMark s.toList ++ [quoteMark]))
  | .error e => e.text
  | _ => ""

def rowText : Value -> String
  | .list items => ",".intercalate (items.map itemText)
  | _ => ""

def literalText : Value -> String
  | .list rows => "\x7b" ++ ";".intercalate (rows.map rowText) ++ "\x7d"
  | v => v.itemText

/-- A whole number with no more digits than are read, a truth value, a text or an error value. -/
def IsWritable : Value -> Prop
  | .int n => (toString n.natAbs).length ≤ Numeral.digitLimit
  | .bool _ | .text _ | .error _ => True
  | _ => False

/-- An item without a sign, or an array with at least one row and no empty ones. -/
inductive IsLiteral : Value -> Prop
  | item {v : Value} (h : v.IsWritable) (hsign : forall n, v = .int n -> 0 ≤ n) : IsLiteral v
  | array {rows : List (List Value)} (hne : rows ≠ [])
      (hrows : forall row, row ∈ rows -> row ≠ [] ∧ forall v, v ∈ row -> v.IsWritable) :
      IsLiteral (.list (rows.map Value.list))

end Value

/-! ## Words of items -/

section Words

open Scanner

theorem stringRest_doubled (cs : List Char) :
    Terminal.stringRest (doubled quoteMark cs ++ [quoteMark]) = some [] := by
  induction cs with
  | nil => rfl
  | cons c cs ih =>
      rw [doubled_cons]
      by_cases hc : c = quoteMark
      · simp [hc, Terminal.stringRest, ih]
      · rw [if_neg hc, List.singleton_append, List.cons_append]
        cases hrest : doubled quoteMark cs ++ [quoteMark] with
        | nil => simp at hrest
        | cons d rest =>
            rw [Terminal.stringRest, if_neg hc, ← hrest, ih]

theorem spells_quoted (s : String) :
    Terminal.string.Spells (Value.itemText (.text s)).toList := by
  refine ⟨?_, by simp, by simp⟩
  show Terminal.stringShape (String.ofList _).toList = some []
  rw [String.toList_ofList, Terminal.stringShape, seq_apply, Terminal.char_cons,
    Option.bind_some, stringRest_doubled]

theorem string_quoted (s : String) : Literal.string (Value.itemText (.text s)) = s := by
  simp [Literal.string, Value.itemText, undoubled_doubled]

theorem numberShape_of_digits {cs : List Char} (h : Digits cs) (hne : cs ≠ []) :
    Terminal.numberShape cs = some [] := by
  cases cs with
  | nil => exact absurd rfl hne
  | cons c cs =>
      have hc := h c List.mem_cons_self
      have hrun : (cs ++ []).dropWhile isPlainDigit = [] :=
        List.dropWhile_append_of_pos fun d hd => h d (List.mem_cons_of_mem c hd)
      rw [List.append_nil] at hrun
      simp [Terminal.numberShape, Terminal.exponentShape, either, maybe, many1, many, one,
        char, seq_apply, hc, hrun]

theorem spells_digits {cs : List Char} (h : Digits cs) (hne : cs ≠ []) :
    Terminal.number.Spells cs :=
  ⟨numberShape_of_digits h hne, by simp, by simp⟩

theorem number_of_digits {cs : List Char} (h : Digits cs) (hne : cs ≠ [])
    (hlength : cs.length ≤ Numeral.digitLimit) :
    Literal.number (String.ofList cs) = .ok (.int (Nat.ofDigitChars 10 cs 0)) := by
  have hread := (Numeral.ofPlainDigits_eq_ok_iff h).mpr ⟨hlength, rfl⟩
  unfold Literal.number
  rw [String.toList_ofList, any_mark_of_digits h, if_neg Bool.false_ne_true,
    readInteger_eq_of_digits h hne, hread]
  rfl

theorem spells_nat (n : Nat) : Terminal.number.Spells (toString n).toList := by
  rw [show (toString n).toList = Nat.toDigits 10 n from Nat.toList_repr]
  exact spells_digits (digits_toDigits n) Nat.toDigits_ne_nil

theorem number_nat {n : Nat} (h : (toString n).length ≤ Numeral.digitLimit) :
    Literal.number (toString n) = .ok (.int n) := by
  have hchars : (toString n).toList = Nat.toDigits 10 n := Nat.toList_repr
  have hback := Nat.ofDigitChars_toDigits (b := 10) (n := n) (by decide) (by decide)
  rw [← String.length_toList, hchars] at h
  rw [← String.ofList_toList (s := toString n), hchars,
    number_of_digits (digits_toDigits n) Nat.toDigits_ne_nil h, hback]

theorem negativeNumber_nat {n : Nat} (h : (toString n).length ≤ Numeral.digitLimit) :
    Literal.negativeNumber (toString n) = .ok (.int (-n)) := by
  rw [Literal.negativeNumber, number_nat h]
  rfl

theorem spells_boolean (b : Bool) :
    Terminal.boolean.Spells (if b then "TRUE" else "FALSE").toList := by
  cases b with
  | true => decide +kernel
  | false => decide +kernel

theorem boolean_text (b : Bool) :
    Literal.boolean (if b then "TRUE" else "FALSE") = b := by
  cases b with
  | true => decide +kernel
  | false => decide +kernel

theorem spells_error (e : ErrorValue) : Terminal.error.Spells e.text.toList := by
  cases e
  all_goals decide +kernel

theorem error_text (e : ErrorValue) : Literal.error e.text = e := by
  cases e
  all_goals decide +kernel

end Words

/-! ## Tokens of values -/

/-- From any place on, the text is laid out as the tokens of something with the property. -/
def LaidOut {α : Type} (spelled : α -> List Token -> Prop) (P : α -> Prop)
    (text : String) : Prop :=
  forall offset, exists a ts, spelled a ts ∧ Laid offset ts text.toList ∧ P a

theorem laidOut_word {α : Type} {spelled : α -> List Token -> Prop} {P : α -> Prop}
    {make : Lexeme -> α} {t : Terminal} {word : String}
    (hspelled : forall lexeme, spelled (make lexeme) [⟨lexeme, t⟩])
    (hword : t.Spells word.toList) (hmake : forall offset, P (make ⟨word, offset⟩)) :
    LaidOut spelled P word :=
  fun offset => ⟨make ⟨word, offset⟩, _, hspelled _, laid_word hword offset, hmake offset⟩

section Joining

variable {ε α β : Type} {one : α -> List Token -> Prop}
variable {many : List α -> List Token -> Prop} {value : α -> Except ε β}
variable {write : β -> String} {mark : String} {t : Terminal}

theorem laidOut_join (hmark : t.Spells mark.toList)
    (hlast : forall {a ts}, one a ts -> many [a] ts)
    (hmore : forall {a as ts us} (word : Lexeme), one a ts -> many as us ->
      many (a :: as) (ts ++ ⟨word, t⟩ :: us))
    {b : β} {bs : List β}
    (h : forall v, v ∈ b :: bs -> LaidOut one (fun a => value a = .ok v) (write v)) :
    LaidOut many (fun as => as.mapM value = .ok (b :: bs))
      (mark.intercalate ((b :: bs).map write)) := by
  induction bs generalizing b with
  | nil =>
      intro offset
      rcases h b List.mem_cons_self offset with ⟨a, ts, hone, hlaid, ha⟩
      refine ⟨[a], ts, hlast hone, ?_, ?_⟩
      · simpa [String.toList_intercalate] using hlaid
      · show [a].mapM value = .ok [b]
        rw [List.mapM_cons, ha]
        rfl
  | cons c bs ih =>
      intro offset
      rcases h b List.mem_cons_self offset with ⟨a, ts, hone, hlaid, ha⟩
      rcases ih (fun v hv => h v (List.mem_cons_of_mem b hv))
        (offset + (write b).toList.length + mark.toList.length) with
        ⟨as, us, hmany, hrest, has⟩
      have hjoined := hlaid.append ((laid_word hmark _).append hrest)
      refine ⟨a :: as, _, hmore ⟨mark, offset + (write b).toList.length⟩ hone hmany, ?_, ?_⟩
      · simpa [String.toList_intercalate, List.intercalate_cons_cons] using hjoined
      · show (a :: as).mapM value = .ok (b :: c :: bs)
        rw [List.mapM_cons, ha, has]
        rfl

end Joining

section Items

open Extractor

theorem int_text_cases (n : Int) :
    (0 ≤ n ∧ toString n = toString n.natAbs ∧ n = n.natAbs) ∨
      toString n = "-" ++ toString n.natAbs ∧ n = -(n.natAbs : Int) := by
  cases n with
  | ofNat m => exact Or.inl ⟨Int.natCast_nonneg m, rfl, rfl⟩
  | negSucc m => exact Or.inr ⟨rfl, rfl⟩

theorem laidOut_negative {n : Nat} (h : (toString n).length ≤ Numeral.digitLimit) :
    LaidOut ItemSpelled (fun item => itemValue item = .ok (.int (-n)))
      ("-" ++ toString n) := by
  intro offset
  have hmark : Terminal.minus.Spells "-".toList := by decide
  have hlaid := (laid_word hmark offset).append (laid_word (spells_nat n) _)
  refine ⟨.negative ⟨toString n, offset + "-".toList.length⟩, _, .negative ⟨"-", offset⟩ _,
    ?_, negativeNumber_nat h⟩
  rw [String.toList_append]
  exact hlaid

theorem laidOut_item {v : Value} (h : v.IsWritable) :
    LaidOut ItemSpelled (fun item => itemValue item = .ok v) v.itemText := by
  cases v with
  | int n =>
      rcases int_text_cases n with ⟨_, htext, hn⟩ | ⟨htext, hn⟩
      · have hlaid : LaidOut ItemSpelled
            (fun item => itemValue item = .ok (.int n.natAbs)) (toString n.natAbs) :=
          laidOut_word .number (spells_nat _) fun _ => number_nat h
        rwa [← htext, ← hn] at hlaid
      · have hlaid := laidOut_negative h
        rwa [← htext, ← hn] at hlaid
  | bool b =>
      apply laidOut_word .boolean (spells_boolean b)
      intro offset
      rw [itemValue, boolean_text]
  | text s =>
      apply laidOut_word .string (spells_quoted s)
      intro offset
      rw [itemValue, string_quoted]
  | error e =>
      apply laidOut_word .error (spells_error e)
      intro offset
      rw [itemValue, error_text]
  | _ => cases h

theorem laidOut_row {v : Value} {row : List Value}
    (h : forall w, w ∈ v :: row -> w.IsWritable) :
    LaidOut RowSpelled (fun items => items.mapM itemValue = .ok (v :: row))
      (Value.rowText (.list (v :: row))) :=
  laidOut_join (show Terminal.comma.Spells ",".toList by decide) .last .more
    fun w hw => laidOut_item (h w hw)

theorem laidOut_rows {row : List Value} {rows : List (List Value)}
    (h : forall r, r ∈ row :: rows -> r ≠ [] ∧ forall v, v ∈ r -> v.IsWritable) :
    LaidOut RowsSpelled
      (fun items => (items.mapM fun r => r.mapM itemValue) = .ok (row :: rows))
      (";".intercalate (((row :: rows).map Value.list).map Value.rowText)) := by
  rw [List.map_map]
  refine laidOut_join (show Terminal.semicolon.Spells ";".toList by decide) .last .more ?_
  intro r hr
  rcases h r hr with ⟨hne, hr⟩
  cases r with
  | nil => exact absurd rfl hne
  | cons v r => exact laidOut_row hr

end Items

/-! ## Formulas -/

namespace Extractor

def MeansOnly (v : Value) (e : Expr) : Prop :=
  forall (x : Extractor) (position : Position) (formula : String),
    (x.walk position formula e).Yields [] v

theorem laidOut_array {row : List Value} {rows : List (List Value)}
    (h : forall r, r ∈ row :: rows -> r ≠ [] ∧ forall v, v ∈ r -> v.IsWritable) :
    LaidOut (fun e => Spelled (.operand 1 e))
      (MeansOnly (.list ((row :: rows).map Value.list)))
      (Value.literalText (.list ((row :: rows).map Value.list))) := by
  intro offset
  rcases laidOut_rows h (offset + 1) with ⟨items, ts, hspelled, hlaid, hitems⟩
  have hleft : Terminal.leftBrace.Spells "\x7b".toList := by decide
  have hright : Terminal.rightBrace.Spells "\x7d".toList := by decide
  have hopen := (laid_word hleft offset).append (hlaid.append (laid_word hright _))
  rw [← String.toList_append, ← String.toList_append, ← String.append_assoc] at hopen
  refine ⟨.array items, _, ?_, hopen, ?_⟩
  · exact .array _ _ hspelled
  · intro x position formula
    rw [walk, Traced.yields_ofExcept, arrayValue, hitems]
    exact ⟨rfl, rfl⟩

theorem laidOut_literal {v : Value} (h : v.IsLiteral) :
    LaidOut (fun e => Spelled (.operand 1 e)) (MeansOnly v) v.literalText := by
  cases h with
  | @array rows hne hrows =>
      cases rows with
      | nil => exact absurd rfl hne
      | cons row rows => exact laidOut_array hrows
  | item h hsign =>
      cases v with
      | int n =>
          rcases Int.eq_ofNat_of_zero_le (hsign n rfl) with ⟨m, hm⟩
          rw [hm] at h ⊢
          have hnumber : Literal.number (toString m) = .ok (.int m) := number_nat h
          apply laidOut_word .number (spells_nat m)
          intro offset x position formula
          rw [walk, hnumber]
          exact ⟨rfl, rfl⟩
      | bool b =>
          apply laidOut_word .boolean (spells_boolean b)
          intro offset x position formula
          rw [walk, boolean_text]
          exact ⟨rfl, rfl⟩
      | text s =>
          apply laidOut_word .string (spells_quoted s)
          intro offset x position formula
          rw [walk, string_quoted]
          exact ⟨rfl, rfl⟩
      | error e =>
          apply laidOut_word .error (spells_error e)
          intro offset x position formula
          rw [walk, error_text]
          exact ⟨rfl, rfl⟩
      | _ => cases h

theorem exists_tree_of_literal {v : Value} (h : v.IsLiteral) :
    exists e, Parse.ofText ("=" ++ v.literalText) = ⟨some e, []⟩ ∧ MeansOnly v e := by
  rcases laidOut_literal h 1 with ⟨e, ts, hspelled, hlaid, hmeans⟩
  exact ⟨e, ofText_of_laid hspelled hlaid, hmeans⟩

variable {v : Value}

theorem finish_of_literal (h : v.IsLiteral) (position : Position) :
    finish position v = pure v := by
  cases h with
  | array hne hrows => rfl
  | item h hsign =>
      cases v with
      | reference ref => cases h
      | _ => rfl

theorem extractAt_of_tree {x : Extractor} {position : Position} {formula : String} {e : Expr}
    {notices : List Notice} (hformula : formula ≠ "")
    (hparse : Parse.ofText formula = ⟨some e, []⟩)
    (hwalk : (x.walk position formula e).Yields notices v) (hfinish : finish position v = pure v)
    (hclean : (Findings.absorbAll {} notices).diagnostics = []) (strict : Option Bool) :
    (x.extractAt formula position strict).outcome =
      .ok (lenientOutcome (Findings.absorbAll {} notices) v) := by
  have hfollow : (x.follow position formula (Parse.ofText formula)).Yields notices v := by
    rw [follow_of_tree (by rw [hparse]), Traced.yields_bind]
    refine ⟨notices, v, [], hwalk, ?_, (List.append_nil notices).symm⟩
    rw [hfinish]
    exact Traced.yields_pure.mpr ⟨rfl, rfl⟩
  have hfindings : findingsOf formula notices = Findings.absorbAll {} notices := by
    rw [findingsOf, hparse]
  have hfound : (lenientOutcome (Findings.absorbAll {} notices) v).diagnostics = [] := by
    rw [lenientOutcome, hclean]
    rfl
  rw [extractAt_of_yields hformula hfollow, hfindings]
  exact if_neg fun hstrict => hstrict.right hfound

/--
A formula that is made of the text of a literal alone has just that value: it depends
on nothing, misses no function and has nothing wrong with it.
-/
theorem extractAt_literal (h : v.IsLiteral) (x : Extractor) (position : Position)
    (strict : Option Bool) :
    (x.extractAt ("=" ++ v.literalText) position strict).outcome = .ok ⟨[], [], [], v⟩ := by
  rcases exists_tree_of_literal h with ⟨e, hparse, hmeans⟩
  have hformula : "=" ++ v.literalText ≠ "" := by simp
  exact extractAt_of_tree hformula hparse (hmeans x position _) (finish_of_literal h position)
    rfl strict

def unevenRows : List (List Value) :=
  [[.int (-7), .text "\",\x7d;\nS!A1\"\""], [.error .na]]

theorem unevenRows_read_back :
    Value.IsLiteral (.list (unevenRows.map Value.list)) ∧
      (({} : Extractor).extractAt "=\x7b-7,\"\"\",\x7d;\nS!A1\"\"\"\"\";#N/A\x7d"
          (.mk 9 1 "S") (some true)).outcome =
        .ok ⟨[], [], [], .list (unevenRows.map Value.list)⟩ := by
  have hwritable : forall row, row ∈ unevenRows ->
      row ≠ [] ∧ forall v, v ∈ row -> v.IsWritable := by
    have hseven : (toString (-7 : Int).natAbs).length ≤ Numeral.digitLimit := by
      decide +kernel
    simp only [unevenRows, List.mem_cons, List.not_mem_nil, or_false, forall_eq_or_imp,
      forall_eq]
    exact ⟨⟨List.cons_ne_nil _ _, hseven, trivial⟩, List.cons_ne_nil _ _, trivial⟩
  have hliteral : Value.IsLiteral (.list (unevenRows.map Value.list)) :=
    .array (by simp [unevenRows]) hwritable
  have htext : "=" ++ Value.literalText (.list (unevenRows.map Value.list)) =
      "=\x7b-7,\"\"\",\x7d;\nS!A1\"\"\"\"\";#N/A\x7d" := by
    decide +kernel
  have hread := extractAt_literal hliteral {} (.mk 9 1 "S") (some true)
  rw [htext] at hread
  exact ⟨hliteral, hread⟩

end Extractor

end Precedents
