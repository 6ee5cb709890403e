import Mathlib.Data.Set.Function
import Precedents.Formula.Diagnostic

/-!
# Lines and columns

A text is its lines with a line feed between them.  A place lies on one of the lines,
in front of one of its characters or right behind the last one, and is counted by the
lines above it and by its column.  So each offset up to the length of the text has one
line and one column, and no other offset has them too.
-/

namespace Precedents
namespace Place

/-! ## Places on lines -/

/-- The place lies on its line, and is reached from the start by so many characters. -/
structure Counts (lines : List (List Char)) (offset : Nat) (place : Place) : Prop where
  line_pos : 1 ≤ place.line
  sourceLine_eq : lines[place.line - 1]? = some place.sourceLine
  column_pos : 1 ≤ place.column
  column_le : place.column ≤ place.sourceLine.length + 1
  /-- Each line above counts with its line feed. -/
  offset_eq : (lines.take (place.line - 1)).flatten.length + (place.line - 1) +
    (place.column - 1) = offset

def lower (place : Place) : Place :=
  { place with line := place.line + 1 }

section Lines

variable {line : List Char} {lines : List (List Char)} {offset : Nat} {place other : Place}

theorem counts_first (h : offset ≤ line.length) :
    Counts (line :: lines) offset ⟨1, offset + 1, line⟩ where
  line_pos := Nat.le_refl 1
  sourceLine_eq := rfl
  column_pos := Nat.le_add_left 1 offset
  column_le := Nat.succ_le_succ h
  offset_eq := by simp

theorem Counts.lower (h : Counts lines offset place) (line : List Char) :
    Counts (line :: lines) (line.length + 1 + offset) place.lower := by
  rcases place with ⟨n, column, source⟩
  obtain ⟨k, rfl⟩ := Nat.exists_eq_add_of_le' h.line_pos
  refine ⟨Nat.le_add_left 1 _, h.sourceLine_eq, h.column_pos, h.column_le, ?_⟩
  have hoffset := h.offset_eq
  simp only [Place.lower, Nat.add_sub_cancel, List.take_succ_cons, List.flatten_cons,
    List.length_append] at hoffset ⊢
  omega

theorem Counts.cases_first (h : Counts (line :: lines) offset place) :
    (offset ≤ line.length ∧ place = ⟨1, offset + 1, line⟩) ∨
      exists below rest, Counts lines rest below ∧ offset = line.length + 1 + rest ∧
        place = below.lower := by
  rcases place with ⟨n, column, source⟩
  rcases h with ⟨hline, hsource, hcolumn, hwidth, hoffset⟩
  obtain ⟨k, rfl⟩ := Nat.exists_eq_add_of_le' hline
  cases k with
  | zero =>
      left
      simp only [Nat.zero_add, Nat.sub_self, List.getElem?_cons_zero, Option.some.injEq,
        List.take_zero, List.flatten_nil, List.length_nil] at hsource hoffset hwidth hcolumn
      rw [← hsource] at hwidth
      refine ⟨by omega, ?_⟩
      rw [hsource, ← hoffset, Nat.sub_add_cancel hcolumn]
  | succ k =>
      right
      refine ⟨⟨k + 1, column, source⟩, _, ⟨Nat.le_add_left 1 k, hsource, hcolumn, hwidth, rfl⟩,
        ?_, rfl⟩
      simp only [Nat.add_sub_cancel, List.take_succ_cons, List.flatten_cons,
        List.length_append] at hoffset ⊢
      omega

theorem Counts.unique (h : Counts lines offset place) (hother : Counts lines offset other) :
    place = other := by
  induction lines generalizing offset place other with
  | nil => exact absurd h.sourceLine_eq (by simp)
  | cons line lines ih =>
      rcases h.cases_first with ⟨hfirst, hplace⟩ | ⟨below, rest, hbelow, hoffset, hplace⟩
      · rcases hother.cases_first with ⟨_, hequal⟩ | ⟨_, _, _, hoffset, _⟩
        · rw [hplace, hequal]
        · omega
      · rcases hother.cases_first with ⟨_, _⟩ | ⟨below', rest', hbelow', hoffset', hequal⟩
        · omega
        · obtain rfl : rest = rest' := by omega
          rw [hplace, hequal, ih hbelow hbelow']

theorem Counts.eq_of_line_column {n : Nat} (h : Counts lines offset place)
    (hother : Counts lines n other) (hline : place.line = other.line)
    (hcolumn : place.column = other.column) : offset = n := by
  rw [← h.offset_eq, ← hother.offset_eq, hline, hcolumn]

end Lines

/-! ## Lines of a text

A text without a line feed is one line.  In any other text the first line feed ends the
first line, and the places behind it are those of the rest of the text, one line lower.
-/

section Text

variable {line rest cs : List Char} {offset : Nat} {place : Place}

/-- A text is its last line, or a line with a line feed and more text behind it. -/
theorem lines_induction {P : List Char -> Prop}
    (last : forall line, '\n' ∉ line -> P line)
    (above : forall line rest, '\n' ∉ line -> P rest -> P (line ++ '\n' :: rest))
    (cs : List Char) : P cs := by
  generalize hn : cs.length = n
  induction n using Nat.strong_induction_on generalizing cs with
  | _ n ih =>
      by_cases hmem : '\n' ∈ cs
      · rcases List.eq_append_cons_of_mem hmem with ⟨line, rest, hcs, hline⟩
        rw [hcs, List.length_append, List.length_cons] at hn
        rw [hcs]
        exact above line rest hline (ih rest.length (by omega) rest rfl)
      · exact last cs hmem

theorem takeWhile_line (h : '\n' ∉ line) (rest : List Char) :
    (line ++ rest).takeWhile (fun c => decide (c ≠ '\n')) =
      line ++ rest.takeWhile fun c => decide (c ≠ '\n') := by
  apply List.takeWhile_append_of_pos
  intro c hc
  exact decide_eq_true fun heq => h (heq ▸ hc)

theorem takeWhile_feed (cs rest : List Char) :
    (cs ++ '\n' :: rest).takeWhile (fun c => decide (c ≠ '\n')) =
      cs.takeWhile fun c => decide (c ≠ '\n') := by
  induction cs with
  | nil => rfl
  | cons c cs ih =>
      rw [List.cons_append, List.takeWhile_cons, List.takeWhile_cons, ih]

theorem locate_line (h : '\n' ∉ line) (hoffset : offset ≤ line.length)
    (hrest : (rest.takeWhile fun c => decide (c ≠ '\n')) = []) :
    locate (line ++ rest) offset = ⟨1, offset + 1, line⟩ := by
  have hbefore : '\n' ∉ line.take offset := fun hmem => h (List.mem_of_mem_take hmem)
  have hbehind : '\n' ∉ line.drop offset := fun hmem => h (List.mem_of_mem_drop hmem)
  have hreverse : '\n' ∉ (line.take offset).reverse := mt List.mem_reverse.mp hbefore
  have hhead : (line.take offset).reverse.takeWhile (fun c => decide (c ≠ '\n')) =
      (line.take offset).reverse := by
    simpa using takeWhile_line hreverse []
  have hlength : (line.take offset).length = offset := List.length_take_of_le hoffset
  simp only [locate, List.take_append_of_le_length hoffset, List.drop_append_of_le_length hoffset,
    List.count_eq_zero_of_not_mem hbefore, hhead, List.reverse_reverse, hlength,
    takeWhile_line hbehind, hrest, List.append_nil, List.take_append_drop, Nat.zero_add]

theorem locate_below (h : '\n' ∉ line) (rest : List Char) (offset : Nat) :
    locate (line ++ '\n' :: rest) (line.length + 1 + offset) =
      (locate rest offset).lower := by
  have hsplit : line ++ '\n' :: rest = (line ++ ['\n']) ++ rest := by simp
  have hlength : line.length + 1 = (line ++ ['\n']).length := by simp
  have hhead : ((line ++ ['\n'] ++ rest.take offset).reverse.takeWhile
      fun c => decide (c ≠ '\n')) =
        (rest.take offset).reverse.takeWhile fun c => decide (c ≠ '\n') := by
    rw [List.reverse_append, List.reverse_append, List.reverse_singleton,
      List.singleton_append, takeWhile_feed]
  have hcount : (line ++ ['\n'] ++ rest.take offset).count '\n' =
      (rest.take offset).count '\n' + 1 := by
    rw [List.count_append, List.count_append, List.count_eq_zero_of_not_mem h,
      List.count_singleton_self, Nat.zero_add, Nat.add_comm]
  rw [hsplit, hlength]
  simp only [locate, lower, List.take_length_add_append, List.drop_length_add_append, hhead, hcount]

theorem counts_locate (cs : List Char) {offset : Nat} (h : offset ≤ cs.length) :
    Counts (cs.splitOn '\n') offset (locate cs offset) := by
  induction cs using lines_induction generalizing offset with
  | last line hline =>
      have hplace : locate (line ++ []) offset = ⟨1, offset + 1, line⟩ :=
        locate_line hline h rfl
      rw [List.append_nil] at hplace
      rw [List.splitOn_eq_singleton hline, hplace]
      exact counts_first h
  | above line rest hline ih =>
      rw [List.splitOn_append_cons_self_of_not_mem hline]
      by_cases hfirst : offset ≤ line.length
      · rw [locate_line hline hfirst rfl]
        exact counts_first hfirst
      · obtain ⟨below, rfl⟩ := Nat.exists_eq_add_of_le (Nat.lt_of_not_le hfirst)
        rw [List.length_append, List.length_cons] at h
        rw [Nat.succ_eq_add_one, locate_below hline]
        exact (ih (by omega)).lower line

theorem Counts.offset_le (h : Counts (cs.splitOn '\n') offset place) :
    offset ≤ cs.length := by
  induction cs using lines_induction generalizing offset place with
  | last line hline =>
      rw [List.splitOn_eq_singleton hline] at h
      rcases h.cases_first with ⟨hfirst, _⟩ | ⟨_, _, hbelow, _, _⟩
      · exact hfirst
      · exact absurd hbelow.sourceLine_eq (by simp)
  | above line rest hline ih =>
      rw [List.splitOn_append_cons_self_of_not_mem hline] at h
      rw [List.length_append, List.length_cons]
      rcases h.cases_first with ⟨hfirst, _⟩ | ⟨_, _, hbelow, hoffset, _⟩
      · omega
      · have hrest := ih hbelow
        omega

/-- The place of an offset is the one on the lines of the text that counts it. -/
theorem counts_iff :
    Counts (cs.splitOn '\n') offset place <-> offset ≤ cs.length ∧ place = locate cs offset := by
  constructor
  · intro h
    exact ⟨h.offset_le, h.unique (counts_locate cs h.offset_le)⟩
  · intro h
    rw [h.right]
    exact counts_locate cs h.left

theorem locate_of_length_le (h : cs.length ≤ offset) :
    locate cs offset = locate cs cs.length := by
  simp [locate, List.take_of_length_le h, List.drop_eq_nil_of_le h]

end Text
end Place

/-! ## Diagnostics -/

namespace Diagnostic

variable {text : String} {offset : Int}

def place (d : Diagnostic) : Place :=
  ⟨d.line, d.column, d.sourceLine.toList⟩

/-- The lines of the text and their columns, the one right behind a line included. -/
def lineColumns (text : String) : Set (Nat × Nat) :=
  {p | 1 ≤ p.1 ∧ exists line, (text.toList.splitOn '\n')[p.1 - 1]? = some line ∧
    1 ≤ p.2 ∧ p.2 ≤ line.length + 1}

theorem place_ofOffset (text : String) (offset : Int) (message : String) :
    (ofOffset text offset message).place = Place.locate text.toList offset.toNat := by
  simp only [place, ofOffset, String.toList_ofList]

theorem counts_ofOffset (hstart : 0 ≤ offset) (hend : offset ≤ text.length)
    (message : String) :
    (ofOffset text offset message).place.Counts (text.toList.splitOn '\n') offset.toNat := by
  rw [place_ofOffset]
  apply Place.counts_locate
  rw [String.length_toList]
  omega

theorem exists_offset {line column : Nat} (h : (line, column) ∈ lineColumns text)
    (message : String) :
    exists offset : Int, (0 ≤ offset ∧ offset ≤ text.length) ∧
      (ofOffset text offset message).line = line ∧
      (ofOffset text offset message).column = column := by
  rcases h with ⟨hline, source, hsource, hcolumn, hwidth⟩
  obtain ⟨offset, hcounts⟩ : exists offset,
      Place.Counts (text.toList.splitOn '\n') offset ⟨line, column, source⟩ :=
    ⟨_, hline, hsource, hcolumn, hwidth, rfl⟩
  rcases Place.counts_iff.mp hcounts with ⟨hend, hplace⟩
  rw [String.length_toList] at hend
  have hpoints := place_ofOffset text offset message
  rw [Int.toNat_natCast, ← hplace] at hpoints
  exact ⟨offset, ⟨Int.natCast_nonneg offset, Int.ofNat_le.mpr hend⟩,
    congrArg Place.line hpoints, congrArg Place.column hpoints⟩

/--
Offsets within a text and its lines and columns stand for each other, each place being
that many characters behind the start; other offsets point where the nearest bound does.
-/
theorem ofOffset_bijOn (text message : String) :
    (forall offset : Int, 0 ≤ offset -> offset ≤ text.length ->
      (ofOffset text offset message).place.Counts (text.toList.splitOn '\n') offset.toNat) ∧
    Set.BijOn
      (fun offset : Int =>
        ((ofOffset text offset message).line, (ofOffset text offset message).column))
      {offset : Int | 0 ≤ offset ∧ offset ≤ text.length} (lineColumns text) ∧
    (forall offset : Int, offset < 0 ->
      (ofOffset text offset message).place = (ofOffset text 0 message).place) ∧
    forall offset : Int, text.length < offset ->
      (ofOffset text offset message).place = (ofOffset text text.length message).place := by
  refine ⟨?_, ⟨?_, ?_, ?_⟩, ?_, ?_⟩
  · intro offset hstart hend
    exact counts_ofOffset hstart hend message
  · intro offset hoffset
    have h := counts_ofOffset hoffset.left hoffset.right message
    exact ⟨h.line_pos, _, h.sourceLine_eq, h.column_pos, h.column_le⟩
  · intro a ha b hb hequal
    injection hequal with hline hcolumn
    have hcounts := counts_ofOffset ha.left ha.right message
    have hother := counts_ofOffset hb.left hb.right message
    have hsame := hcounts.eq_of_line_column hother hline hcolumn
    rw [← Int.toNat_of_nonneg ha.left, hsame, Int.toNat_of_nonneg hb.left]
  · intro ⟨line, column⟩ h
    rcases exists_offset h message with ⟨offset, hoffset, hline, hcolumn⟩
    exact ⟨offset, hoffset, Prod.ext hline hcolumn⟩
  · intro offset hoffset
    rw [place_ofOffset, place_ofOffset, Int.toNat_of_nonpos (Int.le_of_lt hoffset)]
    rfl
  · intro offset hoffset
    rw [place_ofOffset, place_ofOffset, Int.toNat_natCast, ← String.length_toList]
    apply Place.locate_of_length_le
    rw [String.length_toList]
    omega

theorem empty_line_placed :
    (ofOffset "=A1+\n\nB2" 5 "?").place = ⟨2, 1, []⟩ ∧
      (ofOffset "=A1+\n\nB2" 5 "?").place.Counts ["=A1+".toList, [], "B2".toList] 5 ∧
      (ofOffset "=A1+\n\nB2" 9 "?").place = ⟨3, 3, "B2".toList⟩ := by
  rcases ofOffset_bijOn "=A1+\n\nB2" "?" with ⟨hcounts, _, _, hbehind⟩
  have hlines : "=A1+\n\nB2".toList.splitOn '\n' = ["=A1+".toList, [], "B2".toList] := by
    decide
  have hfifth := hcounts 5 (by decide) (by decide)
  rw [hlines] at hfifth
  refine ⟨by decide, hfifth, ?_⟩
  rw [hbehind 9 (by decide)]
  decide

end Diagnostic
end Precedents
