import Precedents.Text.Scan

/-!
# Laws of scanners

Three things are asked of a scanner.  It stops at some characters if a text
behind its own, that starts with one of them, makes no difference to it.  It
reads words of a kind; it takes characters of a class if it reads nothing else.
It needs a character of a class if it fails on texts without one, and opens with
a class if it fails on texts with another first character.  Each law goes
through the ways in which scanners are composed.
-/

namespace Precedents
namespace Text
namespace Scanner

variable {s t : Scanner} {p q : Char -> Bool} {bs : List Char}

/-- Listed characters are gone through one by one, and not all characters. -/
instance (priority := 2000) decidableForallListed (p : Char -> Prop)
    [DecidablePred p] (cs : List Char) : Decidable (forall c, c ∈ cs -> p c) :=
  List.decidableBAll p cs

def StartsIn (bs : List Char) (rest : List Char) : Prop :=
  forall c, rest.head? = some c -> c ∈ bs

/-- What follows makes no difference if it starts with one of the characters. -/
def StopsAt (bs : List Char) (s : Scanner) : Prop :=
  forall cs rest, StartsIn bs rest ->
    s (cs ++ rest) = (s cs).map fun out => out ++ rest

def Reads (W : List Char -> Prop) (s : Scanner) : Prop :=
  forall cs out, s cs = some out -> exists word, cs = word ++ out ∧ W word

def Takes (p : Char -> Bool) (s : Scanner) : Prop :=
  Reads (fun word => forall c, c ∈ word -> p c = true) s

/-- A text without a character that satisfies `p` is refused. -/
def Needs (p : Char -> Bool) (s : Scanner) : Prop :=
  forall cs out, s cs = some out -> exists c, c ∈ cs ∧ p c = true

/-- A text whose first character does not satisfy `p` is refused. -/
def Opens (p : Char -> Bool) (s : Scanner) : Prop :=
  forall cs out, s cs = some out ->
    exists c rest, cs = c :: rest ∧ p c = true

theorem seq_apply (s t : Scanner) (cs : List Char) :
    (s >=> t) cs = (s cs).bind t := rfl

theorem startsIn_cons {c : Char} {rest : List Char} :
    StartsIn bs (c :: rest) <-> c ∈ bs := by
  simp [StartsIn]

/-! ## Stopping -/

theorem stopsAt_one (h : forall c, c ∈ bs -> p c = false) :
    StopsAt bs (one p) := by
  intro cs rest hrest
  cases cs with
  | nil =>
      cases rest with
      | nil => rfl
      | cons c rest =>
          have hc := h c (startsIn_cons.mp hrest)
          simp [one, hc]
  | cons c cs =>
      by_cases hc : p c = true
      · simp [one, hc]
      · simp [one, hc]

theorem stopsAt_char {c : Char} (h : c ∉ bs) : StopsAt bs (char c) := by
  apply stopsAt_one
  intro d hd
  simp only [beq_eq_false_iff_ne, ne_eq]
  intro heq
  exact h (heq ▸ hd)

theorem dropWhile_of_startsIn (h : forall c, c ∈ bs -> p c = false)
    {rest : List Char} (hrest : StartsIn bs rest) :
    rest.dropWhile p = rest := by
  cases rest with
  | nil => rfl
  | cons c rest =>
      have hc := h c (startsIn_cons.mp hrest)
      simp [hc]

theorem stopsAt_many (h : forall c, c ∈ bs -> p c = false) :
    StopsAt bs (many p) := by
  intro cs rest hrest
  simp only [many, Option.map_some, Option.some.injEq]
  induction cs with
  | nil => exact dropWhile_of_startsIn h hrest
  | cons c cs ih =>
      by_cases hc : p c = true
      · simpa [List.dropWhile_cons, hc] using ih
      · simp [hc]

theorem stopsAt_seq (hs : StopsAt bs s) (ht : StopsAt bs t) :
    StopsAt bs (s >=> t) := by
  intro cs rest hrest
  rw [seq_apply, seq_apply, hs cs rest hrest]
  cases s cs with
  | none => rfl
  | some out => exact ht out rest hrest

theorem stopsAt_many1 (h : forall c, c ∈ bs -> p c = false) :
    StopsAt bs (many1 p) :=
  stopsAt_seq (stopsAt_one h) (stopsAt_many h)

theorem stopsAt_atMost (h : forall c, c ∈ bs -> p c = false) (n : Nat) :
    StopsAt bs (atMost p n) := by
  induction n with
  | zero =>
      intro cs rest _hrest
      simp [atMost]
  | succ n ih =>
      intro cs rest hrest
      cases cs with
      | nil =>
          cases rest with
          | nil => rfl
          | cons c rest =>
              have hc := h c (startsIn_cons.mp hrest)
              simp [atMost, hc]
      | cons c cs =>
          by_cases hc : p c = true
          · simpa [atMost, hc] using ih cs rest hrest
          · simp [atMost, hc]

theorem stopsAt_oneTo (h : forall c, c ∈ bs -> p c = false) (n : Nat) :
    StopsAt bs (oneTo p n) :=
  stopsAt_seq (stopsAt_one h) (stopsAt_atMost h n)

theorem stopsAt_maybe (hs : StopsAt bs s) : StopsAt bs (maybe s) := by
  intro cs rest hrest
  simp only [maybe, hs cs rest hrest]
  cases s cs with
  | none => rfl
  | some out => rfl

theorem stopsAt_either (hs : StopsAt bs s) (ht : StopsAt bs t) :
    StopsAt bs (either s t) := by
  intro cs rest hrest
  simp only [either, hs cs rest hrest, ht cs rest hrest]
  cases s cs with
  | none => rfl
  | some out => rfl

theorem stopsAt_notBefore (h : forall c, c ∈ bs -> p c = false) :
    StopsAt bs (notBefore p) := by
  intro cs rest hrest
  cases cs with
  | nil =>
      cases rest with
      | nil => rfl
      | cons c rest =>
          have hc := h c (startsIn_cons.mp hrest)
          simp [notBefore, hc]
  | cons c cs =>
      by_cases hc : p c = true
      · simp [notBefore, hc]
      · simp [notBefore, hc]

/-- A text that is read in full is read in front of a text that stops it. -/
theorem StopsAt.reads (h : StopsAt bs s) {word rest : List Char}
    (hword : s word = some []) (hrest : StartsIn bs rest) :
    s (word ++ rest) = some rest := by
  rw [h word rest hrest, hword]
  rfl

theorem StopsAt.word (h : StopsAt bs s) {word rest : List Char}
    (hrest : StartsIn bs rest) (hread : s (word ++ rest) = some rest) :
    s word = some [] := by
  rw [h word rest hrest] at hread
  rcases Option.map_eq_some_iff.mp hread with ⟨out, hout, hnil⟩
  rw [hout, List.append_left_eq_self.mp hnil]

theorem StopsAt.fails (h : StopsAt bs s) {word rest : List Char}
    (hword : s word = none) (hrest : StartsIn bs rest) :
    s (word ++ rest) = none := by
  rw [h word rest hrest, hword]
  rfl

/-! ## Reading words of a kind -/

variable {V W : List Char -> Prop}

theorem reads_mono (hs : Reads V s) (h : forall word, V word -> W word) :
    Reads W s := by
  intro cs out hout
  rcases hs cs out hout with ⟨word, hcs, hword⟩
  exact ⟨word, hcs, h word hword⟩

theorem Reads.word (hs : Reads W s) {word rest : List Char}
    (h : s (word ++ rest) = some rest) : W word := by
  rcases hs (word ++ rest) rest h with ⟨other, heq, hother⟩
  rw [List.append_cancel_right heq]
  exact hother

theorem reads_one :
    Reads (fun word => exists c, word = [c] ∧ p c = true) (one p) := by
  intro cs out h
  cases cs with
  | nil => cases h
  | cons c cs =>
      simp only [one] at h
      split at h
      · rename_i hc
        cases h
        exact ⟨[c], rfl, c, rfl, hc⟩
      · cases h

theorem reads_char (c : Char) : Reads (fun word => word = [c]) (char c) := by
  apply reads_mono reads_one
  intro word hword
  rcases hword with ⟨d, hd, heq⟩
  rw [hd, beq_iff_eq.mp heq]

theorem reads_seq (hs : Reads V s) (ht : Reads W t) :
    Reads (fun word => exists first second,
      word = first ++ second ∧ V first ∧ W second) (s >=> t) := by
  intro cs out h
  rw [seq_apply] at h
  rcases Option.bind_eq_some_iff.mp h with ⟨middle, hmiddle, hout⟩
  rcases hs cs middle hmiddle with ⟨first, hcs, hfirst⟩
  rcases ht middle out hout with ⟨second, hmid, hsecond⟩
  refine ⟨first ++ second, ?_, first, second, rfl, hfirst, hsecond⟩
  rw [hcs, hmid, List.append_assoc]

theorem reads_maybe (hs : Reads W s) :
    Reads (fun word => word = [] ∨ W word) (maybe s) := by
  intro cs out h
  simp only [maybe] at h
  cases hout : s cs with
  | none =>
      rw [hout] at h
      cases h
      exact ⟨[], rfl, Or.inl rfl⟩
  | some found =>
      rw [hout] at h
      cases h
      rcases hs cs out hout with ⟨word, hcs, hword⟩
      exact ⟨word, hcs, Or.inr hword⟩

theorem reads_either (hs : Reads V s) (ht : Reads W t) :
    Reads (fun word => V word ∨ W word) (either s t) := by
  intro cs out h
  simp only [either] at h
  cases hout : s cs with
  | none =>
      rw [hout] at h
      rcases ht cs out h with ⟨word, hcs, hword⟩
      exact ⟨word, hcs, Or.inr hword⟩
  | some found =>
      rw [hout] at h
      cases h
      rcases hs cs out hout with ⟨word, hcs, hword⟩
      exact ⟨word, hcs, Or.inl hword⟩

/-! ## Taking characters of a class -/

theorem takes_mono (hs : Takes p s) (h : forall c, p c = true -> q c = true) :
    Takes q s :=
  reads_mono hs fun _ hword c hc => h c (hword c hc)

theorem takes_one : Takes p (one p) := by
  apply reads_mono reads_one
  intro word hword c hc
  rcases hword with ⟨d, hd, hp⟩
  rw [hd] at hc
  rw [List.mem_singleton.mp hc]
  exact hp

theorem takes_char {c : Char} (h : p c = true) : Takes p (char c) := by
  apply takes_mono takes_one
  intro d hd
  rw [beq_iff_eq.mp hd]
  exact h

theorem takes_many : Takes p (many p) := by
  intro cs out h
  cases h
  refine ⟨cs.takeWhile p, List.takeWhile_append_dropWhile.symm, ?_⟩
  intro c hc
  exact List.all_eq_true.mp List.all_takeWhile c hc

theorem takes_seq (hs : Takes p s) (ht : Takes p t) : Takes p (s >=> t) := by
  apply reads_mono (reads_seq hs ht)
  intro word hword c hc
  rcases hword with ⟨first, second, heq, hfirst, hsecond⟩
  rw [heq] at hc
  rcases List.mem_append.mp hc with hc | hc
  · exact hfirst c hc
  · exact hsecond c hc

theorem takes_many1 : Takes p (many1 p) :=
  takes_seq takes_one takes_many

theorem reads_atMost (n : Nat) :
    Reads (fun word => word.length ≤ n ∧ forall c, c ∈ word -> p c = true)
      (atMost p n) := by
  induction n with
  | zero =>
      intro cs out h
      cases h
      exact ⟨[], rfl, by simp⟩
  | succ n ih =>
      intro cs out h
      cases cs with
      | nil =>
          cases h
          exact ⟨[], rfl, by simp⟩
      | cons c cs =>
          simp only [atMost] at h
          split at h
          · rename_i hc
            rcases ih cs out h with ⟨word, hcs, hlength, hword⟩
            refine ⟨c :: word, by rw [hcs, List.cons_append],
              Nat.succ_le_succ hlength, ?_⟩
            exact List.forall_mem_cons.mpr ⟨hc, hword⟩
          · cases h
            exact ⟨[], rfl, by simp⟩

theorem takes_atMost (n : Nat) : Takes p (atMost p n) :=
  reads_mono (reads_atMost n) fun _ hword => hword.right

theorem takes_oneTo (n : Nat) : Takes p (oneTo p n) :=
  takes_seq takes_one (takes_atMost n)

theorem takes_maybe (hs : Takes p s) : Takes p (maybe s) := by
  apply reads_mono (reads_maybe hs)
  intro word hword c hc
  rcases hword with hnil | hword
  · rw [hnil] at hc
    cases hc
  · exact hword c hc

theorem takes_either (hs : Takes p s) (ht : Takes p t) :
    Takes p (either s t) := by
  apply reads_mono (reads_either hs ht)
  intro word hword
  rcases hword with hword | hword
  · exact hword
  · exact hword

theorem takes_notBefore : Takes p (notBefore q) := by
  intro cs out h
  refine ⟨[], ?_, by simp⟩
  cases cs with
  | nil =>
      cases h
      rfl
  | cons c cs =>
      simp only [notBefore] at h
      split at h
      · cases h
      · cases h
        rfl

theorem reads_one_seq (hs : Takes p s) :
    Reads (fun word => word ≠ [] ∧ forall c, c ∈ word -> p c = true)
      (one p >=> s) := by
  apply reads_mono (reads_seq reads_one hs)
  intro word hword
  rcases hword with ⟨first, second, heq, ⟨c, hfirst, hc⟩, hsecond⟩
  rw [heq, hfirst]
  exact ⟨List.cons_ne_nil c second, List.forall_mem_cons.mpr ⟨hc, hsecond⟩⟩

theorem reads_many1 :
    Reads (fun word => word ≠ [] ∧ forall c, c ∈ word -> p c = true)
      (many1 p) :=
  reads_one_seq takes_many

theorem Takes.all (h : Takes p s) {word : List Char}
    (hword : s word = some []) : forall c, c ∈ word -> p c = true := by
  rcases h word [] hword with ⟨other, heq, hall⟩
  rw [List.append_nil] at heq
  rw [heq]
  exact hall

theorem not_mem_of_forall {word : List Char} {c : Char}
    (h : forall d, d ∈ word -> p d = true) (hc : p c = false) : c ∉ word := by
  intro hmem
  rw [h c hmem] at hc
  cases hc

/-! ## Needing -/

theorem needs_one : Needs p (one p) := by
  intro cs out h
  cases cs with
  | nil => cases h
  | cons c cs =>
      simp only [one] at h
      split at h
      · rename_i hc
        exact ⟨c, List.mem_cons_self .., hc⟩
      · cases h

theorem needs_mono (hs : Needs p s) (h : forall c, p c = true -> q c = true) :
    Needs q s := by
  intro cs out hout
  rcases hs cs out hout with ⟨c, hc, hpc⟩
  exact ⟨c, hc, h c hpc⟩

theorem needs_seq_left (hs : Needs p s) : Needs p (s >=> t) := by
  intro cs out h
  rw [seq_apply] at h
  rcases Option.bind_eq_some_iff.mp h with ⟨middle, hmiddle, _⟩
  exact hs cs middle hmiddle

theorem needs_seq_right (hs : Takes q s) (ht : Needs p t) :
    Needs p (s >=> t) := by
  intro cs out h
  rw [seq_apply] at h
  rcases Option.bind_eq_some_iff.mp h with ⟨middle, hmiddle, hout⟩
  rcases hs cs middle hmiddle with ⟨first, hcs, _⟩
  rcases ht middle out hout with ⟨c, hc, hpc⟩
  rw [hcs]
  exact ⟨c, List.mem_append_right _ hc, hpc⟩

theorem Needs.fails (h : Needs p s) {word : List Char}
    (hword : forall c, c ∈ word -> p c = false) : s word = none := by
  cases hout : s word with
  | none => rfl
  | some out =>
      rcases h word out hout with ⟨c, hc, hpc⟩
      rw [hword c hc] at hpc
      cases hpc

/-! ## Opening -/

theorem opens_one : Opens p (one p) := by
  intro cs out h
  rcases reads_one cs out h with ⟨word, hcs, c, hword, hc⟩
  rw [hword] at hcs
  exact ⟨c, out, hcs, hc⟩

theorem opens_seq (hs : Opens p s) : Opens p (s >=> t) := by
  intro cs out h
  rw [seq_apply] at h
  rcases Option.bind_eq_some_iff.mp h with ⟨middle, hmiddle, _⟩
  exact hs cs middle hmiddle

theorem opens_either (hs : Opens p s) (ht : Opens q t) :
    Opens (fun c => p c || q c) (either s t) := by
  intro cs out h
  simp only [either] at h
  cases hout : s cs with
  | none =>
      rw [hout] at h
      rcases ht cs out h with ⟨c, rest, hcs, hc⟩
      exact ⟨c, rest, hcs, by simp [hc]⟩
  | some found =>
      rcases hs cs found hout with ⟨c, rest, hcs, hc⟩
      exact ⟨c, rest, hcs, by simp [hc]⟩

theorem opens_maybe_seq (hs : Opens p s) (ht : Opens q t) :
    Opens (fun c => p c || q c) (maybe s >=> t) := by
  intro cs out h
  rw [seq_apply] at h
  rcases Option.bind_eq_some_iff.mp h with ⟨middle, hmiddle, hout⟩
  simp only [maybe] at hmiddle
  cases hfound : s cs with
  | none =>
      rw [hfound] at hmiddle
      cases hmiddle
      rcases ht cs out hout with ⟨c, rest, hcs, hc⟩
      exact ⟨c, rest, hcs, by simp [hc]⟩
  | some found =>
      rcases hs cs found hfound with ⟨c, rest, hcs, hc⟩
      exact ⟨c, rest, hcs, by simp [hc]⟩

theorem Opens.fails (h : Opens p s) {c : Char} {rest : List Char}
    (hc : p c = false) : s (c :: rest) = none := by
  cases hout : s (c :: rest) with
  | none => rfl
  | some out =>
      rcases h (c :: rest) out hout with ⟨d, tail, heq, hd⟩
      cases heq
      rw [hc] at hd
      cases hd

end Scanner
end Text
end Precedents
