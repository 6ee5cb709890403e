import Precedents.Text.Blank
import Precedents.Text.Doubled
import Precedents.Text.Scan

/-!
# Texts that are cut

White space is cut off at both ends of a text, and a text is cut at the first of
its marks.  A quoted text ends at the first mark that is not doubled, so doubling
the marks inside it and reading them as single ones again gives the text back.
-/

namespace Precedents
namespace Text

/-! ## Cutting off -/

section Trimming

variable {p : Char -> Bool} {cs : List Char}

def NoBlankEnd (cs : List Char) : Prop :=
  forall c, cs.getLast? = some c -> isBlank c = false

def NoBlank (cs : List Char) : Prop :=
  forall c, c ∈ cs -> isBlank c = false

theorem dropWhile_eq_self (h : forall c, cs.head? = some c -> p c = false) :
    cs.dropWhile p = cs := by
  cases cs with
  | nil => rfl
  | cons c rest => simp [h c rfl]

theorem dropEndWhile_eq_self (h : forall c, cs.getLast? = some c -> p c = false) :
    dropEndWhile p cs = cs := by
  have hreverse : cs.reverse.dropWhile p = cs.reverse := by
    apply dropWhile_eq_self
    intro c hc
    rw [List.head?_reverse] at hc
    exact h c hc
  rw [dropEndWhile, hreverse, List.reverse_reverse]

theorem dropEndWhile_append {blanks : List Char} (h : forall c, c ∈ blanks -> p c = true)
    (cs : List Char) : dropEndWhile p (cs ++ blanks) = dropEndWhile p cs := by
  have hreverse : forall c, c ∈ blanks.reverse -> p c = true :=
    fun c hc => h c (List.mem_reverse.mp hc)
  rw [dropEndWhile, List.reverse_append, List.dropWhile_append_of_pos hreverse,
    dropEndWhile]

theorem dropEndWhile_append_eq (p : Char -> Bool) (cs : List Char) :
    dropEndWhile p cs ++ (cs.reverse.takeWhile p).reverse = cs := by
  rw [dropEndWhile, ← List.reverse_append, List.takeWhile_append_dropWhile,
    List.reverse_reverse]

theorem trimWhile_append {blanks : List Char} (h : forall c, c ∈ blanks -> p c = true)
    (cs : List Char) : trimWhile p (cs ++ blanks) = trimWhile p cs := by
  rw [trimWhile, trimWhile, List.dropWhile_append]
  split
  · rename_i hempty
    rw [List.isEmpty_iff.mp hempty, ← List.append_nil blanks,
      List.dropWhile_append_of_pos h, List.dropWhile_nil]
  · exact dropEndWhile_append h _

theorem trimWhile_append_dropEndWhile (p : Char -> Bool) (front cs : List Char) :
    trimWhile p (front ++ dropEndWhile p cs) = trimWhile p (front ++ cs) := by
  have hblanks : forall c, c ∈ (cs.reverse.takeWhile p).reverse -> p c = true :=
    fun c hc => List.all_eq_true.mp List.all_takeWhile c (List.mem_reverse.mp hc)
  rw [← trimWhile_append hblanks, List.append_assoc, dropEndWhile_append_eq]

theorem trimWhile_of_ends (hfirst : forall c, cs.head? = some c -> p c = false)
    (hlast : forall c, cs.getLast? = some c -> p c = false) :
    trimWhile p cs = cs := by
  rw [trimWhile, dropWhile_eq_self hfirst, dropEndWhile_eq_self hlast]

theorem trimWhile_eq_self (h : forall c, c ∈ cs -> p c = false) :
    trimWhile p cs = cs :=
  trimWhile_of_ends (fun c hc => h c (List.mem_of_mem_head? hc))
    fun c hc => h c (List.mem_of_getLast? hc)

theorem NoBlank.trim_eq (h : NoBlank cs) : trim cs = cs :=
  trimWhile_eq_self h

theorem NoBlank.trim_append (h : NoBlank cs) (front back : List Char)
    (hfront : forall c, c ∈ front -> isBlank c = true)
    (hback : forall c, c ∈ back -> isBlank c = true) :
    trim (front ++ cs ++ back) = cs := by
  rw [trim, trimWhile_append hback, trimWhile, List.dropWhile_append_of_pos hfront]
  exact h.trim_eq

theorem noBlankEnd_dropEndWhile (cs : List Char) :
    NoBlankEnd (dropEndWhile isBlank cs) := by
  intro c hc
  rw [dropEndWhile, List.getLast?_reverse] at hc
  have hhead := List.head?_dropWhile_not isBlank cs.reverse
  rw [hc] at hhead
  simpa using hhead

theorem noBlankEnd_trim (cs : List Char) : NoBlankEnd (trim cs) :=
  noBlankEnd_dropEndWhile (cs.dropWhile isBlank)

theorem NoBlankEnd.of_append {front : List Char} (h : NoBlankEnd (front ++ cs)) :
    NoBlankEnd cs := by
  intro c hc
  apply h c
  rw [List.getLast?_append, hc, Option.some_or]

theorem NoBlankEnd.trim_eq (h : NoBlankEnd cs) : trim cs = cs.dropWhile isBlank := by
  have hsplit : cs.takeWhile isBlank ++ cs.dropWhile isBlank = cs :=
    List.takeWhile_append_dropWhile
  have hlast : NoBlankEnd (cs.dropWhile isBlank) := by
    rw [← hsplit] at h
    exact h.of_append
  exact dropEndWhile_eq_self hlast

theorem noBlankEnd_nil : NoBlankEnd [] := by
  intro c hc
  cases hc

theorem noBlankEnd_append (front : List Char) {mark : Char}
    (hmark : isBlank mark = false) (h : NoBlankEnd cs) :
    NoBlankEnd (front ++ mark :: cs) := by
  intro c hc
  rw [List.getLast?_append, List.getLast?_cons, Option.some_or] at hc
  injection hc with hc
  rw [← hc]
  cases hlast : cs.getLast? with
  | none => exact hmark
  | some d => exact h d hlast

end Trimming

/-! ## Cutting in two -/

section Splitting

variable {mark : Char} {cs left right : List Char}

theorem splitFirst_append (h : mark ∉ left) (right : List Char) :
    splitFirst mark (left ++ mark :: right) = some (left, right) := by
  induction left with
  | nil => simp [splitFirst]
  | cons c left ih =>
      rw [List.mem_cons, not_or] at h
      rw [List.cons_append, splitFirst, if_neg (Ne.symm h.left), ih h.right]
      rfl

theorem splitFirst_of_not_mem (h : mark ∉ left) : splitFirst mark left = none := by
  induction left with
  | nil => rfl
  | cons c left ih =>
      rw [List.mem_cons, not_or] at h
      rw [splitFirst, if_neg (Ne.symm h.left), ih h.right]
      rfl

theorem splitFirst_eq_some_iff :
    splitFirst mark cs = some (left, right) <->
      cs = left ++ mark :: right ∧ mark ∉ left := by
  constructor
  · intro h
    by_cases hmem : mark ∈ cs
    · rcases List.eq_append_cons_of_mem hmem with ⟨front, back, hcs, hfront⟩
      rw [hcs, splitFirst_append hfront] at h
      cases h
      exact ⟨hcs, hfront⟩
    · rw [splitFirst_of_not_mem hmem] at h
      cases h
  · intro h
    rw [h.left]
    exact splitFirst_append h.right right

theorem splitFirst_eq_none_iff : splitFirst mark cs = none <-> mark ∉ cs := by
  constructor
  · intro h hmem
    rcases List.eq_append_cons_of_mem hmem with ⟨front, back, hcs, hfront⟩
    rw [hcs, splitFirst_append hfront] at h
    cases h
  · exact splitFirst_of_not_mem

end Splitting

/-! ## Cutting at a mark that is not doubled -/

section Doubling

variable {mark c : Char} {cs name rest : List Char}

theorem doubled_cons (mark c : Char) (cs : List Char) :
    doubled mark (c :: cs) =
      (if c = mark then [mark, mark] else [c]) ++ doubled mark cs :=
  List.flatMap_cons

theorem undoubled_cons_of_ne (hc : c ≠ mark) (cs : List Char) :
    undoubled mark (c :: cs) = c :: undoubled mark cs := by
  cases cs with
  | nil => rfl
  | cons d cs => rw [undoubled, if_neg fun h => hc h.left]

theorem undoubled_ne_nil (h : cs ≠ []) : undoubled mark cs ≠ [] := by
  fun_cases undoubled mark cs with
  | case1 => exact absurd rfl h
  | case2 c => exact List.cons_ne_nil c []
  | case3 rest => exact List.cons_ne_nil _ _
  | case4 c d rest => exact List.cons_ne_nil _ _

theorem undoubled_doubled (mark : Char) (cs : List Char) :
    undoubled mark (doubled mark cs) = cs := by
  induction cs with
  | nil => rfl
  | cons c cs ih =>
      rw [doubled_cons]
      by_cases hc : c = mark
      · rw [if_pos hc, List.cons_append, List.singleton_append, undoubled,
          if_pos ⟨rfl, rfl⟩, ih, hc]
      · rw [if_neg hc, List.singleton_append, undoubled_cons_of_ne hc, ih]

theorem quotedRun_cons_of_ne (hc : c ≠ mark) (cs : List Char) :
    quotedRun mark (c :: cs) =
      (quotedRun mark cs).map fun found => (c :: found.1, found.2) := by
  cases cs with
  | nil => simp [quotedRun, hc]
  | cons d cs => rw [quotedRun, if_neg hc]

/-- A mark closes what stands before it, unless another mark follows. -/
theorem quotedRun_mark (hrest : rest.head? ≠ some mark) :
    quotedRun mark (mark :: rest) = some ([], rest) := by
  cases rest with
  | nil => simp [quotedRun]
  | cons d rest =>
      have hd : d ≠ mark := by simpa using hrest
      simp [quotedRun, hd]

theorem quotedRun_doubled (hrest : rest.head? ≠ some mark) (cs : List Char) :
    quotedRun mark (doubled mark cs ++ mark :: rest) =
      some (doubled mark cs, rest) := by
  induction cs with
  | nil => exact quotedRun_mark hrest
  | cons c cs ih =>
      rw [doubled_cons]
      by_cases hc : c = mark
      · simp [hc, quotedRun, ih]
      · rw [if_neg hc, List.singleton_append, List.cons_append,
          quotedRun_cons_of_ne hc, ih]
        rfl

theorem quotedRun_eq (h : quotedRun mark cs = some (name, rest)) :
    cs = name ++ mark :: rest := by
  fun_induction quotedRun mark cs generalizing name rest with
  | case1 => cases h
  | case2 =>
      cases h
      rfl
  | case3 => cases h
  | case4 tail ih =>
      rcases Option.map_eq_some_iff.mp h with ⟨found, hfound, heq⟩
      cases heq
      simp [ih hfound]
  | case5 d tail hd =>
      cases h
      rfl
  | case6 c d tail hc ih =>
      rcases Option.map_eq_some_iff.mp h with ⟨found, hfound, heq⟩
      cases heq
      simp [ih hfound]

theorem doubled_undoubled (h : quotedRun mark cs = some (name, rest)) :
    doubled mark (undoubled mark name) = name := by
  fun_induction quotedRun mark cs generalizing name rest with
  | case1 => cases h
  | case2 =>
      cases h
      rfl
  | case3 => cases h
  | case4 tail ih =>
      rcases Option.map_eq_some_iff.mp h with ⟨found, hfound, heq⟩
      cases heq
      rw [undoubled, if_pos ⟨rfl, rfl⟩, doubled_cons, if_pos rfl, ih hfound]
      rfl
  | case5 d tail hd =>
      cases h
      rfl
  | case6 c d tail hc ih =>
      rcases Option.map_eq_some_iff.mp h with ⟨found, hfound, heq⟩
      cases heq
      rw [undoubled_cons_of_ne hc, doubled_cons, if_neg hc, ih hfound]
      rfl

theorem quotedRun_append {other : List Char}
    (h : quotedRun mark cs = some (name, rest))
    (hother : other.head? ≠ some mark) :
    quotedRun mark (name ++ mark :: other) = some (name, other) := by
  fun_induction quotedRun mark cs generalizing name rest with
  | case1 => cases h
  | case2 =>
      cases h
      exact quotedRun_mark hother
  | case3 => cases h
  | case4 tail ih =>
      rcases Option.map_eq_some_iff.mp h with ⟨found, hfound, heq⟩
      cases heq
      simp [quotedRun, ih hfound]
  | case5 d tail hd =>
      cases h
      exact quotedRun_mark hother
  | case6 c d tail hc ih =>
      rcases Option.map_eq_some_iff.mp h with ⟨found, hfound, heq⟩
      cases heq
      rw [List.cons_append, quotedRun_cons_of_ne hc, ih hfound]
      rfl

end Doubling

end Text
end Precedents
