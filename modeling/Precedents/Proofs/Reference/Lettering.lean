import Mathlib.Data.List.Induction
import Mathlib.Data.List.Shortlex
import Precedents.Proofs.Reference.Printing
import Precedents.Proofs.Text.UpperCase

/-!
# Letters and numbers of columns

The letters of a column are the digits of its number in base 26, from one to 26.  So
each number has just one row of capital letters and each row of letters just one
number, at any length.  Of two numbers the smaller one has fewer letters, or as many
that come first in the alphabet.
-/

namespace Precedents
namespace Column

open Text

/-! ## From letters to numbers and back -/

def ofPlaces (places : List Nat) : Nat :=
  places.foldl (fun n place => 26 * n + place + 1) 0

theorem ofPlaces_append (places : List Nat) (place : Nat) :
    ofPlaces (places ++ [place]) = 26 * ofPlaces places + place + 1 :=
  List.foldl_concat ..

section Places

variable {places : List Nat}

theorem letterList_ofPlaces (h : forall place, place ∈ places -> place < 26) :
    letterList (ofPlaces places) = places.map letter := by
  induction places using List.reverseRecOn with
  | nil => exact letterList_of_not_pos (Nat.lt_irrefl 0)
  | append_singleton places place ih =>
      have hplace : place < 26 := h place (by simp)
      have hfront := ih fun other hother => h other (List.mem_append_left _ hother)
      have hquotient : (26 * ofPlaces places + place + 1 - 1) / 26 = ofPlaces places := by
        omega
      have hrest : (26 * ofPlaces places + place + 1 - 1) % 26 = place := by omega
      rw [ofPlaces_append, letterList_of_pos (Nat.succ_pos _), hquotient, hrest, hfront,
        List.map_append, List.map_singleton]

theorem foldl_places (h : forall place, place ∈ places -> place < 26) :
    (places.map letter).foldl (fun n c => n * 26 + ((c.toNat : Int) - 64)) 0 =
      ofPlaces places := by
  induction places using List.reverseRecOn with
  | nil => rfl
  | append_singleton places place ih =>
      have hplace := (letter_of_place place (h place (by simp))).right.right
      have hfront := ih fun other hother => h other (List.mem_append_left _ hother)
      rw [List.map_append, List.foldl_append, hfront, ofPlaces_append, List.map_singleton,
        List.foldl_cons, List.foldl_nil, hplace]
      omega

theorem upper_of_code : forall n, n < 123 -> isPlainLetter (Char.ofNat n) = true ->
    (n - 65) % 32 < 26 ∧ upperChar (Char.ofNat n) = [letter ((n - 65) % 32)] := by
  decide

theorem upperChar_of_isPlainLetter {c : Char} (h : isPlainLetter c = true) :
    exists place, place < 26 ∧ upperChar c = [letter place] := by
  have hlast : c ≤ 'z' := by
    simp only [isPlainLetter, Bool.or_eq_true, Bool.and_eq_true, decide_eq_true_eq] at h
    rcases h with ⟨_, hcapital⟩ | ⟨_, hsmall⟩
    · exact Char.le_trans hcapital (by decide)
    · exact hsmall
  have hcode := upper_of_code c.toNat (Nat.lt_succ_of_le hlast)
  rw [Char.ofNat_toNat] at hcode
  exact ⟨_, hcode h⟩

theorem exists_places {cs : List Char} (h : forall c, c ∈ cs -> isPlainLetter c = true) :
    exists places : List Nat, (forall place, place ∈ places -> place < 26) ∧
      cs.flatMap upperChar = places.map letter := by
  induction cs with
  | nil => exact ⟨[], by simp, rfl⟩
  | cons c cs ih =>
      rcases upperChar_of_isPlainLetter (h c List.mem_cons_self) with ⟨place, hplace, hupper⟩
      rcases ih fun d hd => h d (List.mem_cons_of_mem c hd) with ⟨places, hplaces, hrest⟩
      refine ⟨place :: places, List.forall_mem_cons.mpr ⟨hplace, hplaces⟩, ?_⟩
      rw [List.flatMap_cons, hupper, hrest, List.singleton_append, List.map_cons]

end Places

theorem letters_index {s : String} (h : forall c, c ∈ s.toList -> isPlainLetter c = true) :
    letters (index s) = upper s := by
  rcases exists_places h with ⟨places, hplaces, hupper⟩
  have hindex : index s = ofPlaces places := by
    rw [index, upper, String.toList_ofList, hupper, foldl_places hplaces]
  rw [hindex, letters, Int.toNat_natCast, letterList_ofPlaces hplaces, upper, hupper]

/-! ## Fewer letters first, then the alphabet -/

section Order

variable {m n : Nat}

theorem letter_lt_letter : forall place, place < 26 -> forall other, other < place ->
    letter other < letter place := by
  decide

theorem lex_append {s t : List Char} (h : List.Lex (· < ·) s t) (hlength : s.length = t.length)
    (u v : List Char) : List.Lex (· < ·) (s ++ u) (t ++ v) := by
  induction h with
  | nil => cases hlength
  | rel hc => exact .rel hc
  | cons _ ih => exact .cons (ih (Nat.succ.inj hlength))

theorem shortlex_append {s t : List Char} (h : List.Shortlex (· < ·) s t) (c d : Char) :
    List.Shortlex (· < ·) (s ++ [c]) (t ++ [d]) := by
  rcases List.shortlex_def.mp h with hless | ⟨hequal, hlex⟩
  · apply List.Shortlex.of_length_lt
    simpa using hless
  · apply List.Shortlex.of_lex
    · simpa using hequal
    · exact lex_append hlex hequal [c] [d]

theorem shortlex_letterList (h : m < n) :
    List.Shortlex (· < ·) (letterList m) (letterList n) := by
  induction n using letterList.induct generalizing m with
  | case1 n hpos ih =>
      rw [letterList_of_pos hpos]
      by_cases hm : 0 < m
      · rw [letterList_of_pos hm]
        rcases Nat.lt_or_ge ((m - 1) / 26) ((n - 1) / 26) with hfront | hfront
        · exact shortlex_append (ih hfront) _ _
        · have hequal : (m - 1) / 26 = (n - 1) / 26 := by omega
          have hlast : (m - 1) % 26 < (n - 1) % 26 := by omega
          rw [hequal]
          apply List.Shortlex.append_left
          rw [List.shortlex_singleton_iff]
          exact letter_lt_letter _ (Nat.mod_lt _ (by decide)) _ hlast
      · rw [letterList_of_not_pos hm]
        apply List.Shortlex.of_length_lt
        simp
  | case2 n hpos => omega

end Order

/--
Numbers of columns and their letters stand for each other, at any length and up to
upper case, and greater numbers have more letters or later ones in the alphabet.
-/
theorem lettering :
    (forall n : Int, 0 ≤ n -> index (letters n) = n) ∧
    (forall s : String, (forall c, c ∈ s.toList -> isPlainLetter c = true) ->
      letters (index s) = upper s) ∧
    forall m n : Int, 0 ≤ m -> m < n ->
      List.Shortlex (· < ·) (letters m).toList (letters n).toList := by
  refine ⟨fun n hn => index_letters hn, fun s hs => letters_index hs, ?_⟩
  intro m n hm hlt
  rw [letters, letters, String.toList_ofList, String.toList_ofList]
  exact shortlex_letterList (by omega)

theorem carry_lettered :
    letters 702 = "ZZ" ∧ letters 703 = "AAA" ∧ index (letters 703) = 703 ∧
      List.Shortlex (· < ·) (letters 702).toList (letters 703).toList ∧
      letters (index "xFd") = "XFD" := by
  rcases lettering with ⟨hindex, hletters, horder⟩
  refine ⟨by decide +kernel, by decide +kernel, hindex 703 (by decide), ?_, ?_⟩
  · exact horder 702 703 (by decide) (by decide)
  · rw [hletters "xFd" (by decide)]
    decide

end Column
end Precedents
