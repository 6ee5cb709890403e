import Mathlib.Data.List.Basic
import Precedents.Proofs.Cover.ClosedForm
import Precedents.Proofs.Extraction.NoticesByPart
import Precedents.Proofs.Extraction.Values

/-!
# The functions that are missing

An extraction lists the functions that a formula calls and that are not known.
A call is noticed behind its arguments, so the list follows the tree in post
order, and a function stands in it where it is called first.
-/

namespace Precedents

/-! ## The functions that a formula calls -/

namespace Expr

/-- The functions that are called, by their names in upper case, inner calls first. -/
def callees (e : Expr) : List String :=
  e.postOrder.filterMap callee?

end Expr

/-! ## Notices of functions -/

def Notice.unknownFunction? : Notice -> Option String
  | .unknownFunction function => some function
  | _ => none

theorem Findings.absorbAll_missing {findings : Findings} (listed : List String)
    (h : findings.missing = listed.eraseDups) (notices : List Notice) :
    (findings.absorbAll notices).missing =
      (listed ++ notices.filterMap Notice.unknownFunction?).eraseDups := by
  unfold absorbAll
  induction notices generalizing findings listed with
  | nil => simpa using h
  | cons notice rest ih =>
      rw [List.foldl_cons]
      cases notice with
      | unknownFunction function =>
          have hlisted : (findings.absorb (.unknownFunction function)).missing =
              (listed ++ [function]).eraseDups := by
            simp only [absorb, listMissing, h, List.contains_iff_mem,
              List.mem_eraseDups]
            split
            · rename_i hmem
              rw [h, eraseDups_snoc_of_mem hmem]
            · rename_i hmem
              rw [eraseDups_snoc_of_not_mem hmem]
          rw [ih _ hlisted, List.append_assoc]
          rfl
      | _ => exact ih listed h

namespace Extractor

variable {x : Extractor} {position : Position} {formula : String}
variable {notices : List Notice} {v : Value}

theorem unknownFunction?_leaf {e : Expr} (hleaf : x.use? position e = none)
    (h : (x.walk position formula e).Yields notices v) :
    notices.filterMap Notice.unknownFunction? = [] := by
  rcases notices_of_leaf hleaf h with
    ⟨word, _, ⟨_, hnotices⟩ | ⟨ref, _, hnotices⟩⟩ | ⟨_, hnotices | ⟨d, hnotices⟩⟩
  all_goals
    rw [hnotices]
    rfl

theorem sees_unknownFunction? (x : Extractor) (position : Position) (formula : String) :
    x.Sees position formula Notice.unknownFunction? fun e =>
      e.callee?.toList.filter fun key => ¬ x.Knows key where
  read _ := rfl
  leaf e notices v hleaf hyields := by
    rw [unknownFunction?_leaf hleaf hyields, callee?_of_use?_eq_none hleaf]
    rfl
  callee e _ := by
    rw [unknownNotices, List.filterMap_map]
    exact List.filterMap_some

theorem filter_callees (e : Expr) (p : String -> Bool) :
    e.callees.filter p = e.postOrder.flatMap fun part => part.callee?.toList.filter p := by
  rw [Expr.callees, List.filterMap_eq_flatMap_toList, List.filter_flatMap]

/-! ## The missing functions of an extraction -/

/--
The missing functions of an extraction are the functions that its formula calls,
by their names in upper case and in post order, each where it is called first,
but for value functions, those of the extractor and registered ones, and for
reference functions.  A formula without a tree misses none.
-/
theorem missing_eq {strict : Option Bool} {found : Extraction}
    (h : (x.extractAt formula position strict).outcome = .ok found) :
    found.missing =
      match (Parse.ofText formula).tree with
      | none => []
      | some e => (e.callees.filter fun key => ¬ x.Knows key).eraseDups := by
  rcases exists_yields_of_extractAt h with ⟨notices, v, hyields, hfound⟩
  have hmissing : found.missing =
      (notices.filterMap Notice.unknownFunction?).eraseDups := by
    rw [hfound]
    exact Findings.absorbAll_missing [] rfl notices
  rw [hmissing, (sees_unknownFunction? x position formula).follow hyields]
  cases (Parse.ofText formula).tree with
  | none => rfl
  | some e =>
      simp only
      rw [filter_callees]

def totalsExtractor : Extractor where
  valueFunctions := ["SUM"]
  registered := ⟨["AVERAGE"]⟩

theorem totals_missing :
    exists found,
      (totalsExtractor.extractAt
        "=foo(_xlfn.Bar(Sum(1)),straße(IF(2,,3)),average(4),FOO())" (.mk 9 1 "S")
        none).outcome = .ok found ∧
      found.missing = ["BAR", "STRASSE", "FOO"] := by
  have hsome : (totalsExtractor.extractAt
      "=foo(_xlfn.Bar(Sum(1)),straße(IF(2,,3)),average(4),FOO())" (.mk 9 1 "S")
      none).outcome.toOption.isSome = true := by decide +kernel
  have hcallees : (Parse.ofText
      "=foo(_xlfn.Bar(Sum(1)),straße(IF(2,,3)),average(4),FOO())").tree.map
        Expr.callees = some ["SUM", "BAR", "IF", "STRASSE", "AVERAGE", "FOO", "FOO"] := by
    decide +kernel
  have hunknown : (["SUM", "BAR", "IF", "STRASSE", "AVERAGE", "FOO", "FOO"].filter
      fun key => ¬ totalsExtractor.Knows key).eraseDups = ["BAR", "STRASSE", "FOO"] := by
    decide +kernel
  cases hfound : (totalsExtractor.extractAt
      "=foo(_xlfn.Bar(Sum(1)),straße(IF(2,,3)),average(4),FOO())" (.mk 9 1 "S")
      none).outcome with
  | error error =>
      rw [hfound] at hsome
      cases hsome
  | ok found =>
      refine ⟨found, rfl, ?_⟩
      have hmissing := missing_eq hfound
      split at hmissing
      · rename_i hnone
        rw [hnone] at hcallees
        cases hcallees
      · rename_i e htree
        rw [htree] at hcallees
        rw [hmissing, Option.some.inj hcallees, hunknown]

end Extractor
end Precedents
