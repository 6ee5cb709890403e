import Precedents.Extraction.EventLog
import Precedents.Proofs.Extraction.NoticesByPart
import Precedents.Proofs.Extraction.Values

/-!
# The events of a walk

A name makes an event wherever it is not known, and a function only where it is
called first.  So the events of parts that come to values can be told from the
tree and from what the extractor knows, part by part in post order.
-/

namespace Precedents

def Notice.told? : Notice -> Option Notice
  | .read _ | .offGrid _ => none
  | notice => some notice

/-! ## Events of notices -/

namespace Findings

theorem listMissing_missing (findings : Findings) (function : String) :
    (findings.listMissing function).missing =
      if function ∈ findings.missing then findings.missing
      else findings.missing ++ [function] := by
  simp only [listMissing, List.contains_iff_mem]
  split
  · rfl
  · rfl

theorem mem_listMissing {findings : Findings} {function other : String} :
    other ∈ (findings.listMissing function).missing <->
      other ∈ findings.missing ∨ other = function := by
  rw [listMissing_missing]
  split
  · rename_i hlisted
    constructor
    · exact Or.inl
    · intro h
      rcases h with h | h
      · exact h
      · rw [h]
        exact hlisted
  · rw [List.mem_append, List.mem_singleton]

theorem nodup_absorbAll {findings : Findings} (h : findings.missing.Nodup)
    (notices : List Notice) : (findings.absorbAll notices).missing.Nodup := by
  induction notices generalizing findings with
  | nil => exact h
  | cons notice rest ih =>
      cases notice with
      | unknownFunction function =>
          refine ih ?_
          change (findings.listMissing function).missing.Nodup
          rw [listMissing_missing]
          split
          · exact h
          · rename_i hnew
            rw [List.nodup_append]
            refine ⟨h, by simp, ?_⟩
            intro other hother last hlast heq
            rw [heq, List.mem_singleton.mp hlast] at hother
            exact hnew hother
      | _ => exact ih h

theorem absorbAll_append (findings : Findings) (first second : List Notice) :
    findings.absorbAll (first ++ second) =
      (findings.absorbAll first).absorbAll second :=
  List.foldl_append

end Findings

namespace Event

variable {position : Position}

theorem ofNotices_append (findings : Findings) (first second : List Notice) :
    ofNotices position findings (first ++ second) =
      ofNotices position findings first ++
        ofNotices position (findings.absorbAll first) second := by
  induction first generalizing findings with
  | nil => rfl
  | cons notice rest ih =>
      rw [List.cons_append, ofNotices, ofNotices, ih, List.append_assoc]
      rfl

theorem ofNotices_told {findings others : Findings}
    (h : findings.missing = others.missing) (notices : List Notice) :
    ofNotices position findings notices =
      ofNotices position others (notices.filterMap Notice.told?) := by
  induction notices generalizing findings others with
  | nil => rfl
  | cons notice rest ih =>
      cases notice with
      | read ref =>
          change ofNotices position (findings.absorb (.read ref)) rest = _
          exact ih h
      | offGrid d =>
          change ofNotices position (findings.absorb (.offGrid d)) rest = _
          exact ih h
      | unknownName name =>
          change _ = ofNotices position others
            (.unknownName name :: rest.filterMap Notice.told?)
          exact congrArg (_ :: ·) (ih h)
      | defect function fault =>
          change _ = ofNotices position others
            (.defect function fault :: rest.filterMap Notice.told?)
          exact congrArg (_ :: ·) (ih h)
      | unknownFunction function =>
          have hnext : (findings.absorb (.unknownFunction function)).missing =
              (others.absorb (.unknownFunction function)).missing := by
            simp only [Findings.absorb, Findings.listMissing_missing, h]
          change _ = ofNotices position others
            (.unknownFunction function :: rest.filterMap Notice.told?)
          rw [ofNotices, ofNotices, ih hnext]
          simp only [ofNotice?, h]

theorem ofNotices_unknownName (findings : Findings) (name : Option String) :
    ofNotices position findings (name.toList.map .unknownName) =
      name.toList.map (unknownName position) := by
  cases name <;> rfl

theorem missing_ofNotices (position : Position) (findings : Findings)
    (notices : List Notice) :
    (findings.absorbAll notices).missing.map (unknownFunction position) =
      findings.missing.map (unknownFunction position) ++
        (ofNotices position findings notices).filter
          fun event => event.kind = .functionMissing := by
  induction notices generalizing findings with
  | nil => simp [Findings.absorbAll, ofNotices]
  | cons notice rest ih =>
      change ((findings.absorb notice).absorbAll rest).missing.map _ = _
      rw [ih, ofNotices, List.filter_append]
      cases notice with
      | unknownFunction function =>
          simp only [Findings.absorb, Findings.listMissing_missing, ofNotice?,
            List.contains_iff_mem]
          split
          · rfl
          · rw [List.map_append, List.append_assoc]
            rfl
      | _ => rfl

end Event

namespace Extractor

variable {x : Extractor} {position : Position} {formula : String}

def unresolved? (x : Extractor) (position : Position) : Expr -> Option String
  | .name word =>
      match x.resolve word.text position.sheet with
      | .unknown => some word.text
      | _ => none
  | _ => none

/-- The function that a part calls, if it is not known and was not called before. -/
def newcomer? (x : Extractor) (earlier : List Expr) (p : Expr) : Option String :=
  match p.callee? with
  | none => none
  | some key =>
      if x.Knows key ∨ key ∈ earlier.filterMap Expr.callee? then none else some key

def partEvents (x : Extractor) (position : Position) (earlier : List Expr) (p : Expr) :
    List Event :=
  (x.unresolved? position p).toList.map (Event.unknownName position) ++
    (x.newcomer? earlier p).toList.map (Event.unknownFunction position)

def walkEvents (x : Extractor) (position : Position) :
    List Expr -> List Expr -> List Event
  | _, [] => []
  | earlier, p :: rest =>
      x.partEvents position earlier p ++ x.walkEvents position (earlier ++ [p]) rest

def ownNotices (x : Extractor) (position : Position) (p : Expr) : List Notice :=
  (x.unresolved? position p).toList.map .unknownName ++ x.unknownNotices p.callee?.toList

theorem told_unknownNotices (keys : List String) :
    (x.unknownNotices keys).filterMap Notice.told? = x.unknownNotices keys := by
  rw [unknownNotices, List.filterMap_map]
  change List.filterMap (some ∘ Notice.unknownFunction) _ = _
  rw [List.filterMap_eq_map]

theorem unresolved?_of_use? {e : Expr} (h : x.use? position e ≠ none) :
    x.unresolved? position e = none := by
  cases e with
  | name word => exact absurd rfl h
  | _ => rfl

theorem ownNotices_of_leaf {e : Expr} (hleaf : x.use? position e = none) :
    x.ownNotices position e = (x.unresolved? position e).toList.map .unknownName := by
  rw [ownNotices, callee?_of_use?_eq_none hleaf]
  exact List.append_nil _

theorem told_leaf {e : Expr} (hleaf : x.use? position e = none) {notices : List Notice}
    {v : Value} (h : (x.walk position formula e).Yields notices v) :
    notices.filterMap Notice.told? = x.ownNotices position e := by
  rw [ownNotices_of_leaf hleaf]
  rcases notices_of_leaf hleaf h with
    ⟨word, he, ⟨hname, hnotices⟩ | ⟨ref, hname, hnotices⟩⟩ | ⟨he, hnotices⟩
  · rw [he, hnotices]
    simp [unresolved?, hname, Notice.told?]
  · rw [he, hnotices]
    simp [unresolved?, hname, Notice.told?]
  · have hnone : x.unresolved? position e = none := by
      cases e with
      | name word => exact absurd rfl (he word)
      | _ => rfl
    rw [hnone]
    rcases hnotices with hnotices | ⟨d, hnotices⟩
    · rw [hnotices]
      rfl
    · rw [hnotices]
      rfl

theorem sees_told (x : Extractor) (position : Position) (formula : String) :
    x.Sees position formula Notice.told? (x.ownNotices position) where
  read _ := rfl
  leaf _ _ _ hleaf h := told_leaf hleaf h
  callee e h := by
    rw [told_unknownNotices, ownNotices, unresolved?_of_use? h]
    rfl

/-- Just those functions are missing that the earlier parts call and that are not known. -/
def Lists (x : Extractor) (earlier : List Expr) (findings : Findings) : Prop :=
  forall key, key ∈ findings.missing <->
    key ∈ earlier.filterMap Expr.callee? ∧ ¬ x.Knows key

namespace Lists

variable {earlier : List Expr} {findings : Findings}

theorem callee (h : x.Lists earlier findings) (p : Expr) :
    Event.ofNotices position findings (x.unknownNotices p.callee?.toList) =
      (x.newcomer? earlier p).toList.map (Event.unknownFunction position) := by
  unfold newcomer?
  cases p.callee? with
  | none => rfl
  | some key =>
      by_cases hknown : x.Knows key
      · simp only [Option.toList_some, unknownNotices_of_knows hknown, hknown, true_or,
          if_true]
        rfl
      · have hmem : key ∈ findings.missing <-> key ∈ earlier.filterMap Expr.callee? := by
          rw [h key, and_iff_left hknown]
        simp only [Option.toList_some, unknownNotices_of_not_knows hknown, hknown,
          false_or, Event.ofNotices, Event.ofNotice?, List.contains_iff_mem, hmem]
        split
        · rfl
        · rfl

theorem snoc (h : x.Lists earlier findings) (p : Expr) :
    x.Lists (earlier ++ [p])
      (findings.absorbAll (x.unknownNotices p.callee?.toList)) := by
  intro other
  have hlast : other ∈ [p].filterMap Expr.callee? <-> p.callee? = some other := by
    simp
  rw [List.filterMap_append, List.mem_append, hlast, or_and_right, ← h other]
  cases p.callee? with
  | none => simp [unknownNotices, Findings.absorbAll]
  | some key =>
      by_cases hknown : x.Knows key
      · have hnone : ¬ (some key = some other ∧ ¬ x.Knows other) := by
          intro hother
          cases hother.left
          exact hother.right hknown
        rw [Option.toList_some, unknownNotices_of_knows hknown, or_iff_left hnone]
        rfl
      · have hkey : some key = some other ∧ ¬ x.Knows other <-> other = key := by
          constructor
          · intro hother
            exact (Option.some.inj hother.left).symm
          · intro hother
            rw [hother]
            exact ⟨rfl, hknown⟩
        rw [Option.toList_some, unknownNotices_of_not_knows hknown, hkey]
        exact Findings.mem_listMissing

theorem part (h : x.Lists earlier findings) (p : Expr) :
    Event.ofNotices position findings (x.ownNotices position p) =
        x.partEvents position earlier p ∧
      x.Lists (earlier ++ [p]) (findings.absorbAll (x.ownNotices position p)) := by
  have hnames : findings.absorbAll
      ((x.unresolved? position p).toList.map .unknownName) = findings := by
    cases x.unresolved? position p <;> rfl
  rw [ownNotices, Event.ofNotices_append, Findings.absorbAll_append, hnames,
    Event.ofNotices_unknownName, h.callee p]
  exact ⟨rfl, h.snoc p⟩

theorem walk (h : x.Lists earlier findings) (parts : List Expr) :
    Event.ofNotices position findings (parts.flatMap (x.ownNotices position)) =
      x.walkEvents position earlier parts := by
  induction parts generalizing earlier findings with
  | nil => rfl
  | cons p rest ih =>
      rw [List.flatMap_cons, Event.ofNotices_append, (h.part p).left, ih (h.part p).right]
      rfl

end Lists

end Extractor
end Precedents
