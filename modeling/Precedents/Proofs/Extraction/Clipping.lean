import Precedents.Proofs.Extraction.Chronicle
import Precedents.Proofs.Extraction.Literals
import Precedents.Proofs.Text.UpperCase

/-!
# Texts in the log

The context of an event is logged with its long texts cut, in mappings at every
depth.  Only the list of missing functions of a completed extraction is no mapping:
its names are logged as they are.  So the texts that are logged fit the limit just
if the names of all missing functions do, and a formula may call a function by a
name of any length.
-/

namespace Precedents

/-! ## Texts at any depth -/

namespace Datum

/-- The text stands in the datum: as a key or by itself, in lists and mappings at any depth. -/
inductive HasText : Datum -> String -> Prop
  | text (s : String) : HasText (.text s) s
  | item {items : List Datum} {d : Datum} {s : String} (hd : d ∈ items) (h : HasText d s) :
      HasText (.list items) s
  | key {entries : List (Datum × Datum)} {key d : Datum} {s : String}
      (hentry : (key, d) ∈ entries) (h : HasText key s) : HasText (.map entries) s
  | value {entries : List (Datum × Datum)} {key d : Datum} {s : String}
      (hentry : (key, d) ∈ entries) (h : HasText d s) : HasText (.map entries) s

variable {s t : String}

theorem hasText_text : (Datum.text t).HasText s <-> s = t := by
  constructor
  · intro h
    cases h
    rfl
  · intro h
    rw [h]
    exact .text t

theorem not_hasText_int (n : Int) : ¬ (Datum.int n).HasText s := by
  intro h
  cases h

theorem hasText_names {names : List String} :
    (Datum.list (names.map .text)).HasText s <-> s ∈ names := by
  constructor
  · intro h
    cases h with
    | item hd h =>
        rcases List.mem_map.mp hd with ⟨name, hname, heq⟩
        rw [← heq, hasText_text] at h
        rw [h]
        exact hname
  · intro h
    exact .item (List.mem_map_of_mem h) (.text s)

theorem hasText_map {entries : List (Datum × Datum)} :
    (Datum.map entries).HasText s <->
      exists entry, entry ∈ entries ∧ (entry.1.HasText s ∨ entry.2.HasText s) := by
  constructor
  · intro h
    cases h with
    | key hentry h => exact ⟨_, hentry, Or.inl h⟩
    | value hentry h => exact ⟨_, hentry, Or.inr h⟩
  · intro h
    rcases h with ⟨⟨key, d⟩, hentry, h | h⟩
    · exact .key hentry h
    · exact .value hentry h

end Datum

/-! ## What fits -/

namespace Clip

variable {s : String}

/-- The text is short enough, or it was cut, with the mark behind it. -/
def Fits (s : String) : Prop :=
  s.length ≤ limit ∨ exists front : String, front.length = limit ∧ s = front ++ mark

theorem Fits.length_le (h : Fits s) : s.length ≤ limit + mark.length := by
  rcases h with h | ⟨front, hfront, hs⟩
  · exact Nat.le_trans h (Nat.le_add_right _ _)
  · have hcut : s.length = limit + mark.length := by
      rw [hs, String.length_append, hfront]
    exact Nat.le_of_eq hcut

theorem fits_text (s : String) : Fits (text s) := by
  unfold text
  split
  · rename_i hlong
    refine Or.inr ⟨_, ?_, rfl⟩
    rw [String.length_ofList, List.length_take, String.length_toList]
    omega
  · rename_i hshort
    exact Or.inl (Nat.le_of_not_lt hshort)

theorem fits_upper_iff (s : String) :
    Fits (Text.upper s) <-> (Text.upper s).length ≤ limit := by
  constructor
  · intro h
    rcases h with h | ⟨front, _, hs⟩
    · exact h
    · have hmem : 't' ∈ (Text.upper s).toList := by
        rw [hs, String.toList_append]
        exact List.mem_append_right _ (by decide +kernel)
      rw [Text.upper, String.toList_ofList] at hmem
      rcases List.mem_flatMap.mp hmem with ⟨c, _, hc⟩
      have hlower : Text.IsLower 't'.toNat := ⟨by decide, by decide⟩
      exact absurd hlower (Text.not_isLower_of_mem_upperChar hc)
  · exact Or.inl

theorem context_eq_map (entries : List (Datum × Datum)) :
    context entries = entries.map fun entry => (entry.1, datum entry.2) := by
  induction entries with
  | nil => rfl
  | cons entry rest ih => rw [context, ih, List.map_cons]

end Clip

/-! ## What is logged of an event -/

namespace Event

open Clip

variable {position : Position} {event : Event} {s : String}

def Logs (event : Event) (s : String) : Prop :=
  (Datum.map (Clip.context event.context)).HasText s

def LogsFitting (event : Event) : Prop :=
  forall s, event.Logs s -> Fits s

theorem logs_iff {more : List (String × Datum)} (h : event.context = contextAt position more) :
    event.Logs s <-> exists entry,
      entry ∈ [("sheet", Datum.text position.sheet), ("cell", .text position.address)] ++ more ∧
        (s = entry.1 ∨ (Clip.datum entry.2).HasText s) := by
  rw [Logs, Datum.hasText_map, context_eq_map, h, contextAt]
  simp only [List.map_map, List.mem_map, Function.comp]
  constructor
  · intro hlogs
    rcases hlogs with ⟨_, ⟨entry, hentry, heq⟩, hs⟩
    rw [← heq, Datum.hasText_text] at hs
    exact ⟨entry, hentry, hs⟩
  · intro hlogs
    rcases hlogs with ⟨entry, hentry, hs⟩
    refine ⟨_, ⟨entry, hentry, rfl⟩, ?_⟩
    rw [Datum.hasText_text]
    exact hs

def IsPlainEntry (entry : String × Datum) : Prop :=
  entry.1.length ≤ limit ∧ ((exists t, entry.2 = .text t) ∨ exists n, entry.2 = .int n)

theorem IsPlainEntry.fits {entry : String × Datum} (h : IsPlainEntry entry)
    (hs : s = entry.1 ∨ (Clip.datum entry.2).HasText s) : Fits s := by
  rcases h with ⟨hkey, hvalue⟩
  rcases hs with hs | hs
  · rw [hs]
    exact Or.inl hkey
  · rcases hvalue with ⟨t, ht⟩ | ⟨n, hn⟩
    · rw [ht, Clip.datum, Datum.hasText_text] at hs
      rw [hs]
      exact fits_text t
    · rw [hn] at hs
      exact absurd hs (Datum.not_hasText_int n)

theorem isPlainEntry_text {key : String} (hkey : key.length ≤ limit) (t : String) :
    IsPlainEntry (key, .text t) :=
  ⟨hkey, Or.inl ⟨t, rfl⟩⟩

theorem isPlainEntry_int {key : String} (hkey : key.length ≤ limit) (n : Int) :
    IsPlainEntry (key, .int n) :=
  ⟨hkey, Or.inr ⟨n, rfl⟩⟩

theorem isPlainEntry_place (position : Position) :
    forall entry, entry ∈ [("sheet", Datum.text position.sheet),
      ("cell", .text position.address)] -> IsPlainEntry entry := by
  simp only [List.forall_mem_cons]
  exact ⟨isPlainEntry_text (by decide +kernel) _, isPlainEntry_text (by decide +kernel) _,
    by simp⟩

theorem logsFitting_of_plain {more : List (String × Datum)}
    (h : event.context = contextAt position more)
    (hmore : forall entry, entry ∈ more -> IsPlainEntry entry) : event.LogsFitting := by
  intro s hs
  rcases (logs_iff h).mp hs with ⟨entry, hentry, hs⟩
  rcases List.mem_append.mp hentry with hentry | hentry
  · exact (isPlainEntry_place position entry hentry).fits hs
  · exact (hmore entry hentry).fits hs

theorem logsFitting_of_text {key t : String}
    (h : event.context = contextAt position [(key, .text t)]) (hkey : key.length ≤ limit) :
    event.LogsFitting :=
  logsFitting_of_plain h (List.forall_mem_singleton.mpr (isPlainEntry_text hkey t))

theorem logsFitting_ofDiagnostic (position : Position) (formula : String) (d : Diagnostic) :
    (ofDiagnostic position formula d).LogsFitting := by
  apply logsFitting_of_plain rfl
  simp only [List.forall_mem_cons]
  exact ⟨isPlainEntry_text (by decide +kernel) _, isPlainEntry_int (by decide +kernel) _,
    isPlainEntry_int (by decide +kernel) _, by simp⟩

theorem fits_or_mem_of_completed_logs {formula : String} {findings : Findings}
    (h : (completed position formula findings).Logs s) : Fits s ∨ s ∈ findings.missing := by
  rcases (logs_iff rfl).mp h with ⟨entry, hentry, hs⟩
  simp only [List.mem_append, List.mem_cons, List.not_mem_nil, or_false] at hentry
  rcases hentry with hplace | hformula | hreferences | hmissing
  · exact Or.inl ((isPlainEntry_place position entry (by simpa using hplace)).fits hs)
  · rw [hformula] at hs
    exact Or.inl ((isPlainEntry_text (by decide +kernel) _).fits hs)
  · rw [hreferences] at hs
    exact Or.inl ((isPlainEntry_int (by decide +kernel) _).fits hs)
  · rw [hmissing] at hs
    rcases hs with hs | hs
    · have hkey : "missing_functions".length ≤ limit := by decide +kernel
      rw [hs]
      exact Or.inl (Or.inl hkey)
    · exact Or.inr (Datum.hasText_names.mp hs)

theorem completed_logs {formula : String} {findings : Findings} (h : s ∈ findings.missing) :
    (completed position formula findings).Logs s :=
  (logs_iff rfl).mpr ⟨("missing_functions", .list (findings.missing.map .text)), by simp,
    Or.inr (Datum.hasText_names.mpr h)⟩

end Event

namespace Extractor

open Clip

variable {x : Extractor} {position : Position} {formula : String} {event : Event}
variable {strict : Bool} {report : Report}

theorem exists_upper_of_callee? {p : Expr} {key : String} (h : p.callee? = some key) :
    exists s, key = Text.upper s := by
  unfold Expr.callee? at h
  split at h
  · injection h with h
    exact ⟨_, h.symm⟩
  · cases h

theorem mem_walkEvents_cases {earlier parts : List Expr}
    (h : event ∈ x.walkEvents position earlier parts) :
    (exists name, event = Event.unknownName position name) ∨
      exists p key, Expr.callee? p = some key ∧ event = Event.unknownFunction position key := by
  induction parts generalizing earlier with
  | nil => cases h
  | cons p rest ih =>
      rw [walkEvents, partEvents, List.append_assoc, List.mem_append,
        List.mem_append, List.mem_map, List.mem_map] at h
      rcases h with ⟨name, _, heq⟩ | ⟨key, hkey, heq⟩ | h
      · exact Or.inl ⟨name, heq.symm⟩
      · refine Or.inr ⟨p, key, ?_, heq.symm⟩
        unfold newcomer? at hkey
        split at hkey
        · cases hkey
        · rename_i other hother
          split at hkey
          · cases hkey
          · rw [hother]
            exact (Option.mem_toList.mp hkey)
      · exact ih h

theorem logsFitting_of_mem_walkEvents {earlier parts : List Expr}
    (h : event ∈ x.walkEvents position earlier parts) : event.LogsFitting := by
  rcases mem_walkEvents_cases h with ⟨name, heq⟩ | ⟨p, key, _, heq⟩
  · rw [heq]
    exact Event.logsFitting_of_text rfl (by decide +kernel)
  · rw [heq]
    exact Event.logsFitting_of_text rfl (by decide +kernel)

namespace Course

theorem logsFitting_or_completed (h : x.Course position formula strict report)
    (hevent : event ∈ report.events) :
    event.LogsFitting ∨ exists found, report.outcome = .ok found ∧
      event = Event.completed position formula found.findings := by
  cases h with
  | returns found =>
      simp only [List.mem_append, List.mem_map, List.mem_singleton] at hevent
      rcases hevent with (hwalk | ⟨d, _, heq⟩) | hlast
      · exact Or.inl (logsFitting_of_mem_walkEvents hwalk)
      · rw [← heq]
        exact Or.inl (Event.logsFitting_ofDiagnostic position formula d)
      · exact Or.inr ⟨found, rfl, hlast⟩
  | refused diagnostics =>
      simp only [List.mem_append, List.mem_map] at hevent
      rcases hevent with hwalk | ⟨d, _, heq⟩
      · exact Or.inl (logsFitting_of_mem_walkEvents hwalk)
      · rw [← heq]
        exact Or.inl (Event.logsFitting_ofDiagnostic position formula d)
  | broken _ _ hbroken =>
      cases hbroken with
      | word => exact Or.inl (logsFitting_of_mem_walkEvents hevent)
      | handler key =>
          rcases List.mem_append.mp hevent with hwalk | hlast
          · exact Or.inl (logsFitting_of_mem_walkEvents hwalk)
          · rw [List.mem_singleton.mp hlast]
            exact Or.inl (Event.logsFitting_of_text rfl (by decide +kernel))

theorem completed_mem (h : x.Course position formula strict report) {found : Extraction}
    (hfound : report.outcome = .ok found) :
    Event.completed position formula found.findings ∈ report.events := by
  cases h with
  | returns =>
      cases hfound
      exact List.mem_append_right _ List.mem_cons_self
  | refused => cases hfound
  | broken _ _ hbroken =>
      cases hbroken with
      | word => cases hfound
      | handler => cases hfound

theorem missing_upper (h : x.Course position formula strict report) {found : Extraction}
    (hfound : report.outcome = .ok found) :
    forall name, name ∈ found.missing -> exists s, name = Text.upper s := by
  intro name hname
  cases h with
  | returns _ _ _ _ hmissing =>
      cases hfound
      have hevent := List.mem_map_of_mem (f := Event.unknownFunction position) hname
      rw [hmissing] at hevent
      rcases mem_walkEvents_cases (List.mem_filter.mp hevent).left with
        ⟨other, heq⟩ | ⟨p, key, hkey, heq⟩
      · have hkinds : EventKind.functionMissing = .nameUnresolved := congrArg Event.kind heq
        cases hkinds
      · have hcontexts : Event.contextAt position [("function", .text name)] =
            Event.contextAt position [("function", .text key)] := congrArg Event.context heq
        have hsame : name = key := by simpa [Event.contextAt] using hcontexts
        rcases exists_upper_of_callee? hkey with ⟨s, hs⟩
        exact ⟨s, hsame.trans hs⟩
  | refused => cases hfound
  | broken _ _ hbroken =>
      cases hbroken with
      | word => cases hfound
      | handler => cases hfound

theorem logs_hold_iff (h : x.Course position formula strict report) {P : String -> Prop}
    (hP : forall s, Fits s -> P s) :
    (forall event, event ∈ report.events -> forall s, event.Logs s -> P s) <->
      forall found, report.outcome = .ok found -> forall name, name ∈ found.missing -> P name := by
  constructor
  · intro hlogs found hfound name hname
    exact hlogs _ (h.completed_mem hfound) name (Event.completed_logs hname)
  · intro hnames event hevent s hs
    rcases h.logsFitting_or_completed hevent with hfits | ⟨found, hfound, heq⟩
    · exact hP s (hfits s hs)
    · rw [heq] at hs
      rcases Event.fits_or_mem_of_completed_logs hs with hfit | hmem
      · exact hP s hfit
      · exact hnames found hfound s hmem

end Course

/--
All texts that an extraction logs fit just if no function that it lists as missing has
a name longer than the limit; and their lengths are bounded just if those of the names
are.
-/
theorem logged_texts_fit_iff (x : Extractor) (formula : String) (position : Position)
    (strict : Option Bool) :
    ((forall event, event ∈ (x.extractAt formula position strict).events ->
        forall s, event.Logs s -> Fits s) <->
      forall found, (x.extractAt formula position strict).outcome = .ok found ->
        forall name, name ∈ found.missing -> name.length ≤ limit) ∧
    ((forall event, event ∈ (x.extractAt formula position strict).events ->
        forall s, event.Logs s -> s.length ≤ limit + Clip.mark.length) <->
      forall found, (x.extractAt formula position strict).outcome = .ok found ->
        forall name, name ∈ found.missing -> name.length ≤ limit + Clip.mark.length) := by
  by_cases hformula : formula = ""
  · have hempty : x.extractAt formula position strict = ⟨[], .error .emptyFormula⟩ :=
      if_pos hformula
    rw [hempty]
    simp
  · have hcourse : x.Course position formula (strict.getD x.strict)
        (x.extractAt formula position strict) := course hformula strict
    refine ⟨(hcourse.logs_hold_iff fun _ => id).trans ?_,
      hcourse.logs_hold_iff fun _ h => h.length_le⟩
    have hname : forall found, (x.extractAt formula position strict).outcome = .ok found ->
        forall name, name ∈ found.missing -> (Fits name <-> name.length ≤ limit) := by
      intro found hfound name hname
      rcases hcourse.missing_upper hfound name hname with ⟨s, hs⟩
      rw [hs]
      exact fits_upper_iff s
    constructor
    · intro h found hfound name hmem
      exact (hname found hfound name hmem).mp (h found hfound name hmem)
    · intro h found hfound name hmem
      exact (hname found hfound name hmem).mpr (h found hfound name hmem)

/-! ## Names of any length -/

section Letters

open Text

def letters (n : Nat) : List Char :=
  List.replicate n 'A'

theorem upper_letters (n : Nat) : (letters n).flatMap upperChar = letters n := by
  have hsingle : forall c, c ∈ letters n -> upperChar c = [c] := by
    intro c hc
    rw [List.eq_of_mem_replicate hc]
    decide +kernel
  rw [List.flatMap_def, List.map_congr_left hsingle]
  exact List.flatMap_singleton' _

theorem spells_letters (n : Nat) :
    Terminal.functionName.Spells (String.ofList (letters (n + 1) ++ ['('])).toList := by
  refine ⟨?_, by simp, by simp⟩
  have hrest : (letters n ++ ['(']).dropWhile isNameRest = ['('] := by
    rw [List.dropWhile_append_of_pos]
    · rfl
    · intro c hc
      rw [List.eq_of_mem_replicate hc]
      decide +kernel
  have hfirst : isNameStart 'A' = true := by decide +kernel
  rw [String.toList_ofList]
  show Terminal.functionShape ('A' :: (letters n ++ ['('])) = some []
  simp [Terminal.functionShape, Sheet.nameScanner, Scanner.seq_apply, Scanner.one, Scanner.many,
    Scanner.char, hfirst, hrest]

theorem function_letters (n : Nat) :
    Literal.function (String.ofList (letters n ++ ['('])) = String.ofList (letters n) := by
  have hblank : NoBlank (letters n) := by
    intro c hc
    rw [List.eq_of_mem_replicate hc]
    decide +kernel
  have hmark : ¬ Literal.laterFunctionMark.isPrefixOf (letters n) = true := by
    intro hmark
    have hmem : '_' ∈ letters n :=
      (List.isPrefixOf_iff_prefix.mp hmark).subset (by decide +kernel)
    exact absurd (List.eq_of_mem_replicate hmem) (by decide)
  unfold Literal.function
  simp only [String.toList_ofList, List.dropLast_concat, hblank.trim_eq, upper_letters]
  exact if_neg hmark

theorem upper_function_letters (n : Nat) :
    Text.upper (Literal.function (String.ofList (letters n ++ ['(']))) =
      String.ofList (letters n) := by
  rw [function_letters, Text.upper, String.toList_ofList, upper_letters]

theorem length_letters (n : Nat) : (String.ofList (letters n)).length = n := by
  rw [String.length_ofList, letters, List.length_replicate]

end Letters

theorem yields_call_of_not_knows {name : String} (h : ¬ x.Knows (Text.upper name)) :
    (x.call position name []).Yields [.unknownFunction (Text.upper name)] .neutral := by
  rw [Knows, not_or, not_or] at h
  have hplain : ¬ x.isValueFunction name = true := by
    rw [isValueFunction_iff, not_or]
    exact ⟨h.left, h.right.left⟩
  rw [call, if_neg hplain, referenceCall]
  simp only [ofName?_eq_none_iff.mpr h.right.right]
  exact ⟨rfl, rfl⟩

theorem bareCall_logs {word : String} (position : Position) (strict : Option Bool)
    (hword : Terminal.functionName.Spells word.toList)
    (hunknown : ¬ x.Knows (Text.upper (Literal.function word))) :
    exists event, event ∈ (x.extractAt ("=" ++ (word ++ ")")) position strict).events ∧
      event.Logs (Text.upper (Literal.function word)) := by
  have hformula : "=" ++ (word ++ ")") ≠ "" := by simp
  have hwalk : (x.walk position ("=" ++ (word ++ ")")) (.call ⟨word, 1⟩ [none])).Yields
      [.unknownFunction (Text.upper (Literal.function word))] .neutral :=
    (yields_walk_of_use? (use?_call _ _)).mpr
      ⟨[], [], _, ⟨rfl, rfl⟩, yields_call_of_not_knows hunknown, rfl⟩
  have houtcome :=
    extractAt_of_tree hformula (ofText_bareCall hword) hwalk rfl rfl strict
  exact ⟨_, (course hformula strict).completed_mem houtcome,
    Event.completed_logs List.mem_cons_self⟩

theorem exists_length_le_of_knows (x : Extractor) :
    exists most, forall key, x.Knows key -> key.length ≤ most := by
  refine ⟨((x.valueFunctions ++ (x.registered.names ++
    ReferenceFunction.all.map ReferenceFunction.name)).map String.toList).flatten.length, ?_⟩
  intro key hkey
  have hmem : key ∈ x.valueFunctions ++ (x.registered.names ++
      ReferenceFunction.all.map ReferenceFunction.name) := by
    rw [List.mem_append, List.mem_append]
    exact hkey
  exact (List.sublist_flatten_of_mem (List.mem_map_of_mem hmem)).length_le

/-- Whatever the extractor, there is no bound on the texts that it logs. -/
theorem logs_longer_than (x : Extractor) (position : Position) (strict : Option Bool)
    (bound : Nat) :
    exists formula event s, event ∈ (x.extractAt formula position strict).events ∧
      event.Logs s ∧ bound < s.length := by
  rcases exists_length_le_of_knows x with ⟨most, hmost⟩
  have hname := upper_function_letters (bound + most + 1)
  have hlength := length_letters (bound + most + 1)
  have hunknown : ¬ x.Knows (String.ofList (letters (bound + most + 1))) := by
    intro hknown
    have hle := hmost _ hknown
    omega
  rw [← hname] at hunknown
  rcases bareCall_logs position strict (spells_letters _) hunknown with
    ⟨event, hevent, hlogs⟩
  rw [hname] at hlogs
  exact ⟨_, event, _, hevent, hlogs, by omega⟩

end Extractor
end Precedents
