import Precedents.Extraction.Event
import Precedents.Extraction.Walk
import Precedents.Formula.Parse
import Precedents.Formula.Salvage

/-!
# Extraction

An extraction finds what a formula depends on: the cells and ranges that it
names, directly or through names, on the sheet of its own cell unless it says
otherwise.  A formula that could not be completed yields what can be salvaged in
front of its first failure.
-/

namespace Precedents

structure Extraction where
  references : List Reference
  missing : List String
  diagnostics : List Diagnostic
  value : Value

inductive ExtractionError
  | emptyFormula
  | noPosition
  | badPosition (errors : List FieldError)
  /-- Diagnostics count as errors. -/
  | malformed (diagnostics : List Diagnostic)
  | fault (fault : Fault)

structure Report where
  events : List Event
  outcome : Except ExtractionError Extraction

namespace Extraction

def ok (x : Extraction) : Bool :=
  x.diagnostics.isEmpty

end Extraction

namespace Diagnostic

def headline : List Diagnostic -> String
  | [] => "Formula syntax error"
  | d :: _ => d.render

def insert (d : Diagnostic) : List Diagnostic -> List Diagnostic
  | [] => [d]
  | e :: rest => if d.offset ≤ e.offset then d :: e :: rest else e :: insert d rest

def inOrder (ds : List Diagnostic) : List Diagnostic :=
  ds.foldr insert []

end Diagnostic

namespace ExtractionError

def message : ExtractionError -> String
  | emptyFormula => "Input must not be empty."
  | noPosition => "A position is required to resolve references."
  | badPosition _ => ""
  | malformed diagnostics => Diagnostic.headline diagnostics
  | fault f => f.message

end ExtractionError

namespace Extractor

def readReferences (position : Position) : List Reference -> Traced Unit
  | [] => pure ()
  | ref :: rest => do
      let _ <- read position ref
      readReferences position rest

/-- Reads what can be salvaged of a formula in front of its first diagnostic. -/
def salvage (position : Position) (formula : String) (diagnostics : List Diagnostic) :
    Traced Value :=
  let stop := (diagnostics.head?.map fun d => d.offset.toNat).getD formula.length
  match Salvage.references formula stop with
  | .error error => Traced.fail (.sheet error)
  | .ok refs => do
      readReferences position refs
      return .missing

def followBy (walked : Expr -> Traced Value) (position : Position) (formula : String)
    (parse : Parse) : Traced Value :=
  match parse.tree with
  | none => salvage position formula parse.diagnostics
  | some e => do
      let v <- walked e
      finish position v

def follow (x : Extractor) (position : Position) (formula : String) : Parse -> Traced Value :=
  followBy (x.walk position formula) position formula

def followWithin (x : Extractor) (position : Position) (formula : String) :
    Parse -> Traced Value :=
  followBy (x.walkWithin position formula x.room) position formula

/-- Sorts the diagnostics; without a tree they are in order already. -/
def conclude (position : Position) (formula : String) (strict : Bool) (findings : Findings)
    (v : Value) : Report :=
  let diagnostics := Diagnostic.inOrder findings.diagnostics
  let complaints := diagnostics.map (Event.ofDiagnostic position formula)
  if strict && !diagnostics.isEmpty then ⟨complaints, .error (.malformed diagnostics)⟩
  else
    ⟨complaints ++ [Event.completed position formula findings],
      .ok ⟨findings.cover.entries, findings.missing, diagnostics, v⟩⟩

def report (x : Extractor) (formula : String) (position : Position) (strict : Option Bool)
    (followed : Parse -> Traced Value) : Report :=
  if formula = "" then ⟨[], .error .emptyFormula⟩
  else
    let parse := Parse.ofText formula
    let start : Findings := { diagnostics := parse.diagnostics }
    let traced := followed parse
    let events := Event.ofNotices position start traced.notices
    match traced.outcome with
    | .error fault => ⟨events, .error (.fault fault)⟩
    | .ok v =>
        let report := conclude position formula (strict.getD x.strict)
          (start.absorbAll traced.notices) v
        ⟨events ++ report.events, report.outcome⟩

/-- Extracts what a formula at a position depends on, however deep its tree is. -/
def extractAt (x : Extractor) (formula : String) (position : Position) (strict : Option Bool) :
    Report :=
  x.report formula position strict (x.follow position formula)

/-- Extracts what a formula at a position depends on if there is room for its tree. -/
def extractWithin (x : Extractor) (formula : String) (position : Position)
    (strict : Option Bool) : Report :=
  x.report formula position strict (x.followWithin position formula)

def extract (x : Extractor) (formula : String) (place : Option Datum) (strict : Option Bool) :
    Report :=
  if formula = "" then ⟨[], .error .emptyFormula⟩
  else
    match place with
    | none => ⟨[], .error .noPosition⟩
    | some d =>
        match Position.ofDatum d with
        | .error (.fields errors) => ⟨[], .error (.badPosition errors)⟩
        | .error .longRow => ⟨[], .error (.fault (.numeral .tooLong))⟩
        | .ok position => x.extractWithin formula position strict

end Extractor
end Precedents
