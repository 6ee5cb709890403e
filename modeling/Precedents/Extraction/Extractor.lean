import Precedents.Extraction.Notice
import Precedents.Function.Table
import Precedents.Function.ValueFunctions

/-!
# Extractors

An extractor knows what names stand for and which functions are value
functions.  The value of a call of a value function or of an operator is open,
and only the references among its arguments count.  A reference function is
looked into by its handler, after all its arguments have been read.
-/

namespace Precedents

inductive Resolution
  | unknown
  | found (ref : Reference)
  /-- Something of a kind that is no reference. -/
  | invalid (kind : String)
  /-- The hook for names fails. -/
  | failed (message : String)

structure Extractor where
  resolve : String -> String -> Resolution := fun _ _ => .unknown
  /-- Further value functions, in upper case. -/
  valueFunctions : List String := []
  registered : ValueFunctions := {}
  handler : ReferenceFunction -> Handler := ReferenceFunction.handler
  /-- Diagnostics are errors unless a call says otherwise. -/
  strict : Bool := false
  /--
  The levels of a tree that there is room for on the stack.  Of its 1000 frames
  a level takes two, and the callers and what a level calls take some.
  -/
  room : Nat := 480

namespace Extractor

/-- Reads a reference, on the sheet of the formula unless it names one. -/
def read (position : Position) (ref : Reference) : Traced Value := do
  Traced.note (.read (ref.withSheet position.sheet))
  return match ref with
    | .cell _ => .neutral
    | .range _ => Value.blockOf ref

def readValue (position : Position) (v : Value) : Traced Value :=
  match v with
  | .reference ref => read position ref
  | v => pure v

def readAll (position : Position) : List Value -> Traced Unit
  | [] => pure ()
  | v :: rest => do
      let _ <- readValue position v
      readAll position rest

/-- A reference in a formula stands for itself until it is used. -/
def mark (position : Position) (ref : Reference) : Value :=
  .reference (ref.withSheet position.sheet)

/-- A name stands for a reference, which is read wherever it stands. -/
def nameValue (x : Extractor) (position : Position) (name : String) : Traced Value :=
  match x.resolve name position.sheet with
  | .unknown => do
      Traced.note (.unknownName name)
      return .error .name
  | .invalid kind => Traced.fail (.notReference name kind)
  | .failed message => Traced.fail (.hookFailed message)
  | .found ref => do
      let _ <- read position (ref.withSheet position.sheet)
      return mark position ref

/-- A call of a value function, or of an operator. -/
def plainCall (position : Position) (args : List Value) : Traced Value := do
  readAll position args
  return .neutral

def returned (v : Value) : Except Fault Value :=
  match v with
  | .bare ref => .ok (.reference ref)
  | v => if v.isResult then .ok v else .error (.badValue v)

def ofVerdict (function : String) : Verdict -> Except Fault Value
  | .value v => returned v
  | .unknown => .ok .neutral
  | .refused refusal => .ok (.error refusal.kind)
  | .invalid v => .error (.badVerdict function v)
  | .failed message => .error (.failed message)

/-- The value of a call; a fault is also noticed as a defect of the function. -/
def settle (function : String) (verdict : Verdict) : Traced Value :=
  match ofVerdict function verdict with
  | .ok v => pure v
  | .error fault => do
      Traced.note (.defect function fault)
      Traced.fail fault

/-- A call of a reference function, or of a function that is not known at all. -/
def referenceCall (x : Extractor) (position : Position) (name : String) (args : List Value) :
    Traced Value := do
  readAll position args
  let key := Text.upper name
  match ReferenceFunction.ofName? key with
  | none =>
      Traced.note (.unknownFunction key)
      return .neutral
  | some function => settle key (x.handler function position args)

def isValueFunction (x : Extractor) (name : String) : Bool :=
  x.valueFunctions.contains (Text.upper name) || x.registered.has name []

def call (x : Extractor) (position : Position) (name : String) (args : List Value) :
    Traced Value :=
  if x.isValueFunction name then plainCall position args
  else x.referenceCall position name args

/-- The value of a whole formula: a cell is read, and a single column at its top. -/
def finish (position : Position) (v : Value) : Traced Value :=
  match v with
  | .reference (.cell c) => read position (.cell c)
  | .reference (.range r) =>
      if r.isSingleColumn then read position (.cell r.topLeft) else pure v
  | v => pure v

end Extractor
end Precedents
