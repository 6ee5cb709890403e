import Precedents.Data.Field
import Precedents.Data.Json
import Precedents.Extraction.Findings
import Precedents.Reference.Printer

/-!
# Events

An event is a line of a log: a record of what happened and of where.  Its
context may hold texts of any length, so long ones are cut; texts in lists stay
as they are.
-/

namespace Precedents

inductive Level
  | info
  | warning
  | error
deriving DecidableEq, Repr

inductive EventKind
  | extractCompleted
  | formulaSyntaxError
  | functionMissing
  | nameUnresolved
  | capabilityError
deriving DecidableEq, Repr

structure Event where
  level : Level
  kind : EventKind
  message : String
  context : List (Datum × Datum)
  errorCode : Option String

namespace Level

def word : Level -> String
  | info => "info"
  | warning => "warning"
  | error => "error"

end Level

namespace EventKind

def all : List EventKind :=
  [extractCompleted, formulaSyntaxError, functionMissing, nameUnresolved, capabilityError]

def word : EventKind -> String
  | extractCompleted => "extract_completed"
  | formulaSyntaxError => "formula_syntax_error"
  | functionMissing => "function_missing"
  | nameUnresolved => "name_unresolved"
  | capabilityError => "capability_error"

def ofWord? (s : String) : Option EventKind :=
  all.find? fun kind => kind.word == s

end EventKind

namespace Clip

def limit : Nat := 256

def mark : String := "...[truncated]"

def text (s : String) : String :=
  if limit < s.length then String.ofList (s.toList.take limit) ++ mark else s

mutual

/-- A datum with its texts cut, in mappings at every depth but not in lists. -/
def datum : Datum -> Datum
  | .text s => .text (text s)
  | .map entries => .map (context entries)
  | d => d

def context : List (Datum × Datum) -> List (Datum × Datum)
  | [] => []
  | (key, d) :: rest => (key, datum d) :: context rest

end

end Clip

namespace Event

def layout : Int := 1

def record (event : Event) (stamp : String) : Datum :=
  Datum.record [
    ("schema_version", .int layout),
    ("ts", .text stamp),
    ("level", .text event.level.word),
    ("event_type", .text event.kind.word),
    ("context", .map (Clip.context event.context)),
    ("message", .text event.message),
    ("error_code", (event.errorCode.map Datum.text).getD .null)]

def line (event : Event) (stamp : String) : String :=
  Json.line (Json.sorted (event.record stamp))

/-! ## Events from loose data -/

def readKind : Datum -> Except FieldFault EventKind
  | .text s =>
      match EventKind.ofWord? s with
      | some kind => .ok kind
      | none => .error .unknownChoice
  | _ => .error .unknownChoice

/-- The context of an event given as data; nothing at all stands for an empty one. -/
def readContext (d : Datum) : Except FieldFault (List (Datum × Datum)) :=
  match d with
  | .map entries => .ok entries
  | d => if d.isNothing then .ok [] else .error .notMapping

/-- An event given as data; its code is left out for mere information. -/
def ofData (level : Level) (kind message context errorCode : Datum) :
    Except (List FieldError) Event :=
  let kind := readKind kind
  let context := readContext context
  let message := Field.name (some message)
  let errorCode := if level = .info then .ok none else Field.name? (some errorCode)
  match kind, context, message, errorCode with
  | .ok kind, .ok context, .ok message, .ok errorCode =>
      .ok ⟨level, kind, message, context, errorCode⟩
  | _, _, _, _ => .error (Field.fault? "event_type" kind ++ Field.fault? "context" context
      ++ Field.fault? "message" message ++ Field.fault? "error_code" errorCode)

/-! ## Events of an extraction -/

def contextAt (position : Position) (more : List (String × Datum)) : List (Datum × Datum) :=
  ([("sheet", Datum.text position.sheet), ("cell", .text position.address)] ++ more).map
    fun entry => (.text entry.1, entry.2)

def unknownName (position : Position) (name : String) : Event where
  level := .warning
  kind := .nameUnresolved
  message := "Name " ++ Text.quoted name ++ " not found"
  context := contextAt position [("name", .text name)]
  errorCode := "name_not_found"

def unknownFunction (position : Position) (function : String) : Event where
  level := .warning
  kind := .functionMissing
  message := "Function " ++ function ++ " is not implemented"
  context := contextAt position [("function", .text function)]
  errorCode := "function_not_implemented"

def defect (position : Position) (function : String) (fault : Fault) : Event where
  level := .error
  kind := .capabilityError
  message := "Capability " ++ function ++ " failed: " ++ fault.message
  context := contextAt position [("function", .text function)]
  errorCode := "capability_defect"

def ofDiagnostic (position : Position) (formula : String) (d : Diagnostic) : Event where
  level := .warning
  kind := .formulaSyntaxError
  message := d.message
  context := contextAt position
    [("formula", .text formula), ("line", .int d.line), ("column", .int d.column)]
  errorCode := "syntax_error"

def completed (position : Position) (formula : String) (findings : Findings) : Event where
  level := .info
  kind := .extractCompleted
  message := "Extracted " ++ toString findings.cover.size ++ " reference(s)"
  context := contextAt position
    [("formula", .text formula), ("references", .int findings.cover.size),
      ("missing_functions", .list (findings.missing.map .text))]
  errorCode := none

/-- The event of a notice; an unknown function makes one only the first time. -/
def ofNotice? (position : Position) (findings : Findings) : Notice -> Option Event
  | .read _ => none
  | .unknownFunction function =>
      if findings.missing.contains function then none else some (unknownFunction position function)
  | .unknownName name => some (unknownName position name)
  | .offGrid _ => none
  | .defect function fault => some (defect position function fault)

def ofNotices (position : Position) (findings : Findings) : List Notice -> List Event
  | [] => []
  | notice :: rest =>
      (ofNotice? position findings notice).toList
        ++ ofNotices position (findings.absorb notice) rest

end Event
end Precedents
