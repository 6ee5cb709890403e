import Precedents.Formula.Diagnostic
import Precedents.Reference.Error
import Precedents.Value

/-!
# Notices and faults

On its way through a formula an extractor gives notice of every reference it
meets, of functions and names that it does not know, and of references that lie
off the grid.  A fault ends the way: a handler or a name table did what it must
not do, or a number is too long to be read.
-/

namespace Precedents

inductive Fault
  /-- A name stood for something of a kind that is no reference. -/
  | notReference (name kind : String)
  | hookFailed (message : String)
  /-- A handler gave a value that no formula can hold. -/
  | badValue (v : Value)
  /-- A handler gave something that is no verdict. -/
  | badVerdict (function : String) (v : Value)
  /-- A handler has failed. -/
  | failed (message : String)
  | numeral (error : NumeralError)
  | sheet (error : ReferenceError)
  /-- The tree of the formula has more levels than the stack has room for. -/
  | tooDeep
deriving Inhabited

namespace Fault

def message : Fault -> String
  | notReference name kind =>
      "Variable hook returned " ++ kind ++ " for " ++ Text.quoted name
        ++ "; expected CellReference, RangeReference or None"
  | hookFailed message => message
  | badValue v => "Invalid function result of type " ++ v.kindName ++ ": " ++ v.shown
  | badVerdict function v =>
      "Capability " ++ function ++ " returned " ++ v.kindName
        ++ "; expected Ok, DomainError or None"
  | failed message => message
  | numeral error => error.message
  | sheet error => error.message
  | tooDeep => "maximum recursion depth exceeded"

end Fault

inductive Notice
  | read (ref : Reference)
  | unknownFunction (function : String)
  | unknownName (name : String)
  | offGrid (diagnostic : Diagnostic)
  | defect (function : String) (fault : Fault)
deriving Inhabited

/-- A result with the notices given on the way to it. -/
structure Traced (α : Type) where
  notices : List Notice
  outcome : Except Fault α

namespace Traced

variable {α β : Type}

def pure (a : α) : Traced α :=
  ⟨[], .ok a⟩

def bind (t : Traced α) (next : α -> Traced β) : Traced β :=
  match t.outcome with
  | .error fault => ⟨t.notices, .error fault⟩
  | .ok a => ⟨t.notices ++ (next a).notices, (next a).outcome⟩

instance : Monad Traced where
  pure := Traced.pure
  bind := Traced.bind

def note (notice : Notice) : Traced Unit :=
  ⟨[notice], .ok ()⟩

def fail (fault : Fault) : Traced α :=
  ⟨[], .error fault⟩

def ofExcept (outcome : Except Fault α) : Traced α :=
  ⟨[], outcome⟩

end Traced
end Precedents
