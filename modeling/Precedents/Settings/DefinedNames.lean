import Precedents.Reference.Reader
import Precedents.Settings.Error
import Precedents.Text.Upper

/-!
# Names for references

A table gives names to references.  A name may belong to one sheet, which then
stands in front of it with `!`, and is found there before a name for all sheets.
The case of letters makes no difference.
-/

namespace Precedents

/-- A name, with its sheet if it belongs to one, both in upper case, and what it stands for. -/
structure DefinedName where
  scope : Option String
  name : String
  target : Reference
deriving DecidableEq, Repr

structure DefinedNames where
  entries : List DefinedName := []
deriving DecidableEq, Repr

namespace DefinedName

def isFor (entry : DefinedName) (scope : Option String) (name : String) : Bool :=
  entry.scope == scope && entry.name == name

/-- Reads an entry.  A target without a sheet lies on the sheet that the name belongs to. -/
def read (key target : String) : Except SettingsError DefinedName :=
  match Sheet.split key with
  | .error error => .error (.target key error)
  | .ok (scope, name) =>
      match Reference.read target scope with
      | .error error => .error (.target key error)
      | .ok ref =>
          if name = "" then .error (.emptyName key)
          else .ok ⟨scope.map Text.upper, Text.upper name, ref⟩

end DefinedName

namespace DefinedNames

def size (table : DefinedNames) : Nat :=
  table.entries.length

/-- Entries with one more, which takes the place of an entry for the same name. -/
def put (entry : DefinedName) : List DefinedName -> List DefinedName
  | [] => [entry]
  | other :: rest =>
      if other.isFor entry.scope entry.name then entry :: rest else other :: put entry rest

def addAll (table : DefinedNames) : List (String × String) -> Except SettingsError DefinedNames
  | [] => .ok table
  | (key, target) :: rest =>
      match DefinedName.read key target with
      | .error error => .error error
      | .ok entry => addAll ⟨put entry table.entries⟩ rest

def ofList (names : List (String × String)) : Except SettingsError DefinedNames :=
  addAll {} names

def find? (table : DefinedNames) (scope : Option String) (name : String) : Option Reference :=
  (table.entries.find? fun entry => entry.isFor scope name).map DefinedName.target

/-- What a name stands for on a sheet; the empty name is that of no sheet. -/
def lookup (table : DefinedNames) (name sheet : String) : Option Reference :=
  let own :=
    if sheet = "" then none else table.find? (some (Text.upper sheet)) (Text.upper name)
  (own.or (table.find? none (Text.upper name))).map fun ref => ref.withSheet sheet

def contains (table : DefinedNames) (name : String) : Bool :=
  table.entries.any fun entry => entry.name == Text.upper name

end DefinedNames
end Precedents
