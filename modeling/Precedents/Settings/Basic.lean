import Precedents.Data.Datum
import Precedents.Extraction.Extractor
import Precedents.Settings.DefinedNames

/-!
# Settings

Settings give names to references, list value functions, choose whether
diagnostics are errors, and may send events to a file.  They are read from
loosely typed data, and the first fault is reported with its key.
-/

namespace Precedents

structure Settings where
  names : List (String × String) := []
  table : DefinedNames := {}
  valueFunctions : List String := []
  strict : Bool := false
  eventsFile : Option String := none
  fsync : Bool := false

namespace Settings

def falseWords : List String := ["0", "off", "f", "false", "n", "no"]

def trueWords : List String := ["1", "on", "t", "true", "y", "yes"]

def truthOfWord (s : String) : Except SettingFault Bool :=
  let word := String.ofList (s.toList.map Char.toLower)
  if falseWords.contains word then .ok false
  else if trueWords.contains word then .ok true
  else .error .unclearTruth

/-- The first whole number that has no place in 64 bits, `2 ^ 63`. -/
def wordLimit : Int := 0x8000000000000000

/-- A truth value given as a number; only numbers of 64 bits are looked at. -/
def truthOfNumber (n : Int) (lowest : Int) : Except SettingFault Bool :=
  if n = 0 then .ok false
  else if n = 1 then .ok true
  else if lowest ≤ n && n < wordLimit then .error .unclearTruth
  else .error .notTruth

def truth : Datum -> Except SettingFault Bool
  | .bool b => .ok b
  | .int n => truthOfNumber n (-wordLimit)
  | .float x => if x.isWhole then truthOfNumber x.truncate (1 - wordLimit) else .error .notTruth
  | .text s => truthOfWord s
  | _ => .error .notTruth

def text : Datum -> Except SettingFault String
  | .text s => .ok s
  | _ => .error .notText

def text? : Datum -> Except SettingFault (Option String)
  | .null => .ok none
  | .text s => .ok (some s)
  | _ => .error .notText

def under {α : Type} (key : String) (outcome : Except SettingFault α) : Except SettingsError α :=
  outcome.mapError (.setting key)

def shownKey : Datum -> String
  | .bool b => if b then "1" else "0"
  | d => d.scalarShown

def nameOf (entry : Datum × Datum) : Except SettingsError (String × String) :=
  match entry.1 with
  | .text key => do
      let target <- under (SettingsError.nameKey key) (text entry.2)
      return (key, target)
  | key => .error (.setting (SettingsError.nameKey (shownKey key) ++ ".[key]") .notText)

def namesOf : Datum -> Except SettingsError (List (String × String))
  | .map entries => entries.mapM nameOf
  | _ => .error (.setting "names" .notMapping)

/-- The items of a list of texts, of which the first has the number `i`. -/
def itemsOf (key : String) (i : Nat) : List Datum -> Except SettingsError (List String)
  | [] => .ok []
  | d :: rest => do
      let item <- under (key ++ "." ++ toString i) (text d)
      let items <- itemsOf key (i + 1) rest
      return item :: items

def listOf (key : String) : Datum -> Except SettingsError (List String)
  | .list items => itemsOf key 0 items
  | _ => .error (.setting key .notList)

def fieldOr (d : Datum) (name : String) (default : Datum) : Datum :=
  (d.field? name).getD default

def loggingOf : Datum -> Except SettingsError (Option String × Bool)
  | .map entries => do
      let file <- under "logging.events_file" (text? (fieldOr (.map entries) "events_file" .null))
      let fsync <- under "logging.fsync" (truth (fieldOr (.map entries) "fsync" (.bool false)))
      return (file, fsync)
  | _ => .error (.setting "logging" .notLogging)

def ofDatum (d : Datum) : Except SettingsError Settings := do
  let names <- namesOf (fieldOr d "names" (.map []))
  let functions <- listOf "value_functions" (fieldOr d "value_functions" (.list []))
  let strict <- under "strict" (truth (fieldOr d "strict" (.bool false)))
  let (file, fsync) <- loggingOf (fieldOr d "logging" (.map []))
  let table <- DefinedNames.ofList names
  return {
    names := names
    table := table
    valueFunctions := functions
    strict := strict
    eventsFile := file
    fsync := fsync }

def resolve (settings : Settings) (name sheet : String) : Resolution :=
  match settings.table.lookup name sheet with
  | none => .unknown
  | some ref => .found ref

def extractor (settings : Settings) (functions : List String) : Extractor where
  resolve := settings.resolve
  valueFunctions := (settings.valueFunctions ++ functions).map Text.upper
  strict := settings.strict

end Settings
end Precedents
