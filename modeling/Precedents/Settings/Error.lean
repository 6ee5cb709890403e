import Precedents.Reference.Error

/-!
# Why settings are refused
-/

namespace Precedents

inductive SettingFault
  | notMapping
  | notList
  | notText
  | notTruth
  /-- A text or a number that stands for no truth value. -/
  | unclearTruth
  | notLogging
deriving DecidableEq, Repr

inductive SettingsError
  | missingFile (path : String)
  | unreadable (path : String)
  | notMapping (path : String)
  | setting (key : String) (fault : SettingFault)
  | target (name : String) (error : ReferenceError)
  | emptyName (name : String)
deriving DecidableEq, Repr

namespace SettingFault

def message : SettingFault -> String
  | notMapping => "Input should be a valid dictionary"
  | notList => "Input should be a valid list"
  | notText => "Input should be a valid string"
  | notTruth => "Input should be a valid boolean"
  | unclearTruth => "Input should be a valid boolean, unable to interpret input"
  | notLogging => "Input should be a valid dictionary or instance of LoggingConfig"

end SettingFault

namespace SettingsError

def wording (reason : String) (key : Option String) : String :=
  "Invalid configuration: " ++ reason ++
    match key with
    | none => ""
    | some key => " (key " ++ Text.quoted key ++ ")"

def nameKey (name : String) : String :=
  "names." ++ name

def reason : SettingsError -> String
  | missingFile path => "config file not found: " ++ path
  | unreadable path => "cannot parse " ++ path ++ ": not a YAML document"
  | notMapping path => path ++ " must contain a mapping"
  | setting _ fault => fault.message
  | target _ error => error.message
  | emptyName _ => "empty name"

def key? : SettingsError -> Option String
  | missingFile _ => none
  | unreadable _ => none
  | notMapping _ => none
  | setting key _ => some key
  | target name _ => some (nameKey name)
  | emptyName name => some (nameKey name)

def message (e : SettingsError) : String :=
  wording e.reason e.key?

end SettingsError
end Precedents
