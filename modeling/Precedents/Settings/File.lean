import Precedents.Data.Yaml.Document
import Precedents.Settings.Basic

/-!
# Settings in a file

Settings are kept in a YAML file.  An empty file leaves everything as usual.
-/

namespace Precedents
namespace Settings

def usualFile : String := "formula-deps.yaml"

def ofFile (path : String) (text : Option String) : Except SettingsError Settings :=
  match text with
  | none => .error (.missingFile path)
  | some text =>
      match Yaml.read text with
      | none => .error (.unreadable path)
      | some .null => ofDatum (.map [])
      | some (.map entries) => ofDatum (.map entries)
      | some _ => .error (.notMapping path)

end Settings
end Precedents
