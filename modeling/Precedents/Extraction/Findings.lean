import Precedents.Cover
import Precedents.Extraction.Notice

/-!
# What has been found

Notices add up: references go into the cover, unknown functions are listed once
each, and diagnostics are kept in order.
-/

namespace Precedents

structure Findings where
  cover : Cover := {}
  missing : List String := []
  diagnostics : List Diagnostic := []

namespace Findings

def listMissing (findings : Findings) (function : String) : Findings :=
  if findings.missing.contains function then findings
  else { findings with missing := findings.missing ++ [function] }

def offerMissing (findings : Findings) (function : String) : Bool × Findings :=
  (!findings.missing.contains function, findings.listMissing function)

def absorb (findings : Findings) : Notice -> Findings
  | .read ref => { findings with cover := findings.cover.add ref }
  | .unknownFunction function => findings.listMissing function
  | .unknownName _ => findings
  | .offGrid diagnostic => { findings with diagnostics := findings.diagnostics ++ [diagnostic] }
  | .defect _ _ => findings

def absorbAll (findings : Findings) (notices : List Notice) : Findings :=
  notices.foldl absorb findings

end Findings
end Precedents
