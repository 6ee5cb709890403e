import Precedents.Extraction.Event

/-!
# Event logs

Events go to a file, one line each, which is made for the first of them.  They
are dropped while the log is closed.  A line that cannot be written is lost,
and a warning about that is given once.
-/

namespace Precedents

inductive Outlet
  | closed
  | file
  /-- A path that cannot be written. -/
  | failing
deriving DecidableEq, Repr

/-- A log: where events go, the lines of its file once there is one, and whether it has warned. -/
structure EventLog where
  outlet : Outlet := .file
  lines : Option (List String) := none
  warned : Bool := false

namespace EventLog

def write (log : EventLog) (line : String) : EventLog :=
  match log.outlet with
  | .closed => log
  | .file => { log with lines := some (log.lines.getD [] ++ [line]) }
  | .failing => { log with warned := true }

def append (log : EventLog) (stamp : String) (events : List Event) : EventLog :=
  events.foldl (fun log event => log.write (event.line stamp)) log

end EventLog
end Precedents
