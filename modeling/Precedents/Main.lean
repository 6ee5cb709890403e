import Precedents.CommandLine.Commands
import Std.Time.Format

/-!
# The program

Reads the files that the command line may mean, runs the command, and prints
what it leaves behind.
-/

namespace Precedents
namespace Main

def candidates (words : List String) : List String :=
  Settings.usualFile :: words.flatMap fun word =>
    word :: (CommandLine.Arguments.nameAndValue word.toList).2.toList

def textOf (path : String) : IO (Option String) := do
  try
    let text <- IO.FS.readFile path
    return some text
  catch _ =>
    return none

def load : List String -> IO Files
  | [] => return []
  | path :: rest => do
      let files <- load rest
      match <- textOf path with
      | some text => return (path, text) :: files
      | none => return files

def stamp : IO String := do
  let now <- Std.Time.Timestamp.now
  let moment := Std.Time.DateTime.ofTimestamp now Std.Time.TimeZone.ZoneRules.UTC
  return moment.format "uuuu-MM-dd'T'HH:mm:ss.SSSSSS'Z'"

def directory (path : String) : String :=
  "/".intercalate (path.splitOn "/").dropLast

def append (path : String) (events : List Event) : IO Unit := do
  if directory path ≠ "" then IO.FS.createDirAll (directory path)
  let file <- IO.FS.Handle.mk path IO.FS.Mode.append
  for event in events do
    let time <- stamp
    file.putStrLn (event.line time)

/-- Appends events to a file; what cannot be written is lost, with a warning. -/
def keep (path : Option String) (events : List Event) : IO Unit := do
  match path with
  | none => return
  | some path =>
      try append path events
      catch e => IO.eprintln ("[formula-deps] logging failed: " ++ toString e)

end Main
end Precedents

def main (words : List String) : IO UInt32 := do
  let files <- Precedents.Main.load (Precedents.Main.candidates words)
  let output := Precedents.CommandLine.run files words
  IO.print output.out
  IO.eprint output.err
  Precedents.Main.keep output.eventsFile output.events
  return output.exitCode.toUInt32
