import Precedents.CommandLine.Arguments
import Precedents.CommandLine.Files
import Precedents.CommandLine.Help
import Precedents.Extraction.Extract
import Precedents.Reference.Reader
import Precedents.Settings.File

/-!
# Commands

`extract` prints what one formula depends on, `scan` does so for every formula
in a file of sheets.  Both read their settings from a file.  Diagnostics go to
the second output, first when they are found and again behind the results.
-/

namespace Precedents
namespace CommandLine

structure Output where
  exitCode : Nat := 0
  out : String := ""
  err : String := ""
  eventsFile : Option String := none
  events : List Event := []

inductive Halt
  | failed (message : String)
  | misused (misuse : Misuse)
  /-- A fault that no formula should have. -/
  | broken

structure Progress where
  events : List Event := []
  err : String := ""

namespace Progress

def finish (progress : Progress) (out err : String) : Output where
  out := out
  err := progress.err ++ err
  events := progress.events

def halt (progress : Progress) : Halt -> Output
  | .failed message =>
      { exitCode := 1
        err := progress.err ++ "Error: " ++ message ++ "\n"
        events := progress.events }
  | .misused misuse =>
      { exitCode := 2
        err := progress.err ++ "Error: " ++ misuse.message ++ "\n"
        events := progress.events }
  | .broken => { exitCode := 1, err := progress.err, events := progress.events }

def diagnosticsOf (report : Report) : List Diagnostic :=
  match report.outcome with
  | .ok x => x.diagnostics
  | .error (.malformed diagnostics) => diagnostics
  | .error _ => []

def warnings (diagnostics : List Diagnostic) : String :=
  "".intercalate (diagnostics.map fun d => "formula syntax error:" ++ d.render ++ "\n")

def absorb (progress : Progress) (report : Report) : Progress where
  events := progress.events ++ report.events
  err := progress.err ++ warnings (diagnosticsOf report)

def haltOf : ExtractionError -> Halt
  | .badPosition _ => .broken
  | .fault _ => .broken
  | e => .failed e.message

end Progress

/-! ## Results as text -/

def diagnosticRecord (d : Diagnostic) : Datum :=
  Datum.record [("line", .int d.line), ("column", .int d.column), ("offset", .int d.offset),
    ("source_line", .text d.sourceLine), ("message", .text d.message)]

def resultFields (x : Extraction) : List (String × Datum) := [
  ("references", .list (x.references.map fun ref => .text ref.text)),
  ("missing_functions", .list (x.missing.map .text)),
  ("diagnostics", .list (x.diagnostics.map diagnosticRecord))]

def lines (ls : List String) : String :=
  "".intercalate (ls.map fun l => l ++ "\n")

def missingLine (functions : List String) : List String :=
  if functions.isEmpty then [] else ["Not implemented: " ++ ", ".intercalate functions]

/-! ## Settings -/

def settingsAt (files : Files) (path : String) : Except Halt Settings :=
  match files.entry? path with
  | some .directory => .error .broken
  | some (.file text) =>
      (Settings.ofFile (Files.normal path) (some text)).mapError (.failed ·.message)
  | none => (Settings.ofFile (Files.normal path) none).mapError (.failed ·.message)

def settings (files : Files) (args : Arguments) : Except Halt Settings :=
  match (args.value? "--config").filter (· ≠ "") with
  | some path => settingsAt files path
  | none => if files.has Settings.usualFile then settingsAt files Settings.usualFile else .ok {}

def withSettings (files : Files) (args : Arguments) (command : Settings -> Output) : Output :=
  match settings files args with
  | .error halt => Progress.halt {} halt
  | .ok s => { command s with eventsFile := s.eventsFile.filter (· ≠ "") }

def checkConfig (files : Files) (args : Arguments) : Except Misuse Unit :=
  match args.value? "--config" with
  | some path => if files.has path then .ok () else .error (.missingPath "--config" path)
  | none => .ok ()

def onlyWord (what : String) (args : Arguments) : Except Misuse String :=
  match args.words with
  | [] => .error (.missingArgument what)
  | word :: _ => .ok word

def checkWords (args : Arguments) : Except Misuse Unit :=
  if args.words.length ≤ 1 then .ok () else .error (.extraArguments (args.words.drop 1))

/-! ## One formula -/

def extractSwitches : List Switch := [
  ⟨["--sheet", "-s"], true⟩, ⟨["--cell", "-c"], true⟩, ⟨["--config"], true⟩,
  ⟨["--strict"], false⟩, ⟨["--json"], false⟩]

def printExtraction (progress : Progress) (asJson : Bool) (x : Extraction) : Output :=
  if asJson then progress.finish (Json.spread 0 (Datum.record (resultFields x)) ++ "\n") ""
  else
    progress.finish (lines (x.references.map Reference.text))
      (lines (missingLine x.missing ++ x.diagnostics.map Diagnostic.render))

def extract (args : Arguments) (formula : String) (s : Settings) : Output :=
  let sheet := (args.value? "--sheet").getD "Sheet1"
  let cell := (args.value? "--cell").getD "A1"
  match Position.read sheet cell with
  | .error error => Progress.halt {} (.misused (.badCell error.message))
  | .ok position =>
      let strict := args.has "--strict" || s.strict
      let report := (s.extractor []).extractWithin formula position (some strict)
      let progress := Progress.absorb {} report
      match report.outcome with
      | .ok x => printExtraction progress (args.has "--json") x
      | .error e => progress.halt (Progress.haltOf e)

/-! ## All formulas of a file -/

def scanSwitches : List Switch := [⟨["--config"], true⟩, ⟨["--json"], false⟩]

inductive Task
  | formula (sheet cell text : String)
  /-- A sheet that is no mapping, as messages show its name. -/
  | notSheet (shown : String)

structure Row where
  sheet : String
  cell : String
  extraction : Extraction

def sheetTasks (sheet : Datum) (cells : List (Datum × Datum)) : List Task :=
  cells.filterMap fun cell =>
    match cell.2 with
    | .text text =>
        if text.toList.head? = some '=' then
          some (.formula sheet.scalarText cell.1.scalarText text)
        else none
    | _ => none

def tasks (sheets : List (Datum × Datum)) : List Task :=
  sheets.flatMap fun sheet =>
    match sheet.2 with
    | .map cells => sheetTasks sheet.1 cells
    | _ => [.notSheet sheet.1.scalarShown]

def perform (x : Extractor) (progress : Progress) (rows : List Row) :
    List Task -> Progress × Except Halt (List Row)
  | [] => (progress, .ok rows)
  | .notSheet shown :: _ =>
      (progress, .error (.failed ("Sheet " ++ shown ++ " must map cell addresses to values")))
  | .formula sheet cell text :: rest =>
      match Position.read sheet cell with
      | .error error => (progress, .error (.misused (.badCell error.message)))
      | .ok position =>
          let report := x.extractWithin text position (some false)
          let progress := progress.absorb report
          match report.outcome with
          | .error e => (progress, .error (Progress.haltOf e))
          | .ok extraction =>
              perform x progress (rows ++ [⟨sheet, Text.upper cell, extraction⟩]) rest

namespace Row

def record (row : Row) : Datum :=
  Datum.record ([("sheet", .text row.sheet), ("cell", .text row.cell)]
    ++ resultFields row.extraction)

def line (row : Row) : String :=
  let refs := row.extraction.references.map Reference.text
  row.sheet ++ "!" ++ row.cell ++ " -> "
    ++ (if refs.isEmpty then "(none)" else ", ".intercalate refs)

def complaints (row : Row) : List String :=
  row.extraction.diagnostics.map fun d =>
    "  syntax error at " ++ toString d.line ++ ":" ++ toString d.column ++ ": " ++ d.message

end Row

def printRows (progress : Progress) (asJson : Bool) (rows : List Row) : Output :=
  if asJson then progress.finish (Json.spread 0 (.list (rows.map Row.record)) ++ "\n") ""
  else if rows.isEmpty then progress.finish (lines ["No formulas found."]) ""
  else progress.finish (lines (rows.map Row.line)) (lines (rows.flatMap Row.complaints))

def sheetsOf (path text : String) : Except Halt (List (Datum × Datum)) :=
  match Yaml.read text with
  | none => .error (.failed ("Cannot parse " ++ path ++ ": not a YAML document"))
  | some (.map sheets) => .ok sheets
  | some d =>
      if d.isNothing then .ok []
      else .error (.failed (path ++ " must map sheet names to cells"))

def scan (args : Arguments) (path text : String) (s : Settings) : Output :=
  match sheetsOf path text with
  | .error halt => Progress.halt {} halt
  | .ok sheets =>
      match perform (s.extractor []) {} [] (tasks sheets) with
      | (progress, .error halt) => progress.halt halt
      | (progress, .ok rows) => printRows progress (args.has "--json") rows

def scanEntry (args : Arguments) (path : String) (entry : FileEntry) (s : Settings) : Output :=
  match entry with
  | .file text => scan args path text s
  | .directory => Progress.halt {} .broken

/-! ## Commands by name -/

def helpSwitch : Switch := ⟨["--help"], false⟩

def programSwitches : List Switch := [⟨["--version"], false⟩, helpSwitch]

def told (ls : List String) : Output :=
  { out := lines ls }

def runExtract (files : Files) (words : List String) : Except Misuse Output := do
  let args <- Arguments.read (extractSwitches ++ [helpSwitch]) true words
  if args.has "--help" then return told Help.extract
  checkConfig files args
  let formula <- onlyWord "FORMULA" args
  checkWords args
  return withSettings files args (extract args formula)

def runScan (files : Files) (words : List String) : Except Misuse Output := do
  let args <- Arguments.read (scanSwitches ++ [helpSwitch]) true words
  if args.has "--help" then return told Help.scan
  checkConfig files args
  let path <- onlyWord "CELLS_FILE" args
  match files.entry? path with
  | none => .error (.missingPath "CELLS_FILE" path)
  | some entry => do
      checkWords args
      return withSettings files args (scanEntry args path entry)

def commandNames : List String := ["extract", "scan"]

def answer? (args : Arguments) : Option Output :=
  args.options.head?.map fun option =>
    told (if option.1 = "--version" then Help.edition else Help.program)

/-- A command that is not there.  What looks like an option is read as one once more. -/
def unknownCommand (name : String) (words : List String) : Except Misuse Output := do
  let args <- Arguments.read programSwitches false (name :: words)
  match answer? args with
  | some output => return output
  | none => .error (.unknownCommand name (Text.likeWords name commandNames))

def runCommand (files : Files) (name : String) (words : List String) : Except Misuse Output :=
  if name = "extract" then runExtract files words
  else if name = "scan" then runScan files words
  else unknownCommand name words

def runWords (files : Files) (words : List String) : Except Misuse Output := do
  let args <- Arguments.read programSwitches false words
  match answer? args, args.words with
  | some output, _ => return output
  | none, [] => .error .missingCommand
  | none, name :: rest => runCommand files name rest

def run (files : Files) (words : List String) : Output :=
  if words.isEmpty then { exitCode := 2, err := lines Help.program }
  else
    match runWords files words with
    | .ok output => output
    | .error misuse => Progress.halt {} (.misused misuse)

end CommandLine
end Precedents
