/-!
# Help

What the program says about itself and about its commands.
-/

namespace Precedents
namespace CommandLine
namespace Help

def edition : List String := ["formula-deps, version 0.3.0"]

def program : List String := [
  "Usage: formula-deps [OPTIONS] COMMAND [ARGS]...",
  "",
  "  formula-deps -- find the cells and ranges a formula reads.",
  "",
  "Options:",
  "  --version  Show the version and exit.",
  "  --help     Show this message and exit.",
  "",
  "Commands:",
  "  extract  Print the references FORMULA depends on.",
  "  scan     Extract dependencies for every formula in CELLS_FILE."]

def extract : List String := [
  "Usage: formula-deps extract [OPTIONS] FORMULA",
  "",
  "  Print the references FORMULA depends on.",
  "",
  "Options:",
  "  -s, --sheet TEXT  Sheet owning the formula.  [default: Sheet1]",
  "  -c, --cell TEXT   Cell owning the formula.  [default: A1]",
  "  --config PATH     YAML config file.",
  "  --strict          Fail on syntax errors instead of printing partial",
  "                    results.",
  "  --json            Output as JSON.",
  "  --help            Show this message and exit."]

def scan : List String := [
  "Usage: formula-deps scan [OPTIONS] CELLS_FILE",
  "",
  "  Extract dependencies for every formula in CELLS_FILE.",
  "",
  "  CELLS_FILE is YAML that maps sheets to mappings from cells to values; string",
  "  values starting with = are treated as formulas.",
  "",
  "Options:",
  "  --config PATH  YAML config file.",
  "  --json         Output as JSON.",
  "  --help         Show this message and exit."]

end Help
end CommandLine
end Precedents
