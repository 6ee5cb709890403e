import Precedents.Text.Upper
import Precedents.Value

/-!
# Reference functions

Most functions only take values and give values, and nothing about them has to
be known.  The reference functions are the others: those whose result may be a
reference or depends on the shape of one, and those that choose between their
arguments.  A handler looks at the arguments of a call, after every reference
among them has been recorded.
-/

namespace Precedents

inductive ReferenceFunction
  | if | ifs | ifError | ifNa | switch | and | or | xor | not | true | false
  | row | column | rows | columns | areas | transpose
  | index | choose
  | match | lookup | xlookup | vlookup | hlookup
  | address
deriving DecidableEq, Repr

structure Refusal where
  kind : ErrorValue
  detail : String
deriving DecidableEq, Repr

/-- What the rules of a function say about a call; `none` is a value that depends on data. -/
abbrev Ruling := Except Refusal (Option Value)

inductive Verdict
  | value (v : Value)
  | unknown
  | refused (refusal : Refusal)
  /-- Something that no handler may return. -/
  | invalid (v : Value)
  | failed (message : String)
deriving Inhabited

abbrev Handler := Position -> List Value -> Verdict

namespace Verdict

def ofRuling : Ruling -> Verdict
  | .ok (some v) => .value v
  | .ok none => .unknown
  | .error refusal => .refused refusal

end Verdict

namespace ReferenceFunction

def all : List ReferenceFunction := [
  .if, .ifs, .ifError, .ifNa, .switch, .and, .or, .xor, .not, .true, .false,
  .row, .column, .rows, .columns, .areas, .transpose, .index, .choose,
  .match, .lookup, .xlookup, .vlookup, .hlookup, .address]

def name : ReferenceFunction -> String
  | .if => "IF"
  | .ifs => "IFS"
  | .ifError => "IFERROR"
  | .ifNa => "IFNA"
  | .switch => "SWITCH"
  | .and => "AND"
  | .or => "OR"
  | .xor => "XOR"
  | .not => "NOT"
  | .true => "TRUE"
  | .false => "FALSE"
  | .row => "ROW"
  | .column => "COLUMN"
  | .rows => "ROWS"
  | .columns => "COLUMNS"
  | .areas => "AREAS"
  | .transpose => "TRANSPOSE"
  | .index => "INDEX"
  | .choose => "CHOOSE"
  | .match => "MATCH"
  | .lookup => "LOOKUP"
  | .xlookup => "XLOOKUP"
  | .vlookup => "VLOOKUP"
  | .hlookup => "HLOOKUP"
  | .address => "ADDRESS"

def ofName? (s : String) : Option ReferenceFunction :=
  all.find? fun f => f.name == s

def named? (s : String) : Option ReferenceFunction :=
  ofName? (Text.upper s)

end ReferenceFunction
end Precedents
