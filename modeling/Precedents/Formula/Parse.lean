import Precedents.Formula.Diagnostic
import Precedents.Formula.Reading

/-!
# Parsing with recovery

A formula is read token by token.  Only terminals that may come next are looked
for; when none of them fits, or when the reading refuses the one that does, that
is a failure.  The token or character is then dropped and reading goes on, up to
a bound on the number of failures.  A formula that ends too early cannot be
completed.

The run of the reader is kept as a list of moves.  Diagnostics are made from its
failures; a failure with nothing but white space between it and the one before
is not reported again.
-/

namespace Precedents

inductive Found
  | token (text : String)
  | character (c : Char)
  | endOfInput
deriving DecidableEq, Repr

/-- A failure: what was found, from where to where, and the labels of what was expected. -/
structure Failure where
  found : Found
  offset : Nat
  finish : Nat
  expected : List String
deriving DecidableEq, Repr

inductive Move
  | shift (token : Token)
  | failure (failure : Failure)
deriving DecidableEq, Repr

structure Run where
  moves : List Move
  tree : Option Expr
deriving Repr

structure Parse where
  tree : Option Expr
  diagnostics : List Diagnostic
deriving Repr

namespace Failure

def message (f : Failure) : String :=
  let found :=
    match f.found with
    | .token text => "Unexpected token " ++ Text.quoted text
    | .character c => "Unexpected character " ++ Text.quoted (String.singleton c)
    | .endOfInput => "Unexpected end of input"
  if f.expected.isEmpty then found
  else found ++ ". Expected one of: " ++ ", ".intercalate f.expected

def diagnostic (text : String) (f : Failure) : Diagnostic :=
  .ofOffset text f.offset f.message

end Failure

namespace Reading

def labels (r : Reading) : List String :=
  (Terminal.inLabelOrder.filter r.admits).map Terminal.label

def wanted (r : Reading) : List String :=
  if r.labels.isEmpty then ["<END-OF-FILE>"] else r.labels

def allowed (r : Reading) : List String :=
  if r.admitsEnd then "$END" :: r.labels else r.labels

end Reading

namespace Run

/-- The number of failures after which the reader still goes on. -/
def patience : Nat := 19

def after (move : Move) (run : Run) : Run :=
  { run with moves := move :: run.moves }

def stuck (f : Failure) : Run :=
  ⟨[.failure f], none⟩

inductive Glance
  | blank (word : List Char)
  | expected (terminal : Terminal) (word : List Char)
  | misplaced (word : List Char)
  | unreadable
deriving DecidableEq, Repr

/-- Looks for a terminal that may come next, then for any other. -/
def glance (r : Reading) (cs : List Char) : Glance :=
  match Terminal.first? (fun t => r.admits t || t == .blank) cs with
  | some (.blank, word) => .blank word
  | some (t, word) => .expected t word
  | none =>
      match Terminal.first? (fun _ => true) cs with
      | some (_, word) => .misplaced word
      | none => .unreadable

/--
Reads on from a text of which the first `skip` characters belong to a token that
has been dealt with.
-/
def go (r : Reading) (patience offset skip : Nat) : List Char -> Run
  | [] =>
      match r.close with
      | .ok e => ⟨[], some e⟩
      | .error refused => stuck ⟨.endOfInput, offset, offset, refused.allowed⟩
  | c :: rest =>
      match skip with
      | skip + 1 => go r patience (offset + 1) skip rest
      | 0 =>
          match glance r (c :: rest) with
          | .blank word => go r patience (offset + 1) (word.length - 1) rest
          | .expected terminal word =>
              let token : Token := ⟨⟨String.ofList word, offset⟩, terminal⟩
              match r.shift token with
              | .ok next =>
                  after (.shift token) (go next patience (offset + 1) (word.length - 1) rest)
              | .error next =>
                  let f : Failure :=
                    ⟨.token token.text, offset, offset + word.length, next.allowed⟩
                  match patience with
                  | 0 => stuck f
                  | left + 1 =>
                      after (.failure f) (go next left (offset + 1) (word.length - 1) rest)
          | .misplaced word =>
              let f : Failure :=
                ⟨.token (String.ofList word), offset, offset + word.length, r.wanted⟩
              match patience with
              | 0 => stuck f
              | left + 1 => after (.failure f) (go r left (offset + 1) (word.length - 1) rest)
          | .unreadable =>
              let f : Failure := ⟨.character c, offset, offset + 1, r.wanted⟩
              match patience with
              | 0 => stuck f
              | left + 1 => after (.failure f) (go r left (offset + 1) 0 rest)

def ofText (text : String) : Run :=
  go .empty patience 0 0 text.toList

def failures (run : Run) : List Failure :=
  run.moves.filterMap fun
    | .failure f => some f
    | .shift _ => none

def tokens (run : Run) : List Token :=
  run.moves.filterMap fun
    | .shift t => some t
    | .failure _ => none

end Run

namespace Parse

def blankBetween (cs : List Char) (start stop : Nat) : Bool :=
  ((cs.drop start).take (stop - start)).all Text.isBlank

/--
The failures worth a report: the first one, and those with something between
them and the last.
-/
def reported (cs : List Char) : (reach : Option Nat) -> List Failure -> List Failure
  | _, [] => []
  | none, f :: rest => f :: reported cs (some f.finish) rest
  | some reach, f :: rest =>
      let later := reported cs (some (max reach f.finish)) rest
      if blankBetween cs reach f.offset then later else f :: later

def ofRun (text : String) (run : Run) : Parse where
  tree := run.tree
  diagnostics := (reported text.toList none run.failures).map (Failure.diagnostic text)

def ofText (text : String) : Parse :=
  ofRun text (Run.ofText text)

end Parse
end Precedents
