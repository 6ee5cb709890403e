import Precedents.Reference.Error
import Precedents.Text.Scan

/-!
# Sheet qualifiers

A reference may start with the name of a sheet and `!`.  The name stands as it
is when it looks like a word, and otherwise between apostrophes, with the
apostrophes inside it doubled.
-/

namespace Precedents
namespace Sheet

open Text

def nameScanner : Scanner :=
  Scanner.one isNameStart >=> Scanner.many isNameRest

/-- The name needs no apostrophes.  One line feed at its end does not count. -/
def isPlain (name : String) : Bool :=
  nameScanner.readsLine name.toList

def quote (name : String) : String :=
  if isPlain name then name
  else String.ofList (apostrophe :: doubled apostrophe name.toList ++ [apostrophe])

def split (text : String) : Except ReferenceError (Option String × String) :=
  match trim text.toList with
  | [] => .ok (none, "")
  | c :: rest =>
      if c = apostrophe then
        match quotedRun apostrophe rest with
        | some (name, '!' :: body) =>
            .ok (some (String.ofList (undoubled apostrophe name)), String.ofList body)
        | _ => .error (.invalidSheet text)
      else
        match splitFirst '!' (c :: rest) with
        | some (name, body) => .ok (some (String.ofList name), String.ofList body)
        | none => .ok (none, String.ofList (c :: rest))

end Sheet
end Precedents
