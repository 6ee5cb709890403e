import Precedents.Text.Scan
import Precedents.Text.Similarity

/-!
# Command lines

The words of a command line are options, each perhaps with a value, and
arguments, in any order.  A long option may carry its value behind `=`, and
short ones may be drawn together; everything behind `--` is an argument.  In
front of the name of a command there may only be options.
-/

namespace Precedents
namespace CommandLine

open Text

/-- An option: its names, of which the first stands for it, and whether it has a value. -/
structure Switch where
  names : List String
  takesValue : Bool

inductive Misuse
  | unknownCommand (name : String) (near : List String)
  | unknownOption (name : String) (near : List String)
  | missingCommand
  | missingValue (option : String)
  | needlessValue (option : String)
  | missingArgument (argument : String)
  | extraArguments (words : List String)
  | missingPath (what path : String)
  | badCell (reason : String)

structure Arguments where
  options : List (String × String) := []
  words : List String := []

namespace Misuse

def message : Misuse -> String
  | unknownCommand name near => "No such command " ++ quoted name ++ "." ++ suggestion near
  | unknownOption name near => "No such option " ++ quoted name ++ "." ++ suggestion near
  | missingCommand => "Missing command."
  | missingValue option => "Option " ++ quoted option ++ " requires an argument."
  | needlessValue option => "Option " ++ quoted option ++ " does not take a value."
  | missingArgument argument => "Missing argument '" ++ argument ++ "'."
  | extraArguments [word] => "Got unexpected extra argument (" ++ word ++ ")"
  | extraArguments words => "Got unexpected extra arguments (" ++ " ".intercalate words ++ ")"
  | missingPath what path =>
      "Invalid value for '" ++ what ++ "': Path " ++ quoted path ++ " does not exist."
  | badCell reason => "Invalid value for --cell: " ++ reason

end Misuse

namespace Switch

def named? (switches : List Switch) (name : String) : Option Switch :=
  switches.find? fun switch => switch.names.contains name

def longNames (switches : List Switch) : List String :=
  (switches.flatMap Switch.names).filter fun name => 2 < name.length

def unknown (switches : List Switch) (name : String) : Misuse :=
  .unknownOption name (likeWords name (longNames switches))

def key (switch : Switch) : String :=
  switch.names.headD ""

end Switch

namespace Arguments

def withWord (args : Arguments) (word : String) : Arguments :=
  { args with words := word :: args.words }

/-- The value of an option; the last one counts. -/
def value? (args : Arguments) (key : String) : Option String :=
  (args.options.reverse.find? fun option => option.1 == key).map (·.2)

def has (args : Arguments) (key : String) : Bool :=
  (args.value? key).isSome

/--
What a word that starts with `-` holds: options with their values, and one that
lacks its value.
-/
structure Cluster where
  options : List (String × String)
  open? : Option (String × String)

/-- Short options drawn together; the rest behind one that has a value is its value. -/
def cluster (switches : List Switch) : List Char -> Except Misuse Cluster
  | [] => .ok ⟨[], none⟩
  | c :: rest =>
      let name := String.ofList ['-', c]
      match Switch.named? switches name with
      | none => .error (.unknownOption name [])
      | some switch =>
          if switch.takesValue then
            if rest.isEmpty then .ok ⟨[], some (switch.key, name)⟩
            else .ok ⟨[(switch.key, String.ofList rest)], none⟩
          else
            (cluster switches rest).map fun more =>
              { more with options := (switch.key, "") :: more.options }

def spelled (switch : Switch) (name : String) (value : Option String) : Except Misuse Cluster :=
  match switch.takesValue, value with
  | true, some value => .ok ⟨[(switch.key, value)], none⟩
  | true, none => .ok ⟨[], some (switch.key, name)⟩
  | false, some _ => .error (.needlessValue name)
  | false, none => .ok ⟨[(switch.key, "")], none⟩

def nameAndValue (word : List Char) : String × Option String :=
  match splitFirst '=' word with
  | none => (String.ofList word, none)
  | some (name, value) => (String.ofList name, some (String.ofList value))

def optionsOf (switches : List Switch) (word : List Char) : Except Misuse Cluster :=
  let (name, value) := nameAndValue word
  let isLong := ['-', '-'].isPrefixOf word
  match Switch.named? switches name with
  | some switch => if isLong then spelled switch name value else cluster switches (word.drop 1)
  | none =>
      if isLong then .error (Switch.unknown switches name) else cluster switches (word.drop 1)

def isOption (word : List Char) : Bool :=
  word.head? = some '-' && 1 < word.length

/-- Reads a command line; unless it is `mixed`, no option follows the first argument. -/
def read (switches : List Switch) (mixed : Bool) : List String -> Except Misuse Arguments
  | [] => .ok {}
  | word :: rest =>
      if word = "--" then .ok { words := rest }
      else if isOption word.toList then
        match optionsOf switches word.toList with
        | .error misuse => .error misuse
        | .ok found =>
            match found.open? with
            | none =>
                (read switches mixed rest).map fun args =>
                  { args with options := found.options ++ args.options }
            | some (key, name) =>
                match rest with
                | [] => .error (.missingValue name)
                | value :: rest =>
                    (read switches mixed rest).map fun args =>
                      { args with options := found.options ++ (key, value) :: args.options }
      else if mixed then (read switches mixed rest).map fun args => args.withWord word
      else .ok { words := word :: rest }

end Arguments
end CommandLine
end Precedents
