/-!
# Files by name

A command sees files as texts under their paths.  A path leads from part to part
through directories; empty parts and parts that stay in place do not count, but
nothing may follow a file.
-/

namespace Precedents

abbrev Files := List (String × String)

inductive FileEntry
  | file (text : String)
  | directory

namespace Files

def parts : List Char -> List (List Char)
  | [] => [[]]
  | c :: rest =>
      if c = '/' then [] :: parts rest
      else
        match parts rest with
        | [] => [[c]]
        | first :: more => (c :: first) :: more

def isIdle (part : List Char) : Bool :=
  part.isEmpty || part == ['.']

def counted (path : String) : List (List Char) :=
  (parts path.toList).filter fun part => !isIdle part

def normal (path : String) : String :=
  let body := "/".intercalate ((counted path).map String.ofList)
  if path.toList.head? = some '/' then "/" ++ body
  else if body = "" then "."
  else body

def entryAt (files : Files) (place : List (List Char)) : Option FileEntry :=
  match List.find? (fun file => counted file.1 == place) files with
  | some file => some (.file file.2)
  | none =>
      if place.isEmpty || files.any fun file => place.isPrefixOf (counted file.1) then
        some .directory
      else none

def place (here : List (List Char)) (part : List Char) : List (List Char) :=
  if isIdle part then here
  else if part == ['.', '.'] then here.dropLast
  else here ++ [part]

def follow (files : Files) (here : List (List Char)) : List (List Char) -> Option FileEntry
  | [] => files.entryAt here
  | part :: rest =>
      match files.entryAt here with
      | some .directory => follow files (place here part) rest
      | _ => none

def entry? (files : Files) (path : String) : Option FileEntry :=
  match List.find? (fun file => file.1 == path) files with
  | some file => some (.file file.2)
  | none =>
      if path = "" || path.toList.head? = some '/' then none
      else files.follow [] (parts path.toList)

def text? (files : Files) (path : String) : Option String :=
  match files.entry? path with
  | some (.file text) => some text
  | _ => none

def has (files : Files) (path : String) : Bool :=
  (files.entry? path).isSome

end Files
end Precedents
