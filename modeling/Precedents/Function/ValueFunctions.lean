import Precedents.Function.Basic

/-!
# Value functions

A function that only takes values and gives values can be registered, so that
its calls are not reported as unknown.  Names are kept in upper case and in
order.  A reference function cannot be registered.
-/

namespace Precedents

structure ValueFunctions where
  names : List String := []
deriving DecidableEq, Repr

namespace ValueFunctions

def insert (name : String) : List String -> List String
  | [] => [name]
  | other :: rest =>
      if name = other then other :: rest
      else if name < other then name :: other :: rest
      else other :: insert name rest

/-- Registers names one by one, up to the first that belongs to a reference function. -/
def register (known : ValueFunctions) : List String -> ValueFunctions × Option ReferenceFunction
  | [] => (known, none)
  | name :: rest =>
      match ReferenceFunction.named? name with
      | some function => (known, some function)
      | none => register ⟨insert (Text.upper name) known.names⟩ rest

/-- Takes names out, whether they are registered or not. -/
def unregister (known : ValueFunctions) (names : List String) : ValueFunctions :=
  ⟨known.names.filter fun name => !(names.map Text.upper).contains name⟩

def has (known : ValueFunctions) (name : String) (others : List String) : Bool :=
  known.names.contains (Text.upper name) || (others.map Text.upper).contains (Text.upper name)

def refusal (function : ReferenceFunction) : String :=
  function.name ++ " is a reference-producing function"

end ValueFunctions
end Precedents
