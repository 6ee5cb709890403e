import Precedents.Number.Numeral

/-!
# Why a text is not a reference
-/

namespace Precedents

inductive ReferenceError
  | invalidCell (text : String)
  | cellOffGrid (text : String)
  | invalidSheet (text : String)
  | invalidReference (text : String)
  | columnsOffGrid (first last : String)
  | rowsOffGrid (first last : Int)
  | numeral (error : NumeralError)
  | noSeparator
  | notReference (terminal : String)
deriving DecidableEq, Repr

namespace ReferenceError

def message : ReferenceError -> String
  | invalidCell text => "Invalid cell address: " ++ Text.quoted text
  | cellOffGrid text => "Cell address out of bounds: " ++ Text.quoted text
  | invalidSheet text => "Invalid sheet prefix: " ++ Text.quoted text
  | invalidReference text => "Invalid reference: " ++ Text.quoted text
  | columnsOffGrid first last => "Column range out of bounds: " ++ first ++ ":" ++ last
  | rowsOffGrid first last =>
      "Row range out of bounds: " ++ toString first ++ ":" ++ toString last
  | numeral error => error.message
  | noSeparator => "not enough values to unpack (expected 2, got 1)"
  | notReference terminal => "Not a reference token: " ++ terminal

end ReferenceError
end Precedents
