import Precedents.Function.Address
import Precedents.Function.Geometry
import Precedents.Function.Logical
import Precedents.Function.Lookup

/-!
# The rules of every reference function
-/

namespace Precedents
namespace ReferenceFunction

def ruling (f : ReferenceFunction) (position : Position) (args : List Value) : Ruling :=
  match f with
  | .if => Logical.counted f 2 (some 3) args
  | .ifs => Logical.pairs args
  | .ifError => Logical.counted f 2 (some 2) args
  | .ifNa => Logical.counted f 2 (some 2) args
  | .switch => Logical.counted f 3 none args
  | .and => Logical.counted f 1 none args
  | .or => Logical.counted f 1 none args
  | .xor => Logical.counted f 1 none args
  | .not => Logical.counted f 1 (some 1) args
  | .true => Logical.constant f Bool.true args
  | .false => Logical.constant f Bool.false args
  | .row => Geometry.row position args
  | .column => Geometry.column position args
  | .rows => Geometry.extent f Prod.fst args
  | .columns => Geometry.extent f Prod.snd args
  | .areas => Geometry.areas args
  | .transpose => Geometry.transpose args
  | .index => Selection.indexed args
  | .choose => Selection.choose args
  | .match => Logical.counted f 2 (some 3) args
  | .lookup => Logical.counted f 2 (some 3) args
  | .xlookup => Logical.counted f 3 (some 6) args
  | .vlookup => Lookup.table f Prod.snd args
  | .hlookup => Lookup.table f Prod.fst args
  | .address => AddressText.ruling args

def handler (f : ReferenceFunction) : Handler :=
  fun position args => .ofRuling (f.ruling position args)

end ReferenceFunction
end Precedents
