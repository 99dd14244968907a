/-
# CBOR items

The data items of the concise binary format, and their kinds by name.

Key definitions: `Cbor.Item`, `Cbor.Item.kind`.
-/
import OracleRelay.Number.Binary64

namespace OracleRelay
namespace Cbor

/-- A data item. Integers reach from `-2 ^ 64` to `2 ^ 64 - 1`. -/
inductive Item where
  | int (n : Int)
  | bytes (bs : List UInt8)
  | text (s : String)
  | float (x : Binary64)
  | bool (b : Bool)
  | null
  | tag (n : Nat) (item : Item)
  | array (items : List Item)
  | map (entries : List (Item × Item))
  deriving BEq, Repr, Inhabited

/-- The kinds of items. -/
inductive Kind where
  | integer | bytes | float | text | bool | null | tag | array | map
  deriving DecidableEq, Repr

/-- The name of a kind. -/
def Kind.name : Kind → String
  | .integer => "integer"
  | .bytes => "bytes"
  | .float => "float"
  | .text => "text"
  | .bool => "bool"
  | .null => "null"
  | .tag => "tag"
  | .array => "array"
  | .map => "map"

/-- The kind of an item. -/
def Item.kind : Item → Kind
  | .int _ => .integer
  | .bytes _ => .bytes
  | .text _ => .text
  | .float _ => .float
  | .bool _ => .bool
  | .null => .null
  | .tag _ _ => .tag
  | .array _ => .array
  | .map _ => .map

/-- The tag of an unsigned number given by its octets. -/
def positiveBignum : Nat := 2

/-- The tag of a negative number given by the octets of its distance below minus one. -/
def negativeBignum : Nat := 3

end Cbor
end OracleRelay
