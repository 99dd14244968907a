/-
# Request parameters in CBOR

Requesters write their parameters as keys and values one after the other, with or without a map head in
front. Here they become named JSON values: keys are texts or integers, byte strings become marked hexadecimal
text, and integers beyond 64 bits become decimal text.

Key definitions: `Cbor.frame`, `Cbor.Item.toJson`, `Cbor.Item.toFields`, `Cbor.parseParams`, `Cbor.Fault.message`.
-/
import OracleRelay.Cbor.Decoder
import OracleRelay.Cbor.Limbs
import OracleRelay.Request.Fields
import OracleRelay.Text.Hex

namespace OracleRelay
namespace Cbor

/-- Why parameters cannot be read. -/
inductive Fault where
  /-- the octets are no item -/
  | malformed
  | notMap (kind : Kind)
  | unsupportedKey (kind : Kind)
  | bignumContent
  /-- the hexadecimal text around the octets is broken -/
  | notHex (fault : Hex.Fault)
  deriving DecidableEq, Repr

/-- The text of a fault. -/
def Fault.message : Fault → String
  | .malformed => "malformed item"
  | .notMap kind => "expected a map, got " ++ kind.name
  | .unsupportedKey kind => "unsupported map key type " ++ kind.name
  | .bignumContent => "bignum tag must wrap a byte string"
  | .notHex fault => "parameters are not hex: " ++ fault.message

/-- Whether the octets are bare pairs: none at all, or more than one of which the first starts no map. -/
def isBare : List UInt8 → Bool
  | [] => true
  | [_] => false
  | b :: _ => b.toNat / 32 ≠ 5

/-- Puts bare pairs between the head of a map without a length and its stop. -/
def frame (bs : List UInt8) : List UInt8 := if isBare bs then 0xBF :: bs ++ [0xFF] else bs

/-- An integer: a number when it fits 64 bits with or without a sign, else its numeral. -/
def intToJson (n : Int) : Json :=
  if -0x8000000000000000 ≤ n ∧ n < 0x10000000000000000 then .int n else .text (Numeral.decimalInt n)

/-- An unsigned numeral: a number when it fits 64 bits, else as it is. -/
def unsignedToJson (numeral : String) : Json :=
  match Numeral.unsigned? 10 0x10000000000000000 numeral.toList with
  | some n => .nat n
  | none => .text numeral

/-- A signed numeral: a number when it fits 64 bits with its sign, else as it is. -/
def signedToJson (numeral : String) : Json :=
  match Numeral.signed? 64 numeral.toList with
  | some n => .int n
  | none => .text numeral

/-- The number that a byte string spells under a bignum tag: itself, or its distance below minus one. -/
def bignumToJson (tag : Nat) : Item → Except Fault Json
  | .bytes bs =>
    let digits := Limbs.numeral (Limbs.ofOctets bs)
    .ok (if tag = positiveBignum then unsignedToJson digits else signedToJson ("-" ++ increment digits))
  | _ => .error .bignumContent

/-- The name that a key gives. -/
def keyName : Item → Except Fault String
  | .text s => .ok s
  | .int n => .ok (Numeral.decimalInt n)
  | key => .error (.unsupportedKey key.kind)

mutual

/-- The JSON value of an item. Tags other than those of big numbers fall away. -/
def Item.toJson : Item → Except Fault Json
  | .null => .ok .null
  | .bool b => .ok (.bool b)
  | .text s => .ok (.text s)
  | .bytes bs => .ok (.text (Hex.marked bs))
  | .int n => .ok (intToJson n)
  | .float x => .ok (if x.isFinite then .number (.double x) else .null)
  | .array items =>
    match Item.listToJson items with
    | .ok vs => .ok (.array vs)
    | .error e => .error e
  | .map entries =>
    match Item.entriesToJson entries with
    | .ok ms => .ok (Json.ofMembers ms)
    | .error e => .error e
  | .tag n item =>
    if n = positiveBignum ∨ n = negativeBignum then bignumToJson n item else item.toJson

/-- The JSON values of items, up to the first that has none. -/
def Item.listToJson : List Item → Except Fault (List Json)
  | [] => .ok []
  | item :: rest =>
    match item.toJson with
    | .error e => .error e
    | .ok v =>
      match Item.listToJson rest with
      | .error e => .error e
      | .ok vs => .ok (v :: vs)

/-- Entries as named values in their order, up to the first that has no name or value. -/
def Item.entriesToJson : List (Item × Item) → Except Fault (List (String × Json))
  | [] => .ok []
  | (key, item) :: rest =>
    match keyName key with
    | .error e => .error e
    | .ok k =>
      match item.toJson with
      | .error e => .error e
      | .ok v =>
        match Item.entriesToJson rest with
        | .error e => .error e
        | .ok ms => .ok ((k, v) :: ms)

end

/-- The fields that the entries of a map give. -/
def entriesToFields (entries : List (Item × Item)) : Except Fault Fields :=
  (Item.entriesToJson entries).map Fields.ofList

/-- The fields of an item, which must be a map. -/
def Item.toFields : Item → Except Fault Fields
  | .map entries => entriesToFields entries
  | item => .error (.notMap item.kind)

/-- The fields that request parameters spell. -/
def parseParams (bs : List UInt8) : Except Fault Fields :=
  match Item.decode? (frame bs) with
  | some item => item.toFields
  | none => .error .malformed

end Cbor
end OracleRelay
