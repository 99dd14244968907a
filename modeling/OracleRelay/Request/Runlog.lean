/-
# Runlog payloads

The data of an oracle request log: nine words of 32 octets, the last of them the length of the parameters, and
then the parameters. The words from the request id to the expiration go to the job node as they are.

Key definitions: `Runlog.split`, `Runlog.decode`, `Runlog.Fault.message`.
-/
import OracleRelay.Cbor.Params

namespace OracleRelay
namespace Runlog

/-- The octets of a word. -/
def word : Nat := 32

/-- Where the request id starts. -/
def prefixStart : Nat := word

/-- Where the expiration ends. -/
def prefixEnd : Nat := prefixStart + 5 * word

/-- Where the length of the parameters starts. -/
def lengthStart : Nat := prefixEnd + 2 * word

/-- Where the parameters start, and so the least length of a payload. -/
def paramsStart : Nat := lengthStart + word

/-- The names of the fields that the relay sets itself. -/
def addressKey : String := "address"
def dataPrefixKey : String := "dataPrefix"
def selectorKey : String := "functionSelector"

/-- The selector of the function that fulfils a request. -/
def fulfilmentSelector : String := "0x4ab0d190"

/-- Why a payload cannot be read. -/
inductive Fault where
  | tooShort (length : Nat)
  | truncated (declared available : Nat)
  | params (fault : Cbor.Fault)
  deriving DecidableEq, Repr

/-- The text of a fault. -/
def Fault.message : Fault → String
  | .tooShort length =>
    "malformed data: payload is " ++ Numeral.decimal length ++ " bytes, header needs " ++ Numeral.decimal paramsStart
  | .truncated declared available =>
    "cbor too short: declared " ++ Numeral.decimal declared ++ " bytes, " ++ Numeral.decimal available ++ " available"
  | .params fault => "error parsing CBOR: " ++ fault.message

/-- The two parts of a payload that are used. -/
structure Parts where
  header : List UInt8
  params : List UInt8
  deriving DecidableEq, Repr

/-- The declared length of the parameters. One beyond 64 bits counts as the largest of 64 bits. -/
def declaredLength (bs : List UInt8) : Nat :=
  min (Octets.bigEndian ((bs.drop lengthStart).take word)) 0xFFFFFFFFFFFFFFFF

/-- Splits a payload. -/
def split (bs : List UInt8) : Except Fault Parts :=
  if bs.length < paramsStart then .error (.tooShort bs.length)
  else if bs.length - paramsStart < declaredLength bs then
    .error (.truncated (declaredLength bs) (bs.length - paramsStart))
  else .ok ⟨(bs.drop prefixStart).take (prefixEnd - prefixStart), (bs.drop paramsStart).take (declaredLength bs)⟩

/-- The request that a payload of a contract holds. What the relay sets itself wins over the parameters. -/
def decode (bs : List UInt8) (address : String) : Except Fault Fields :=
  match split bs with
  | .error e => .error e
  | .ok parts =>
    match Cbor.parseParams parts.params with
    | .error e => .error (.params e)
    | .ok fields => .ok (fields.merge
        [(addressKey, .text address), (dataPrefixKey, .text (Hex.marked parts.header)),
         (selectorKey, .text fulfilmentSelector)])

end Runlog
end OracleRelay
