/-
# JSON values

The values of the format. A number is an integer when it was written as one that fits 64 bits, and a double
otherwise. The members of an object are kept in the order of their keys, each key once.

Key definitions: `Json`, `Json.Number`, `Json.Member.insert`, `Json.object`, `Json.get?`.
-/
import OracleRelay.Number.Binary64

namespace OracleRelay

/-- A number of a JSON text. -/
inductive Json.Number where
  | int (n : Int)
  | double (x : Binary64)
  deriving DecidableEq, Repr, Inhabited

/-- A JSON value. -/
inductive Json where
  | null
  | bool (b : Bool)
  | number (n : Json.Number)
  | text (s : String)
  | array (items : List Json)
  | object (members : List (String × Json))
  deriving BEq, Repr, Inhabited

namespace Json

/-- An integer as a value. -/
def int (n : Int) : Json := .number (.int n)

/-- A natural number as a value. -/
def nat (n : Nat) : Json := .number (.int n)

/-- A list of strings as a value. -/
def texts (ss : List String) : Json := .array (ss.map .text)

/-- Puts `v` under `key` into members in key order, in place of the value that the key has. -/
def insertMember (key : String) (v : Json) : List (String × Json) → List (String × Json)
  | [] => [(key, v)]
  | (k, w) :: rest =>
    if key = k then (key, v) :: rest
    else if key < k then (key, v) :: (k, w) :: rest
    else (k, w) :: insertMember key v rest

/-- The object of some members, given in any order; the last value of a key counts. -/
def ofMembers (members : List (String × Json)) : Json :=
  .object (members.foldl (fun acc (k, v) => insertMember k v acc) [])

/-- The value under a key. -/
def lookup (key : String) : List (String × Json) → Option Json
  | [] => none
  | (k, v) :: rest => if k = key then some v else lookup key rest

/-- The value under a key of an object. -/
def get? (v : Json) (key : String) : Option Json :=
  match v with
  | .object members => lookup key members
  | _ => none

/-- The value under a key of an object, `null` when there is none. -/
def get (v : Json) (key : String) : Json := (v.get? key).getD .null

/-- The element at a position of an array. -/
def item? (v : Json) (i : Nat) : Option Json :=
  match v with
  | .array items => items[i]?
  | _ => none

/-- The string that the value is. -/
def text? : Json → Option String
  | .text s => some s
  | _ => none

/-- The boolean that the value is. -/
def bool? : Json → Option Bool
  | .bool b => some b
  | _ => none

/-- The elements of an array. -/
def array? : Json → Option (List Json)
  | .array items => some items
  | _ => none

/-- The members of an object. -/
def object? : Json → Option (List (String × Json))
  | .object members => some members
  | _ => none

/-- The integer that the value is. -/
def int? : Json → Option Int
  | .number (.int n) => some n
  | _ => none

/-- The natural number below `2 ^ bits` that the value is. -/
def nat? (bits : Nat) : Json → Option Nat
  | .number (.int (.ofNat n)) => if n < Nat.pow 2 bits then some n else none
  | _ => none

end Json
end OracleRelay
