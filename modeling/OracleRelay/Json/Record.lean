/-
# Records in JSON

A record is written as an object, with its fields in any order and others among them, or as an array of its
fields in their order. A field of an object may stand once only; a field left out has its default, if it has
one. `null` is a value of optional fields alone.

Key definitions: `Json.Record.read?`, `Json.Record.required`, `Json.Record.withDefault`, `Json.Record.optional`,
`Json.Tree.tag?`.
-/
import OracleRelay.Json.Parser

namespace OracleRelay
namespace Json

/-- Reads a value of a type from a tree with at most so many arrays and objects inside each other. -/
abbrev Reader (α : Type) := Nat → Tree → Option α

namespace Tree

/-- A string. -/
def string? : Reader String
  | _, .text s => s
  | _, _ => none

/-- A natural number below `2 ^ bits`. Nothing written as a fraction is one. -/
def nat? (bits : Nat) : Reader Nat
  | _, .number (some (.int (.ofNat n))) => if n < Nat.pow 2 bits then some n else none
  | _, _ => none

/-- An integer of `bits` bits with its sign. -/
def int? (bits : Nat) : Reader Int
  | _, .number (some (.int n)) =>
    let bound : Int := Nat.pow 2 (bits - 1)
    if -bound ≤ n ∧ n < bound then some n else none
  | _, _ => none

/-- A boolean. -/
def bool? : Reader Bool
  | _, .bool b => some b
  | _, _ => none

/-- A list whose elements are read by `r`. -/
def list? {α : Type} (r : Reader α) : Reader (List α)
  | depth, .array items => if depth = 0 then none else items.mapM (r (depth - 1))
  | _, _ => none

/-- The name in a tree: a string, or an object that holds `null` under the name. -/
def tagName? : Reader String
  | _, .text s => s
  | depth, .object [(k, .null)] => if depth = 0 then none else k
  | _, _ => none

/-- One of some named values. -/
def tag? {α : Type} (names : List (String × α)) : Reader α := fun depth t =>
  (tagName? depth t).bind (List.lookup · names)

end Tree

/-- What a text says about a field. -/
inductive Slot where
  | given (t : Tree)
  /-- left out of an object -/
  | absent
  /-- beyond the end of an array -/
  | beyond
  deriving Inhabited

/-- The fields of a record and how deep their values may be nested. -/
structure Record where
  depth : Nat
  slots : List (String × Slot)

namespace Record

/-- The place of a field among the members of an object; a field that stands twice is refused. -/
def find? (name : String) (members : List (Option String × Tree)) : Option Slot :=
  match members.filter (·.1 = some name) with
  | [] => some .absent
  | [(_, t)] => some (.given t)
  | _ => none

/-- The fields of a record given by position. -/
def ofItems : List String → List Tree → List (String × Slot)
  | [], _ => []
  | name :: names, [] => (name, .beyond) :: ofItems names []
  | name :: names, t :: ts => (name, .given t) :: ofItems names ts

/-- Reads the fields of these names. -/
def read? (names : List String) : Reader Record
  | 0, _ => none
  | depth + 1, .object members =>
    if members.all (·.1.isSome) then
      (names.mapM fun name => (find? name members).map (name, ·)).map (⟨depth, ·⟩)
    else none
  | depth + 1, .array items =>
    if items.length ≤ names.length then some ⟨depth, ofItems names items⟩ else none
  | _, _ => none

/-- What the text says about a field. -/
def slot (r : Record) (name : String) : Slot := (r.slots.lookup name).getD .absent

/-- The value of a field that must be there. -/
def required {α : Type} (r : Record) (name : String) (reader : Reader α) : Option α :=
  match r.slot name with
  | .given t => reader r.depth t
  | _ => none

/-- The value of a field, or its default when it is left out. -/
def withDefault {α : Type} (r : Record) (name : String) (reader : Reader α) (value : α) : Option α :=
  match r.slot name with
  | .given t => reader r.depth t
  | _ => some value

/-- The value of an optional field: none when it is `null` or left out of an object. -/
def optional {α : Type} (r : Record) (name : String) (reader : Reader α) : Option (Option α) :=
  match r.slot name with
  | .given .null => some none
  | .given t => (reader r.depth t).map some
  | .absent => some none
  | .beyond => none

/-- The value of an optional field that may also be left out at the end of an array. -/
def optionalOrBeyond {α : Type} (r : Record) (name : String) (reader : Reader α) : Option (Option α) :=
  match r.slot name with
  | .beyond => some none
  | _ => r.optional name reader

end Record

/-- A value of a type read from a whole text. -/
def readText? {α : Type} (reader : Reader α) (s : String) : Option α :=
  (Tree.ofText? s).bind (reader maxDepth)

/-- A value of a type read from a value. -/
def readValue? {α : Type} (reader : Reader α) (v : Json) : Option α := reader (maxDepth + 1) (Tree.ofValue v)

end Json
end OracleRelay
