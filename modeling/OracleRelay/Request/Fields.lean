/-
# The fields of a job request

A request is a flat list of named values. Names keep the order in which they came first; a value given
later replaces the earlier one where it stands.

Key definitions: `Fields`, `Fields.insert`, `Fields.merge`, `Fields.get?`, `Fields.body`, `Fields.ofText?`.
-/
import OracleRelay.Json.Printer
import OracleRelay.Json.Record

namespace OracleRelay

namespace Fields

/-- Puts a value under a name, in place or at the end. -/
def put (key : String) (v : Json) : List (String × Json) → List (String × Json)
  | [] => [(key, v)]
  | (k, w) :: rest => if k = key then (key, v) :: rest else (k, w) :: put key v rest

theorem mem_keys_put {key k : String} {v : Json} {ms : List (String × Json)} :
    k ∈ (put key v ms).map (·.1) ↔ k = key ∨ k ∈ ms.map (·.1) := by
  induction ms with
  | nil => simp [put]
  | cons m rest ih =>
    obtain ⟨k', w⟩ := m
    simp only [put]
    split
    · rename_i h; subst h; simp
    · simp only [List.map_cons, List.mem_cons, ih]
      constructor
      · rintro (h | h | h) <;> simp [h]
      · rintro (h | h | h) <;> simp [h]

theorem nodup_keys_put {key : String} {v : Json} {ms : List (String × Json)}
    (h : (ms.map (·.1)).Nodup) : ((put key v ms).map (·.1)).Nodup := by
  induction ms with
  | nil => simp [put]
  | cons m rest ih =>
    obtain ⟨k', w⟩ := m
    simp only [List.map_cons, List.nodup_cons] at h
    simp only [put]
    split
    · rename_i hk; subst hk; simpa using h
    · rename_i hk
      simp only [List.map_cons, List.nodup_cons, mem_keys_put, not_or]
      exact ⟨⟨hk, h.1⟩, ih h.2⟩

end Fields

/-- The named values of a request, each name once. -/
structure Fields where
  members : List (String × Json) := []
  nodup : (members.map (·.1)).Nodup := by exact List.nodup_nil

namespace Fields

instance : Inhabited Fields := ⟨{}⟩

/-- Puts a value under a name, replacing the value that the name has. -/
def insert (f : Fields) (key : String) (v : Json) : Fields :=
  ⟨put key v f.members, nodup_keys_put f.nodup⟩

/-- Puts each of some values under its name, the last given last. -/
def merge (f : Fields) (ms : List (String × Json)) : Fields :=
  ms.foldl (fun f (k, v) => f.insert k v) f

/-- The fields of named values in the order given. -/
def ofList (ms : List (String × Json)) : Fields := merge {} ms

/-- The value under a name. -/
def get? (f : Fields) (key : String) : Option Json := Json.lookup key f.members

/-- The string under a name, if it is one. -/
def text? (f : Fields) (key : String) : Option String := (f.get? key).bind Json.text?

/-- The number of fields. -/
def size (f : Fields) : Nat := f.members.length

/-- The body that is sent to the job node: one object with the fields in their order. -/
def body (f : Fields) : String := Json.renderMembers f.members

/-- Reads fields from an object. -/
def reader : Json.Reader Fields
  | depth, .object ms =>
    if depth = 0 then none else (Json.Tree.members? (depth - 1) ms).map ofList
  | _, _ => none

/-- Reads fields from a text. -/
def ofText? (s : String) : Option Fields := Json.readText? reader s

end Fields

/-- A request with the job that the chain names for it. -/
structure JobRequest where
  jobId : String
  fields : Fields
  deriving Inhabited

end OracleRelay
