/-
# The body is the request

The body that is sent to the job node is read back as the request that it was made of: the same names in the same order,
and under each name the same value (`Fields.ofText?_body`). This holds whatever characters the names and the strings in
the values are made of, so no name and no string can pass for another field (`Fields.body_is_request`).

Key definitions: `Json.Portable`.
Key theorems: `Fields.ofText?_body`, `Fields.body_is_request`.
-/
import OracleRelay.Json.Octets
import OracleRelay.Proofs.Json.Reading
import OracleRelay.Proofs.Request.Fields
import OracleRelay.Proofs.Text.Utf8

namespace OracleRelay
namespace Json

/-- A value that can be a field of a body: its numbers are integers of 64 bits, the members of its objects stand in the
order of their keys, and it can be nested in one object more. -/
structure Portable (v : Json) : Prop where
  integers : v.Numbers Number.Exact
  tidy : v.Tidy (maxDepth - 1)

/-- Where every octet is part of a character nothing stands in for one. -/
theorem standIn_map_some : ∀ (escaped : Bool) (cs : List Char), standIn escaped (cs.map some) = cs
  | _, [] => rfl
  | _, c :: cs => congrArg (c :: ·) (standIn_map_some _ cs)

/-- The octets of a text say what the text says. -/
theorem readOctets?_ofString {α : Type} (reader : Reader α) (s : String) :
    readOctets? reader (Utf8.ofString s) = readText? reader s := by
  rw [readOctets?, Utf8.ofString, Utf8.scan_encode, standIn_map_some]
  rfl

end Json

namespace Fields

open Json

/-- **The body of a request is read back as the request.** -/
theorem ofText?_body {f : Fields} (values : ∀ m ∈ f.members, m.2.Portable) : ofText? f.body = some f := by
  have integers : (Json.object f.members).Numbers Number.Exact := .object fun m hm => (values m hm).integers
  have members : Tree.members? (maxDepth - 1) (Tree.ofMembers f.members) = some f.members :=
    Tree.members?_ofMembers fun m hm => Tree.value?_ofValue (values m hm).tidy
  calc ofText? f.body
    _ = readText? reader (Json.object f.members).render := by rw [ofText?, body, renderMembers, render, print]
    _ = reader maxDepth (Tree.ofValue (.object f.members)) := Tree.readText?_render reader integers
    _ = (Tree.members? (maxDepth - 1) (Tree.ofMembers f.members)).map ofList := by
      rw [Tree.ofValue, reader, if_neg (by decide)]
    _ = some f := by rw [members, Option.map_some, ofList_members]

theorem portable_insert {f : Fields} (values : ∀ m ∈ f.members, m.2.Portable) (key : String) {v : Json}
    (fits : v.Portable) : ∀ m ∈ (f.insert key v).members, m.2.Portable := by
  rintro ⟨k, w⟩ hm
  have found : (f.insert key v).get? k = some w := (lookup_eq_some_iff (f.insert key v).nodup).mpr hm
  rw [get?_insert] at found
  split_ifs at found with same
  · cases found
    exact fits
  · exact values (k, w) ((lookup_eq_some_iff f.nodup).mp found)

/-- **The body that is sent is the request.** As a text and as octets it is read back as the request, and one field more
adds or replaces the value under its own name, whatever the name and the value are. -/
theorem body_is_request (f : Fields) (values : ∀ m ∈ f.members, m.2.Portable) :
    ofText? f.body = some f ∧ readOctets? reader (Utf8.ofString f.body) = some f ∧
      ∀ (key : String) (v : Json), v.Portable → ∃ g, ofText? (f.insert key v).body = some g ∧ g.get? key = some v ∧
        (∀ k ≠ key, g.get? k = f.get? k) ∧ g.keys = if key ∈ f.keys then f.keys else f.keys ++ [key] := by
  refine ⟨ofText?_body values, ?_, fun key v fits => ?_⟩
  · rw [readOctets?_ofString]
    exact ofText?_body values
  · refine ⟨f.insert key v, ofText?_body (portable_insert values key fits), ?_, fun k other => ?_, keys_insert f key v⟩
    · rw [get?_insert, if_pos rfl]
    · rw [get?_insert, if_neg other.symm]

/-- A request with quotes, backslashes and control characters in a name and in a string, and with the least and the
greatest integer inside a nested value. -/
def quoted : Fields where
  members := [("address", .text "\x00\n\"\x7d, \x7b\"address\": \\"),
    ("a\",\"b\\", .object [("high", .nat 18446744073709551615), ("low", .array [.int (-9223372036854775808), .null])])]
  nodup := by decide

theorem body_is_request_quoted : (∀ m ∈ quoted.members, m.2.Portable) ∧ (Json.text "\\\"").Portable ∧
    ofText? quoted.body = some quoted ∧ readOctets? reader (Utf8.ofString quoted.body) = some quoted ∧
      ∃ g, ofText? (quoted.insert "\"\x7d" (.text "\\\"")).body = some g ∧ g.get? "address" = quoted.get? "address" := by
  have text (s : String) : (Json.text s).Portable := ⟨.text, .text⟩
  have high : (Json.nat 18446744073709551615).Numbers Number.Exact := .number ⟨⟨by decide, by decide⟩, trivial⟩
  have low : (Json.int (-9223372036854775808)).Numbers Number.Exact := .number ⟨⟨by decide, by decide⟩, trivial⟩
  have nested : (Json.object [("high", .nat 18446744073709551615),
      ("low", .array [.int (-9223372036854775808), .null])]).Portable := by
    constructor
    · simp only [numbers_object_iff, numbers_array_iff, List.forall_mem_cons]
      exact ⟨high, ⟨low, .null, List.forall_mem_nil _⟩, List.forall_mem_nil _⟩
    · refine .object (List.pairwise_pair.mpr (by decide)) ?_
      simp only [List.forall_mem_cons]
      refine ⟨.number, .array ?_, List.forall_mem_nil _⟩
      simp only [List.forall_mem_cons]
      exact ⟨.number, .null, List.forall_mem_nil _⟩
  have values : ∀ m ∈ quoted.members, m.2.Portable := by
    simp only [quoted, List.forall_mem_cons]
    exact ⟨text _, nested, List.forall_mem_nil _⟩
  obtain ⟨whole, octets, more⟩ := body_is_request quoted values
  obtain ⟨g, back, -, others, -⟩ := more "\"\x7d" _ (text "\\\"")
  exact ⟨values, text _, whole, octets, g, back, others "address" (by decide)⟩

end Fields
end OracleRelay
