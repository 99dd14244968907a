/-
# The names of extracted values

Which names a value gives is settled by the type alone: they are those by which the leaves of the type are annotated, no
more and no fewer (`Micheline.keys_exactly`). Neither how the pairs of the type are nested nor how those of the value
are has a part in it, since each leaf of the type gives one named value for whatever is laid beside it.

Key theorems: `Micheline.FieldType.annots_eq`, `Micheline.FieldType.keys`, `Micheline.keys_exactly`.
-/
import OracleRelay.Proofs.Json.Members
import OracleRelay.Proofs.Tezos.Leaves

namespace OracleRelay
namespace Micheline

/-- The annotations that leaves bear for names. -/
def marks (names : List String) : List (List String) := names.map fun name => ["%" ++ name]

theorem mark_inj {name name' : String} : "%" ++ name = "%" ++ name' ↔ name = name' := by
  rw [← String.toList_inj, String.toList_append, String.toList_append, List.append_cancel_left_eq, String.toList_inj]

theorem marks_inj {names names' : List String} : marks names = marks names' ↔ names = names' :=
  List.map_inj_right fun _ _ same => mark_inj.mp (List.singleton_inj.mp same)

theorem map_annots_of_reads {parts : List (Micheline × Micheline)} {ms : List (String × Json)}
    (reads : List.Forall₂ Reads parts ms) : (parts.map (·.1)).map annots = marks (ms.map (·.1)) := by
  induction reads with
  | nil => rfl
  | cons first _ ih =>
    simp only [List.map_cons, marks] at ih ⊢
    rw [ih, first.annots]

/-- The named values of a type stand in the order of its leaves, each under the name of its leaf. -/
theorem FieldType.annots_eq {type value : Micheline} (typed : FieldType type) {ms : List (String × Json)}
    (read : members type value = .ok ms) : (typeLeaves type).map annots = marks (ms.map (·.1)) := by
  obtain ⟨parts, -, leaves, reads⟩ := typed.exists_laid read
  rw [← leaves]
  exact map_annots_of_reads reads

/-- What is extracted has the names of the leaves for keys. -/
theorem FieldType.keys {type value : Micheline} (typed : FieldType type) {result : Json}
    (h : extract type value = .ok result) : ∃ names fields, (typeLeaves type).map annots = marks names ∧
      result = .object fields ∧ Json.InKeyOrder fields ∧ ∀ key, key ∈ fields.map (·.1) ↔ key ∈ names := by
  obtain ⟨ms, read, rfl⟩ := extract_eq_ok_iff.mp h
  exact ⟨ms.map (·.1), Json.collected ms, typed.annots_eq read, rfl, Json.inKeyOrder_collected ms,
    fun _ => Json.mem_keys_collected⟩

/-- **The extracted names depend on the type alone.** Where a value is extracted at all, each leaf of the type has one
annotation, and these give the names that are found in the result, each in one place; so every value that is extracted,
along this type or along another one with leaves of these names, has the same names. -/
theorem keys_exactly {type value : Micheline} (typed : FieldType type) {result : Json}
    (h : extract type value = .ok result) :
    ∃ names fields, (typeLeaves type).map annots = marks names ∧ result = .object fields ∧
      (fields.map (·.1)).Nodup ∧ (∀ key, key ∈ fields.map (·.1) ↔ key ∈ names) ∧
      ∀ type' value' result', FieldType type' → (typeLeaves type').map annots = (typeLeaves type).map annots →
        extract type' value' = .ok result' → ∃ fields', result' = .object fields' ∧
          fields'.map (·.1) = fields.map (·.1) := by
  obtain ⟨names, fields, leaves, same, ordered, keys⟩ := typed.keys h
  refine ⟨names, fields, leaves, same, ordered.nodup, keys, fun type' value' result' typed' alike h' => ?_⟩
  obtain ⟨names', fields', leaves', same', ordered', keys'⟩ := typed'.keys h'
  have equal : names' = names := marks_inj.mp (by rw [← leaves', alike, leaves])
  refine ⟨fields', same', ordered'.keys_eq ordered fun key => ?_⟩
  rw [keys', keys, equal]

/-- The type of a request as it is written in nested pairs. -/
def requestType : Micheline := applied "pair" [(Field.text "jobId" "").type,
  applied "pair" [(Field.map "parameters" []).type, (Field.text "client" "").type]]

/-- A request in one flat list. -/
def flatRequest : Micheline := bare [literal "job-1", bare [applied "Elt" [literal "get", literal "https://a.io"]],
  literal "KT1c"]

theorem keys_exactly_requestType : ∃ result, FieldType requestType ∧ extract requestType flatRequest = .ok result ∧
    ∃ names fields, (typeLeaves requestType).map annots = marks names ∧ result = .object fields ∧
      (fields.map (·.1)).Nodup ∧ (∀ key, key ∈ fields.map (·.1) ↔ key ∈ names) ∧
      ∀ type' value' result', FieldType type' →
        (typeLeaves type').map annots = (typeLeaves requestType).map annots →
        extract type' value' = .ok result' → ∃ fields', result' = .object fields' ∧
          fields'.map (·.1) = fields.map (·.1) := by
  have typed : FieldType requestType := by
    refine .pair rfl ?_
    simp only [List.forall_mem_cons, List.not_mem_nil, false_imp_iff, implies_true, and_true]
    refine ⟨.leaf (.inl (by decide)), .pair rfl ?_⟩
    simp only [List.forall_mem_cons, List.not_mem_nil, false_imp_iff, implies_true, and_true]
    exact ⟨.leaf (.inr rfl), .leaf (.inl (by decide))⟩
  have read : extract requestType flatRequest = .ok (.object [("client", .text "KT1c"), ("jobId", .text "job-1"),
      ("parameters", .object [("get", .text "https://a.io")])]) := by cbv
  exact ⟨_, typed, read, keys_exactly typed read⟩

end Micheline
end OracleRelay
