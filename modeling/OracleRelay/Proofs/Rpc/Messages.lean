/-
# Requests and responses written and read again

What is read as a request or as a response is written as an object that is read as the same one (`Rpc.Request.lawful`,
`Rpc.Response.lawful`). A result or an error that is `null` counts as none, and of none nothing is written. A
notification is only read: its result is `null` where it holds none (`Rpc.Notification.readText?_written`).

Key definitions: `Rpc.Request.Whole`, `Rpc.Response.Whole`, `Rpc.Notification.written`.
Key theorems: `Rpc.Id.lawful`, `Rpc.Request.lawful`, `Rpc.Error.lawful`, `Rpc.Response.lawful`,
`Rpc.Notification.readText?_written`.
-/
import OracleRelay.Proofs.Json.Records
import OracleRelay.Rpc.Message

namespace OracleRelay
namespace Rpc

open Json Json.Record

theorem Id.lawful (levels : Nat) : Lawful Id.reader Id.toJson levels := by
  intro depth t x _ read
  unfold Id.reader at read
  split at read
  · cases read
    exact ⟨fun _ _ => rfl, .null⟩
  · rename_i n
    split_ifs at read with fits
    cases read
    refine ⟨fun _ _ => if_pos fits, .number ⟨by omega, ?_⟩⟩
    exact Int.ofNat_lt.mpr fits
  · obtain ⟨s, -, rfl⟩ := Option.map_eq_some_iff.mp read
    exact ⟨fun _ _ => rfl, .text⟩
  · cases read

theorem Request.lawful : Lawful Request.reader Request.toJson 2 := by
  refine lawful_record (fun r : Request => [("jsonrpc", some (.text r.version)), ("method", some (.text r.method)),
    ("params", some (.array r.params)), ("id", some r.id.toJson)]) (by decide) (fun _ _ => rfl) (fun _ => ⟨rfl, rfl⟩) ?_
  intro r request sized read
  simp only [Option.bind_eq_bind, Option.bind_eq_some_iff] at read
  obtain ⟨_, version, _, method, _, params, _, id, same⟩ := read
  cases same
  refine (keeps_required (lawful_string 1) sized version).bind ?_
  refine (keeps_required (lawful_string 1) sized method).bind ?_
  refine (keeps_required (lawful_values 0) sized params).bind ?_
  refine (keeps_required (Id.lawful 1) sized id).bind ?_
  exact keepsAll_pure _ _

theorem Error.lawful : Lawful Error.reader Error.toJson 1 := by
  refine lawful_record (fun e : Error => [("code", some (.int e.code)), ("message", some (.text e.message)),
    ("data", e.data)]) (by decide) (fun _ _ => rfl) (fun e => ⟨rfl, ?_⟩) ?_
  · obtain ⟨code, message, data⟩ := e
    cases data <;> rfl
  · intro r e sized read
    simp only [Option.bind_eq_bind, Option.bind_eq_some_iff] at read
    obtain ⟨_, code, _, message, _, data, same⟩ := read
    cases same
    refine (keeps_required (lawful_int 0) sized code).bind ?_
    refine (keeps_required (lawful_string 0) sized message).bind ?_
    refine (keeps_value sized data).bind ?_
    exact keepsAll_pure _ _

theorem Response.lawful : Lawful Response.reader Response.toJson 2 := by
  refine lawful_record (fun r : Response => [("jsonrpc", some (.text r.version)), ("id", some r.id.toJson),
    ("result", r.result), ("error", r.error.map (·.toJson))]) (by decide) (fun _ _ => rfl) (fun r => ⟨rfl, ?_⟩) ?_
  · obtain ⟨version, id, result, error⟩ := r
    cases result <;> cases error <;> rfl
  · intro r response sized read
    simp only [Option.bind_eq_bind, Option.bind_eq_some_iff] at read
    obtain ⟨_, version, _, id, _, result, _, error, same⟩ := read
    cases same
    refine (keeps_required (lawful_string 1) sized version).bind ?_
    refine (keeps_required (Id.lawful 1) sized id).bind ?_
    refine (keeps_value sized result).bind ?_
    refine (keeps_optional Error.lawful (fun _ _ => nofun) sized error).bind ?_
    exact keepsAll_pure _ _

theorem Error.numbers_member? {p : Number → Prop} {name : String} {written : Option Json}
    (all : ∀ v ∈ written, v.Numbers p) : ∀ m ∈ member? name written, m.2.Numbers p := by
  cases written with
  | none => exact nofun
  | some v => exact List.forall_mem_singleton.mpr (all v rfl)

/-! ### Notifications -/

/-- The parameters of a notification, with its result if it has one. -/
def Notification.writtenParams (subscription : Json) (result : Option Json) : Json :=
  .object (("subscription", subscription) :: Error.member? "result" result)

/-- A notification as a node writes it. -/
def Notification.written (method : String) (subscription : Json) (result : Option Json) : Json :=
  .object [("method", .text method), ("params", writtenParams subscription result)]

theorem Notification.paramsReader_written {depth : Nat} {subscription : Json} (named : subscription.Tidy depth)
    {result : Option Json} (given : ∀ v ∈ result, v.Tidy depth) :
    paramsReader (depth + 1) (Tree.ofValue (writtenParams subscription result)) =
      some (subscription, result.getD .null) := by
  have distinct : ((("subscription", subscription) :: Error.member? "result" result).map (·.1)).Nodup := by
    cases result <;> simp [Error.member?]
  have name : Tree.value? depth (Tree.ofValue subscription) = some subscription := Tree.value?_ofValue named
  unfold paramsReader writtenParams
  rw [read?_ofValue _ depth distinct]
  cases result with
  | none =>
    show (Tree.value? depth (Tree.ofValue subscription)).bind (fun s => some (s, Json.null)) = _
    rw [name]
    rfl
  | some v =>
    have value : Tree.value? depth (Tree.ofValue v) = some v := Tree.value?_ofValue (given v rfl)
    show (Tree.value? depth (Tree.ofValue subscription)).bind
      (fun s => (Tree.value? depth (Tree.ofValue v)).bind fun w => some (s, w)) = _
    rw [name, value]
    rfl

theorem Notification.reader_written (method : String) {depth : Nat} {subscription : Json}
    (named : subscription.Tidy depth) {result : Option Json} (given : ∀ v ∈ result, v.Tidy depth) :
    reader (depth + 2) (Tree.ofValue (written method subscription result)) =
      some ⟨method, subscription, result.getD .null⟩ := by
  have distinct : ([("method", .text method), ("params", writtenParams subscription result)].map
      fun (m : String × Json) => m.1).Nodup := by simp
  unfold reader written
  rw [read?_ofValue _ (depth + 1) distinct]
  show (paramsReader (depth + 1) (Tree.ofValue (writtenParams subscription result))).bind
    (fun p => some (⟨method, p.1, p.2⟩ : Notification)) = _
  rw [paramsReader_written named given]
  rfl

theorem Notification.numbers_written {p : Number → Prop} (method : String) {subscription : Json}
    (name : subscription.Numbers p) {result : Option Json} (value : ∀ v ∈ result, v.Numbers p) :
    (written method subscription result).Numbers p := by
  have params : (writtenParams subscription result).Numbers p :=
    .object (List.forall_mem_cons.mpr ⟨name, Error.numbers_member? value⟩)
  exact .object (List.forall_mem_cons.mpr ⟨.text, List.forall_mem_singleton.mpr params⟩)

/-- **A notification is read with its result, and with `null` where it holds none.** -/
theorem Notification.readText?_written (method : String) {subscription : Json} {result : Option Json}
    (name : subscription.Numbers Number.Exact) (named : subscription.Tidy (maxDepth - 2))
    (value : ∀ v ∈ result, v.Numbers Number.Exact) (given : ∀ v ∈ result, v.Tidy (maxDepth - 2)) :
    readText? reader (written method subscription result).render =
      some ⟨method, subscription, result.getD .null⟩ := by
  rw [Tree.readText?_render reader (numbers_written method name value)]
  exact reader_written method named given

/-! ### Messages without doubles -/

/-- No number in the parameters of a request is a double. -/
def Request.Whole (r : Request) : Prop := ∀ v ∈ r.params, v.Numbers Number.Whole

/-- No number in the result of a response or in the data of its error is a double. -/
def Response.Whole (r : Response) : Prop :=
  (∀ v ∈ r.result, v.Numbers Number.Whole) ∧ ∀ e ∈ r.error, ∀ v ∈ e.data, v.Numbers Number.Whole

theorem Id.whole_toJson (id : Id) : id.toJson.Numbers Number.Whole := by
  cases id with
  | number n => exact .number trivial
  | text s => exact .text
  | null => exact .null

theorem Request.whole_toJson {r : Request} (whole : r.Whole) : r.toJson.Numbers Number.Whole := by
  refine .object ?_
  simp only [List.forall_mem_cons]
  exact ⟨.text, .text, .array whole, r.id.whole_toJson, nofun⟩

theorem Error.whole_toJson {e : Error} (whole : ∀ v ∈ e.data, v.Numbers Number.Whole) :
    e.toJson.Numbers Number.Whole := by
  refine .object ?_
  simp only [List.forall_mem_append, List.forall_mem_cons]
  exact ⟨⟨whole_int e.code, .text, nofun⟩, numbers_member? whole⟩

theorem Response.whole_toJson {r : Response} (whole : r.Whole) : r.toJson.Numbers Number.Whole := by
  have error : ∀ v ∈ r.error.map (·.toJson), v.Numbers Number.Whole := by
    intro v hv
    obtain ⟨e, he, rfl⟩ := Option.mem_map.mp hv
    exact Error.whole_toJson (whole.2 e he)
  refine .object ?_
  simp only [List.forall_mem_append, List.forall_mem_cons]
  exact ⟨⟨⟨.text, r.id.whole_toJson, nofun⟩, Error.numbers_member? whole.1⟩, Error.numbers_member? error⟩

end Rpc
end OracleRelay
