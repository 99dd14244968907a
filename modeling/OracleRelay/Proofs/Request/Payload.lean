/-
# What a payload gives

A payload is refused for one of three reasons, in this order: it ends before its parameters start, it declares more
parameters than it has, or they cannot be read. The declared number is one of 256 bits and is cut to 64; as no payload
is that long, the cut refuses none that is complete (`declaredLength_gt_iff`). Every other payload gives a request that
`Completes` its parameters: the address, the header and the selector are those of the relay under whatever names the
requester chose, and all else is the requester's. This says all of the request (`completes_iff`).

Key definitions: `Runlog.declared`, `Runlog.header`, `Runlog.params`, `Runlog.Completes`.
Key theorems: `Runlog.split_of_complete`, `Runlog.completes_iff`, `Runlog.Completes.unique`, `Runlog.decode_payload`.
-/
import OracleRelay.Proofs.Request.Fields
import OracleRelay.Proofs.Text.Hex
import OracleRelay.Request.Runlog

namespace OracleRelay
namespace Runlog

/-- The number of octets that the last word before the parameters declares. -/
def declared (bs : List UInt8) : Nat := Octets.bigEndian ((bs.drop 256).take 32)

/-- The octets from the request id to the expiration. -/
def header (bs : List UInt8) : List UInt8 := (bs.drop 32).take 160

/-- The octets that are declared to be parameters. -/
def params (bs : List UInt8) : List UInt8 := (bs.drop 288).take (declared bs)

/-- The names of what the relay sets itself, in the order in which it does. -/
def relayKeys : List String := ["address", "dataPrefix", "functionSelector"]

/-- A request is its parameters with the values of the relay: these win, stand in the places that the parameters give
their names, and follow in their order where the parameters give none. -/
structure Completes (address : String) (header : List UInt8) (params request : Fields) : Prop where
  address : request.get? "address" = some (.text address)
  header : request.get? "dataPrefix" = some (.text (String.ofList ('0' :: 'x' :: header.flatMap fun b =>
    [Hex.figures.getD (b.toNat / 16) ' ', Hex.figures.getD (b.toNat % 16) ' '])))
  selector : request.get? "functionSelector" = some (.text "0x4ab0d190")
  others : ∀ key ∉ relayKeys, request.get? key = params.get? key
  keys : request.keys = params.keys ++ relayKeys.filter (· ∉ params.keys)

/-! ### The parts of a payload -/

/-- The largest length of 64 bits stands for all beyond it. -/
theorem declaredLength_eq (bs : List UInt8) : declaredLength bs = min (declared bs) 0xFFFFFFFFFFFFFFFF := rfl

/-- The cut of the declared number does not change which payloads have less. -/
theorem declaredLength_gt_iff {bs : List UInt8} (addressable : bs.length < 0x10000000000000000) :
    bs.length - paramsStart < declaredLength bs ↔ bs.length - 288 < declared bs := by
  have start : paramsStart = 288 := rfl
  rw [declaredLength_eq, start]
  omega

theorem split_of_short {bs : List UInt8} (short : bs.length < 288) : split bs = .error (.tooShort bs.length) :=
  if_pos short

theorem split_of_truncated {bs : List UInt8} (addressable : bs.length < 0x10000000000000000)
    (long : 288 ≤ bs.length) (less : bs.length - 288 < declared bs) :
    split bs = .error (.truncated (min (declared bs) 0xFFFFFFFFFFFFFFFF) (bs.length - 288)) := by
  have long' : ¬ bs.length < paramsStart := Nat.not_lt.mpr long
  rw [split, if_neg long', if_pos ((declaredLength_gt_iff addressable).mpr less), declaredLength_eq]
  rfl

/-- A payload with all the octets that it declares is split after them. -/
theorem split_of_complete {bs : List UInt8} (addressable : bs.length < 0x10000000000000000)
    (complete : 288 + declared bs ≤ bs.length) : split bs = .ok ⟨header bs, params bs⟩ := by
  have long : ¬ bs.length < paramsStart := Nat.not_lt.mpr (by change 288 ≤ bs.length; omega)
  have enough : ¬ bs.length - paramsStart < declaredLength bs := by
    rw [declaredLength_gt_iff addressable]
    omega
  have exact : declaredLength bs = declared bs := by
    rw [declaredLength_eq]
    omega
  rw [split, if_neg long, if_neg enough, exact]
  rfl

/-- What a payload gives depends on two runs of octets in it. -/
theorem split_congr {bs bs' : List UInt8} (same : header bs' = header bs)
    (word : (bs'.drop 256).take (32 + declared bs) = (bs.drop 256).take (32 + declared bs)) {parts parts' : Parts}
    (h : split bs = .ok parts) (h' : split bs' = .ok parts') : parts' = parts := by
  have declares : declared bs' = declared bs := by
    have := congrArg (List.take 32) word
    rw [List.take_take, List.take_take, Nat.min_eq_left (by omega)] at this
    rw [declared, declared, this]
  have tail : (bs'.drop 288).take (declared bs) = (bs.drop 288).take (declared bs) := by
    have := congrArg (List.drop 32) word
    rwa [List.drop_take, List.drop_take, List.drop_drop, List.drop_drop, Nat.add_sub_cancel_left] at this
  have cut : declaredLength bs' = declaredLength bs := by rw [declaredLength_eq, declaredLength_eq, declares]
  have kept : (bs'.drop 288).take (declaredLength bs) = (bs.drop 288).take (declaredLength bs) := by
    have := congrArg (List.take (declaredLength bs)) tail
    rwa [List.take_take, List.take_take, Nat.min_eq_left (by rw [declaredLength_eq]; omega)] at this
  unfold split at h h'
  split_ifs at h h'
  cases h
  cases h'
  rw [cut]
  exact congrArg₂ Parts.mk same kept

/-! ### The values of the relay -/

/-- What the relay sets, under its names. -/
def relayValues (address : String) (header : List UInt8) : List (String × Json) :=
  [(addressKey, .text address), (dataPrefixKey, .text (Hex.marked header)), (selectorKey, .text fulfilmentSelector)]

theorem names_relayValues (address : String) (header : List UInt8) :
    (relayValues address header).map (·.1) = relayKeys := rfl

/-- To complete parameters is to set the values of the relay. -/
theorem completes_iff {address : String} {header : List UInt8} {params request : Fields} :
    Completes address header params request ↔ request = params.merge (relayValues address header) := by
  have distinct : ((relayValues address header).map (·.1)).Nodup := by
    rw [names_relayValues]
    decide
  rw [Fields.eq_merge_iff distinct, names_relayValues]
  constructor
  · intro h
    refine ⟨fun m hm => ?_, h.others, h.keys⟩
    have mark := h.header
    rw [← Hex.encode_eq_figures] at mark
    simp only [relayValues, List.mem_cons, List.not_mem_nil, or_false] at hm
    rcases hm with rfl | rfl | rfl
    · exact h.address
    · exact mark
    · exact h.selector
  · rintro ⟨set, others, keys⟩
    have mark := set (dataPrefixKey, .text (Hex.marked header)) (by simp [relayValues])
    rw [Hex.marked, Hex.encode_eq_figures] at mark
    exact ⟨set (addressKey, .text address) (by simp [relayValues]), mark,
      set (selectorKey, .text fulfilmentSelector) (by simp [relayValues]), others, keys⟩

theorem completes_merge (address : String) (header : List UInt8) (params : Fields) :
    Completes address header params (params.merge (relayValues address header)) :=
  completes_iff.mpr rfl

/-- There is only one way to complete parameters. -/
theorem Completes.unique {address : String} {header : List UInt8} {params request request' : Fields}
    (h : Completes address header params request) (h' : Completes address header params request') :
    request = request' :=
  (completes_iff.mp h).trans (completes_iff.mp h').symm

/-! ### The request -/

/-- A payload with all the octets that it declares is refused only if its parameters are. -/
theorem decode_of_complete {bs : List UInt8} (addressable : bs.length < 0x10000000000000000)
    (complete : 288 + declared bs ≤ bs.length) (address : String) : decode bs address =
      match Cbor.parseParams (params bs) with
      | .error fault => .error (.params fault)
      | .ok fields => .ok (fields.merge (relayValues address (header bs))) := by
  rw [decode, split_of_complete addressable complete]
  rfl

/-- Payloads that agree in the header and from the declared length to the end of the parameters give the same. -/
theorem decode_congr {bs bs' : List UInt8} (same : header bs' = header bs)
    (word : (bs'.drop 256).take (32 + declared bs) = (bs.drop 256).take (32 + declared bs)) {address : String}
    {request request' : Fields} (h : decode bs address = .ok request) (h' : decode bs' address = .ok request') :
    request' = request := by
  unfold decode at h h'
  cases parts : split bs with
  | error fault => simp [parts] at h
  | ok found =>
    cases parts' : split bs' with
    | error fault => simp [parts'] at h'
    | ok found' =>
      rw [split_congr same word parts parts'] at parts'
      simp only [parts, parts'] at h h'
      rw [h] at h'
      exact (Except.ok.inj h').symm

/-- **A payload is refused for the first of three reasons that applies, or gives the completed request**, of which
nothing depends on the other octets. -/
theorem decode_payload {bs : List UInt8} (addressable : bs.length < 0x10000000000000000) (address : String) :
    (∀ length, decode bs address = .error (.tooShort length) ↔ bs.length < 288 ∧ length = bs.length) ∧
      (∀ count available, decode bs address = .error (.truncated count available) ↔
        288 ≤ bs.length ∧ bs.length - 288 < declared bs ∧ count = min (declared bs) 0xFFFFFFFFFFFFFFFF ∧
          available = bs.length - 288) ∧
      (∀ fault, decode bs address = .error (.params fault) ↔
        288 + declared bs ≤ bs.length ∧ Cbor.parseParams (params bs) = .error fault) ∧
      (∀ request, decode bs address = .ok request ↔ 288 + declared bs ≤ bs.length ∧
        ∃ fields, Cbor.parseParams (params bs) = .ok fields ∧ Completes address (header bs) fields request) ∧
      (∀ fields, 288 + declared bs ≤ bs.length → Cbor.parseParams (params bs) = .ok fields →
        ∃ request, decode bs address = .ok request ∧ Completes address (header bs) fields request) ∧
      (∀ bs' request request', header bs' = header bs →
        (bs'.drop 256).take (32 + declared bs) = (bs.drop 256).take (32 + declared bs) →
        decode bs address = .ok request → decode bs' address = .ok request' → request'.body = request.body) := by
  have last : ∀ bs' request request', header bs' = header bs →
      (bs'.drop 256).take (32 + declared bs) = (bs.drop 256).take (32 + declared bs) →
      decode bs address = .ok request → decode bs' address = .ok request' → request'.body = request.body :=
    fun bs' request request' same word h h' => congrArg Fields.body (decode_congr same word h h')
  by_cases short : bs.length < 288
  · have refused : decode bs address = .error (.tooShort bs.length) := by
      rw [decode, split_of_short short]
    have none : ¬ 288 + declared bs ≤ bs.length := by omega
    have short' : ¬ 288 ≤ bs.length := by omega
    refine ⟨?_, ?_, ?_, ?_, ?_, last⟩ <;> simp [refused, short, short', none, eq_comm]
  by_cases less : bs.length - 288 < declared bs
  · have refused : decode bs address =
        .error (.truncated (min (declared bs) 0xFFFFFFFFFFFFFFFF) (bs.length - 288)) := by
      rw [decode, split_of_truncated addressable (by omega) less]
    have none : ¬ 288 + declared bs ≤ bs.length := by omega
    have long : 288 ≤ bs.length := by omega
    refine ⟨?_, ?_, ?_, ?_, ?_, last⟩ <;> simp [refused, short, long, less, none, eq_comm]
  · have complete : 288 + declared bs ≤ bs.length := by omega
    have given := decode_of_complete addressable complete address
    cases parsed : Cbor.parseParams (params bs) with
    | error fault =>
      rw [parsed] at given
      refine ⟨?_, ?_, ?_, ?_, ?_, last⟩ <;> simp [given, short, less, complete, eq_comm]
    | ok fields =>
      rw [parsed] at given
      have completes := completes_merge address (header bs) fields
      refine ⟨?_, ?_, ?_, ?_, ?_, last⟩
      · simp [given, short]
      · simp [given, less]
      · simp [given]
      · intro request
        rw [given, Except.ok.injEq]
        constructor
        · rintro rfl
          exact ⟨complete, fields, rfl, completes⟩
        · rintro ⟨-, fields', same, h⟩
          cases same
          exact completes.unique h
      · intro fields' _ same
        cases same
        exact ⟨_, given, completes⟩

/-- Parameters in which the requester names an address of its own. -/
def spoofedParams : List UInt8 :=
  [0x67] ++ Utf8.encode ['a', 'd', 'd', 'r', 'e', 's', 's'] ++ [0x64] ++ Utf8.encode ['e', 'v', 'i', 'l']

/-- A payload with these parameters, and zeros but for their length before them. -/
def spoofedPayload : List UInt8 := List.replicate 256 0 ++ (List.replicate 31 0 ++ [13]) ++ spoofedParams

/-- The address of the log takes the place of the one that the requester named. -/
theorem decode_payload_spoofed : spoofedPayload.length < 0x10000000000000000 ∧
    ∃ request, decode spoofedPayload "0xgood" = .ok request ∧ request.get? "address" = some (.text "0xgood") ∧
      request.keys = ["address", "dataPrefix", "functionSelector"] := by
  have addressable : spoofedPayload.length < 0x10000000000000000 := by decide +kernel
  have complete : 288 + declared spoofedPayload ≤ spoofedPayload.length := by decide +kernel
  have cut : params spoofedPayload = spoofedParams := by decide +kernel
  have parsed : Cbor.parseParams spoofedParams = .ok (Fields.ofList [("address", .text "evil")]) := by
    with_unfolding_all rfl
  obtain ⟨request, given, completes⟩ :=
    (decode_payload addressable "0xgood").2.2.2.2.1 _ complete (cut ▸ parsed)
  exact ⟨addressable, request, given, completes.address, completes.keys⟩

end Runlog
end OracleRelay
