/-
# What a notice asks for

A notice is passed over unless it is an oracle request of a watched contract for the job (`Notice.Asks`), whatever else
it says. One that is fails only if its state with the parameters spells no octets or these cannot be read. Otherwise
it gives a request that `Completes` its parameters: the contract and five of the states stand under their own names
whatever names the requester chose, and all else is the requester's. Every state that is looked at on the way is there
(`Notice.request?_eq`): the ones that decide are looked at only in a list that is long enough.

Key definitions: `Reads`, `Notice.Asks`, `Notice.Completes`, `Notice.request?`.
Key theorems: `reads_iff`, `Notice.requestStates?_eq_some_iff`, `Notice.completes_iff`, `Notice.request?_eq`,
`Notice.request_exactly`.
-/
import OracleRelay.Ontology.Notice
import OracleRelay.Proofs.Request.Fields
import OracleRelay.Proofs.Text.Hex

namespace OracleRelay
namespace Ontology

/-- A state is there and has this text: a string is its own, and anything else has the one it is printed with. -/
def Reads (states : List Json) (i : Nat) (text : String) : Prop :=
  ∃ v, states[i]? = some v ∧ (v = .text text ∨ (∀ s, v ≠ .text s) ∧ v.render = text)

/-- The text of a state, if it is there. -/
def stateText? (states : List Json) (i : Nat) : Option String := states[i]?.map Json.plainText

namespace Notice

/-- The notice is an oracle request of a watched contract for the job. -/
structure Asks (n : Notice) (addresses : List String) (jobId : String) (states : List Json) : Prop where
  listed : n.states = .array states
  long : 11 ≤ states.length
  watched : n.contract ∈ addresses
  name : Reads states 0 (Hex.text (Utf8.ofString "oracleRequest"))
  job : Reads states 1 jobId

/-- The states that go to the job node, and the names under which they do. -/
def places : List (String × Nat) :=
  [("requestID", 3), ("payment", 4), ("callbackAddress", 5), ("callbackFunction", 6), ("expiration", 7)]

/-- The names of what the notice sets itself, in the order in which it does. -/
def fixedKeys : List String := "address" :: places.map (·.1)

/-- A request is its parameters with the contract and the states: these win, stand in the places that the parameters
give their names, and follow in their order where the parameters give none. -/
structure Completes (contract : String) (states : List Json) (params request : Fields) : Prop where
  address : request.get? "address" = some (.text contract)
  state : ∀ key i, (key, i) ∈ places → ∃ text, Reads states i text ∧ request.get? key = some (.text text)
  others : ∀ key ∉ fixedKeys, request.get? key = params.get? key
  keys : request.keys = params.keys ++ fixedKeys.filter (· ∉ params.keys)

end Notice

/-! ### States -/

theorem reads_iff {states : List Json} {i : Nat} {text : String} :
    Reads states i text ↔ stateText? states i = some text := by
  have plain : ∀ v : Json, (v = .text text ∨ (∀ s, v ≠ .text s) ∧ v.render = text) ↔ v.plainText = text := by
    intro v
    cases v <;> simp [Json.plainText]
  rw [Reads, stateText?, Option.map_eq_some_iff]
  simp only [plain]

/-- The text of a state that is there is never made up. -/
theorem stateText?_eq {states : List Json} {i : Nat} (there : i < states.length) :
    stateText? states i = some (stateText states i) := by
  rw [stateText?, stateText, List.getD_eq_getElem?_getD, List.getElem?_eq_getElem there, Option.map_some,
    Option.getD_some]

theorem reads_iff_stateText {states : List Json} {i : Nat} (there : i < states.length) {text : String} :
    Reads states i text ↔ stateText states i = text := by
  rw [reads_iff, stateText?_eq there, Option.some.injEq]

theorem requestName_eq : requestName = Hex.text (Utf8.ofString "oracleRequest") := by decide

namespace Notice

/-- **A notice is taken exactly if it asks.** -/
theorem requestStates?_eq_some_iff {n : Notice} {addresses : List String} {jobId : String} {states : List Json} :
    n.requestStates? addresses jobId = some states ↔ n.Asks addresses jobId states := by
  have least : leastStates = 11 := rfl
  have tests : ∀ listed : List Json, (addresses.contains n.contract && leastStates ≤ listed.length &&
      stateText listed 0 = requestName && stateText listed 1 = jobId) = true ↔ n.contract ∈ addresses ∧
        11 ≤ listed.length ∧ stateText listed 0 = requestName ∧ stateText listed 1 = jobId := by
    intro listed
    simp [least, and_assoc]
  unfold requestStates?
  constructor
  · intro h
    split at h
    · rename_i listed hlisted
      simp only [tests, Option.ite_none_right_eq_some, Option.some.injEq] at h
      obtain ⟨⟨watched, long, name, job⟩, rfl⟩ := h
      have name' := (reads_iff_stateText (by omega)).mpr name
      rw [requestName_eq] at name'
      exact ⟨hlisted, long, watched, name', (reads_iff_stateText (by omega)).mpr job⟩
    · cases h
  · intro asks
    have long := asks.long
    have name := (reads_iff_stateText (by omega)).mp asks.name
    have job := (reads_iff_stateText (by omega)).mp asks.job
    rw [← requestName_eq] at name
    simp only [asks.listed, tests]
    exact if_pos ⟨asks.watched, long, name, job⟩

/-! ### The values of the notice -/

/-- What the notice sets, under its names. -/
def fixedValues (contract : String) (states : List Json) : List (String × Json) :=
  ("address", .text contract) :: places.map fun p => (p.1, .text (stateText states p.2))

theorem names_fixedValues (contract : String) (states : List Json) :
    (fixedValues contract states).map (·.1) = fixedKeys := rfl

/-- **There is one way to complete parameters.** -/
theorem completes_iff {contract : String} {states : List Json} {params request : Fields} (long : 11 ≤ states.length) :
    Completes contract states params request ↔ request = params.merge (fixedValues contract states) := by
  have distinct : ((fixedValues contract states).map (·.1)).Nodup := by
    rw [names_fixedValues]
    decide
  have there : ∀ p ∈ places, p.2 < states.length := by
    intro p hp
    have below : ∀ p ∈ places, p.2 < 11 := by decide
    exact Nat.lt_of_lt_of_le (below p hp) long
  rw [Fields.eq_merge_iff distinct, names_fixedValues]
  constructor
  · intro h
    refine ⟨fun m hm => ?_, h.others, h.keys⟩
    rcases List.mem_cons.mp hm with rfl | hm
    · exact h.address
    · obtain ⟨p, hp, rfl⟩ := List.mem_map.mp hm
      obtain ⟨text, reads, value⟩ := h.state p.1 p.2 hp
      rw [(reads_iff_stateText (there p hp)).mp reads]
      exact value
  · rintro ⟨set, others, keys⟩
    refine ⟨set _ List.mem_cons_self, fun key i hp => ?_, others, keys⟩
    refine ⟨stateText states i, (reads_iff_stateText (there _ hp)).mpr rfl, ?_⟩
    exact set _ (List.mem_cons_of_mem _ (List.mem_map_of_mem hp))

/-! ### Lookups -/

/-- The states of a request, with those that decide looked up in turn: none, if one is not there. -/
def examine? (n : Notice) (addresses : List String) (jobId : String) : Option (Option (List Json)) :=
  match n.states with
  | .array states =>
    if n.contract ∉ addresses ∨ states.length < leastStates then some none
    else
      (stateText? states 0).bind fun name =>
      if name ≠ requestName then some none
      else (stateText? states 1).map fun job => if job ≠ jobId then none else some states
  | _ => some none

/-- The request that states make, with those that go into it looked up in turn: none, if one is not there. -/
def make? (contract : String) (states : List Json) : Option (Except Cbor.Fault JobRequest) :=
  (stateText? states 9).bind fun digits =>
  match Hex.decode digits with
  | .error fault => some (.error (.notHex fault))
  | .ok bs =>
    match Cbor.parseParams bs with
    | .error fault => some (.error fault)
    | .ok params =>
      (places.mapM fun p => (stateText? states p.2).map fun text => (p.1, Json.text text)).bind fun values =>
      (stateText? states 1).map fun job => .ok ⟨job, params.merge (("address", .text contract) :: values)⟩

/-- The request of a notice with every state looked up where it is needed: none, if one is not there. -/
def request? (n : Notice) (addresses : List String) (jobId : String) : Option (Except Cbor.Fault (Option JobRequest)) :=
  (n.examine? addresses jobId).bind fun
  | none => some (.ok none)
  | some states => (make? n.contract states).map fun r => r.map some

theorem examine?_eq (n : Notice) (addresses : List String) (jobId : String) :
    n.examine? addresses jobId = some (n.requestStates? addresses jobId) := by
  have least : leastStates = 11 := rfl
  unfold examine? requestStates?
  cases n.states with
  | array states =>
    simp only
    by_cases accepted : n.contract ∈ addresses ∧ 11 ≤ states.length
    · obtain ⟨watched, long⟩ := accepted
      have first : stateText? states 0 = some (stateText states 0) := stateText?_eq (by omega)
      have second : stateText? states 1 = some (stateText states 1) := stateText?_eq (by omega)
      have short : ¬ states.length < 11 := by omega
      rw [first, Option.bind_some, second]
      by_cases name : stateText states 0 = requestName <;> by_cases job : stateText states 1 = jobId <;>
        simp [least, watched, long, short, name, job]
    · have refused : n.contract ∉ addresses ∨ states.length < 11 := by
        rw [not_and_or] at accepted
        exact accepted.imp_right Nat.lt_of_not_le
      rw [least, if_pos refused]
      rcases refused with unwatched | short
      · simp [unwatched]
      · have long : ¬ 11 ≤ states.length := by omega
        simp [long]
  | _ => rfl

theorem make?_eq {states : List Json} (long : 11 ≤ states.length) (contract : String) :
    make? contract states = some (requestOf contract states) := by
  have there : ∀ i < 11, stateText? states i = some (stateText states i) := fun i hi => stateText?_eq (by omega)
  have values : (places.mapM fun p => (stateText? states p.2).map fun text => (p.1, Json.text text)) =
      some (places.map fun p => (p.1, .text (stateText states p.2))) := by
    simp [places, there]
  rw [make?, requestOf, there 9 (by omega), Option.bind_some, values, there 1 (by omega)]
  cases Hex.decode (stateText states 9) with
  | error fault => rfl
  | ok bs =>
    simp only
    cases Cbor.parseParams bs <;> rfl

/-- **Every state that is looked at is there**, and the request is the one that is made without looking. -/
theorem request?_eq (n : Notice) (addresses : List String) (jobId : String) :
    n.request? addresses jobId = some (n.request addresses jobId) := by
  rw [request?, request, examine?_eq, Option.bind_some]
  cases taken : n.requestStates? addresses jobId with
  | none => rfl
  | some states =>
    have asks := requestStates?_eq_some_iff.mp taken
    simp only
    rw [make?_eq asks.long, Option.map_some]

/-! ### The request -/

theorem request_eq_none_iff {n : Notice} {addresses : List String} {jobId : String} :
    n.request addresses jobId = .ok none ↔ ∀ states, ¬ n.Asks addresses jobId states := by
  rw [request]
  cases taken : n.requestStates? addresses jobId with
  | none =>
    have none : ∀ states, ¬ n.Asks addresses jobId states := by
      intro states asks
      rw [requestStates?_eq_some_iff.mpr asks] at taken
      cases taken
    exact iff_of_true rfl none
  | some states =>
    have asks := requestStates?_eq_some_iff.mp taken
    refine iff_of_false ?_ fun none => none states asks
    simp only
    cases requestOf n.contract states <;> simp [Except.map]

theorem request_of_asks {n : Notice} {addresses : List String} {jobId : String} {states : List Json}
    (asks : n.Asks addresses jobId states) : n.request addresses jobId = (requestOf n.contract states).map some := by
  rw [request, requestStates?_eq_some_iff.mpr asks]

/-- The request of a notice that asks, from what its parameters are read as. -/
theorem requestOf_eq {n : Notice} {addresses : List String} {jobId : String} {states : List Json}
    (asks : n.Asks addresses jobId states) : requestOf n.contract states =
      match Hex.decode (stateText states 9) with
      | .error fault => .error (.notHex fault)
      | .ok bs => (Cbor.parseParams bs).map fun params => ⟨jobId, params.merge (fixedValues n.contract states)⟩ := by
  have long := asks.long
  rw [← (reads_iff_stateText (by omega)).mp asks.job]
  rfl

/-- **A notice gives a request exactly as its states say.** -/
theorem request_exactly (n : Notice) (addresses : List String) (jobId : String) :
    (n.request addresses jobId = .ok none ↔ ∀ states, ¬ n.Asks addresses jobId states) ∧
    (∀ states, n.Asks addresses jobId states → ∃ digits, Reads states 9 digits ∧
      (∀ fault, n.request addresses jobId = .error fault ↔
        (∃ why, Hex.decode digits = .error why ∧ fault = .notHex why) ∨
        ∃ bs, Hex.Spells digits.toList bs ∧ Cbor.parseParams bs = .error fault) ∧
      ((∃ fault, n.request addresses jobId = .error fault) ↔ (∀ bs, ¬ Hex.Spells digits.toList bs) ∨
        ∃ bs fault, Hex.Spells digits.toList bs ∧ Cbor.parseParams bs = .error fault) ∧
      ∀ r, n.request addresses jobId = .ok (some r) ↔ r.jobId = jobId ∧
        ∃ bs params, Hex.Spells digits.toList bs ∧ Cbor.parseParams bs = .ok params ∧
          Completes n.contract states params r.fields) ∧
    n.request? addresses jobId = some (n.request addresses jobId) := by
  refine ⟨request_eq_none_iff, fun states asks => ?_, request?_eq n addresses jobId⟩
  have long := asks.long
  refine ⟨stateText states 9, (reads_iff_stateText (by omega)).mpr rfl, ?_⟩
  rw [request_of_asks asks, requestOf_eq asks]
  simp only [← Hex.decode_eq_ok_iff_spells, completes_iff long]
  cases Hex.decode (stateText states 9) with
  | error why =>
    simp [Except.map, eq_comm]
  | ok bs =>
    cases parsed : Cbor.parseParams bs with
    | error fault => simp [Except.map, parsed, eq_comm]
    | ok params =>
      have made : ∀ {fields : Fields} (r : JobRequest),
          (⟨jobId, fields⟩ : JobRequest) = r ↔ r.jobId = jobId ∧ r.fields = fields := by
        rintro fields ⟨job, fields'⟩
        rw [JobRequest.mk.injEq, eq_comm, @eq_comm _ fields]
      simp [Except.map, parsed, made]

/-- Parameters in which the requester names a payment of its own. -/
def spoofedParams : List UInt8 :=
  [0x67] ++ Utf8.encode ['p', 'a', 'y', 'm', 'e', 'n', 't'] ++ [0x61] ++ Utf8.encode ['0']

/-- States with these parameters, of which the expiration is no text. -/
def spoofedStates : List Json :=
  [.text requestName, .text "job-1", .null, .text "r1", .text "0a", .text "callback", .text "fulfill", .int 1700000000,
    .text "01", .text "677061796d656e746130", .null]

/-- The payment of the contract takes the place of the one that the requester named. -/
theorem request_exactly_spoofed : (Notice.mk "oracle" (.array spoofedStates)).Asks ["oracle"] "job-1" spoofedStates ∧
    ∃ r, (Notice.mk "oracle" (.array spoofedStates)).request ["oracle"] "job-1" = .ok (some r) ∧
      r.fields.get? "payment" = some (.text "0a") ∧ r.fields.get? "expiration" = some (.text "1700000000") ∧
      r.fields.keys = ["payment", "address", "requestID", "callbackAddress", "callbackFunction", "expiration"] := by
  have long : 11 ≤ spoofedStates.length := by decide
  have asks : (Notice.mk "oracle" (.array spoofedStates)).Asks ["oracle"] "job-1" spoofedStates :=
    ⟨rfl, long, List.mem_singleton_self _, reads_iff.mpr (by decide), reads_iff.mpr (by decide)⟩
  obtain ⟨digits, reads, -, -, exactly⟩ := (request_exactly _ _ _).2.1 _ asks
  have ninth : digits = "677061796d656e746130" := by
    have text : stateText? spoofedStates 9 = some "677061796d656e746130" := rfl
    exact Option.some.inj ((reads_iff.mp reads).symm.trans text)
  have spelled : Hex.Spells digits.toList spoofedParams := by
    rw [ninth, Hex.spells_iff]
    decide
  have parsed : Cbor.parseParams spoofedParams = .ok (Fields.ofList [("payment", .text "0")]) := by
    with_unfolding_all rfl
  obtain ⟨fields, completes⟩ : ∃ fields,
      Completes "oracle" spoofedStates (Fields.ofList [("payment", .text "0")]) fields :=
    ⟨_, (completes_iff long).mpr rfl⟩
  have expires : stateText spoofedStates 7 = "1700000000" := by decide +kernel
  refine ⟨asks, ⟨"job-1", fields⟩, (exactly _).mpr ⟨rfl, _, _, spelled, parsed, completes⟩, ?_, ?_, completes.keys⟩
  · obtain ⟨text, reads, payment⟩ := completes.state "payment" 4 (by decide)
    rw [payment, ← (reads_iff_stateText (by omega)).mp reads]
    rfl
  · obtain ⟨text, reads, expiration⟩ := completes.state "expiration" 7 (by decide)
    rw [expiration, ← (reads_iff_stateText (by omega)).mp reads, expires]

end Notice
end Ontology
end OracleRelay
