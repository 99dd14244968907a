/-
# The requests of a block

Each internal call of a block stands for itself: it gives one request or none, whatever the calls around it give
(`headRequests_eq`). It gives one if it reached an oracle and if each of the steps from the script of the oracle to the
stored values finds what it looks for (`contribution_eq_some_iff`). The adapter that follows heads asks for the scripts
one at a time and comes to the same requests, which it hands on in order (`Monitor.run_head`).

Key definitions: `Tezos.internalCalls`, `Tezos.Reaches`, `Tezos.Stores`, `Tezos.Asks`, `Tezos.Gives`,
`Tezos.contribution`.
Key theorems: `Tezos.requestOf_eq_some_iff`, `Tezos.contribution_eq_some_iff`, `Tezos.headRequests_eq`,
`Tezos.Monitor.run_head`, `Tezos.calls_independent`.
-/
import Mathlib.Data.List.Basic
import OracleRelay.Proofs.Adapter.Run
import OracleRelay.Tezos.Monitor

namespace OracleRelay
namespace Tezos

/-! ### Calls and what they give -/

/-- The internal calls of operations in their order, each with the outcome of the content that made it. -/
def internalCalls (operations : List Operation) : List (Outcome × Call) :=
  operations.flatMap fun o => o.contents.flatMap fun content => content.calls.map (content.outcome, ·)

/-- A call reached one of the oracles where it takes requests, and both the call and the content that made it took
effect. -/
structure Reaches (oracles : List String) (outer : Outcome) (call : Call) : Prop where
  outerApplied : outer.status = "applied"
  callApplied : call.outcome.status = "applied"
  entrypoint : call.entrypoint = "create_request" ∨ call.entrypoint = "on_token_transfer"
  watched : call.destination ∈ oracles

/-- By the script of its oracle, a call stored the values under the key: the script names the big map of requests, the
call put something into it, and that has the form of a request. -/
def Stores (call : Call) (script values key : Json) : Prop :=
  ∃ type storage bigMap diff layout, storageOf script = .ok (type, storage) ∧
    requestsBigMap type (.ofJson storage) = .ok bigMap ∧ requestDiff? bigMap call.outcome.diffs = some diff ∧
    requestType type = .ok layout ∧ layout.extract (.ofJson diff.value) = .ok values ∧ diff.key = key

/-- By the script of its oracle, a call stored the request for the job. -/
def Asks (jobId : String) (call : Call) (script : Json) (request : JobRequest) : Prop :=
  ∃ values key id, Stores call script values key ∧ values.get? "jobId" = some (.text jobId) ∧
    (Micheline.ofJson key).value = .ok id ∧ request.jobId = jobId ∧
    request.fields.members = [("parameters", values.get "parameters"), ("jobId", .text jobId),
      ("oracleAddress", .text call.destination), ("id", id)]

/-- A call gives the request for the job: it reached an oracle, the script of that oracle is there, and by
it the call stored the request. -/
def Gives (jobId : String) (oracles : List String) (script : String → Except TransportFault Json)
    (place : Outcome × Call) (request : JobRequest) : Prop :=
  Reaches oracles place.1 place.2 ∧ ∃ s, script place.2.destination = .ok s ∧ Asks jobId place.2 s request

theorem storedRequest_eq_ok_iff {call : Call} {script values key : Json} :
    storedRequest call script = .ok (values, key) ↔ Stores call script values key := by
  constructor
  · intro h
    unfold storedRequest at h
    split at h
    · cases h
    rename_i type storage found
    split at h
    · cases h
    rename_i bigMap named
    split at h
    · cases h
    rename_i diff put
    split at h
    · cases h
    rename_i layout typed
    split at h
    · cases h
    rename_i extracted walked
    cases h
    exact ⟨type, storage, bigMap, diff, layout, found, named, put, typed, walked, rfl⟩
  · rintro ⟨type, storage, bigMap, diff, layout, found, named, put, typed, walked, rfl⟩
    simp only [storedRequest, found, named, put, typed, walked]

theorem requestOf_eq_some_iff {jobId : String} {call : Call} {script : Json} {request : JobRequest} :
    requestOf jobId call script = .ok (some request) ↔ Asks jobId call script request := by
  constructor
  · intro h
    unfold requestOf at h
    split at h
    · cases h
    rename_i values key stored
    split at h
    · cases h
    rename_i named names
    split at h
    · cases h
    rename_i own
    split at h
    · cases h
    rename_i id keyed
    cases h
    obtain rfl : jobId = named := not_not.mp own
    obtain ⟨v, field, text⟩ := Option.bind_eq_some_iff.mp names
    cases v <;> cases text
    exact ⟨values, key, id, storedRequest_eq_ok_iff.mp stored, field, keyed, rfl, rfl⟩
  · rintro ⟨values, key, id, stored, named, keyed, job, members⟩
    have names : (values.get? jobIdField).bind Json.text? = some jobId := by
      rw [show jobIdField = "jobId" from rfl, named]
      rfl
    simp only [requestOf, storedRequest_eq_ok_iff.mpr stored, names, keyed, ne_eq, not_true_eq_false, ↓reduceIte]
    obtain ⟨named, fields, distinct⟩ := request
    simp only at job members
    subst job members
    rfl

theorem requestWith_eq_some_iff {jobId : String} {call : Call} {answer : Except TransportFault Json}
    {request : JobRequest} :
    requestWith jobId answer call = some request ↔ ∃ s, answer = .ok s ∧ Asks jobId call s request := by
  cases answer with
  | error fault => simp [requestWith]
  | ok s =>
    simp only [requestWith, Except.ok.injEq, exists_eq_left', ← requestOf_eq_some_iff]
    cases requestOf jobId call s with
    | error fault => simp [Except.toOption]
    | ok found => simp [Except.toOption]

/-- The request that a call gives, if any. -/
def contribution (jobId : String) (oracles : List String) (script : String → Except TransportFault Json)
    (place : Outcome × Call) : Option JobRequest :=
  if place.1.status = applied ∧ place.2.isRequest oracles = true then
    requestWith jobId (script place.2.destination) place.2
  else none

theorem reaches_iff {oracles : List String} {outer : Outcome} {call : Call} :
    outer.status = applied ∧ call.isRequest oracles = true ↔ Reaches oracles outer call := by
  have entries : call.entrypoint ∈ requestEntrypoints ↔
      call.entrypoint = "create_request" ∨ call.entrypoint = "on_token_transfer" := by
    simp [requestEntrypoints]
  simp only [Call.isRequest, Bool.and_eq_true, List.contains_iff_mem, decide_eq_true_eq, entries]
  constructor
  · rintro ⟨first, ⟨entrypoint, second⟩, watched⟩
    exact ⟨first, second, entrypoint, watched⟩
  · rintro ⟨first, second, entrypoint, watched⟩
    exact ⟨first, ⟨entrypoint, second⟩, watched⟩

theorem contribution_eq_some_iff {jobId : String} {oracles : List String}
    {script : String → Except TransportFault Json} {place : Outcome × Call} {request : JobRequest} :
    contribution jobId oracles script place = some request ↔ Gives jobId oracles script place request := by
  rw [contribution, Gives, ← requestWith_eq_some_iff, ← reaches_iff]
  split <;> simp_all

/-! ### Blocks -/

/-- The calls that reached an oracle are some of the internal calls, in their order. -/
theorem requestCalls_eq (oracles : List String) (operations : List Operation) : requestCalls oracles operations =
    ((internalCalls operations).filter fun place =>
      decide (place.1.status = applied) && place.2.isRequest oracles).map (·.2) := by
  unfold requestCalls internalCalls
  simp only [List.filter_flatMap, List.map_flatMap, List.filter_map, List.map_map]
  refine List.flatMap_congr fun o _ => List.flatMap_congr fun content _ => ?_
  rw [Content.requestCalls]
  by_cases took : content.outcome.status = applied <;> simp [took, Function.comp_def]

/-- **The requests of a block are what its calls give**, one after the other. -/
theorem headRequests_eq {block : Json} {operations : List Operation} (reads : managerOperations block = some operations)
    (jobId : String) (oracles : List String) (script : String → Except TransportFault Json) :
    headRequests jobId oracles (.ok block) script =
      .ok ((internalCalls operations).filterMap (contribution jobId oracles script)) := by
  have calls : blockCalls oracles block = .ok (requestCalls oracles operations) := by
    rw [blockCalls, reads]
  rw [headRequests, blockRequests, calls, requestCalls_eq]
  simp only [Except.map, requestsOf, List.filterMap_map, List.filterMap_filter, Except.ok.injEq]
  refine List.filterMap_congr fun place _ => ?_
  simp only [contribution, Bool.and_eq_true, decide_eq_true_eq, Function.comp_apply]

/-! ### The adapter that follows heads -/

namespace Monitor

open Adapter

variable {answer : (question : Question) → question.Answer} {r : Running Monitor}

theorem poll_reply {m next : Monitor} {question : Question} {guard : Guard}
    (going : r.ended = false) (untold : r.told = false) (stands : r.state = m) {absorb : question.Answer → Monitor}
    (asks : wait m = .ask question guard absorb) (absorbed : absorb (answer question) = next) :
    r.poll wait (.reply answer) = r.enter next := by
  simp [Running.poll, going, untold, stands, asks, absorbed]

theorem poll_room {m next : Monitor} {event : ChainEvent} (going : r.ended = false) (untold : r.told = false)
    (stands : r.state = m) (offers : wait m = .offer event next) : r.poll wait .room = r.hand event next := by
  simp [Running.poll, going, untold, stands, offers]

theorem requestsOf_cons (jobId : String) (script : String → Except TransportFault Json) (call : Call)
    (calls : List Call) : requestsOf jobId script (call :: calls) =
      (requestWith jobId (script call.destination) call).toList ++ requestsOf jobId script calls := by
  unfold requestsOf
  rw [List.filterMap_cons]
  cases requestWith jobId (script call.destination) call <;> rfl

/-- With an answer to the question for each script, the requests of the calls are found. -/
theorem run_scripts (m : Monitor) (calls : List Call) (found : List JobRequest) (going : r.ended = false)
    (untold : r.told = false) (stands : r.state = m.resolve found calls) :
    r.run wait (List.replicate calls.length (.look (.reply answer))) =
      r.enter (m.proceed (found ++ requestsOf m.jobId (fun address => answer (.script address)) calls)) := by
  induction calls generalizing r found with
  | nil => simp [Running.run, Running.enter, requestsOf, ← show r.state = m.proceed found from stands]
  | cons call calls ih =>
    have step : r.poll wait (.reply answer) = r.enter (m.resolve
        (found ++ (requestWith m.jobId (answer (.script call.destination)) call).toList) calls) :=
      poll_reply going untold stands rfl (by cases calls <;> rfl)
    have rest := ih (r := r.poll wait (.reply answer))
      (found ++ (requestWith m.jobId (answer (.script call.destination)) call).toList)
      (by rw [step]; exact going) (by rw [step]; exact untold) (by rw [step]; rfl)
    rw [List.length_cons, List.replicate_succ, requestsOf_cons, ← List.append_assoc]
    rw [step] at rest
    rw [Running.run_cons, Running.meet, step]
    exact rest

/-- A sink with room takes the requests on offer, one after the other. -/
theorem run_offers (m : Monitor) (requests : List JobRequest) (going : r.ended = false) (untold : r.told = false)
    (stands : r.state = m.proceed requests) : r.run wait (List.replicate requests.length (.look .room)) =
      { r with state := m.enter .following, taken := r.taken ++ requests.map .request } := by
  induction requests generalizing r with
  | nil => simp [Running.run, ← show r.state = m.enter .following from stands]
  | cons request requests ih =>
    have step : r.poll wait .room = r.hand (.request request) (m.proceed requests) :=
      poll_room going untold stands (by cases requests <;> rfl)
    have rest := ih (r := r.hand (.request request) (m.proceed requests)) going untold rfl
    rw [List.length_cons, List.replicate_succ, Running.run_cons, Running.meet, step]
    simpa [Running.hand] using rest

/-- **The adapter hands on the requests of a block.** It asks for the block and for the script of each request call in
it, then offers what `headRequests` names, and is back at the line after. -/
theorem run_head {m : Monitor} {hash : String} {calls : List Call} {requests : List JobRequest}
    (going : r.ended = false) (untold : r.told = false) (stands : r.state = m.enter (.reading hash)) {block : Json}
    (read : answer (.block hash) = .ok block) (called : blockCalls m.addresses block = .ok calls)
    (given : headRequests m.jobId m.addresses (.ok block) (fun address => answer (.script address)) = .ok requests) :
    r.run wait (List.replicate (1 + calls.length) (.look (.reply answer)) ++
        List.replicate requests.length (.look .room)) =
      { r with state := m.enter .following, taken := r.taken ++ requests.map .request } := by
  have same : requestsOf m.jobId (fun address => answer (.script address)) calls = requests := by
    rw [headRequests, blockRequests, called] at given
    exact Except.ok.inj given
  have opened : r.poll wait (.reply answer) = r.enter (m.resolve [] calls) := by
    refine poll_reply going untold stands rfl ?_
    simp only [absorbBlock, read, enter, called]
    cases calls <;> rfl
  have scripts : (r.enter (m.resolve [] calls)).run wait (List.replicate calls.length (.look (.reply answer))) =
      r.enter (m.proceed requests) := by
    rw [run_scripts (r := r.enter (m.resolve [] calls)) m calls [] going untold rfl, List.nil_append, same]
    rfl
  have offers := run_offers (r := r.enter (m.proceed requests)) m requests going untold rfl
  rw [Running.run_append, Nat.add_comm, List.replicate_succ, Running.run_cons, Running.meet, opened, scripts]
  exact offers

end Monitor

/-! ### Independence -/

/-- The oracle that a request names. -/
def oracleOf? (request : JobRequest) : Option String := (request.fields.get? "oracleAddress").bind Json.text?

theorem oracleOf?_of_gives {jobId : String} {oracles : List String} {script : String → Except TransportFault Json}
    {place : Outcome × Call} {request : JobRequest} (h : Gives jobId oracles script place request) :
    oracleOf? request = some place.2.destination := by
  obtain ⟨-, s, -, values, key, id, -, -, -, -, members⟩ := h
  rw [oracleOf?, Fields.get?, members]
  rfl

/-- What the node says about the script of one oracle is nothing to the calls of others. -/
theorem contribution_elsewhere {jobId address : String} {oracles : List String}
    {script script' : String → Except TransportFault Json} (same : ∀ a ≠ address, script' a = script a)
    (place : Outcome × Call) :
    (contribution jobId oracles script' place).filter (fun request => oracleOf? request ≠ some address) =
      (contribution jobId oracles script place).filter (fun request => oracleOf? request ≠ some address) := by
  by_cases here : place.2.destination = address
  · have nothing : ∀ script : String → Except TransportFault Json, (contribution jobId oracles script place).filter
        (fun request => oracleOf? request ≠ some address) = none := by
      intro script
      rw [Option.filter_eq_none_iff]
      intro request given
      simp [oracleOf?_of_gives (contribution_eq_some_iff.mp given), here]
    rw [nothing, nothing]
  · rw [contribution, contribution, same _ here]

/-- **Each call of a block is relayed on its own.** The requests of a block are what its internal calls give, in their
order, and a call gives at most one, of four fields. One that gives none may as well not be in the block, and what the
node says about the script of one oracle leaves the requests to all others as they are. -/
theorem calls_independent {block : Json} {operations : List Operation}
    (reads : managerOperations block = some operations) (jobId : String) (oracles : List String)
    (script : String → Except TransportFault Json) :
    ∃ requests, headRequests jobId oracles (.ok block) script = .ok requests ∧
      requests = (internalCalls operations).filterMap (contribution jobId oracles script) ∧
      (∀ place request, contribution jobId oracles script place = some request ↔
        Gives jobId oracles script place request) ∧
      (∀ before place after block' operations', internalCalls operations = before ++ place :: after →
        (∀ request, ¬ Gives jobId oracles script place request) → managerOperations block' = some operations' →
        internalCalls operations' = before ++ after →
        headRequests jobId oracles (.ok block') script = .ok requests) ∧
      ∀ address script', (∀ a ≠ address, script' a = script a) →
        ∃ requests', headRequests jobId oracles (.ok block) script' = .ok requests' ∧
          requests'.filter (fun request => oracleOf? request ≠ some address) =
            requests.filter (fun request => oracleOf? request ≠ some address) := by
  refine ⟨_, headRequests_eq reads jobId oracles script, rfl, fun _ _ => contribution_eq_some_iff, ?_, ?_⟩
  · intro before place after block' operations' stands silent reads' without
    have nothing : contribution jobId oracles script place = none :=
      Option.eq_none_iff_forall_ne_some.mpr fun request given => silent request (contribution_eq_some_iff.mp given)
    rw [headRequests_eq reads' jobId oracles script, without, stands]
    simp [List.filterMap_append, nothing]
  · intro address script' same
    refine ⟨_, headRequests_eq reads jobId oracles script', ?_⟩
    rw [List.filter_filterMap, List.filter_filterMap]
    exact List.filterMap_congr fun place _ => contribution_elsewhere same place

/-- A call of an oracle that took effect and put the id of a job into a big map. -/
def sampleCall (destination : String) : Call where
  destination
  entrypoint := "create_request"
  outcome :=
    { status := "applied"
      diffs := [{ action := "update", bigMap := .text "17", key := .object [("bytes", .text "ab")]
                  value := .object [("string", .text "job")] }] }

/-- The call as nodes write it. -/
def sampleText (destination : String) : Json :=
  .object [("destination", .text destination), ("parameters", .object [("entrypoint", .text "create_request")]),
    ("result", .object [("big_map_diff", .array [.object [("action", .text "update"), ("big_map", .text "17"),
      ("key", .object [("bytes", .text "ab")]), ("value", .object [("string", .text "job")])]]),
      ("status", .text "applied")])]

/-- A block of one content that made some calls. -/
def sampleBlock (calls : List Json) : Json :=
  .array [.array [], .array [], .array [], .array [.object [("contents", .array [.object [("metadata",
    .object [("internal_operation_results", .array calls),
      ("operation_result", .object [("status", .text "applied")])])]])]]]

/-- The script of an oracle whose requests are the ids of jobs. -/
def sampleScript : Json :=
  .object [("code", .array [.object [("args", .array [.object [("annots", Json.texts ["%requests"]),
      ("args", .array [.object [("prim", .text "bytes")],
        .object [("annots", Json.texts ["%jobId"]), ("prim", .text "string")]]),
      ("prim", .text "big_map")]]), ("prim", .text "storage")]]), ("storage", .object [("string", .text "17")])]

/-- Only the second of two oracles has a script. -/
def sampleScripts (address : String) : Except TransportFault Json :=
  if address = "KT1b" then .ok sampleScript else .error .broken

/-- An applied operation with a call of each of the two oracles. -/
def sampleOperation : Operation :=
  { contents := [{ outcome := { status := "applied" }, calls := [sampleCall "KT1a", sampleCall "KT1b"] }] }

/-- A call of an oracle without a script does not hide the one after it. -/
theorem calls_independent_unscripted :
    managerOperations (sampleBlock [sampleText "KT1a", sampleText "KT1b"]) = some [sampleOperation] ∧
      ∃ request, oracleOf? request = some "KT1b" ∧
        headRequests "job" ["KT1a", "KT1b"] (.ok (sampleBlock [sampleText "KT1a", sampleText "KT1b"])) sampleScripts =
          .ok [request] ∧
        headRequests "job" ["KT1a", "KT1b"] (.ok (sampleBlock [sampleText "KT1b"])) sampleScripts = .ok [request] := by
  have reads : managerOperations (sampleBlock [sampleText "KT1a", sampleText "KT1b"]) = some [sampleOperation] := rfl
  obtain ⟨requests, given, -, gives, without, -⟩ := calls_independent reads "job" ["KT1a", "KT1b"] sampleScripts
  have silent : ∀ request, ¬ Gives "job" ["KT1a", "KT1b"] sampleScripts ({ status := "applied" }, sampleCall "KT1a")
      request := by
    rintro request ⟨-, s, found, -⟩
    cases found
  have alone := without [] _ [({ status := "applied" }, sampleCall "KT1b")] (sampleBlock [sampleText "KT1b"])
    [{ contents := [{ outcome := { status := "applied" }, calls := [sampleCall "KT1b"] }] }] rfl silent rfl rfl
  have one : headRequests "job" ["KT1a", "KT1b"] (.ok (sampleBlock [sampleText "KT1b"])) sampleScripts =
      .ok [⟨"job", .ofList [("parameters", .null), ("jobId", .text "job"), ("oracleAddress", .text "KT1b"),
        ("id", .text "ab")]⟩] := rfl
  rw [alone] at one
  exact ⟨reads, _, rfl, given.trans one, alone.trans one⟩

end Tezos
end OracleRelay
