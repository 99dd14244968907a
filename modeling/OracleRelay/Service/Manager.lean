/-
# The manager of subscriptions

The manager keeps at most one adapter with its pump for a job. Its operations go in steps, and between two steps of one
operation other operations can take theirs: the table of active jobs is only looked at and changed within a step. To
add a subscription, the manager looks whether the job is active, tries the connection, and looks again when it enters
the new pair into the table; to remove one, it takes the pair out of the table, and then tells it to stop. Registering
is adding and then storing; unregistering is removing and then dropping from the store.

Key definitions: `Manager`, `Manager.Call`, `Manager.Call.step`, `Manager.Call.finish`, `Manager.add`,
`Manager.remove`, `Manager.register`, `Manager.unregister`, `Manager.registerEndpoint`, `Manager.bootstrap`,
`Manager.shutdownAll`, `Manager.Desk`.
-/
import OracleRelay.Service.Fault
import OracleRelay.Service.Plan

namespace OracleRelay

/-- An adapter with its pump, and the subscription that they serve. -/
structure Manager.Pair where
  /-- the place among all pairs that were ever started -/
  number : Nat
  subscription : Subscription
  /-- the name of the endpoint -/
  endpoint : String
  deriving DecidableEq, Repr, Inhabited

/-- The active pairs, the store, and all pairs that were ever started or told to stop. -/
structure Manager where
  substrate : SubstrateSettings := {}
  active : List Manager.Pair := []
  store : Store := {}
  started : List Manager.Pair := []
  /-- the numbers of the pairs that were told to stop -/
  told : List Nat := []
  deriving DecidableEq, Repr, Inhabited

namespace Manager

/-- The job of a pair. -/
def Pair.jobId (p : Pair) : String := p.subscription.jobId

/-- The active pair of a job. -/
def pair? (m : Manager) (jobId : String) : Option Pair := m.active.find? (·.jobId = jobId)

/-- Whether a job is active. -/
def isActive (m : Manager) (jobId : String) : Bool := m.active.any (·.jobId = jobId)

/-- The active jobs in the order of their names. -/
def activeJobs (m : Manager) : List String := (m.active.map (·.jobId)).mergeSort (· ≤ ·)

/-- Starts a pair and enters it into the table. -/
def start (m : Manager) (s : Subscription) (e : Endpoint) : Manager :=
  let pair : Pair := ⟨m.started.length, s, e.name⟩
  { m with active := m.active ++ [pair], started := m.started ++ [pair] }

/-- The manager without an active pair for a job. -/
def without (m : Manager) (jobId : String) : Manager := { m with active := m.active.filter (·.jobId ≠ jobId) }

/-- The manager after it told pairs to stop. -/
def tell (m : Manager) (pairs : List Pair) : Manager := { m with told := m.told ++ pairs.map (·.number) }

/-- How an operation ends. -/
abbrev Verdict : Type := Except SubscriptionFault Unit

/-- What an operation meets with outside the manager. -/
structure Surroundings where
  /-- how the test of a connection goes -/
  trial : Except AdapterFault Unit := .ok ()
  /-- what the store says when it is to keep something -/
  save : Except StoreFault Unit := .ok ()
  deriving Inhabited

/-- An operation in progress: what its next step is. -/
inductive Call where
  /-- look up the endpoint of a subscription that is to be added and stored -/
  | load (s : Subscription)
  /-- look whether the job is active; in the end the subscription is stored or not -/
  | check (s : Subscription) (e : Endpoint) (keep : Bool)
  /-- try the connection -/
  | trial (s : Subscription) (e : Endpoint) (keep : Bool)
  /-- look again, and start the pair -/
  | insert (s : Subscription) (e : Endpoint) (keep : Bool)
  | save (s : Subscription)
  /-- take out the pair of a job whose subscription could not be stored -/
  | withdraw (jobId : String) (fault : StoreFault)
  /-- take out the pair of a job; in the end its subscription is dropped from the store or not -/
  | take (jobId : String) (drop : Bool)
  | takeAll
  /-- tell pairs to stop that were taken out -/
  | tell (pairs : List Pair) (next : Call)
  /-- wait until pairs have stopped -/
  | linger (pairs : List Pair) (next : Call)
  /-- drop the subscription of a job from the store -/
  | forget (jobId : String)
  | saveEndpoint (e : Endpoint)
  | ended (verdict : Verdict)
  deriving Inhabited

namespace Call

/-- A bound on the steps that a call can still take. -/
def rank : Call → Nat
  | .ended _ => 0
  | .forget _ | .saveEndpoint _ => 1
  | .linger _ next => next.rank + 1
  | .tell _ next => next.rank + 2
  | .take _ _ | .takeAll | .withdraw _ _ => 4
  | .save _ => 5
  | .insert _ _ _ => 6
  | .trial _ _ _ => 7
  | .check _ _ _ => 8
  | .load _ => 9

/-- The operation has failed. -/
def fail (fault : SubscriptionFault) : Call := .ended (.error fault)

/-- The operation has gone well. -/
def finished : Call := .ended (.ok ())

/-- How the test of the connection of a subscription goes: without an adapter for it there is none. -/
def tried (m : Manager) (x : Surroundings) (s : Subscription) (e : Endpoint) : Except AdapterFault Unit :=
  match Plan.make m.substrate s e with
  | .error fault => .error fault
  | .ok _ => x.trial

/-- One step of a call. -/
def step (m : Manager) (x : Surroundings) : Call → Manager × Call
  | .load s =>
    match m.store.endpoint? s.endpoint with
    | .error fault => (m, fail (.store fault))
    | .ok e => (m, .check s e true)
  | .check s e keep => (m, if m.isActive s.jobId then fail (.duplicateJob s.jobId) else .trial s e keep)
  | .trial s e keep =>
    match tried m x s e with
    | .error fault => (m, fail (.ofAdapter fault))
    | .ok () => (m, .insert s e keep)
  | .insert s e keep =>
    if m.isActive s.jobId then (m, fail (.duplicateJob s.jobId))
    else (m.start s e, if keep then .save s else finished)
  | .save s =>
    match x.save with
    | .ok () => ({ m with store := m.store.saveSubscription s }, finished)
    | .error fault => (m, .withdraw s.jobId fault)
  | .withdraw jobId fault =>
    match m.pair? jobId with
    | some pair => (m.without jobId, .tell [pair] (fail (.store fault)))
    | none => (m, fail (.store fault))
  | .take jobId drop =>
    match m.pair? jobId with
    | some pair => (m.without jobId, .tell [pair] (if drop then .forget jobId else finished))
    | none => (m, fail (.notFound jobId))
  | .takeAll => ({ m with active := [] }, .tell m.active finished)
  | .tell pairs next => (m.tell pairs, .linger pairs next)
  | .linger _ next => (m, next)
  | .forget jobId =>
    match m.store.deleteSubscription jobId with
    | .ok store => ({ m with store }, finished)
    | .error fault => (m, fail (.store fault))
  | .saveEndpoint e =>
    match e.validate, x.save with
    | .error fault, _ => (m, fail (.config fault))
    | .ok (), .error fault => (m, fail (.store fault))
    | .ok (), .ok () => ({ m with store := m.store.saveEndpoint e }, finished)
  | .ended verdict => (m, .ended verdict)

/-- Each step brings a call nearer to its end. -/
theorem rank_step_lt (m : Manager) (x : Surroundings) (c : Call) (h : c.rank ≠ 0) : (c.step m x).2.rank < c.rank := by
  cases c with
  | load s => simp only [step]; split <;> simp [rank, fail]
  | check s e keep => simp only [step]; split <;> simp [rank, fail]
  | trial s e keep => simp only [step]; split <;> simp [rank, fail]
  | insert s e keep =>
    simp only [step]
    split
    · simp [rank, fail]
    · cases keep <;> simp [rank, finished]
  | save s => simp only [step]; split <;> simp [rank, finished]
  | withdraw jobId fault => simp only [step]; split <;> simp [rank, fail]
  | take jobId drop =>
    simp only [step]
    split
    · cases drop <;> simp [rank, finished]
    · simp [rank, fail]
  | takeAll => simp [step, rank, finished]
  | tell pairs next => simp [step, rank]
  | linger pairs next => simp [step, rank]
  | forget jobId => simp only [step]; split <;> simp [rank, fail, finished]
  | saveEndpoint e => simp only [step]; split <;> simp [rank, fail, finished]
  | ended verdict => simp [rank] at h

/-- A call run to its end with nothing else going on. -/
def finish (x : Surroundings) (m : Manager) (c : Call) : Manager × Verdict :=
  match c with
  | .ended verdict => (m, verdict)
  | c => if _ : c.rank = 0 then (m, .ok ()) else finish x (c.step m x).1 (c.step m x).2
termination_by c.rank
decreasing_by exact rank_step_lt m x _ (by assumption)

end Call

/-- Starts a subscription at an endpoint. -/
def add (m : Manager) (x : Surroundings) (s : Subscription) (e : Endpoint) : Manager × Verdict :=
  (Call.check s e false).finish x m

/-- Stops the subscription of a job. -/
def remove (m : Manager) (jobId : String) : Manager × Verdict := (Call.take jobId false).finish {} m

/-- Starts a subscription at an endpoint of the store, and stores it. -/
def register (m : Manager) (x : Surroundings) (s : Subscription) : Manager × Verdict := (Call.load s).finish x m

/-- Stops the subscription of a job and drops it from the store. -/
def unregister (m : Manager) (jobId : String) : Manager × Verdict := (Call.take jobId true).finish {} m

/-- Stores an endpoint that is valid. -/
def registerEndpoint (m : Manager) (x : Surroundings) (e : Endpoint) : Manager × Verdict :=
  (Call.saveEndpoint e).finish x m

/-- Stops all subscriptions. -/
def shutdownAll (m : Manager) : Manager := (Call.takeAll.finish {} m).1

/-- Starts subscriptions in turn at the endpoints of a store, in a given way for each place of the list, and counts
those that started. One that cannot be started is passed over. -/
def startAll {σ : Type} (begin : Nat → σ → Subscription → Endpoint → σ × Verdict) (store : Store) :
    Nat → σ → List Subscription → σ × Nat
  | _, state, [] => (state, 0)
  | place, state, s :: rest =>
    match store.endpoint? s.endpoint with
    | .error _ => startAll begin store (place + 1) state rest
    | .ok e =>
      let (state, verdict) := begin place state s e
      let (state, count) := startAll begin store (place + 1) state rest
      (state, match verdict with
        | .ok () => count + 1
        | .error _ => count)

/-- Starts the stored subscriptions that are not active, and counts them. It is given how the test of the connection
goes for the subscription at each place. -/
def bootstrap (m : Manager) (trial : Nat → Except AdapterFault Unit) : Manager × Nat :=
  startAll (fun place (m : Manager) s e => m.add { trial := trial place } s e) m.store 0 m m.store.subscriptions

/-- A manager with the calls that are in progress. -/
structure Desk where
  manager : Manager
  calls : List Call := []
  deriving Inhabited

/-- The desk after one of the calls took its step. -/
def Desk.step (d : Desk) (i : Nat) (x : Surroundings) : Desk :=
  match d.calls[i]? with
  | none => d
  | some c => { manager := (c.step d.manager x).1, calls := d.calls.set i (c.step d.manager x).2 }

end Manager
end OracleRelay
