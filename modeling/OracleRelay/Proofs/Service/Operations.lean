/-
# Operations one after another

An operation that has the manager to itself runs its call to the end. What it can leave behind is read off a handful of
outcomes (`Manager.Request.Outcome`): it is refused and nothing changes; it does what was asked; or, and this is the
one way to fail halfway, it stops the pair of a job and then finds no subscription of the job to drop from the store
(`Manager.failed_unchanged_iff`). Where every job came to be active through the store, each active job stays stored
(`Manager.Recorded`), so that the store names all that a restart has to bring back (`Manager.active_recorded`).

Key definitions: `Manager.Operation`, `Manager.Operation.perform`, `Manager.performAll`, `Manager.Request.Outcome`,
`Manager.Operation.Strands`, `Manager.Recorded`.
Key theorems: `Manager.register_eq`, `Manager.unregister_eq`, `Manager.Request.perform_outcome`,
`Manager.Recorded.perform`, `Manager.Recorded.performAll`, `Manager.failed_unchanged_iff`, `Manager.active_recorded`.
-/
import OracleRelay.Proofs.Service.Desk

namespace OracleRelay
namespace Manager

/-- What is asked of a manager that has nothing else to do. -/
def Request.perform (m : Manager) (x : Surroundings) : Request → Manager × Verdict
  | .add s e => m.add x s e
  | .remove jobId => m.remove jobId
  | .register s => m.register x s
  | .unregister jobId => m.unregister jobId
  | .registerEndpoint e => m.registerEndpoint x e
  | .shutdownAll => (m.shutdownAll, .ok ())

/-- An operation over a store that keeps all that it is given, and how the tests of connections go that it makes. -/
inductive Operation where
  | ask (r : Request) (trial : Except AdapterFault Unit := .ok ())
  /-- a trial for each place in the list of stored subscriptions -/
  | bootstrap (trial : Nat → Except AdapterFault Unit)

/-- The manager after an operation, and how the operation ends. -/
def Operation.perform (m : Manager) : Operation → Manager × Verdict
  | .ask r trial => r.perform m { trial }
  | .bootstrap trial => ((m.bootstrap trial).1, .ok ())

/-- The manager after operations, one after another. -/
def performAll (m : Manager) (ops : List Operation) : Manager := ops.foldl (fun m op => (op.perform m).1) m

/-- A manager without an active job, over the store of a snapshot. -/
def fresh (substrate : SubstrateSettings) (snap : Snapshot) : Manager := { substrate, store := .ofSnapshot snap }

/-! ### Calls run to their end -/

namespace Call

theorem finish_ended (x : Surroundings) (m : Manager) (v : Verdict) : (Call.ended v).finish x m = (m, v) := by
  rw [finish]

theorem finish_step {c : Call} (h : c.rank ≠ 0) (x : Surroundings) (m : Manager) :
    c.finish x m = (c.step m x).2.finish x (c.step m x).1 := by
  rw [finish.eq_def]
  cases c with
  | ended v => exact absurd rfl h
  | _ => simp only [dif_neg h]

/-- Telling pairs to stop and waiting for them leads on to what comes next. -/
theorem finish_tell (x : Surroundings) (m : Manager) (pairs : List Pair) (next : Call) :
    (Call.tell pairs next).finish x m = next.finish x (m.tell pairs) := by
  rw [finish_step (by simp [rank])]
  simp only [step]
  rw [finish_step (by simp [rank])]
  simp only [step]

/-- The first part of adding: the job is looked up, the connection tried, and the pair started. -/
theorem finish_check (x : Surroundings) (m : Manager) (s : Subscription) (e : Endpoint) (keep : Bool) :
    (Call.check s e keep).finish x m =
      if m.isActive s.jobId then (m, .error (.duplicateJob s.jobId))
      else match tried m x s e with
        | .error fault => (m, .error (.ofAdapter fault))
        | .ok () => (if keep then .save s else finished).finish x (m.start s e) := by
  rw [finish_step (by simp [rank])]
  simp only [step]
  by_cases hactive : m.isActive s.jobId = true
  · rw [if_pos hactive, if_pos hactive, fail, finish_ended]
  rw [if_neg hactive, if_neg hactive, finish_step (by simp [rank])]
  simp only [step]
  cases tried m x s e with
  | error fault => simp only [fail, finish_ended]
  | ok _ =>
    simp only
    rw [finish_step (by simp [rank])]
    simp only [step, if_neg hactive]

/-- The first part of removing: the pair is taken out of the table and told to stop. -/
theorem finish_take (x : Surroundings) (m : Manager) (jobId : String) (drop : Bool) :
    (Call.take jobId drop).finish x m =
      match m.pair? jobId with
      | none => (m, .error (.notFound jobId))
      | some p => (if drop then .forget jobId else finished).finish x ((m.without jobId).tell [p]) := by
  rw [finish_step (by simp [rank])]
  simp only [step]
  cases m.pair? jobId with
  | none => simp only [fail, finish_ended]
  | some p => exact finish_tell x (m.without jobId) [p] _

end Call

/-! ### What each operation does -/

section Equations

variable (m : Manager) {x : Surroundings}

theorem add_eq (x : Surroundings) (s : Subscription) (e : Endpoint) : m.add x s e =
    if m.isActive s.jobId then (m, .error (.duplicateJob s.jobId))
    else match Call.tried m x s e with
      | .error fault => (m, .error (.ofAdapter fault))
      | .ok () => (m.start s e, .ok ()) := by
  unfold add
  rw [Call.finish_check]
  simp only [Bool.false_eq_true, ↓reduceIte, Call.finished, Call.finish_ended]

theorem remove_eq (jobId : String) : m.remove jobId =
    match m.pair? jobId with
    | none => (m, .error (.notFound jobId))
    | some p => ((m.without jobId).tell [p], .ok ()) := by
  unfold remove
  rw [Call.finish_take]
  simp only [Bool.false_eq_true, ↓reduceIte, Call.finished, Call.finish_ended]

/-- To register is to add at the endpoint that the store has, and then to store. -/
theorem register_eq (saves : x.save = .ok ()) (s : Subscription) : m.register x s =
    match m.store.endpoint? s.endpoint with
    | .error fault => (m, .error (.store fault))
    | .ok e =>
      if m.isActive s.jobId then (m, .error (.duplicateJob s.jobId))
      else match Call.tried m x s e with
        | .error fault => (m, .error (.ofAdapter fault))
        | .ok () => ({ m.start s e with store := m.store.saveSubscription s }, .ok ()) := by
  unfold register
  rw [Call.finish_step (by simp [Call.rank])]
  simp only [Call.step]
  cases m.store.endpoint? s.endpoint with
  | error fault => simp only [Call.fail, Call.finish_ended]
  | ok e =>
    have hsave : (Call.save s).finish x (m.start s e) =
        ({ m.start s e with store := m.store.saveSubscription s }, .ok ()) := by
      rw [Call.finish_step (by simp [Call.rank])]
      simp only [Call.step, saves, Call.finished, Call.finish_ended]
      rfl
    simp only [Call.finish_check, ↓reduceIte, hsave]

/-- To unregister is to remove, and then to drop from the store. -/
theorem unregister_eq (jobId : String) : m.unregister jobId =
    match m.pair? jobId with
    | none => (m, .error (.notFound jobId))
    | some p => match m.store.deleteSubscription jobId with
      | .error fault => ((m.without jobId).tell [p], .error (.store fault))
      | .ok store => ({ (m.without jobId).tell [p] with store }, .ok ()) := by
  unfold unregister
  rw [Call.finish_take]
  cases m.pair? jobId with
  | none => rfl
  | some p =>
    simp only [↓reduceIte]
    rw [Call.finish_step (by simp [Call.rank])]
    have hstore : ((m.without jobId).tell [p]).store = m.store := rfl
    simp only [Call.step, hstore]
    cases m.store.deleteSubscription jobId <;> simp only [Call.fail, Call.finished, Call.finish_ended]

theorem registerEndpoint_eq (saves : x.save = .ok ()) (e : Endpoint) : m.registerEndpoint x e =
    match e.validate with
    | .error fault => (m, .error (.config fault))
    | .ok () => ({ m with store := m.store.saveEndpoint e }, .ok ()) := by
  unfold registerEndpoint
  rw [Call.finish_step (by simp [Call.rank])]
  simp only [Call.step, saves]
  cases e.validate <;> simp only [Call.fail, Call.finished, Call.finish_ended]

theorem shutdownAll_eq : m.shutdownAll = { m with active := [] }.tell m.active := by
  unfold shutdownAll
  rw [Call.finish_step (by simp [Call.rank])]
  simp only [Call.step, Call.finish_tell, Call.finished, Call.finish_ended]

end Equations

/-! ### What an operation leaves behind -/

/-- How a manager can stand after something was asked of it, and how that ended, if the store keeps what it is given. -/
inductive Request.Outcome (m : Manager) : Request → Manager → Verdict → Prop where
  | refused (r : Request) (fault : SubscriptionFault) : Outcome m r m (.error fault)
  | added {s : Subscription} {e : Endpoint} (idle : m.isActive s.jobId = false) :
      Outcome m (.add s e) (m.start s e) (.ok ())
  | removed {jobId : String} {p : Pair} (found : m.pair? jobId = some p) :
      Outcome m (.remove jobId) ((m.without jobId).tell [p]) (.ok ())
  | registered {s : Subscription} {e : Endpoint} (idle : m.isActive s.jobId = false)
      (known : m.store.endpoint? s.endpoint = .ok e) :
      Outcome m (.register s) { m.start s e with store := m.store.saveSubscription s } (.ok ())
  | unregistered {jobId : String} {p : Pair} {store : Store} (found : m.pair? jobId = some p)
      (deleted : m.store.deleteSubscription jobId = .ok store) :
      Outcome m (.unregister jobId) { (m.without jobId).tell [p] with store } (.ok ())
  /-- the pair was stopped, but there was nothing to drop from the store -/
  | stranded {jobId : String} {p : Pair} {fault : StoreFault} (found : m.pair? jobId = some p)
      (unstored : m.store.deleteSubscription jobId = .error fault) :
      Outcome m (.unregister jobId) ((m.without jobId).tell [p]) (.error (.store fault))
  | endpointStored {e : Endpoint} (valid : e.validate = .ok ()) :
      Outcome m (.registerEndpoint e) { m with store := m.store.saveEndpoint e } (.ok ())
  | stopped : Outcome m .shutdownAll ({ m with active := [] }.tell m.active) (.ok ())

/-- What is asked of a manager has one of the outcomes. -/
theorem Request.perform_outcome (m : Manager) {x : Surroundings} (saves : x.save = .ok ()) (r : Request) :
    r.Outcome m (r.perform m x).1 (r.perform m x).2 := by
  cases r with
  | add s e =>
    simp only [perform, add_eq]
    by_cases hactive : m.isActive s.jobId = true
    · rw [if_pos hactive]
      exact .refused _ _
    · rw [if_neg hactive]
      cases Call.tried m x s e with
      | error fault => exact .refused _ _
      | ok _ => exact .added (by simpa using hactive)
  | remove jobId =>
    simp only [perform, remove_eq]
    cases hpair : m.pair? jobId with
    | none => exact .refused _ _
    | some p => exact .removed hpair
  | register s =>
    simp only [perform, register_eq m saves]
    cases hknown : m.store.endpoint? s.endpoint with
    | error fault => exact .refused _ _
    | ok e =>
      by_cases hactive : m.isActive s.jobId = true
      · simp only [if_pos hactive]
        exact .refused _ _
      · simp only [if_neg hactive]
        cases Call.tried m x s e with
        | error fault => exact .refused _ _
        | ok _ => exact .registered (by simpa using hactive) hknown
  | unregister jobId =>
    simp only [perform, unregister_eq]
    cases hpair : m.pair? jobId with
    | none => exact .refused _ _
    | some p =>
      cases hdelete : m.store.deleteSubscription jobId with
      | error fault => exact .stranded hpair hdelete
      | ok store => exact .unregistered hpair hdelete
  | registerEndpoint e =>
    simp only [perform, registerEndpoint_eq m saves]
    cases hvalid : e.validate with
    | error fault => exact .refused _ _
    | ok _ => exact .endpointStored hvalid
  | shutdownAll =>
    simp only [perform, shutdownAll_eq]
    exact .stopped

/-! ### Failing -/

/-- A job is active exactly if there is a pair for it. -/
theorem isActive_iff {m : Manager} {jobId : String} : m.isActive jobId = true ↔ ∃ p, m.pair? jobId = some p := by
  rw [← Option.isSome_iff_exists]
  unfold isActive pair?
  rw [List.find?_isSome, List.any_eq_true]

/-- Without the pair of an active job, the table is another one. -/
theorem active_without_ne {m : Manager} {jobId : String} (h : m.isActive jobId = true) :
    (m.without jobId).active ≠ m.active := by
  intro hsame
  have hgone : (m.without jobId).isActive jobId = false := by
    rw [isActive_without]
    simp
  unfold isActive at h hgone
  rw [hsame, h] at hgone
  cases hgone

/-- An operation that stops the pair of a job and fails after that: the job is to be unregistered, and it is active
but not stored. -/
def Operation.Strands (m : Manager) : Operation → Prop
  | .ask (.unregister jobId) _ => m.isActive jobId = true ∧ m.store.hasJob jobId = false
  | _ => False

/-- An operation that strands no job changes nothing when it fails. -/
theorem Operation.perform_eq_of_failed {m : Manager} {op : Operation} {fault : SubscriptionFault}
    (failed : (op.perform m).2 = .error fault) (h : ¬ op.Strands m) : (op.perform m).1 = m := by
  cases op with
  | bootstrap trial => cases failed
  | ask r trial =>
    have houtcome : r.Outcome m (r.perform m { trial }).1 (r.perform m { trial }).2 := r.perform_outcome m rfl
    change (r.perform m { trial }).2 = .error fault at failed
    change (r.perform m { trial }).1 = m
    rw [failed] at houtcome
    generalize (r.perform m { trial }).1 = m' at houtcome
    cases houtcome with
    | refused => rfl
    | stranded hfound hunstored =>
      exact absurd ⟨isActive_iff.mpr ⟨_, hfound⟩, Store.hasJob_of_not_deleted hunstored⟩ h

/-- An operation that strands a job stops its pair, and drops nothing from the store. -/
theorem Operation.perform_of_strands {m : Manager} {op : Operation} (h : op.Strands m) : ∃ jobId p trial,
    op = .ask (.unregister jobId) trial ∧ m.pair? jobId = some p ∧
      op.perform m = ((m.without jobId).tell [p], .error (.store (.subscriptionNotFound jobId))) := by
  cases op with
  | bootstrap trial => exact h.elim
  | ask r trial =>
    cases r with
    | unregister jobId =>
      obtain ⟨hactive, hunstored⟩ := h
      obtain ⟨p, hpair⟩ := isActive_iff.mp hactive
      have hdelete : m.store.deleteSubscription jobId = .error (.subscriptionNotFound jobId) := by
        unfold Store.deleteSubscription
        rw [hunstored, if_neg Bool.false_ne_true]
      refine ⟨jobId, p, trial, rfl, hpair, ?_⟩
      simp only [perform, Request.perform, unregister_eq, hpair, hdelete]
    | _ => exact h.elim

/-! ### Active jobs and stored jobs -/

/-- Each active job is stored. -/
def Recorded (m : Manager) : Prop := ∀ jobId, m.isActive jobId = true → m.store.hasJob jobId = true

/-- An operation that starts only what is stored. -/
def Operation.ThroughStore : Operation → Prop
  | .ask (.add _ _) _ => False
  | _ => True

theorem recorded_fresh (substrate : SubstrateSettings) (snap : Snapshot) : (fresh substrate snap).Recorded :=
  nofun

/-- Fewer active jobs over the same store are still stored. -/
theorem Recorded.without {m : Manager} (h : m.Recorded) (jobId : String) : (m.without jobId).Recorded := by
  intro job hactive
  rw [isActive_without, Bool.and_eq_true] at hactive
  exact h job hactive.1

/-- To start what is stored keeps each active job stored. -/
theorem Recorded.start {m : Manager} (h : m.Recorded) {s : Subscription} (stored : m.store.hasJob s.jobId = true)
    (e : Endpoint) : (m.start s e).Recorded := by
  intro jobId hactive
  rw [isActive_start, Bool.or_eq_true, decide_eq_true_eq] at hactive
  rcases hactive with hactive | rfl
  · exact h jobId hactive
  · exact stored

/-- Whatever comes of a request that starts only what is stored, each active job stays stored. -/
theorem Recorded.outcome {m m' : Manager} {r : Request} {v : Verdict} (h : m.Recorded)
    (stores : ∀ s e, r ≠ .add s e) (houtcome : r.Outcome m m' v) : m'.Recorded := by
  cases houtcome with
  | refused => exact h
  | added idle => exact absurd rfl (stores _ _)
  | removed hfound => exact h.without _
  | stranded hfound hunstored => exact h.without _
  | stopped => exact nofun
  | endpointStored hvalid => exact h
  | @registered s e idle hknown =>
    have hsaved : ∀ jobId, (m.store.saveSubscription s).hasJob jobId = (m.store.hasJob jobId || s.jobId = jobId) :=
      m.store.hasJob_saveSubscription s
    have hbefore : Recorded { m with store := m.store.saveSubscription s } := by
      intro jobId hactive
      have hstored : m.store.hasJob jobId = true := h jobId hactive
      simp only [hsaved, hstored, Bool.true_or]
    refine hbefore.start ?_ e
    simp only [hsaved, decide_true, Bool.or_true]
  | @unregistered gone p store hfound hdeleted =>
    intro jobId hactive
    have hleft : (m.without gone).isActive jobId = true := hactive
    rw [isActive_without, Bool.and_eq_true] at hleft
    change store.hasJob jobId = true
    rw [Store.hasJob_deleteSubscription hdeleted, h jobId hleft.1, hleft.2]
    rfl

/-- What each beginning keeps, starting in turn keeps. -/
theorem startAll_keeps {σ : Type} {P : σ → Prop} {begin : Nat → σ → Subscription → Endpoint → σ × Verdict}
    {store : Store} : ∀ {l : List Subscription} {place : Nat} {state : σ},
    (∀ place state, ∀ s ∈ l, ∀ e, P state → P (begin place state s e).1) → P state →
      P (startAll begin store place state l).1
  | [], _, _, _, h => h
  | s :: rest, place, state, keep, h => by
    have hrest : ∀ place state, ∀ s ∈ rest, ∀ e, P state → P (begin place state s e).1 :=
      fun place state s hs => keep place state s (List.mem_cons_of_mem _ hs)
    unfold startAll
    cases store.endpoint? s.endpoint with
    | error fault => exact startAll_keeps hrest h
    | ok e => exact startAll_keeps hrest (keep place state s List.mem_cons_self e h)

/-- To start what is stored keeps each active job stored. -/
theorem Recorded.bootstrap {m : Manager} (h : m.Recorded) (trial : Nat → Except AdapterFault Unit) :
    (m.bootstrap trial).1.Recorded := by
  -- all that is started comes from the list of the store, which stays what it is
  have hkept : (m.bootstrap trial).1.store = m.store ∧ (m.bootstrap trial).1.Recorded := by
    refine startAll_keeps (P := fun m' : Manager => m'.store = m.store ∧ m'.Recorded)
      (fun place m' s hs e hm' => ?_) ⟨rfl, h⟩
    have houtcome : (Request.add s e).Outcome m' (m'.add { trial := trial place } s e).1
        (m'.add { trial := trial place } s e).2 := (Request.add s e).perform_outcome m' rfl
    generalize m'.add { trial := trial place } s e = result at houtcome
    obtain ⟨m'', v⟩ := result
    cases houtcome with
    | refused => exact hm'
    | added idle =>
      have hstored : m'.store.hasJob s.jobId = true := by
        rw [hm'.1]
        exact Store.hasJob_iff.mpr ⟨s, hs, rfl⟩
      exact ⟨hm'.1, hm'.2.start hstored e⟩
  exact hkept.2

/-- An operation that starts only what is stored keeps each active job stored. -/
theorem Recorded.perform {m : Manager} (h : m.Recorded) {op : Operation} (stores : op.ThroughStore) :
    (op.perform m).1.Recorded := by
  cases op with
  | bootstrap trial => exact h.bootstrap trial
  | ask r trial =>
    refine h.outcome (fun s e hadd => ?_) (r.perform_outcome m rfl)
    rw [hadd] at stores
    exact stores

/-- Operations that start only what is stored keep each active job stored. -/
theorem Recorded.performAll {m : Manager} (h : m.Recorded) {ops : List Operation}
    (stores : ∀ op ∈ ops, op.ThroughStore) : (m.performAll ops).Recorded := by
  induction ops generalizing m with
  | nil => exact h
  | cons op ops ih =>
    obtain ⟨hop, hops⟩ := List.forall_mem_cons.mp stores
    exact ih (h.perform hop) hops

/-- Where each active job is stored, no operation strands a job. -/
theorem Recorded.not_strands {m : Manager} (h : m.Recorded) (op : Operation) : ¬ op.Strands m := by
  intro hstrands
  cases op with
  | bootstrap trial => exact hstrands
  | ask r trial =>
    cases r with
    | unregister jobId => exact Bool.false_ne_true (hstrands.2.symm.trans (h jobId hstrands.1))
    | _ => exact hstrands

/-! ### The pair of a job -/

theorem pair?_start {m : Manager} {s : Subscription} (idle : m.isActive s.jobId = false) (e : Endpoint)
    (jobId : String) : (m.start s e).pair? jobId =
      if s.jobId = jobId then some ⟨m.started.length, s, e.name⟩ else m.pair? jobId := by
  unfold pair? start
  rw [List.find?_append]
  by_cases h : s.jobId = jobId
  · subst h
    have hnone : m.active.find? (·.jobId = s.jobId) = none := by
      rw [List.find?_eq_none]
      intro p hp
      simpa using isActive_eq_false.mp idle p hp
    rw [if_pos rfl, hnone]
    simp [Pair.jobId]
  · rw [if_neg h]
    simp [Pair.jobId, h]

theorem pair?_without (m : Manager) (gone jobId : String) :
    (m.without gone).pair? jobId = if gone = jobId then none else m.pair? jobId := by
  unfold pair? without
  rw [List.find?_filter]
  by_cases h : gone = jobId
  · subst h
    rw [if_pos rfl, List.find?_eq_none]
    simp
  · rw [if_neg h]
    congr 1
    funext p
    by_cases hp : p.jobId = jobId
    · have hne : jobId ≠ gone := fun heq => h heq.symm
      simp [hp, hne]
    · simp [hp]

/-! ### Registered and unregistered -/

/-- A registration goes well if the job is idle, and the endpoint is stored and can be connected to. -/
theorem register_eq_ok_iff {m : Manager} {x : Surroundings} (saves : x.save = .ok ()) {s : Subscription} :
    (m.register x s).2 = .ok () ↔
      m.isActive s.jobId = false ∧ ∃ e, m.store.endpoint? s.endpoint = .ok e ∧ Call.tried m x s e = .ok () := by
  rw [register_eq m saves]
  cases hknown : m.store.endpoint? s.endpoint with
  | error fault => simp
  | ok e =>
    by_cases hactive : m.isActive s.jobId = true
    · simp [hactive]
    · cases htried : Call.tried m x s e <;> simp [hactive, htried]

/-- An unregistration goes well if the job is active and stored. -/
theorem unregister_eq_ok_iff {m : Manager} {jobId : String} :
    (m.unregister jobId).2 = .ok () ↔ m.isActive jobId = true ∧ m.store.hasJob jobId = true := by
  rw [unregister_eq, isActive_iff]
  cases m.pair? jobId with
  | none => simp
  | some p => cases hstored : m.store.hasJob jobId <;> simp [Store.deleteSubscription, hstored]

/-- A registration that goes well starts a pair with the subscription, stores it in the place of the first one for its
job, and leaves all other jobs alone. -/
theorem register_ok {m : Manager} {x : Surroundings} (saves : x.save = .ok ()) {s : Subscription}
    (done : (m.register x s).2 = .ok ()) :
    (∃ p, (m.register x s).1.pair? s.jobId = some p ∧ p.subscription = s) ∧
      (m.register x s).1.store.subscriptionsOf s.jobId = s :: (m.store.subscriptionsOf s.jobId).tail ∧
      ∀ other, other ≠ s.jobId → (m.register x s).1.pair? other = m.pair? other ∧
        (m.register x s).1.store.subscriptionsOf other = m.store.subscriptionsOf other := by
  have houtcome : (Request.register s).Outcome m (m.register x s).1 (m.register x s).2 :=
    (Request.register s).perform_outcome m saves
  rw [done] at houtcome
  generalize (m.register x s).1 = m' at houtcome
  cases houtcome with
  | @registered _ e idle hknown =>
    refine ⟨⟨⟨m.started.length, s, e.name⟩, ?_, rfl⟩, ?_, fun other hother => ⟨?_, ?_⟩⟩
    · exact (pair?_start idle e s.jobId).trans (if_pos rfl)
    · exact (m.store.subscriptionsOf_saveSubscription s s.jobId).trans (if_pos rfl)
    · exact (pair?_start idle e other).trans (if_neg (Ne.symm hother))
    · exact (m.store.subscriptionsOf_saveSubscription s other).trans (if_neg (Ne.symm hother))

/-- An unregistration that goes well leaves nothing of the job, and all other jobs as they were. -/
theorem unregister_ok {m : Manager} {jobId : String} (done : (m.unregister jobId).2 = .ok ()) :
    (m.unregister jobId).1.isActive jobId = false ∧ (m.unregister jobId).1.store.hasJob jobId = false ∧
      (m.unregister jobId).1.store.endpoints = m.store.endpoints ∧
      ∀ other, other ≠ jobId → (m.unregister jobId).1.pair? other = m.pair? other ∧
        (m.unregister jobId).1.store.subscriptionsOf other = m.store.subscriptionsOf other := by
  have houtcome : (Request.unregister jobId).Outcome m (m.unregister jobId).1 (m.unregister jobId).2 :=
    (Request.unregister jobId).perform_outcome m (x := {}) rfl
  rw [done] at houtcome
  generalize (m.unregister jobId).1 = m' at houtcome
  cases houtcome with
  | @unregistered _ p store hfound hdeleted =>
    refine ⟨?_, ?_, Store.endpoints_deleteSubscription hdeleted, fun other hother => ⟨?_, ?_⟩⟩
    · have hgone : (m.without jobId).isActive jobId = false := by
        rw [isActive_without]
        simp
      exact hgone
    · change store.hasJob jobId = false
      rw [Store.hasJob_deleteSubscription hdeleted]
      simp
    · exact (pair?_without m jobId other).trans (if_neg (Ne.symm hother))
    · exact (Store.subscriptionsOf_deleteSubscription hdeleted other).trans (if_neg (Ne.symm hother))

/-! ### Over all operations -/

/-- **When a failing operation changes nothing.** An operation that fails leaves the active pairs and the store as they
were, and indeed the whole manager, unless it unregisters a job that is active but not stored. Then the store is as it
was, but the pair of the job has been taken out and told to stop. This never comes about if all that was started is
stored. -/
theorem failed_unchanged_iff (substrate : SubstrateSettings) (snap : Snapshot) (ops : List Operation) (op : Operation)
    {fault : SubscriptionFault} (failed : (op.perform ((fresh substrate snap).performAll ops)).2 = .error fault) :
    let m := (fresh substrate snap).performAll ops
    let m' := (op.perform m).1
    ((m'.active = m.active ∧ m'.store = m.store) ↔ ¬ op.Strands m) ∧
      (¬ op.Strands m → m' = m) ∧
      (op.Strands m → ∃ jobId p trial, op = .ask (.unregister jobId) trial ∧ m.pair? jobId = some p ∧
        m' = (m.without jobId).tell [p] ∧ fault = .store (.subscriptionNotFound jobId)) ∧
      ((∀ o ∈ ops, o.ThroughStore) → m' = m) := by
  intro m m'
  have hrest : ¬ op.Strands m → m' = m := Operation.perform_eq_of_failed failed
  refine ⟨⟨fun hsame hstrands => ?_, fun h => ?_⟩, hrest, fun hstrands => ?_, fun hstores => hrest ?_⟩
  · obtain ⟨jobId, p, trial, -, hpair, hperform⟩ := Operation.perform_of_strands hstrands
    have hwithout : m' = (m.without jobId).tell [p] := congrArg Prod.fst hperform
    rw [hwithout] at hsame
    exact active_without_ne (isActive_iff.mpr ⟨p, hpair⟩) hsame.1
  · rw [hrest h]
    exact ⟨rfl, rfl⟩
  · obtain ⟨jobId, p, trial, hop, hpair, hperform⟩ := Operation.perform_of_strands hstrands
    have hfault : Except.error fault = Except.error (.store (.subscriptionNotFound jobId)) :=
      failed.symm.trans (congrArg Prod.snd hperform)
    exact ⟨jobId, p, trial, hop, hpair, congrArg Prod.fst hperform, Except.error.inj hfault⟩
  · exact ((recorded_fresh substrate snap).performAll hstores).not_strands op

/-- A job is started, and not stored. -/
def unstoredOperations : List Operation := [.ask (.add sampleSubscription sampleEndpoint)]

theorem performAll_unstored : (fresh {} {}).performAll unstoredOperations =
    (fresh {} {}).start sampleSubscription sampleEndpoint := by
  change ((fresh {} {}).add {} sampleSubscription sampleEndpoint).1 = _
  rw [add_eq]
  rfl

theorem strands_unstored :
    (Operation.ask (.unregister "job")).Strands ((fresh {} {}).performAll unstoredOperations) := by
  rw [performAll_unstored]
  exact ⟨rfl, rfl⟩

theorem failed_unchanged_iff_unstored :
    let m := (fresh {} {}).performAll unstoredOperations
    let m' := ((Operation.ask (.unregister "job")).perform m).1
    (Operation.ask (.unregister "job")).Strands m ∧ ¬ (m'.active = m.active ∧ m'.store = m.store) := by
  intro m m'
  obtain ⟨jobId, p, trial, -, -, hperform⟩ := Operation.perform_of_strands strands_unstored
  have hfailed := congrArg Prod.snd hperform
  have hiff := (failed_unchanged_iff {} {} unstoredOperations (.ask (.unregister "job")) hfailed).1
  exact ⟨strands_unstored, fun hsame => hiff.mp hsame strands_unstored⟩

/-- Not every operation that fails leaves the manager as it was: to unregister a job that was never stored stops its
pair. -/
theorem unregister_halfway : ¬ ∀ (substrate : SubstrateSettings) (snap : Snapshot) (ops : List Operation) (r : Request)
    (trial : Except AdapterFault Unit) (fault : SubscriptionFault),
    (r.perform ((fresh substrate snap).performAll ops) { trial }).2 = .error fault →
      (r.perform ((fresh substrate snap).performAll ops) { trial }).1.active =
          ((fresh substrate snap).performAll ops).active ∧
        (r.perform ((fresh substrate snap).performAll ops) { trial }).1.store =
          ((fresh substrate snap).performAll ops).store := by
  intro h
  obtain ⟨jobId, p, trial, -, hpair, hperform⟩ := Operation.perform_of_strands strands_unstored
  have hsame := h {} {} unstoredOperations (.unregister "job") (.ok ()) _ (congrArg Prod.snd hperform)
  have hleft : ((Operation.ask (.unregister "job")).perform ((fresh {} {}).performAll unstoredOperations)).1 =
      (((fresh {} {}).performAll unstoredOperations).without jobId).tell [p] := congrArg Prod.fst hperform
  exact active_without_ne (isActive_iff.mpr ⟨p, hpair⟩) ((congrArg Manager.active hleft).symm.trans hsame.1)

/-- **Everything active survives a restart.** From the store of any snapshot, and as long as only registrations and
the start of what is stored start anything, each active job is stored. A registration goes well if the job is idle, and
the endpoint is stored and can be connected to: then the job is active with the very subscription that is stored for
it in the place of the first one before. An unregistration goes well if the job is active: then it is neither active
nor stored. Other jobs are as they were. -/
theorem active_recorded (substrate : SubstrateSettings) (snap : Snapshot) {ops : List Operation}
    (stores : ∀ op ∈ ops, op.ThroughStore) :
    let m := (fresh substrate snap).performAll ops
    (∀ jobId, m.isActive jobId = true → m.store.hasJob jobId = true) ∧
      (∀ s trial,
        ((m.register { trial } s).2 = .ok () ↔ m.isActive s.jobId = false ∧
          ∃ e, m.store.endpoint? s.endpoint = .ok e ∧ Call.tried m { trial } s e = .ok ()) ∧
        ((m.register { trial } s).2 = .ok () →
          let m' := (m.register { trial } s).1
          (∃ p, m'.pair? s.jobId = some p ∧ p.subscription = s) ∧ s ∈ m'.store.subscriptions ∧
            m'.store.subscriptionsOf s.jobId = s :: (m.store.subscriptionsOf s.jobId).tail ∧
            ∀ other, other ≠ s.jobId →
              m'.pair? other = m.pair? other ∧ m'.store.subscriptionsOf other = m.store.subscriptionsOf other)) ∧
      ∀ jobId,
        ((m.unregister jobId).2 = .ok () ↔ m.isActive jobId = true) ∧
        ((m.unregister jobId).2 = .ok () →
          let m' := (m.unregister jobId).1
          m'.isActive jobId = false ∧ m'.store.hasJob jobId = false ∧ m'.store.endpoints = m.store.endpoints ∧
            ∀ other, other ≠ jobId →
              m'.pair? other = m.pair? other ∧ m'.store.subscriptionsOf other = m.store.subscriptionsOf other) := by
  intro m
  have hrecorded : m.Recorded := (recorded_fresh substrate snap).performAll stores
  refine ⟨hrecorded, fun s trial => ⟨register_eq_ok_iff rfl, fun done => ?_⟩, fun jobId => ⟨?_, unregister_ok⟩⟩
  · obtain ⟨hpair, hstored, hothers⟩ := register_ok rfl done
    have hmem : s ∈ (m.register { trial } s).1.store.subscriptionsOf s.jobId := by
      rw [hstored]
      exact List.mem_cons_self
    exact ⟨hpair, List.mem_of_mem_filter hmem, hstored, hothers⟩
  · rw [unregister_eq_ok_iff]
    exact ⟨And.left, fun hactive => ⟨hactive, hrecorded jobId hactive⟩⟩

/-- A job is registered, all is shut down, and what is stored is started again. -/
def restartOperations : List Operation :=
  [.ask (.registerEndpoint sampleEndpoint), .ask (.register sampleSubscription), .ask .shutdownAll,
    .bootstrap fun _ => .ok ()]

theorem throughStore_restart : ∀ op ∈ restartOperations, op.ThroughStore := by
  simp [restartOperations, Operation.ThroughStore]

theorem isActive_restart : ((fresh {} {}).performAll restartOperations).isActive "job" = true := by
  simp only [restartOperations, performAll, List.foldl_cons, List.foldl_nil, Operation.perform, Request.perform]
  rw [registerEndpoint_eq _ rfl, register_eq _ rfl, shutdownAll_eq]
  unfold bootstrap
  simp only [add_eq]
  rfl

theorem active_recorded_restart :
    let m := (fresh {} {}).performAll restartOperations
    (∀ op ∈ restartOperations, op.ThroughStore) ∧ m.store.hasJob "job" = true ∧
      (m.unregister "job").2 = .ok () ∧ (m.unregister "job").1.store.hasJob "job" = false := by
  intro m
  obtain ⟨hrecorded, -, hunregister⟩ := active_recorded {} {} throughStore_restart
  have hdone : (m.unregister "job").2 = .ok () := (hunregister "job").1.mpr isActive_restart
  exact ⟨throughStore_restart, hrecorded "job" isActive_restart, hdone, ((hunregister "job").2 hdone).2.1⟩

end Manager
end OracleRelay
