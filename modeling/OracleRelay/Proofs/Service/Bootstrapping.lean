/-
# Starting what is stored

The stored subscriptions are gone through in their order, and each has one turn: it is started, if its endpoint is
stored, its adapter can be built and tested, and its job is not active by then (`Manager.turn_cases`). So of the
subscriptions for a job that was idle the first one that passes is started, and all others are passed over; what cannot
be started leaves no trace (`Manager.bootstrapBy_without`), and after it all that passes is active, so that nothing is
left to start a second time. How building and testing go is arbitrary for each place of the store; the adapters that
the relay has itself are one case of it (`Manager.bootstrap_eq_bootstrapBy`).

Key definitions: `Manager.Outcomes`, `Manager.bootstrapBy`, `Manager.Passes`, `Manager.Starts`, `Manager.Went`.
Key theorems: `Manager.startAll_append`, `Manager.startAll_simulates`, `Manager.turn_cases`, `Manager.went`,
`Manager.bootstrapBy_without`, `Manager.bootstrap_exactly`.
-/
import Mathlib.Data.List.Induction
import OracleRelay.Proofs.Service.Operations

namespace OracleRelay
namespace Manager

/-- How it goes to build the adapter for the subscription at a place of the store and to test its connection. -/
abbrev Outcomes : Type := Nat → Subscription → Endpoint → Except AdapterFault Unit

/-- The outcomes without those for a place, which the next ones move up to. -/
def Outcomes.without (outcomes : Outcomes) (place : Nat) : Outcomes :=
  fun i => outcomes (if i < place then i else i + 1)

/-- The manager over another store. -/
def withStore (m : Manager) (store : Store) : Manager := { m with store }

/-- Starts a subscription at an endpoint, where building and testing go as given. -/
def addBy (m : Manager) (outcome : Except AdapterFault Unit) (s : Subscription) (e : Endpoint) : Manager × Verdict :=
  if m.isActive s.jobId then (m, .error (.duplicateJob s.jobId))
  else match outcome with
    | .error fault => (m, .error (.ofAdapter fault))
    | .ok () => (m.start s e, .ok ())

/-- The turn of the subscription at a place. -/
def beginBy (outcomes : Outcomes) (place : Nat) (m : Manager) (s : Subscription) (e : Endpoint) : Manager × Verdict :=
  m.addBy (outcomes place s e) s e

/-- Starts the stored subscriptions that are not active, and counts them, where building and testing go as given. -/
def bootstrapBy (m : Manager) (outcomes : Outcomes) : Manager × Nat :=
  startAll (beginBy outcomes) m.store 0 m m.store.subscriptions

/-- How it goes with the adapters of the relay itself, which are built as they are planned. -/
def planned (m : Manager) (trial : Nat → Except AdapterFault Unit) : Outcomes :=
  fun place s e => Call.tried m { trial := trial place } s e

/-- The endpoint of the subscription at a place is stored, and building and testing go well. -/
structure Passes (store : Store) (outcomes : Outcomes) (l : List Subscription) (place : Nat) (s : Subscription)
    (e : Endpoint) : Prop where
  listed : l[place]? = some s
  known : store.endpoint? s.endpoint = .ok e
  passes : outcomes place s e = .ok ()

/-- The subscription at a place is the first one that passes for a job that is idle. -/
structure Starts (m : Manager) (outcomes : Outcomes) (l : List Subscription) (place : Nat) (s : Subscription)
    (e : Endpoint) : Prop extends Passes m.store outcomes l place s e where
  idle : m.isActive s.jobId = false
  first : ∀ earlier < place, ∀ s' e', Passes m.store outcomes l earlier s' e' → s'.jobId ≠ s.jobId

/-- A manager that went through some subscriptions has started those that start, in their order. -/
structure Went (m : Manager) (outcomes : Outcomes) (l : List Subscription) (m' : Manager) (count : Nat)
    (new : List Pair) : Prop where
  result : m' = { m with active := m.active ++ new, started := m.started ++ new }
  counted : count = new.length
  distinct : (new.map (·.jobId)).Nodup
  sound : ∀ p ∈ new, ∃ place e, Starts m outcomes l place p.subscription e ∧ e.name = p.endpoint
  complete : ∀ place s e, Passes m.store outcomes l place s e → m'.isActive s.jobId = true

/-! ### Starting in turn -/

/-- What a verdict adds to the count. -/
def ones : Verdict → Nat
  | .ok () => 1
  | .error _ => 0

section Turns

variable {σ τ : Type} (begin : Nat → σ → Subscription → Endpoint → σ × Verdict)
  (begin' : Nat → τ → Subscription → Endpoint → τ × Verdict) (store : Store) {store' : Store}

theorem startAll_cons (place : Nat) (state : σ) (s : Subscription) (rest : List Subscription) :
    startAll begin store place state (s :: rest) =
      match store.endpoint? s.endpoint with
      | .error _ => startAll begin store (place + 1) state rest
      | .ok e =>
        let turn := begin place state s e
        let later := startAll begin store (place + 1) turn.1 rest
        (later.1, ones turn.2 + later.2) := by
  rw [startAll]
  cases store.endpoint? s.endpoint with
  | error fault => rfl
  | ok e =>
    cases verdict : (begin place state s e).2 with
    | error fault => simp [verdict, ones]
    | ok _ => simp [verdict, ones, Nat.add_comm]

/-- What is started in two parts is started in turn. -/
theorem startAll_append (after : List Subscription) : ∀ (before : List Subscription) (place : Nat) (state : σ),
    startAll begin store place state (before ++ after) =
      let front := startAll begin store place state before
      let back := startAll begin store (place + before.length) front.1 after
      (back.1, front.2 + back.2)
  | [], place, state => by simp [startAll]
  | s :: before, place, state => by
    have next : place + (s :: before).length = place + 1 + before.length := by
      rw [List.length_cons]
      omega
    rw [List.cons_append, startAll_cons, startAll_cons, next]
    cases store.endpoint? s.endpoint with
    | error fault => exact startAll_append after before (place + 1) state
    | ok e =>
      simp only [startAll_append after before (place + 1), Nat.add_assoc]

/-- Where each beginning goes alike from states that are related, so does starting in turn. -/
theorem startAll_simulates {store : Store} {R : σ → τ → Prop} (known : store'.endpoints = store.endpoints) :
    ∀ (l : List Subscription) (place place' : Nat) {state : σ} {state' : τ},
      (∀ i < l.length, ∀ state state' s e, R state state' →
        R (begin (place + i) state s e).1 (begin' (place' + i) state' s e).1 ∧
          (begin (place + i) state s e).2 = (begin' (place' + i) state' s e).2) →
      R state state' →
        R (startAll begin store place state l).1 (startAll begin' store' place' state' l).1 ∧
          (startAll begin store place state l).2 = (startAll begin' store' place' state' l).2
  | [], _, _, _, _, _, related => ⟨related, rfl⟩
  | s :: l, place, place', state, state', alike, related => by
    have later : ∀ i < l.length, ∀ state state' s e, R state state' →
        R (begin (place + 1 + i) state s e).1 (begin' (place' + 1 + i) state' s e).1 ∧
          (begin (place + 1 + i) state s e).2 = (begin' (place' + 1 + i) state' s e).2 := by
      intro i hi
      have shifted := alike (i + 1) (by rw [List.length_cons]; omega)
      rwa [Nat.add_comm i, ← Nat.add_assoc, ← Nat.add_assoc] at shifted
    have same : store'.endpoint? s.endpoint = store.endpoint? s.endpoint := by
      rw [Store.endpoint?, Store.endpoint?, known]
    rw [startAll_cons, startAll_cons, same]
    cases store.endpoint? s.endpoint with
    | error fault => exact startAll_simulates known l (place + 1) (place' + 1) later related
    | ok e =>
      obtain ⟨next, verdict⟩ := alike 0 (Nat.succ_pos _) state state' s e related
      obtain ⟨rest, count⟩ := startAll_simulates known l (place + 1) (place' + 1) later next
      rw [Nat.add_zero, Nat.add_zero] at verdict
      simp only [Nat.add_zero] at rest count
      exact ⟨rest, by simp only [verdict, count]⟩

end Turns

/-- To add is to refuse, or to start what passes for an idle job. -/
theorem addBy_cases (m : Manager) (outcome : Except AdapterFault Unit) (s : Subscription) (e : Endpoint) :
    (∃ fault, m.addBy outcome s e = (m, .error fault) ∧ (outcome = .ok () → m.isActive s.jobId = true)) ∨
    m.addBy outcome s e = (m.start s e, .ok ()) ∧ outcome = .ok () ∧ m.isActive s.jobId = false := by
  unfold addBy
  by_cases active : m.isActive s.jobId = true
  · exact .inl ⟨_, if_pos active, fun _ => active⟩
  rw [if_neg active]
  cases outcome with
  | error fault => exact .inl ⟨_, rfl, nofun⟩
  | ok _ => exact .inr ⟨rfl, rfl, by simpa using active⟩

/-- **A turn passes a subscription over or starts it.** -/
theorem turn_cases (outcomes : Outcomes) (store : Store) (place : Nat) (m : Manager) (s : Subscription) :
    (startAll (beginBy outcomes) store place m [s] = (m, 0) ∧
      ∀ e, store.endpoint? s.endpoint = .ok e → outcomes place s e = .ok () → m.isActive s.jobId = true) ∨
    ∃ e, store.endpoint? s.endpoint = .ok e ∧ outcomes place s e = .ok () ∧ m.isActive s.jobId = false ∧
      startAll (beginBy outcomes) store place m [s] = (m.start s e, 1) := by
  rw [startAll_cons]
  cases known : store.endpoint? s.endpoint with
  | error fault => exact .inl ⟨rfl, nofun⟩
  | ok e =>
    simp only [beginBy]
    rcases m.addBy_cases (outcomes place s e) s e with ⟨fault, refused, active⟩ | ⟨started, passes, idle⟩
    · rw [refused]
      refine .inl ⟨rfl, fun e' known' passes => ?_⟩
      cases known'
      exact active passes
    · rw [started]
      exact .inr ⟨e, rfl, passes, idle, rfl⟩

/-! ### What a manager has started -/

section Lists

variable {m : Manager} {store : Store} {outcomes : Outcomes} {l rest : List Subscription} {place : Nat}
  {s s' : Subscription} {e e' : Endpoint}

theorem Passes.inside (h : Passes store outcomes l place s e) : place < l.length :=
  (List.getElem?_eq_some_iff.mp h.listed).1

/-- Whether a subscription passes does not depend on what follows it. -/
theorem passes_append (inside : place < l.length) :
    Passes store outcomes (l ++ rest) place s e ↔ Passes store outcomes l place s e := by
  have same : (l ++ rest)[place]? = l[place]? := List.getElem?_append_left inside
  constructor
  · rintro ⟨listed, known, passes⟩
    exact ⟨same ▸ listed, known, passes⟩
  · rintro ⟨listed, known, passes⟩
    exact ⟨same ▸ listed, known, passes⟩

/-- What passes in a longer list passed before, or it comes last. -/
theorem Passes.concat (h : Passes store outcomes (l ++ [s]) place s' e') :
    Passes store outcomes l place s' e' ∨ s' = s ∧ store.endpoint? s.endpoint = .ok e' ∧
      outcomes l.length s e' = .ok () := by
  have inside := h.inside
  rw [List.length_append, List.length_singleton] at inside
  rcases Nat.lt_succ_iff_lt_or_eq.mp inside with before | rfl
  · exact .inl ((passes_append before).mp h)
  · obtain ⟨listed, known, passes⟩ := h
    rw [List.getElem?_concat_length, Option.some.injEq] at listed
    subst listed
    exact .inr ⟨rfl, known, passes⟩

/-- What starts does so whatever follows. -/
theorem Starts.append (h : Starts m outcomes l place s e) (rest : List Subscription) :
    Starts m outcomes (l ++ rest) place s e where
  toPasses := (passes_append h.inside).mpr h.toPasses
  idle := h.idle
  first := by
    intro earlier before s' e' passed
    exact h.first earlier before s' e' ((passes_append (Nat.lt_trans before h.inside)).mp passed)

/-- Only one subscription for a job starts. -/
theorem Starts.unique {place' : Nat} (h : Starts m outcomes l place s e) (h' : Starts m outcomes l place' s' e')
    (same : s.jobId = s'.jobId) : s = s' ∧ e = e' := by
  have one : place = place' := by
    rcases Nat.lt_trichotomy place place' with before | one | after
    · exact absurd same (h'.first place before s e h.toPasses)
    · exact one
    · exact absurd same.symm (h.first place' after s' e' h'.toPasses)
  subst one
  have subscription : s = s' := Option.some.inj (h.listed.symm.trans h'.listed)
  subst subscription
  exact ⟨rfl, Except.ok.inj (h.known.symm.trans h'.known)⟩

end Lists

namespace Went

variable {m m' : Manager} {outcomes : Outcomes} {l : List Subscription} {count : Nat} {new : List Pair}

theorem nothing (m : Manager) (outcomes : Outcomes) : Went m outcomes [] m 0 [] where
  result := by simp
  counted := rfl
  distinct := List.nodup_nil
  sound := nofun
  complete := nofun

theorem store_eq (h : Went m outcomes l m' count new) : m'.store = m.store := by
  rw [h.result]

/-- What is active is what was active before and what was started. -/
theorem isActive_iff (h : Went m outcomes l m' count new) {jobId : String} :
    m'.isActive jobId = true ↔ m.isActive jobId = true ∨ ∃ p ∈ new, p.jobId = jobId := by
  rw [h.result]
  simp [isActive]

/-- Nothing was started for a job that was active. -/
theorem idle (h : Went m outcomes l m' count new) {p : Pair} (hp : p ∈ new) : m.isActive p.jobId = false := by
  obtain ⟨place, e, starts, -⟩ := h.sound p hp
  exact starts.idle

/-- What passes before anything else for its job starts, whatever follows it. -/
theorem starts (h : Went m outcomes l m' count new) {s : Subscription} {e : Endpoint} (rest : List Subscription)
    (known : m.store.endpoint? s.endpoint = .ok e) (passes : outcomes l.length s e = .ok ())
    (idle : m'.isActive s.jobId = false) : Starts m outcomes (l ++ s :: rest) l.length s e where
  listed := by simp
  known := known
  passes := passes
  idle := by
    by_contra active
    rw [Bool.not_eq_false] at active
    rw [h.isActive_iff.mpr (.inl active)] at idle
    cases idle
  first := by
    intro earlier before s' e' passed same
    have active : m'.isActive s'.jobId = true := h.complete earlier s' e' ((passes_append before).mp passed)
    rw [same, idle] at active
    cases active

/-- A subscription that is passed over changes nothing. -/
theorem passed_over (h : Went m outcomes l m' count new) {s : Subscription}
    (skipped : ∀ e, m.store.endpoint? s.endpoint = .ok e → outcomes l.length s e = .ok () → m'.isActive s.jobId = true) :
    Went m outcomes (l ++ [s]) m' count new where
  result := h.result
  counted := h.counted
  distinct := h.distinct
  sound := by
    intro p hp
    obtain ⟨place, e, starts, name⟩ := h.sound p hp
    exact ⟨place, e, starts.append [s], name⟩
  complete := by
    intro place s' e' passes
    rcases passes.concat with before | ⟨rfl, known, passes⟩
    · exact h.complete place s' e' before
    · exact skipped e' known passes

/-- A subscription that starts is active from then on. -/
theorem begun (h : Went m outcomes l m' count new) {s : Subscription} {e : Endpoint}
    (known : m.store.endpoint? s.endpoint = .ok e) (passes : outcomes l.length s e = .ok ())
    (idle : m'.isActive s.jobId = false) :
    Went m outcomes (l ++ [s]) (m'.start s e) (count + 1) (new ++ [⟨m'.started.length, s, e.name⟩]) where
  result := by
    rw [start, h.result]
    simp
  counted := by rw [h.counted, List.length_append, List.length_singleton]
  distinct := by
    rw [List.map_append, List.map_singleton, List.nodup_append]
    refine ⟨h.distinct, List.nodup_singleton _, fun job hjob other hother same => ?_⟩
    obtain ⟨p, hp, rfl⟩ := List.mem_map.mp hjob
    have active : m'.isActive s.jobId = true := by
      refine h.isActive_iff.mpr (.inr ⟨p, hp, ?_⟩)
      rw [same, List.mem_singleton.mp hother]
      rfl
    rw [idle] at active
    cases active
  sound := by
    intro p hp
    rcases List.mem_append.mp hp with before | last
    · obtain ⟨place, e', starts, name⟩ := h.sound p before
      exact ⟨place, e', starts.append [s], name⟩
    · rw [List.mem_singleton.mp last]
      exact ⟨l.length, e, h.starts [] known passes idle, rfl⟩
  complete := by
    intro place s' e' passed
    rw [isActive_start, Bool.or_eq_true, decide_eq_true_eq]
    rcases passed.concat with before | ⟨rfl, -, -⟩
    · exact .inl (h.complete place s' e' before)
    · exact .inr rfl

end Went

/-- **A manager that goes through subscriptions starts those that start.** -/
theorem went (m : Manager) (outcomes : Outcomes) (l : List Subscription) :
    ∃ new, Went m outcomes l (startAll (beginBy outcomes) m.store 0 m l).1
      (startAll (beginBy outcomes) m.store 0 m l).2 new := by
  induction l using List.reverseRecOn with
  | nil => exact ⟨[], .nothing m outcomes⟩
  | append_singleton l s ih =>
    obtain ⟨new, h⟩ := ih
    rw [startAll_append, Nat.zero_add]
    generalize startAll (beginBy outcomes) m.store 0 m l = front at h
    obtain ⟨m', count⟩ := front
    rcases turn_cases outcomes m.store l.length m' s with ⟨turn, skipped⟩ | ⟨e, known, passes, idle, turn⟩
    · simp only [turn]
      exact ⟨new, h.passed_over skipped⟩
    · simp only [turn]
      exact ⟨_, h.begun known passes idle⟩

/-! ### What comes of it -/

namespace Went

variable {m m' : Manager} {outcomes : Outcomes} {l : List Subscription} {count : Nat} {new : List Pair}
  {jobId : String}

/-- A job that was idle is active exactly if a subscription for it passes. -/
theorem isActive_iff_passes (h : Went m outcomes l m' count new) (idle : m.isActive jobId = false) :
    m'.isActive jobId = true ↔ ∃ place s e, Passes m.store outcomes l place s e ∧ s.jobId = jobId := by
  constructor
  · intro active
    rcases h.isActive_iff.mp active with before | ⟨p, hp, rfl⟩
    · rw [idle] at before
      cases before
    · obtain ⟨place, e, starts, -⟩ := h.sound p hp
      exact ⟨place, p.subscription, e, starts.toPasses, rfl⟩
  · rintro ⟨place, s, e, passes, rfl⟩
    exact h.complete place s e passes

/-- The pair of a job that was idle has been started. -/
theorem mem_of_pair? (h : Went m outcomes l m' count new) (idle : m.isActive jobId = false) {p : Pair}
    (runs : m'.pair? jobId = some p) : p ∈ new ∧ p.jobId = jobId := by
  have nothing : m.active.find? (·.jobId = jobId) = none := by
    rw [List.find?_eq_none]
    intro q hq
    simpa using isActive_eq_false.mp idle q hq
  rw [pair?, h.result, List.find?_append, nothing, Option.none_or] at runs
  exact ⟨List.mem_of_find?_eq_some runs, by simpa using List.find?_some runs⟩

/-- What runs for a job that was idle is the subscription that starts. -/
theorem runs_iff (h : Went m outcomes l m' count new) (idle : m.isActive jobId = false) {s : Subscription}
    {name : String} : (∃ number, m'.pair? jobId = some ⟨number, s, name⟩) ↔
      ∃ place e, Starts m outcomes l place s e ∧ s.jobId = jobId ∧ e.name = name := by
  constructor
  · rintro ⟨number, runs⟩
    obtain ⟨started, same⟩ := h.mem_of_pair? idle runs
    obtain ⟨place, e, starts, hname⟩ := h.sound _ started
    exact ⟨place, e, starts, same, hname⟩
  · rintro ⟨place, e, starts, rfl, rfl⟩
    obtain ⟨p, runs⟩ := Manager.isActive_iff.mp (h.complete place s e starts.toPasses)
    obtain ⟨started, same⟩ := h.mem_of_pair? idle runs
    obtain ⟨place', e', starts', name⟩ := h.sound p started
    obtain ⟨subscription, endpoint⟩ := starts.unique starts' same.symm
    refine ⟨p.number, ?_⟩
    rw [runs, subscription, endpoint, name]

/-- The jobs that became active are those of the started pairs. -/
theorem mem_jobs_iff (h : Went m outcomes l m' count new) :
    jobId ∈ new.map (·.jobId) ↔ m.isActive jobId = false ∧ m'.isActive jobId = true := by
  constructor
  · intro started
    obtain ⟨p, hp, rfl⟩ := List.mem_map.mp started
    exact ⟨h.idle hp, h.isActive_iff.mpr (.inr ⟨p, hp, rfl⟩)⟩
  · rintro ⟨idle, active⟩
    rcases h.isActive_iff.mp active with before | ⟨p, hp, rfl⟩
    · rw [idle] at before
      cases before
    · exact List.mem_map_of_mem hp

/-- Going through the same subscriptions again starts none. -/
theorem again {m'' : Manager} {count' : Nat} {new' : List Pair} (h : Went m outcomes l m' count new)
    (h' : Went m' outcomes l m'' count' new') : m'' = m' ∧ count' = 0 := by
  have nothing : new' = [] := by
    apply List.eq_nil_iff_forall_not_mem.mpr
    intro p hp
    obtain ⟨place, e, starts, -⟩ := h'.sound p hp
    have passed : Passes m.store outcomes l place p.subscription e := h.store_eq ▸ starts.toPasses
    have active := h.complete place p.subscription e passed
    rw [starts.idle] at active
    cases active
  rw [h'.counted, h'.result, nothing]
  simp

end Went

/-! ### Bootstrapping -/

/-- What has been started before does not change how it goes with the adapters of the relay. -/
theorem bootstrap_eq_bootstrapBy (m : Manager) (trial : Nat → Except AdapterFault Unit) :
    m.bootstrap trial = m.bootstrapBy (m.planned trial) := by
  have alike : ∀ place m₁ m₂ s e, (m₁ = m₂ ∧ m₁.substrate = m.substrate) →
      ((m₁.add { trial := trial place } s e).1 = (beginBy (m.planned trial) place m₂ s e).1 ∧
        (m₁.add { trial := trial place } s e).1.substrate = m.substrate) ∧
      (m₁.add { trial := trial place } s e).2 = (beginBy (m.planned trial) place m₂ s e).2 := by
    rintro place m₁ m₂ s e ⟨rfl, substrate⟩
    have tried : Call.tried m₁ { trial := trial place } s e = m.planned trial place s e := by
      rw [planned, Call.tried, Call.tried, substrate]
    have added : m₁.add { trial := trial place } s e = beginBy (m.planned trial) place m₁ s e := by
      rw [add_eq, tried]
      rfl
    rw [added]
    refine ⟨⟨rfl, ?_⟩, rfl⟩
    rcases m₁.addBy_cases (m.planned trial place s e) s e with ⟨fault, refused, -⟩ | ⟨started, -⟩
    · rw [beginBy, refused]
      exact substrate
    · rw [beginBy, started]
      exact substrate
  obtain ⟨same, count⟩ := startAll_simulates (fun place (m : Manager) s e => m.add { trial := trial place } s e)
    (beginBy (m.planned trial)) (R := fun m₁ m₂ => m₁ = m₂ ∧ m₁.substrate = m.substrate) (rfl : m.store.endpoints = _)
    m.store.subscriptions 0 0 (fun i _ => alike _) ⟨rfl, rfl⟩
  exact Prod.ext same.1 count

/-- What can be started does not depend on the store. -/
theorem addBy_withStore (m : Manager) (store : Store) (outcome : Except AdapterFault Unit) (s : Subscription)
    (e : Endpoint) : (m.withStore store).addBy outcome s e =
      ((m.addBy outcome s e).1.withStore store, (m.addBy outcome s e).2) := by
  have same : (m.withStore store).isActive s.jobId = m.isActive s.jobId := rfl
  unfold addBy
  rw [same]
  by_cases active : m.isActive s.jobId = true
  · rw [if_pos active, if_pos active]
  · rw [if_neg active, if_neg active]
    cases outcome <;> rfl

/-- Going through a list goes alike over another store with the same endpoints, where the outcomes are the same. -/
theorem startAll_withStore {store store' : Store} (known : store'.endpoints = store.endpoints)
    {outcomes outcomes' : Outcomes} (l : List Subscription) {place place' : Nat}
    (same : ∀ i < l.length, outcomes' (place' + i) = outcomes (place + i)) (m : Manager) :
    startAll (beginBy outcomes') store' place' (m.withStore store') l =
      ((startAll (beginBy outcomes) store place m l).1.withStore store',
        (startAll (beginBy outcomes) store place m l).2) := by
  have alike : ∀ i < l.length, ∀ m₁ m₂ s e, m₂ = m₁.withStore store' →
      (beginBy outcomes' (place' + i) m₂ s e).1 = (beginBy outcomes (place + i) m₁ s e).1.withStore store' ∧
        (beginBy outcomes (place + i) m₁ s e).2 = (beginBy outcomes' (place' + i) m₂ s e).2 := by
    rintro i hi m₁ m₂ s e rfl
    rw [beginBy, beginBy, same i hi, addBy_withStore]
    exact ⟨rfl, rfl⟩
  obtain ⟨state, count⟩ := startAll_simulates (beginBy outcomes) (beginBy outcomes')
    (R := fun m₁ m₂ => m₂ = m₁.withStore store') known l place place' alike (rfl : m.withStore store' = _)
  exact Prod.ext state count.symm

/-- **A subscription that does not start leaves no trace.** -/
theorem bootstrapBy_without {m : Manager} {outcomes : Outcomes} {before after : List Subscription} {s : Subscription}
    (stored : m.store.subscriptions = before ++ s :: after)
    (fails : ∀ e, ¬ Starts m outcomes m.store.subscriptions before.length s e) :
    let store := { m.store with subscriptions := before ++ after }
    (m.withStore store).bootstrapBy (outcomes.without before.length) =
      ((m.bootstrapBy outcomes).1.withStore store, (m.bootstrapBy outcomes).2) := by
  intro store
  have known : store.endpoints = m.store.endpoints := rfl
  have earlier : ∀ i < before.length, outcomes.without before.length (0 + i) = outcomes (0 + i) := by
    intro i hi
    rw [Outcomes.without, if_pos (by omega)]
  have later : ∀ i < after.length,
      outcomes.without before.length (before.length + i) = outcomes (before.length + 1 + i) := by
    intro i hi
    rw [Outcomes.without, if_neg (by omega), Nat.add_right_comm]
  obtain ⟨new, h⟩ := went m outcomes before
  have turn : startAll (beginBy outcomes) m.store before.length
      (startAll (beginBy outcomes) m.store 0 m before).1 [s] =
        ((startAll (beginBy outcomes) m.store 0 m before).1, 0) := by
    rcases turn_cases outcomes m.store before.length (startAll (beginBy outcomes) m.store 0 m before).1 s
      with ⟨skipped, -⟩ | ⟨e, known, passes, idle, -⟩
    · exact skipped
    · have starts := h.starts after known passes idle
      rw [← stored] at starts
      exact absurd starts (fails e)
  have whole : m.bootstrapBy outcomes =
      let front := startAll (beginBy outcomes) m.store 0 m before
      let back := startAll (beginBy outcomes) m.store (before.length + 1) front.1 after
      (back.1, front.2 + back.2) := by
    have parts : before ++ s :: after = before ++ ([s] ++ after) := rfl
    rw [bootstrapBy, stored, parts, startAll_append, Nat.zero_add]
    simp only [startAll_append _ _ after [s], turn, List.length_singleton, Nat.zero_add]
  have left : (m.withStore store).bootstrapBy (outcomes.without before.length) =
      startAll (beginBy (outcomes.without before.length)) store 0 (m.withStore store) (before ++ after) := rfl
  rw [left, whole, startAll_append, Nat.zero_add, startAll_withStore known before earlier m]
  simp only [startAll_withStore known after later]

/-- **Bootstrapping starts all it can and disturbs nothing.** -/
theorem bootstrap_exactly (m : Manager) (outcomes : Outcomes) :
    let m' := (m.bootstrapBy outcomes).1
    let count := (m.bootstrapBy outcomes).2
    (∀ trial, m.bootstrap trial = m.bootstrapBy (m.planned trial)) ∧
    (∃ new, m' = { m with active := m.active ++ new, started := m.started ++ new }) ∧
    (∀ jobId, m.isActive jobId = false →
      (m'.isActive jobId = true ↔
        ∃ place s e, Passes m.store outcomes m.store.subscriptions place s e ∧ s.jobId = jobId) ∧
      ∀ s name, (∃ number, m'.pair? jobId = some ⟨number, s, name⟩) ↔
        ∃ place e, Starts m outcomes m.store.subscriptions place s e ∧ s.jobId = jobId ∧ e.name = name) ∧
    (∀ before s after, m.store.subscriptions = before ++ s :: after →
      (∀ e, ¬ Starts m outcomes m.store.subscriptions before.length s e) →
      let store := { m.store with subscriptions := before ++ after }
      (m.withStore store).bootstrapBy (outcomes.without before.length) = (m'.withStore store, count)) ∧
    (∃ jobs : List String, jobs.Nodup ∧
      (∀ jobId, jobId ∈ jobs ↔ m.isActive jobId = false ∧ m'.isActive jobId = true) ∧ count = jobs.length) ∧
    m'.bootstrapBy outcomes = (m', 0) := by
  intro m' count
  obtain ⟨new, h⟩ := went m outcomes m.store.subscriptions
  change Went m outcomes m.store.subscriptions m' count new at h
  refine ⟨bootstrap_eq_bootstrapBy m, ⟨new, h.result⟩, fun jobId idle => ⟨h.isActive_iff_passes idle, fun s name =>
    h.runs_iff idle⟩, fun before s after stored fails => bootstrapBy_without stored fails,
    ⟨new.map (·.jobId), h.distinct, fun jobId => h.mem_jobs_iff, ?_⟩, ?_⟩
  · rw [h.counted, List.length_map]
  · obtain ⟨new', h'⟩ := went m' outcomes m'.store.subscriptions
    rw [h.store_eq] at h'
    obtain ⟨same, none⟩ := h.again h'
    rw [bootstrapBy, h.store_eq]
    exact Prod.ext same none

/-- A subscription whose endpoint is missing, and three for another job: the first of them cannot be built. -/
def mixedManager : Manager :=
  { store := ⟨[sampleEndpoint], [{ jobId := "lost", endpoint := "missing" }, { jobId := "job", endpoint := "node" },
      sampleSubscription, { jobId := "job", endpoint := "node", addresses := ["d"] }]⟩ }

/-- All but the second one can be built and tested. -/
def mixedOutcomes : Outcomes := fun place _ _ => if place = 1 then .error (.protocol "refused") else .ok ()

/-- The second of the three runs, and nothing runs for the missing endpoint. -/
theorem bootstrap_exactly_mixed :
    (∃ number, (mixedManager.bootstrapBy mixedOutcomes).1.pair? "job" = some ⟨number, sampleSubscription, "node"⟩) ∧
      (mixedManager.bootstrapBy mixedOutcomes).1.isActive "lost" = false := by
  obtain ⟨-, -, jobs, -⟩ := bootstrap_exactly mixedManager mixedOutcomes
  constructor
  · refine ((jobs "job" rfl).2 sampleSubscription "node").mpr ⟨2, sampleEndpoint, ⟨⟨rfl, rfl, rfl⟩, rfl, ?_⟩, rfl, rfl⟩
    rintro earlier before s' e' ⟨listed, known, passes⟩
    have places : earlier = 0 ∨ earlier = 1 := by omega
    rcases places with rfl | rfl
    · cases listed
      decide
    · cases passes
  · rw [Bool.eq_false_iff, Ne, (jobs "lost" rfl).1]
    rintro ⟨place, s', e', ⟨listed, known, passes⟩, lost⟩
    have missing : ∀ s ∈ mixedManager.store.subscriptions, s.jobId = "lost" → s.endpoint = "missing" := by decide
    rw [missing s' (List.mem_of_getElem? listed) lost] at known
    cases known

end Manager
end OracleRelay
