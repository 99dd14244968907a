/-
# Calls side by side

A desk is opened with what is asked of a manager; each request becomes a call that has not taken a step. A run
is any order in which the calls take their steps. What one step can do to the pairs is read off four effects
(`Call.Effect`): it keeps them all, starts one for an idle job, takes some out of the table, or tells those to
stop that the call took out before.

Key definitions: `Manager.Request`, `Manager.Desk.opened`, `Manager.Turn`, `Manager.Desk.run`,
`Manager.Call.doomed`, `Manager.Call.Effect`.
Key theorems: `Manager.Call.step_effect`, `Manager.Desk.run_invariant`.
-/
import Mathlib.Data.List.Nodup
import OracleRelay.Proofs.Config.Store
import OracleRelay.Service.Manager

namespace OracleRelay
namespace Manager

/-- What can be asked of a manager. -/
inductive Request where
  | add (s : Subscription) (e : Endpoint)
  | remove (jobId : String)
  | register (s : Subscription)
  | unregister (jobId : String)
  | registerEndpoint (e : Endpoint)
  | shutdownAll

/-- The call of a request. -/
def Request.call : Request → Call
  | .add s e => .check s e false
  | .remove jobId => .take jobId false
  | .register s => .load s
  | .unregister jobId => .take jobId true
  | .registerEndpoint e => .saveEndpoint e
  | .shutdownAll => .takeAll

/-- A call takes its step, and what it meets with. -/
structure Turn where
  call : Nat
  around : Surroundings := {}

namespace Desk

/-- The desk of a manager of whom things are asked. -/
def opened (m : Manager) (rs : List Request) : Desk := { manager := m, calls := rs.map (·.call) }

/-- The desk after some turns. -/
def run (d : Desk) (turns : List Turn) : Desk := turns.foldl (fun d t => d.step t.call t.around) d

theorem run_append (d : Desk) (turns turns' : List Turn) : d.run (turns ++ turns') = (d.run turns).run turns' :=
  List.foldl_append

theorem run_concat (d : Desk) (turns : List Turn) (t : Turn) :
    d.run (turns ++ [t]) = (d.run turns).step t.call t.around := by
  rw [run_append]
  rfl

theorem step_of_some {d : Desk} {i : Nat} {c : Call} (h : d.calls[i]? = some c) (x : Surroundings) :
    d.step i x = ⟨(c.step d.manager x).1, d.calls.set i (c.step d.manager x).2⟩ := by
  unfold step
  rw [h]

theorem step_of_none {d : Desk} {i : Nat} (h : d.calls[i]? = none) (x : Surroundings) : d.step i x = d := by
  unfold step
  rw [h]

/-- The call that has its turn moves on, and no other call does. -/
theorem calls_step (d : Desk) (i j : Nat) (x : Surroundings) : (d.step i x).calls[j]? =
    if i = j then (d.calls[j]?).map fun c => (c.step d.manager x).2 else d.calls[j]? := by
  cases h : d.calls[i]? with
  | none =>
    rw [step_of_none h]
    by_cases hij : i = j
    · subst hij
      simp [h]
    · rw [if_neg hij]
  | some c =>
    rw [step_of_some h]
    by_cases hij : i = j
    · subst hij
      rw [if_pos rfl, h]
      exact List.getElem?_set_self (List.getElem?_eq_some_iff.mp h).1
    · simp [hij]

/-- What a step keeps, runs keep. -/
theorem run_invariant {P : Desk → Prop} (keep : ∀ d i x, P d → P (d.step i x)) {d : Desk} (start : P d) :
    ∀ turns, P (d.run turns)
  | [] => start
  | t :: turns => run_invariant keep (keep d t.call t.around start) turns

/-- A call that has ended stays so. -/
theorem ended_run {d : Desk} {i : Nat} {v : Verdict} (h : d.calls[i]? = some (.ended v)) (turns : List Turn) :
    (d.run turns).calls[i]? = some (.ended v) := by
  refine run_invariant (P := fun d => d.calls[i]? = some (.ended v)) (fun d j x h => ?_) h turns
  rw [calls_step, h]
  split <;> rfl

end Desk

/-! ### What one step does -/

/-- A job is not active exactly if no pair of the table serves it. -/
theorem isActive_eq_false {m : Manager} {jobId : String} :
    m.isActive jobId = false ↔ ∀ p ∈ m.active, p.jobId ≠ jobId := by
  simp [isActive]

theorem isActive_start (m : Manager) (s : Subscription) (e : Endpoint) (jobId : String) :
    (m.start s e).isActive jobId = (m.isActive jobId || decide (s.jobId = jobId)) := by
  simp only [isActive, start, List.any_append, List.any_cons, List.any_nil, Bool.or_false]
  rfl

theorem isActive_without (m : Manager) (jobId' jobId : String) :
    (m.without jobId').isActive jobId = (m.isActive jobId && decide (jobId' ≠ jobId)) := by
  simp only [isActive, without, any_filter_ne]

namespace Call

/-- The pairs that a call has taken out of the table and is about to tell to stop. -/
def doomed : Call → List Pair
  | .tell pairs _ => pairs
  | _ => []

/-- Nothing is taken out of the table after pairs were told to stop. -/
def Orderly : Call → Prop
  | .tell _ next | .linger _ next => next.doomed = [] ∧ next.Orderly
  | _ => True

/-- What a step of a call does to the pairs of a manager. -/
inductive Effect (m : Manager) (c : Call) : Manager → Call → Prop where
  | keeps (store : Store) (c' : Call) (before : c.doomed = []) (after : c'.doomed = []) :
      Effect m c { m with store } c'
  | starts (s : Subscription) (e : Endpoint) (keep : Bool) (call_eq : c = .insert s e keep)
      (idle : m.isActive s.jobId = false) : Effect m c (m.start s e) (if keep then .save s else finished)
  | takes (out : Pair → Bool) (next : Call) (before : c.doomed = []) :
      Effect m c { m with active := m.active.filter (!out ·) } (.tell (m.active.filter out) next)
  | tells (pairs : List Pair) (next : Call) (call_eq : c = .tell pairs next) :
      Effect m c (m.tell pairs) (.linger pairs next)

/-- The pair that is found for a job is the only one for it. -/
theorem filter_of_pair? {m : Manager} {jobId : String} {p : Pair} (distinct : (m.active.map (·.jobId)).Nodup)
    (h : m.pair? jobId = some p) : m.active.filter (·.jobId = jobId) = [p] := by
  unfold pair? at h
  generalize m.active = pairs at h distinct
  induction pairs with
  | nil => simp at h
  | cons q pairs ih =>
    obtain ⟨hq, hrest⟩ := List.nodup_cons.mp distinct
    by_cases hjob : q.jobId = jobId
    · rw [List.find?_cons_of_pos (by simpa using hjob)] at h
      cases h
      rw [List.filter_cons_of_pos (by simpa using hjob), List.cons.injEq]
      refine ⟨rfl, List.filter_eq_nil_iff.mpr fun r hr => ?_⟩
      have hne : r.jobId ≠ p.jobId := fun heq => hq (List.mem_map.mpr ⟨r, hr, heq⟩)
      simpa [hjob] using hne
    · rw [List.find?_cons_of_neg (by simpa using hjob)] at h
      rw [List.filter_cons_of_neg (by simpa using hjob)]
      exact ih h hrest

/-- The pair of a job is taken out. -/
theorem Effect.takes_job {m : Manager} {c : Call} {jobId : String} {p : Pair}
    (distinct : (m.active.map (·.jobId)).Nodup) (h : m.pair? jobId = some p) (before : c.doomed = []) (next : Call) :
    Effect m c (m.without jobId) (.tell [p] next) := by
  have htakes := Effect.takes (m := m) (·.jobId = jobId) next before
  rw [filter_of_pair? distinct h] at htakes
  have hwithout : m.without jobId = { m with active := m.active.filter fun p => !decide (p.jobId = jobId) } := by
    unfold without
    congr 1
    refine List.filter_congr fun p _ => ?_
    simp
  rw [hwithout]
  exact htakes

/-- Each step has one of the effects. -/
theorem step_effect {m : Manager} {c : Call} (x : Surroundings) (orderly : c.Orderly)
    (distinct : (m.active.map (·.jobId)).Nodup) : Effect m c (c.step m x).1 (c.step m x).2 := by
  cases c with
  | load s =>
    simp only [step]
    split <;> exact .keeps m.store _ rfl rfl
  | check s e keep =>
    simp only [step]
    split <;> exact .keeps m.store _ rfl rfl
  | trial s e keep =>
    simp only [step]
    split <;> exact .keeps m.store _ rfl rfl
  | insert s e keep =>
    simp only [step]
    cases hactive : m.isActive s.jobId with
    | true => exact .keeps m.store _ rfl rfl
    | false => exact .starts s e keep rfl hactive
  | save s =>
    simp only [step]
    split <;> exact .keeps _ _ rfl rfl
  | withdraw jobId fault =>
    simp only [step]
    cases hpair : m.pair? jobId with
    | none => exact .keeps m.store _ rfl rfl
    | some p => exact .takes_job distinct hpair rfl _
  | take jobId drop =>
    simp only [step]
    cases hpair : m.pair? jobId with
    | none => exact .keeps m.store _ rfl rfl
    | some p => exact .takes_job distinct hpair rfl _
  | takeAll =>
    have htakes := Effect.takes (m := m) (c := .takeAll) (fun _ => true) finished rfl
    simp only [Bool.not_true, List.filter_false, List.filter_true] at htakes
    exact htakes
  | tell pairs next => exact .tells pairs next rfl
  | linger pairs next => exact .keeps m.store _ rfl orderly.1
  | forget jobId =>
    simp only [step]
    split <;> exact .keeps _ _ rfl rfl
  | saveEndpoint e =>
    simp only [step]
    split <;> exact .keeps _ _ rfl rfl
  | ended v => exact .keeps m.store _ rfl rfl

/-- A call stays orderly. -/
theorem Orderly.step {m : Manager} {c : Call} (x : Surroundings) (h : c.Orderly) : (c.step m x).2.Orderly := by
  cases c with
  | tell pairs next => exact h
  | linger pairs next => exact h.2
  | insert s e keep =>
    simp only [Call.step]
    split
    · trivial
    · cases keep <;> trivial
  | take jobId drop =>
    simp only [Call.step]
    split
    · cases drop <;> exact ⟨rfl, trivial⟩
    · trivial
  | withdraw jobId fault =>
    simp only [Call.step]
    split
    · exact ⟨rfl, trivial⟩
    · trivial
  | takeAll => exact ⟨rfl, trivial⟩
  | ended v => trivial
  | _ =>
    simp only [Call.step]
    split <;> trivial

end Call

theorem Request.orderly_call (r : Request) : r.call.Orderly := by
  cases r <;> trivial

theorem Request.doomed_call (r : Request) : r.call.doomed = [] := by
  cases r <;> rfl

/-! ### Samples -/

/-- A subscription. -/
def sampleSubscription : Subscription := { jobId := "job", endpoint := "node", addresses := ["c"] }

/-- The endpoint that it names. -/
def sampleEndpoint : Endpoint := { name := "node", url := "http://[::1]:20334", chain := .ontology }

end Manager
end OracleRelay
