/-
# Registered and stored

To register is to enter a pair into the table and then to store the subscription; to unregister is to take the
pair out and then, after it has stopped, to drop the subscription. Between the two steps of one call a job can
be active and not stored, or stored and not active; the call has then still a write to make (`Call.due`). Once
all calls have returned, a job is active exactly if it is stored, if and only if the last change of the table
and the last write of the store were of one kind (`Desk.active_iff_stored`). So it is where no call changes the
table while another one has a write to make (`Desk.Apart`), and it is not where a job is registered anew
while the pair that was taken out of the table before is stopping (`Desk.stale_drop`).

Key definitions: `Manager.Call.due`, `Manager.Shift`, `Manager.Desk.lastChange`, `Manager.Desk.lastWrite`,
`Manager.Desk.Apart`, `Manager.Desk.Settled`.
Key theorems: `Manager.Call.step_shift`, `Manager.Desk.Registering.run`, `Manager.Desk.lastWrite_eq_none`,
`Manager.Desk.lastChange_eq_none`, `Manager.Desk.Settled.step`, `Manager.Desk.active_iff_stored`,
`Manager.Desk.stale_drop`.
-/
import OracleRelay.Proofs.Service.Desk

namespace OracleRelay

namespace Manager

/-- What is asked is to register or to unregister. -/
def Request.Registers : Request → Prop
  | .register _ | .unregister _ => True
  | _ => False

/-! ### One step -/

/-- What a step does for a job that is active or not and stored or not, and what its call has still to write:
nothing, a change of the table that leaves a write due, or the write that was due. -/
inductive Shift (active stored : Bool) (due : Option Bool) (active' stored' : Bool) (due' : Option Bool) : Prop where
  | rests (active_eq : active' = active) (stored_eq : stored' = stored) (due_eq : due' = due)
  | changes (kind : Bool) (before : due = none) (after : due' = some kind) (active_eq : active' = kind)
      (stored_eq : stored' = stored)
  | writes (kind : Bool) (before : due = some kind) (after : due' = none) (active_eq : active' = active)
      (stored_eq : stored' = kind)

namespace Call

/-- What a call that has changed the table for a job has still to write to the store: that the job is
registered, or that it is not. -/
def due (jobId : String) : Call → Option Bool
  | .save s => if s.jobId = jobId then some true else none
  | .forget jobId' => if jobId' = jobId then some false else none
  | .tell _ next | .linger _ next => next.due jobId
  | _ => none

/-- Where the call of a registration or an unregistration can stand, if the store keeps what it is given. -/
def Registering : Call → Prop
  | .load _ | .save _ | .forget _ | .ended _ => True
  | .check _ _ keep | .trial _ _ keep | .insert _ _ keep => keep = true
  | .take _ drop => drop = true
  | .tell _ next | .linger _ next => ∃ jobId, next = .forget jobId
  | _ => False

/-- A step leaves a registration or an unregistration what it is. -/
theorem Registering.step {m : Manager} {x : Surroundings} {c : Call} (saves : x.save = .ok ())
    (h : c.Registering) : (c.step m x).2.Registering := by
  cases c with
  | load s =>
    simp only [Call.step]
    split
    · trivial
    · rfl
  | check s e keep =>
    simp only [Call.step]
    split
    · trivial
    · exact h
  | trial s e keep =>
    simp only [Call.step]
    split
    · trivial
    · exact h
  | insert s e keep =>
    simp only [Call.step]
    split
    · trivial
    · cases keep <;> trivial
  | save s =>
    simp only [Call.step, saves]
    trivial
  | take jobId drop =>
    have hdrop : drop = true := h
    subst hdrop
    simp only [Call.step]
    split
    · exact ⟨jobId, rfl⟩
    · trivial
  | tell pairs next => exact h
  | linger pairs next =>
    obtain ⟨jobId, rfl⟩ := h
    trivial
  | forget jobId =>
    simp only [Call.step]
    split <;> trivial
  | ended v => trivial
  | _ => exact h.elim

/-- What a step of a registration or an unregistration does for a job. -/
theorem step_shift {m : Manager} {x : Surroundings} {c : Call} (saves : x.save = .ok ()) (h : c.Registering)
    (jobId : String) : Shift (m.isActive jobId) (m.store.hasJob jobId) (c.due jobId)
      ((c.step m x).1.isActive jobId) ((c.step m x).1.store.hasJob jobId) ((c.step m x).2.due jobId) := by
  cases c with
  | load s =>
    simp only [step]
    split <;> exact .rests rfl rfl rfl
  | check s e keep =>
    simp only [step]
    split <;> exact .rests rfl rfl rfl
  | trial s e keep =>
    simp only [step]
    split <;> exact .rests rfl rfl rfl
  | insert s e keep =>
    have hkeep : keep = true := h
    subst hkeep
    simp only [step]
    split
    · exact .rests rfl rfl rfl
    · by_cases hjob : s.jobId = jobId
      · refine .changes true rfl (if_pos hjob) ?_ rfl
        rw [isActive_start, decide_eq_true hjob, Bool.or_true]
      · refine .rests ?_ rfl (if_neg hjob)
        rw [isActive_start, decide_eq_false hjob, Bool.or_false]
  | save s =>
    simp only [step, saves]
    by_cases hjob : s.jobId = jobId
    · refine .writes true (if_pos hjob) rfl rfl ?_
      rw [Store.hasJob_saveSubscription, decide_eq_true hjob, Bool.or_true]
    · refine .rests rfl ?_ (if_neg hjob).symm
      rw [Store.hasJob_saveSubscription, decide_eq_false hjob, Bool.or_false]
  | take jobId' drop =>
    have hdrop : drop = true := h
    subst hdrop
    simp only [step]
    split
    · by_cases hjob : jobId' = jobId
      · refine .changes false rfl (if_pos hjob) ?_ rfl
        rw [isActive_without, decide_eq_false (not_not_intro hjob), Bool.and_false]
      · refine .rests ?_ rfl (if_neg hjob)
        rw [isActive_without, decide_eq_true hjob, Bool.and_true]
    · exact .rests rfl rfl rfl
  | tell pairs next => exact .rests rfl rfl rfl
  | linger pairs next => exact .rests rfl rfl rfl
  | forget jobId' =>
    simp only [step]
    split
    · rename_i store hdelete
      by_cases hjob : jobId' = jobId
      · refine .writes false (if_pos hjob) rfl rfl ?_
        rw [Store.hasJob_deleteSubscription hdelete, decide_eq_false (not_not_intro hjob), Bool.and_false]
      · refine .rests rfl ?_ (if_neg hjob).symm
        rw [Store.hasJob_deleteSubscription hdelete, decide_eq_true hjob, Bool.and_true]
    · rename_i fault hdelete
      by_cases hjob : jobId' = jobId
      · exact .writes false (if_pos hjob) rfl rfl (hjob ▸ Store.hasJob_of_not_deleted hdelete)
      · exact .rests rfl rfl (if_neg hjob).symm
  | ended v => exact .rests rfl rfl rfl
  | _ => exact h.elim

end Call

theorem Request.registering_call {r : Request} (h : r.Registers) : r.call.Registering := by
  cases r with
  | register s => trivial
  | unregister jobId => rfl
  | _ => exact h.elim

/-! ### Runs -/

namespace Desk

variable (jobId : String)

/-- What a call of the desk has still to write for a job. -/
def due (d : Desk) (i : Nat) : Option Bool := (d.calls[i]?).bind (·.due jobId)

/-- The change of the table for a job that a turn makes: `true` is to enter a pair, `false` is to take it out. -/
def changed? (d : Desk) (t : Turn) : Option Bool :=
  match d.due jobId t.call with
  | none => (d.step t.call t.around).due jobId t.call
  | some _ => none

/-- The write to the store for a job that a turn makes: `true` is to store, `false` is to drop. -/
def written? (d : Desk) (t : Turn) : Option Bool :=
  match (d.step t.call t.around).due jobId t.call with
  | none => d.due jobId t.call
  | some _ => none

/-- The last change of the table for a job in a run. -/
def lastChange : Desk → List Turn → Option Bool
  | _, [] => none
  | d, t :: turns => (lastChange (d.step t.call t.around) turns).or (d.changed? jobId t)

/-- The last write to the store for a job in a run. -/
def lastWrite : Desk → List Turn → Option Bool
  | _, [] => none
  | d, t :: turns => (lastWrite (d.step t.call t.around) turns).or (d.written? jobId t)

/-- No call changes the table for a job while one has still a write to make for it. -/
def Apart : Desk → List Turn → Prop
  | _, [] => True
  | d, t :: turns => (d.changed? jobId t ≠ none → ∀ i, d.due jobId i = none) ∧ Apart (d.step t.call t.around) turns

/-- All calls are registrations and unregistrations. -/
def Registering (d : Desk) : Prop := ∀ c ∈ d.calls, c.Registering

variable {jobId : String} {d : Desk}

/-- A turn makes nothing due for another call than its own. -/
theorem due_step_ne {i j : Nat} (h : i ≠ j) (x : Surroundings) : (d.step i x).due jobId j = d.due jobId j := by
  unfold due
  rw [calls_step, if_neg h]

/-- A step leaves registrations and unregistrations what they are. -/
theorem Registering.step {i : Nat} {x : Surroundings} (h : d.Registering) (saves : x.save = .ok ()) :
    (d.step i x).Registering := by
  cases hc : d.calls[i]? with
  | none =>
    rw [step_of_none hc]
    exact h
  | some c =>
    intro k hk
    rw [step_of_some hc] at hk
    rcases List.mem_or_eq_of_mem_set hk with hk | rfl
    · exact h k hk
    · exact (h c (List.mem_of_getElem? hc)).step saves

/-- What a step does for a job. -/
theorem Registering.shift {i : Nat} {x : Surroundings} (h : d.Registering) (saves : x.save = .ok ())
    (jobId : String) :
    Shift (d.manager.isActive jobId) (d.manager.store.hasJob jobId) (d.due jobId i)
      ((d.step i x).manager.isActive jobId) ((d.step i x).manager.store.hasJob jobId)
      ((d.step i x).due jobId i) := by
  cases hc : d.calls[i]? with
  | none =>
    rw [step_of_none hc]
    exact .rests rfl rfl rfl
  | some c =>
    have hbefore : d.due jobId i = c.due jobId := by
      unfold due
      rw [hc]
      rfl
    have hafter : (d.step i x).due jobId i = (c.step d.manager x).2.due jobId := by
      unfold due
      rw [calls_step, if_pos rfl, hc]
      rfl
    rw [hafter, hbefore, step_of_some hc]
    exact Call.step_shift saves (h c (List.mem_of_getElem? hc)) jobId

/-- A turn of a registering desk: what it changes and what it writes say what comes of it. -/
theorem Registering.turn {t : Turn} (h : d.Registering) (saves : t.around.save = .ok ()) (jobId : String) :
    (d.step t.call t.around).manager.isActive jobId = (d.changed? jobId t).getD (d.manager.isActive jobId) ∧
      (d.step t.call t.around).manager.store.hasJob jobId =
        (d.written? jobId t).getD (d.manager.store.hasJob jobId) := by
  unfold changed? written?
  cases h.shift (i := t.call) saves jobId with
  | rests active_eq stored_eq due_eq =>
    rw [due_eq, active_eq, stored_eq]
    cases d.due jobId t.call <;> exact ⟨rfl, rfl⟩
  | changes kind before after active_eq stored_eq =>
    rw [before, after, active_eq, stored_eq]
    exact ⟨rfl, rfl⟩
  | writes kind before after active_eq stored_eq =>
    rw [before, after, active_eq, stored_eq]
    exact ⟨rfl, rfl⟩

/-- After a run, a job is active as the last change of the table left it, and stored as the last write did. -/
theorem Registering.run (h : d.Registering) {turns : List Turn} (saves : ∀ t ∈ turns, t.around.save = .ok ())
    (jobId : String) :
    (d.run turns).manager.isActive jobId = (lastChange jobId d turns).getD (d.manager.isActive jobId) ∧
      (d.run turns).manager.store.hasJob jobId =
        (lastWrite jobId d turns).getD (d.manager.store.hasJob jobId) := by
  induction turns generalizing d with
  | nil => exact ⟨rfl, rfl⟩
  | cons t turns ih =>
    have hhead := saves t List.mem_cons_self
    obtain ⟨hactive, hstored⟩ := h.turn hhead jobId
    obtain ⟨hactive', hstored'⟩ := ih (h.step hhead) fun t' ht' => saves t' (List.mem_cons_of_mem _ ht')
    refine ⟨hactive'.trans ?_, hstored'.trans ?_⟩
    · rw [hactive, lastChange, Option.getD_or]
    · rw [hstored, lastWrite, Option.getD_or]

/-! ### Changes and writes -/

/-- A change leaves a write due: without one, nothing becomes due, and nothing is written. -/
theorem lastWrite_eq_none {turns : List Turn} (start : ∀ i, d.due jobId i = none)
    (h : lastChange jobId d turns = none) : lastWrite jobId d turns = none := by
  induction turns generalizing d with
  | nil => rfl
  | cons t turns ih =>
    obtain ⟨hrest, hturn⟩ := Option.or_eq_none_iff.mp h
    simp only [changed?, start t.call] at hturn
    refine Option.or_eq_none_iff.mpr ⟨ih (fun i => ?_) hrest, ?_⟩
    · by_cases hi : t.call = i
      · rw [← hi]
        exact hturn
      · rw [due_step_ne hi]
        exact start i
    · simp only [written?, hturn]
      exact start t.call

/-- What is due stays so until it is written: if nothing is due in the end and nothing was written, then
nothing was due, and the table was not changed. -/
theorem lastChange_eq_none {turns : List Turn} (final : ∀ i, (d.run turns).due jobId i = none)
    (h : lastWrite jobId d turns = none) : lastChange jobId d turns = none ∧ ∀ i, d.due jobId i = none := by
  induction turns generalizing d with
  | nil => exact ⟨rfl, final⟩
  | cons t turns ih =>
    obtain ⟨hrest, hturn⟩ := Option.or_eq_none_iff.mp h
    obtain ⟨hchange, hdue⟩ := ih final hrest
    simp only [written?, hdue t.call] at hturn
    refine ⟨Option.or_eq_none_iff.mpr ⟨hchange, ?_⟩, fun i => ?_⟩
    · simp only [changed?, hturn]
      exact hdue t.call
    · by_cases hi : t.call = i
      · rw [← hi]
        exact hturn
      · rw [← due_step_ne hi t.around]
        exact hdue i

/-! ### Calls that keep apart -/

/-- Nothing is due, and the job is active exactly if it is stored; or one call has a write to make, and the job
is active as this call left it. -/
inductive Settled (jobId : String) (d : Desk) : Prop where
  | written (due : ∀ i, d.due jobId i = none)
      (agree : d.manager.isActive jobId = d.manager.store.hasJob jobId)
  | underway (i : Nat) (kind : Bool) (due : d.due jobId i = some kind) (active : d.manager.isActive jobId = kind)
      (others : ∀ j, j ≠ i → d.due jobId j = none)

theorem Settled.step {t : Turn} (h : Settled jobId d) (hreg : d.Registering) (saves : t.around.save = .ok ())
    (apart : d.changed? jobId t ≠ none → ∀ i, d.due jobId i = none) :
    Settled jobId (d.step t.call t.around) := by
  have hothers : ∀ j, j ≠ t.call → (d.step t.call t.around).due jobId j = d.due jobId j :=
    fun j hj => due_step_ne (Ne.symm hj) t.around
  cases hreg.shift (i := t.call) saves jobId with
  | rests active_eq stored_eq due_eq =>
    have hdue : ∀ j, (d.step t.call t.around).due jobId j = d.due jobId j := by
      intro j
      by_cases hj : j = t.call
      · rw [hj, due_eq]
      · exact hothers j hj
    cases h with
    | written due agree => exact .written (fun i => (hdue i).trans (due i)) (by rw [active_eq, stored_eq, agree])
    | underway i kind due active others =>
      exact .underway i kind ((hdue i).trans due) (active_eq.trans active) fun j hj => (hdue j).trans (others j hj)
  | changes kind before after active_eq stored_eq =>
    have hchange : d.changed? jobId t ≠ none := by simp [changed?, before, after]
    have hnone := apart hchange
    exact .underway t.call kind after active_eq fun j hj => (hothers j hj).trans (hnone j)
  | writes kind before after active_eq stored_eq =>
    cases h with
    | written due agree => cases (due t.call).symm.trans before
    | underway i kind' due active others =>
      have hi : t.call = i := by
        by_contra hne
        cases (others t.call hne).symm.trans before
      subst hi
      cases due.symm.trans before
      refine .written (fun j => ?_) (by rw [active_eq, active, stored_eq])
      by_cases hj : j = t.call
      · rw [hj, after]
      · exact (hothers j hj).trans (others j hj)

theorem Settled.run {turns : List Turn} (h : Settled jobId d) (hreg : d.Registering)
    (saves : ∀ t ∈ turns, t.around.save = .ok ()) (apart : Apart jobId d turns) : Settled jobId (d.run turns) := by
  induction turns generalizing d with
  | nil => exact h
  | cons t turns ih =>
    have hhead := saves t List.mem_cons_self
    exact ih (h.step hreg hhead apart.1) (hreg.step hhead)
      (fun t' ht' => saves t' (List.mem_cons_of_mem _ ht')) apart.2

theorem registering_opened {m : Manager} {rs : List Request} (h : ∀ r ∈ rs, r.Registers) :
    (opened m rs).Registering := by
  intro c hc
  obtain ⟨r, hr, rfl⟩ := List.mem_map.mp hc
  exact Request.registering_call (h r hr)

theorem due_opened (jobId : String) (m : Manager) {rs : List Request} (h : ∀ r ∈ rs, r.Registers) (i : Nat) :
    (opened m rs).due jobId i = none := by
  simp only [due, opened, List.getElem?_map]
  cases hr : rs[i]? with
  | none => rfl
  | some r =>
    have hregisters := h r (List.mem_of_getElem? hr)
    cases r with
    | register s => rfl
    | unregister jobId' => rfl
    | _ => exact hregisters.elim

theorem due_of_returned (jobId : String) (h : ∀ c ∈ d.calls, ∃ v, c = .ended v) (i : Nat) : d.due jobId i = none := by
  unfold due
  cases hc : d.calls[i]? with
  | none => rfl
  | some c =>
    obtain ⟨v, rfl⟩ := h c (List.mem_of_getElem? hc)
    rfl

/-- **When what is registered is stored.** Registrations and unregistrations, of any jobs and in any number,
take their steps in any order, over a store that keeps what it is given. If a job was active exactly if it was
stored, then so it is again once all calls have returned, if and only if the last change of the table for this
job and the last write to the store for it were of one kind; and they were if no call changed the table for the
job while another one had still a write to make for it. -/
theorem active_iff_stored {m : Manager} {rs : List Request} {turns : List Turn} {jobId : String}
    (registers : ∀ r ∈ rs, r.Registers) (saves : ∀ t ∈ turns, t.around.save = .ok ())
    (agree : m.isActive jobId = m.store.hasJob jobId)
    (returned : ∀ c ∈ ((opened m rs).run turns).calls, ∃ v, c = .ended v) :
    let d := (opened m rs).run turns
    (d.manager.isActive jobId = d.manager.store.hasJob jobId ↔
        lastChange jobId (opened m rs) turns = lastWrite jobId (opened m rs) turns) ∧
      (Apart jobId (opened m rs) turns → d.manager.isActive jobId = d.manager.store.hasJob jobId) := by
  intro d
  have hreg := registering_opened (m := m) registers
  have hstart := due_opened jobId m registers
  have hfinal := due_of_returned jobId returned
  refine ⟨?_, fun apart => ?_⟩
  · obtain ⟨hactive, hstored⟩ :
        d.manager.isActive jobId = (lastChange jobId (opened m rs) turns).getD (m.isActive jobId) ∧
          d.manager.store.hasJob jobId = (lastWrite jobId (opened m rs) turns).getD (m.store.hasJob jobId) :=
      hreg.run saves jobId
    rw [hactive, hstored, agree]
    cases hwrite : lastWrite jobId (opened m rs) turns with
    | none =>
      rw [(lastChange_eq_none hfinal hwrite).1]
      exact iff_of_true rfl rfl
    | some kind =>
      cases hchange : lastChange jobId (opened m rs) turns with
      | none => cases (lastWrite_eq_none hstart hchange).symm.trans hwrite
      | some kind' => rw [Option.getD_some, Option.getD_some, Option.some.injEq]
  · cases Settled.run (.written hstart agree) hreg saves apart with
    | written _ agree' => exact agree'
    | underway i kind due _ _ => cases (hfinal i).symm.trans due

/-! ### A registration in the midst of an unregistration -/

/-- A manager with one job, active and stored. -/
def sampleManager : Manager :=
  Manager.start { store := ⟨[sampleEndpoint], [sampleSubscription]⟩ } sampleSubscription sampleEndpoint

/-- Its job is unregistered and registered. -/
def sampleRequests : List Request := [.unregister "job", .register sampleSubscription]

/-- While the pair that was taken out of the table is stopping, the job is registered from start to end; then
the unregistration drops what the registration has stored. -/
def staleTurns : List Turn := [⟨0, {}⟩, ⟨0, {}⟩, ⟨1, {}⟩, ⟨1, {}⟩, ⟨1, {}⟩, ⟨1, {}⟩, ⟨1, {}⟩, ⟨0, {}⟩, ⟨0, {}⟩]

theorem registers_sampleRequests : ∀ r ∈ sampleRequests, r.Registers := by
  intro r hr
  simp only [sampleRequests, List.mem_cons, List.not_mem_nil, or_false] at hr
  rcases hr with rfl | rfl <;> trivial

theorem saves_staleTurns : ∀ t ∈ staleTurns, t.around.save = .ok () := by
  intro t ht
  simp only [staleTurns, List.mem_cons, List.not_mem_nil, or_false] at ht
  rcases ht with rfl | rfl | rfl | rfl | rfl | rfl | rfl | rfl | rfl <;> rfl

theorem calls_staleTurns : ((opened sampleManager sampleRequests).run staleTurns).calls =
    [.ended (.ok ()), .ended (.ok ())] := rfl

theorem returned_staleTurns : ∀ c ∈ ((opened sampleManager sampleRequests).run staleTurns).calls,
    ∃ v, c = .ended v := by
  intro c hc
  rw [calls_staleTurns] at hc
  simp only [List.mem_cons, List.not_mem_nil, or_false, or_self] at hc
  exact ⟨_, hc⟩

/-- The table was last changed by the registration, and the store was last written by the unregistration. -/
theorem active_iff_stored_staleTurns :
    ¬ (((opened sampleManager sampleRequests).run staleTurns).manager.isActive "job" =
        ((opened sampleManager sampleRequests).run staleTurns).manager.store.hasJob "job") := by
  have hagree : sampleManager.isActive "job" = sampleManager.store.hasJob "job" := rfl
  have hchange : lastChange "job" (opened sampleManager sampleRequests) staleTurns = some true := rfl
  have hwrite : lastWrite "job" (opened sampleManager sampleRequests) staleTurns = some false := rfl
  obtain ⟨hiff, -⟩ := active_iff_stored registers_sampleRequests saves_staleTurns hagree returned_staleTurns
  rw [hiff, hchange, hwrite]
  decide

/-- **A registration can be lost from the store.** It is not so that a job which was active exactly if it was
stored always is so again once all registrations and unregistrations have returned. -/
theorem stale_drop : ¬ ∀ (m : Manager) (rs : List Request) (turns : List Turn) (jobId : String),
    (∀ r ∈ rs, r.Registers) → (∀ t ∈ turns, t.around.save = .ok ()) → m.isActive jobId = m.store.hasJob jobId →
    (∀ c ∈ ((opened m rs).run turns).calls, ∃ v, c = .ended v) →
    ((opened m rs).run turns).manager.isActive jobId = ((opened m rs).run turns).manager.store.hasJob jobId := by
  intro h
  have hsame := h sampleManager sampleRequests staleTurns "job" registers_sampleRequests saves_staleTurns rfl
    returned_staleTurns
  have hactive : ((opened sampleManager sampleRequests).run staleTurns).manager.isActive "job" = true := rfl
  have hstored : ((opened sampleManager sampleRequests).run staleTurns).manager.store.hasJob "job" = false := rfl
  rw [hactive, hstored] at hsame
  cases hsame

end Desk
end Manager
end OracleRelay
