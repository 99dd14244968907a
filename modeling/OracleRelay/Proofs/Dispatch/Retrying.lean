/-
# What becomes of a request

The deliveries of a dispatcher go on side by side, each through its own attempts. A step is either for nothing or one
of four moves, and all but the first are moves of one delivery (`Dispatcher.Move`). What a delivery has been answered
and where it stands go together (`Delivery.Stands`): it makes its attempts until one succeeds or fails in a way that is
not worth another one, or until there are as many as are allowed. The counters tell how many deliveries have come to
which end (`Dispatcher.Counted`), so together they tell how many have ended (`Dispatcher.bounded_attempts`).

Key definitions: `Dispatcher.Move`, `Dispatcher.outcomes`, `Dispatcher.callsOf`, `Dispatcher.alone`,
`Delivery.Stands`, `Delivery.Booked`, `Dispatcher.Counted`.
Key theorems: `Dispatcher.step_move`, `Delivery.Booked.step`, `Dispatcher.booked_run`, `Dispatcher.counted_run`,
`Dispatcher.exists_over_alone`, `Dispatcher.bounded_attempts`.
-/
import Mathlib.Data.List.Induction
import OracleRelay.Dispatch.Delivery

namespace OracleRelay

/-- How an attempt went. -/
abbrev Delivery.Outcome : Type := Except TriggerFault Unit

open Delivery (Outcome)

/-- The attempt failed in a way that is worth another one. -/
def Delivery.Outcome.Retryable (o : Outcome) : Prop := ∃ fault, o = .error fault ∧ fault.isRetryable = true

namespace Dispatcher

/-! ### Moves -/

/-- The answer that a delivery takes in at a step. It takes in none unless it has an attempt at the job node. -/
def outcome? (i : Nat) (d : Dispatcher) : Step → Option Outcome
  | .answer j outcome => if j = i ∧ (d.deliveries[i]?).any (·.phase = .calling) then some outcome else none
  | _ => none

/-- What may come of a step. -/
inductive Move (d : Dispatcher) : Step → Dispatcher → Prop where
  | rests {s : Step} (unanswered : ∀ i, d.outcome? i s = none) (unsent : ∀ jobId request, s ≠ .send jobId request) :
      Move d s d
  | sends (jobId : String) (request : Fields) :
      Move d (.send jobId request) { d with deliveries := d.deliveries ++ [{ jobId, body := request.body }] }
  | calls {i : Nat} {x : Delivery} (place : d.deliveries[i]? = some x) (due : x.phase = .due) :
      Move d (.call i) { d.put i x.called with calls := d.calls ++ [⟨i, x.jobId, x.body⟩] }
  | answers {i : Nat} {x : Delivery} (outcome : Outcome) (place : d.deliveries[i]? = some x)
      (calling : x.phase = .calling) :
      Move d (.answer i outcome) ((d.put i (x.answered d.limit outcome)).count (x.answered d.limit outcome))
  | wakes {i : Nat} {x : Delivery} (place : d.deliveries[i]? = some x) (resting : x.phase = .resting) :
      Move d (.wake i) (d.put i x.rested)

/-- Whatever the step is, it is one of the moves. -/
theorem step_move (d : Dispatcher) (s : Step) : Move d s (d.step s) := by
  cases s with
  | send jobId request => exact .sends jobId request
  | call i =>
    cases hplace : d.deliveries[i]? with
    | none =>
      simp only [step, hplace]
      exact .rests (fun _ => rfl) nofun
    | some x =>
      by_cases hphase : x.phase = .due
      · simp only [step, hplace, if_pos hphase]
        exact .calls hplace hphase
      · simp only [step, hplace, if_neg hphase]
        exact .rests (fun _ => rfl) nofun
  | answer i outcome =>
    cases hplace : d.deliveries[i]? with
    | none =>
      simp only [step, hplace]
      refine .rests (fun j => if_neg ?_) nofun
      rintro ⟨rfl, hcalling⟩
      simp [hplace] at hcalling
    | some x =>
      by_cases hphase : x.phase = .calling
      · simp only [step, hplace, if_pos hphase]
        exact .answers outcome hplace hphase
      · simp only [step, hplace, if_neg hphase]
        refine .rests (fun j => if_neg ?_) nofun
        rintro ⟨rfl, hcalling⟩
        simp [hplace, hphase] at hcalling
  | wake i =>
    cases hplace : d.deliveries[i]? with
    | none =>
      simp only [step, hplace]
      exact .rests (fun _ => rfl) nofun
    | some x =>
      by_cases hphase : x.phase = .resting
      · simp only [step, hplace, if_pos hphase]
        exact .wakes hplace hphase
      · simp only [step, hplace, if_neg hphase]
        exact .rests (fun _ => rfl) nofun

/-! ### One delivery among the others -/

/-- The attempts of a delivery. -/
def callsOf (i : Nat) (d : Dispatcher) : List TriggerCall := d.calls.filter (·.delivery = i)

/-- The answers that a delivery takes in during a run, in order. -/
def outcomes (i : Nat) : Dispatcher → List Step → List Outcome
  | _, [] => []
  | d, s :: steps => (d.outcome? i s).toList ++ outcomes i (d.step s) steps

theorem limit_step (d : Dispatcher) (s : Step) : (d.step s).limit = d.limit := by
  have hmove := step_move d s
  generalize d.step s = d' at hmove
  cases hmove with
  | @answers i x outcome =>
    simp only [count]
    split <;> rfl
  | _ => rfl

@[simp]
theorem deliveries_count (d : Dispatcher) (x : Delivery) : (d.count x).deliveries = d.deliveries := by
  simp only [count]
  split <;> rfl

@[simp]
theorem callsOf_count (d : Dispatcher) (x : Delivery) (i : Nat) : (d.count x).callsOf i = d.callsOf i := by
  simp only [count]
  split <;> rfl

theorem getElem?_put_self {d : Dispatcher} {i : Nat} {x : Delivery} (place : d.deliveries[i]? = some x)
    (y : Delivery) : (d.put i y).deliveries[i]? = some y := by
  obtain ⟨hi, -⟩ := List.getElem?_eq_some_iff.mp place
  exact List.getElem?_set_self hi

theorem getElem?_put_of_ne {i j : Nat} (h : j ≠ i) (d : Dispatcher) (y : Delivery) :
    (d.put j y).deliveries[i]? = d.deliveries[i]? :=
  List.getElem?_set_ne h

end Dispatcher

namespace Delivery

open Dispatcher

/-- What a delivery has been answered, and where it stands. -/
inductive Stands (limit : Nat) : List Outcome → Delivery → Prop where
  | due {os : List Outcome} {jobId body : String} (failed : ∀ o ∈ os, o.Retryable) (room : os.length < max 1 limit) :
      Stands limit os ⟨jobId, body, os.length, .due⟩
  | calling {os : List Outcome} {jobId body : String} (failed : ∀ o ∈ os, o.Retryable)
      (room : os.length < max 1 limit) : Stands limit os ⟨jobId, body, os.length + 1, .calling⟩
  | resting {os : List Outcome} {jobId body : String} (failed : ∀ o ∈ os, o.Retryable)
      (room : os.length < max 1 limit) (attempted : 0 < os.length) : Stands limit os ⟨jobId, body, os.length, .resting⟩
  | delivered {os : List Outcome} {jobId body : String} (failed : ∀ o ∈ os, o.Retryable)
      (room : os.length < max 1 limit) :
      Stands limit (os ++ [.ok ()]) ⟨jobId, body, os.length + 1, .delivered⟩
  /-- the last attempt failed, and there is not another one -/
  | dropped {os : List Outcome} {jobId body : String} {fault : TriggerFault} (failed : ∀ o ∈ os, o.Retryable)
      (room : os.length < max 1 limit) (last : fault.isRetryable = false ∨ os.length + 1 = max 1 limit) :
      Stands limit (os ++ [.error fault]) ⟨jobId, body, os.length + 1, .dropped⟩

variable {limit : Nat} {os : List Outcome} {x : Delivery}

/-- What a delivery is for, as job and body. -/
def request (x : Delivery) : String × String := (x.jobId, x.body)

/-- An answer moves a delivery on, and changes nothing else of it. -/
theorem answered_same (limit : Nat) (x : Delivery) (outcome : Outcome) :
    ∃ phase, x.answered limit outcome = { x with phase } := by
  unfold answered
  split
  · exact ⟨_, rfl⟩
  · split <;> exact ⟨_, rfl⟩

theorem Stands.called (h : Stands limit os x) (due : x.phase = .due) : Stands limit os x.called := by
  cases h with
  | due failed room => exact .calling failed room
  | _ => cases due

theorem Stands.rested (h : Stands limit os x) (resting : x.phase = .resting) : Stands limit os x.rested := by
  cases h with
  | resting failed room _ => exact .due failed room
  | _ => cases resting

/-- An answer: a success ends the delivery, and so does a failure after which there is no other attempt. -/
theorem Stands.answered (h : Stands limit os x) (calling : x.phase = .calling) (outcome : Outcome) :
    Stands limit (os ++ [outcome]) (x.answered limit outcome) := by
  cases h with
  | calling failed room =>
    cases outcome with
    | ok => exact .delivered failed room
    | error fault =>
      by_cases hretry : fault.isRetryable = true ∧ os.length + 1 < max 1 limit
      · have hanswered : ∀ o ∈ os ++ [.error fault], o.Retryable :=
          List.forall_mem_append.mpr ⟨failed, List.forall_mem_singleton.mpr ⟨fault, rfl, hretry.1⟩⟩
        have hlength : (os ++ [(.error fault : Outcome)]).length = os.length + 1 := by simp
        simp only [Delivery.answered, hretry, decide_true, Bool.and_self, ↓reduceIte]
        rw [← hlength]
        exact .resting hanswered (hlength ▸ hretry.2) (hlength ▸ Nat.succ_pos _)
      · have hgive : ¬ (fault.isRetryable && decide (os.length + 1 < max 1 limit)) = true := by simpa using hretry
        simp only [Delivery.answered, hgive, Bool.false_eq_true, ↓reduceIte]
        refine .dropped failed room ?_
        by_cases hfault : fault.isRetryable = true
        · exact .inr (by have := not_and.mp hretry hfault; omega)
        · exact .inl (by simpa using hfault)
  | _ => cases calling

theorem Stands.attempts_eq (h : Stands limit os x) : x.attempts = os.length + if x.phase = .calling then 1 else 0 := by
  cases h <;> simp

theorem Stands.attempts_le (h : Stands limit os x) : x.attempts ≤ max 1 limit := by
  cases h <;> simp only <;> omega

theorem Stands.retryable (h : Stands limit os x) : ∀ o ∈ os.dropLast, o.Retryable := by
  cases h with
  | due failed _ => exact fun o ho => failed o ((List.dropLast_sublist os).subset ho)
  | calling failed _ => exact fun o ho => failed o ((List.dropLast_sublist os).subset ho)
  | resting failed _ _ => exact fun o ho => failed o ((List.dropLast_sublist os).subset ho)
  | delivered failed _ => rwa [List.dropLast_concat]
  | dropped failed _ _ => rwa [List.dropLast_concat]

/-- While a delivery goes on its last attempt was not one that ends it. -/
theorem not_ended {o : Outcome} (failed : ∀ o ∈ os, o.Retryable) (room : os.length < max 1 limit)
    (h : os.getLast? = some o) : ¬ (¬ o.Retryable ∨ os.length = max 1 limit) := by
  rintro (hend | hfull)
  · exact hend (failed o (List.mem_of_getLast? h))
  · omega

theorem not_retryable_ok : ¬ Outcome.Retryable (.ok ()) := by
  rintro ⟨_, h, -⟩
  cases h

theorem not_retryable_error {fault : TriggerFault} :
    ¬ Outcome.Retryable (.error fault) ↔ fault.isRetryable = false := by
  simp [Outcome.Retryable]

theorem Stands.delivered_iff (h : Stands limit os x) : x.phase = .delivered ↔ os.getLast? = some (.ok ()) := by
  cases h with
  | due failed room => simpa using fun h => not_ended failed room h (.inl not_retryable_ok)
  | calling failed room => simpa using fun h => not_ended failed room h (.inl not_retryable_ok)
  | resting failed room _ => simpa using fun h => not_ended failed room h (.inl not_retryable_ok)
  | delivered failed room => simp
  | dropped failed room last => simp

theorem Stands.dropped_iff (h : Stands limit os x) :
    x.phase = .dropped ↔
      ∃ fault, os.getLast? = some (.error fault) ∧ (fault.isRetryable = false ∨ os.length = max 1 limit) := by
  simp only [← not_retryable_error]
  cases h with
  | due failed room => simpa using fun fault h => not_or.mp (not_ended failed room h)
  | calling failed room => simpa using fun fault h => not_or.mp (not_ended failed room h)
  | resting failed room _ => simpa using fun fault h => not_or.mp (not_ended failed room h)
  | delivered failed room => simp
  | dropped failed room last => simpa [not_retryable_error] using last

/-- What is booked of the delivery with a number: the answers that it has taken in and its attempts. All attempts are
for its job, with its body. Before it is begun there are none. -/
def Booked (limit i : Nat) (os : List Outcome) (calls : List TriggerCall) : Option Delivery → Prop
  | none => os = [] ∧ calls = []
  | some x => Stands limit os x ∧ calls = List.replicate x.attempts ⟨i, x.jobId, x.body⟩

/-- A step keeps what is booked of a delivery in order, its own steps and those of others. -/
theorem Booked.step {d : Dispatcher} {i : Nat} (h : Booked d.limit i os (d.callsOf i) d.deliveries[i]?) (s : Step) :
    Booked (d.step s).limit i (os ++ (d.outcome? i s).toList) ((d.step s).callsOf i) (d.step s).deliveries[i]? := by
  rw [limit_step]
  have hmove := step_move d s
  generalize d.step s = d' at hmove
  cases hmove with
  | rests unanswered _ =>
    rw [unanswered, Option.toList_none, List.append_nil]
    exact h
  | sends jobId request =>
    simp only [outcome?, Option.toList_none, List.append_nil]
    rcases Nat.lt_trichotomy i d.deliveries.length with hi | rfl | hi
    · rw [List.getElem?_append_left hi]
      exact h
    · -- the delivery that the step begins
      rw [List.getElem?_eq_none (Nat.le_refl _)] at h
      obtain ⟨rfl, hcalls⟩ := h
      rw [List.getElem?_concat_length]
      exact ⟨.due (by simp) (by rw [List.length_nil]; omega), hcalls⟩
    · rw [List.getElem?_eq_none (Nat.le_of_lt hi)] at h
      rw [List.getElem?_eq_none (by rw [List.length_append, List.length_singleton]; omega)]
      exact h
  | @calls j x place due =>
    simp only [outcome?, Option.toList_none, List.append_nil]
    by_cases hj : j = i
    · subst hj
      rw [place] at h
      obtain ⟨hstands, hcalls⟩ := h
      have hplace := getElem?_put_self place x.called
      have hcall : ({ d.put j x.called with calls := d.calls ++ [⟨j, x.jobId, x.body⟩] } : Dispatcher).callsOf j
          = d.callsOf j ++ [⟨j, x.jobId, x.body⟩] := by
        simp [callsOf, List.filter_append]
      rw [hcall, hcalls]
      change Booked _ _ _ _ (d.put j x.called).deliveries[j]?
      rw [hplace]
      exact ⟨hstands.called due, List.replicate_succ'.symm⟩
    · have hcall : ({ d.put j x.called with calls := d.calls ++ [⟨j, x.jobId, x.body⟩] } : Dispatcher).callsOf i
          = d.callsOf i := by
        simp [callsOf, List.filter_append, hj]
      rw [hcall]
      change Booked _ _ _ _ (d.put j x.called).deliveries[i]?
      rw [getElem?_put_of_ne hj]
      exact h
  | @answers j x outcome place calling =>
    rw [callsOf_count, deliveries_count]
    change Booked _ _ _ (d.callsOf i) _
    by_cases hj : j = i
    · subst hj
      have houtcome : d.outcome? j (.answer j outcome) = some outcome := by simp [outcome?, place, calling]
      rw [place] at h
      obtain ⟨phase, hsame⟩ := answered_same d.limit x outcome
      rw [houtcome, getElem?_put_self place]
      exact ⟨h.1.answered calling outcome, by rw [hsame]; exact h.2⟩
    · have houtcome : d.outcome? i (.answer j outcome) = none := by simp [outcome?, hj]
      rw [houtcome, Option.toList_none, List.append_nil, getElem?_put_of_ne hj]
      exact h
  | @wakes j x place resting =>
    simp only [outcome?, Option.toList_none, List.append_nil]
    change Booked _ _ _ (d.callsOf i) _
    by_cases hj : j = i
    · subst hj
      rw [place] at h
      rw [getElem?_put_self place]
      exact ⟨h.1.rested resting, h.2⟩
    · rw [getElem?_put_of_ne hj]
      exact h

end Delivery

namespace Dispatcher

open Delivery

/-! ### Runs -/

theorem limit_run (d : Dispatcher) (steps : List Step) : (d.run steps).limit = d.limit := by
  induction steps generalizing d with
  | nil => rfl
  | cons s steps ih => exact (ih (d.step s)).trans (limit_step d s)

/-- What is booked of a delivery stays in order. -/
theorem booked_run {d : Dispatcher} {i : Nat} {os : List Outcome}
    (h : Booked d.limit i os (d.callsOf i) d.deliveries[i]?) (steps : List Step) :
    Booked d.limit i (os ++ d.outcomes i steps) ((d.run steps).callsOf i) (d.run steps).deliveries[i]? := by
  induction steps generalizing d os with
  | nil =>
    rw [outcomes, List.append_nil]
    exact h
  | cons s steps ih =>
    have hrun := ih (h.step s)
    rw [limit_step, List.append_assoc] at hrun
    exact hrun

/-- The requests that a step hands over, as job and body. -/
def handed : Step → List (String × String)
  | .send jobId request => [(jobId, request.body)]
  | _ => []

/-- A delivery that is put in the place of one for the same request. -/
theorem map_request_put {d : Dispatcher} {i : Nat} {x y : Delivery} (place : d.deliveries[i]? = some x)
    (h : y.request = x.request) : (d.put i y).deliveries.map Delivery.request = d.deliveries.map Delivery.request := by
  obtain ⟨hi, rfl⟩ := List.getElem?_eq_some_iff.mp place
  change (d.deliveries.set i y).map Delivery.request = _
  rw [List.map_set, h, ← List.getElem_map Delivery.request (h := by simpa using hi), List.set_getElem_self]

/-- The deliveries are for what was handed over, in order. -/
theorem requests_step (d : Dispatcher) (s : Step) :
    (d.step s).deliveries.map Delivery.request = d.deliveries.map Delivery.request ++ handed s := by
  have hmove := step_move d s
  generalize d.step s = d' at hmove
  cases hmove with
  | rests _ unsent =>
    cases s with
    | send jobId request => exact absurd rfl (unsent jobId request)
    | _ => exact (List.append_nil _).symm
  | sends jobId request => exact List.map_append
  | @calls i x place _ => exact (map_request_put (y := x.called) place rfl).trans (List.append_nil _).symm
  | @answers i x outcome place _ =>
    obtain ⟨phase, hsame⟩ := answered_same d.limit x outcome
    rw [deliveries_count, map_request_put place (by rw [hsame]; rfl)]
    exact (List.append_nil _).symm
  | @wakes i x place _ => exact (map_request_put (y := x.rested) place rfl).trans (List.append_nil _).symm

theorem requests_run (d : Dispatcher) (steps : List Step) :
    (d.run steps).deliveries.map Delivery.request = d.deliveries.map Delivery.request ++ steps.flatMap handed := by
  induction steps generalizing d with
  | nil => exact (List.append_nil _).symm
  | cons s steps ih =>
    rw [List.flatMap_cons, ← List.append_assoc, ← requests_step]
    exact ih (d.step s)

/-! ### The counters -/

/-- The counters tell how many deliveries have come to which end. -/
structure Counted (d : Dispatcher) : Prop where
  delivered : d.delivered = d.deliveries.countP (·.phase = .delivered)
  failed : d.failed = d.deliveries.countP (·.phase = .dropped)

theorem delivered_count (d : Dispatcher) (x : Delivery) :
    (d.count x).delivered = d.delivered + if x.phase = .delivered then 1 else 0 := by
  unfold count
  split <;> simp_all

theorem failed_count (d : Dispatcher) (x : Delivery) :
    (d.count x).failed = d.failed + if x.phase = .dropped then 1 else 0 := by
  unfold count
  split <;> simp_all

theorem countP_put {d : Dispatcher} {i : Nat} {x : Delivery} (place : d.deliveries[i]? = some x)
    {phase : Phase} (h : x.phase ≠ phase) (y : Delivery) :
    (d.put i y).deliveries.countP (·.phase = phase)
      = d.deliveries.countP (·.phase = phase) + if y.phase = phase then 1 else 0 := by
  obtain ⟨hi, rfl⟩ := List.getElem?_eq_some_iff.mp place
  change (d.deliveries.set i y).countP _ = _
  rw [List.countP_set hi]
  simp [h]

/-- A delivery that goes on without coming to its end. -/
theorem Counted.put {d : Dispatcher} (h : d.Counted) {i : Nat} {x y : Delivery} (place : d.deliveries[i]? = some x)
    (hx : x.isOver = false) (hy : y.isOver = false) : (d.put i y).Counted := by
  simp only [isOver, Bool.or_eq_false_iff, decide_eq_false_iff_not] at hx hy
  constructor
  · rw [countP_put place hx.1, if_neg hy.1]
    exact h.delivered
  · rw [countP_put place hx.2, if_neg hy.2]
    exact h.failed

theorem Counted.step {d : Dispatcher} (h : d.Counted) (s : Step) : (d.step s).Counted := by
  have hmove := step_move d s
  generalize d.step s = d' at hmove
  cases hmove with
  | rests _ _ => exact h
  | sends jobId request =>
    constructor
    · rw [List.countP_append]
      exact h.delivered
    · rw [List.countP_append]
      exact h.failed
  | @calls i x place due =>
    have hput := h.put (y := x.called) place (by simp [isOver, due]) rfl
    exact ⟨hput.delivered, hput.failed⟩
  | @answers i x outcome place calling =>
    constructor
    · rw [delivered_count, deliveries_count, countP_put place (by simp [calling]), ← h.delivered]
      rfl
    · rw [failed_count, deliveries_count, countP_put place (by simp [calling]), ← h.failed]
      rfl
  | wakes place resting => exact h.put place (by simp [isOver, resting]) rfl

theorem counted_run {d : Dispatcher} (h : d.Counted) (steps : List Step) : (d.run steps).Counted := by
  induction steps generalizing d with
  | nil => exact h
  | cons s steps ih => exact ih (h.step s)

/-- A delivery has ended if it was delivered or dropped, and never both. -/
theorem countP_isOver (deliveries : List Delivery) :
    deliveries.countP isOver
      = deliveries.countP (·.phase = .delivered) + deliveries.countP (·.phase = .dropped) := by
  induction deliveries with
  | nil => rfl
  | cons x deliveries ih =>
    rw [List.countP_cons, List.countP_cons, List.countP_cons, ih]
    cases hphase : x.phase <;> simp [isOver, hphase] <;> omega

/-! ### The end of a delivery -/

/-- Nothing happens to a delivery that has ended. -/
theorem ended_step {d : Dispatcher} {i : Nat} {x : Delivery} (place : d.deliveries[i]? = some x)
    (ended : x.isOver = true) (s : Step) :
    (d.step s).deliveries[i]? = some x ∧ (d.step s).callsOf i = d.callsOf i := by
  -- the delivery that a move is of has not ended, so it is another one
  have hother : ∀ {j : Nat} {y : Delivery}, d.deliveries[j]? = some y → y.isOver = false → j ≠ i := by
    rintro j y hj hy rfl
    rw [place, Option.some_inj] at hj
    rw [hj, hy] at ended
    cases ended
  have hmove := step_move d s
  generalize d.step s = d' at hmove
  cases hmove with
  | rests _ _ => exact ⟨place, rfl⟩
  | sends jobId request =>
    obtain ⟨hi, -⟩ := List.getElem?_eq_some_iff.mp place
    exact ⟨(List.getElem?_append_left hi).trans place, rfl⟩
  | @calls j y hj due =>
    have hne := hother hj (by simp [isOver, due])
    exact ⟨(getElem?_put_of_ne hne d y.called).trans place, by simp [callsOf, List.filter_append, hne]⟩
  | @answers j y outcome hj calling =>
    have hne := hother hj (by simp [isOver, calling])
    rw [callsOf_count, deliveries_count]
    exact ⟨(getElem?_put_of_ne hne d _).trans place, rfl⟩
  | @wakes j y hj resting =>
    have hne := hother hj (by simp [isOver, resting])
    exact ⟨(getElem?_put_of_ne hne d y.rested).trans place, rfl⟩

theorem ended_run {d : Dispatcher} {i : Nat} {x : Delivery} (place : d.deliveries[i]? = some x)
    (ended : x.isOver = true) (steps : List Step) :
    (d.run steps).deliveries[i]? = some x ∧ (d.run steps).callsOf i = d.callsOf i := by
  induction steps generalizing d with
  | nil => exact ⟨place, rfl⟩
  | cons s steps ih =>
    obtain ⟨hplace, hcalls⟩ := ended_step place ended s
    exact (ih hplace).imp_right (·.trans hcalls)

/-- The next step of a delivery alone, when the job node answers its attempts by a script. -/
def next? (script : Nat → Outcome) (i : Nat) (x : Delivery) : Option Step :=
  match x.phase with
  | .due => some (.call i)
  | .calling => some (.answer i (script x.attempts))
  | .resting => some (.wake i)
  | .delivered | .dropped => none

/-- At most so many steps of a delivery alone. -/
def alone (script : Nat → Outcome) (i : Nat) : Nat → Dispatcher → List Step
  | 0, _ => []
  | n + 1, d =>
    match d.deliveries[i]?.bind (next? script i) with
    | some s => s :: alone script i n (d.step s)
    | none => []

end Dispatcher

namespace Delivery

/-- The steps that a delivery can still make: three for each attempt that is left. -/
def ahead (limit : Nat) (x : Delivery) : Nat :=
  match x.phase with
  | .due => 3 * (max 1 limit - x.attempts)
  | .calling => 3 * (max 1 limit - x.attempts) + 2
  | .resting => 3 * (max 1 limit - x.attempts) + 1
  | .delivered | .dropped => 0

variable {limit : Nat} {os : List Outcome} {x : Delivery}

theorem Stands.ahead_le (h : Stands limit os x) : x.ahead limit ≤ 3 * max 1 limit := by
  cases h <;> simp only [ahead] <;> omega

theorem Stands.ended_of_ahead (h : Stands limit os x) (hahead : x.ahead limit = 0) : x.isOver = true := by
  cases h with
  | delivered _ _ => rfl
  | dropped _ _ _ => rfl
  | _ => simp only [ahead] at hahead; omega

end Delivery

namespace Dispatcher

open Delivery

theorem ended_of_next {script : Nat → Outcome} {i : Nat} {x : Delivery} (h : next? script i x = none) :
    x.isOver = true := by
  unfold next? at h
  unfold isOver
  split at h <;> simp_all

/-- A step of a delivery alone brings it nearer to its end. -/
theorem ahead_next {d : Dispatcher} {i : Nat} {x : Delivery} {os : List Outcome} (place : d.deliveries[i]? = some x)
    (h : Stands d.limit os x) (script : Nat → Outcome) {s : Step} (hs : next? script i x = some s) :
    ∃ y, (d.step s).deliveries[i]? = some y ∧ y.ahead d.limit < x.ahead d.limit := by
  cases h with
  | due failed room =>
    cases hs
    refine ⟨_, by simp only [step, place]; exact getElem?_put_self place _, ?_⟩
    simp only [ahead, called]
    omega
  | calling failed room =>
    cases hs
    refine ⟨_, by simp only [step, place, ↓reduceIte, deliveries_count]; exact getElem?_put_self place _, ?_⟩
    generalize script (os.length + 1) = outcome
    cases outcome with
    | ok => simp [answered, ahead]
    | error fault =>
      simp only [answered]
      split
      · simp only [ahead]
        omega
      · simp [ahead]
  | resting failed room attempted =>
    cases hs
    refine ⟨_, by simp only [step, place]; exact getElem?_put_self place _, ?_⟩
    simp only [ahead, rested]
    omega
  | delivered failed room => cases hs
  | dropped failed room last => cases hs

/-- Left to itself a delivery comes to its end, however its attempts go. -/
theorem exists_over_alone {d : Dispatcher} {i : Nat} {os : List Outcome} {x : Delivery}
    (h : Booked d.limit i os (d.callsOf i) d.deliveries[i]?) (place : d.deliveries[i]? = some x)
    (script : Nat → Outcome) {n : Nat} (hn : x.ahead d.limit ≤ n) :
    ∃ y, (d.run (d.alone script i n)).deliveries[i]? = some y ∧ y.isOver = true := by
  induction n generalizing d os x with
  | zero =>
    rw [place] at h
    exact ⟨x, place, h.1.ended_of_ahead (Nat.le_zero.mp hn)⟩
  | succ n ih =>
    have hstands : Stands d.limit os x := by
      rw [place] at h
      exact h.1
    cases hnext : next? script i x with
    | none =>
      have halone : d.alone script i (n + 1) = [] := by simp [alone, place, hnext]
      rw [halone]
      exact ⟨x, place, ended_of_next hnext⟩
    | some s =>
      have halone : d.alone script i (n + 1) = s :: alone script i n (d.step s) := by simp [alone, place, hnext]
      obtain ⟨y, hy, hless⟩ := ahead_next place hstands script hnext
      rw [halone]
      refine ih (h.step s) hy ?_
      rw [limit_step]
      omega

/-- The requests that were handed over are delivered each by itself. A delivery is attempted with the job and the body
that were handed over, up to its first success or its first failure that is not worth another attempt, and no more
often than is allowed. When it has ended nothing more comes of it, and that it ends is up to it alone. The counters
tell how the deliveries ended that have. -/
theorem bounded_attempts (limit : Nat) (steps : List Step) :
    let d : Dispatcher := run { limit } steps
    d.deliveries.map Delivery.request = steps.flatMap handed ∧
    (∀ i x, d.deliveries[i]? = some x →
      let os := outcomes i { limit } steps
      d.callsOf i = List.replicate x.attempts ⟨i, x.jobId, x.body⟩ ∧
      x.attempts = os.length + (if x.phase = .calling then 1 else 0) ∧
      x.attempts ≤ max 1 limit ∧
      (∀ o ∈ os.dropLast, o.Retryable) ∧
      (x.phase = .delivered ↔ os.getLast? = some (.ok ())) ∧
      (x.phase = .dropped ↔
        ∃ fault, os.getLast? = some (.error fault) ∧ (fault.isRetryable = false ∨ os.length = max 1 limit)) ∧
      (x.isOver = true → ∀ more,
        (d.run more).deliveries[i]? = some x ∧ (d.run more).callsOf i = d.callsOf i) ∧
      ∀ script, ∃ y,
        (d.run (d.alone script i (3 * max 1 limit))).deliveries[i]? = some y ∧ y.isOver = true) ∧
    d.delivered = d.deliveries.countP (·.phase = .delivered) ∧
    d.failed = d.deliveries.countP (·.phase = .dropped) ∧
    d.delivered + d.failed = d.deliveries.countP isOver := by
  intro d
  have hlimit : d.limit = limit := limit_run _ steps
  have hcounted : d.Counted := counted_run ⟨rfl, rfl⟩ steps
  refine ⟨requests_run _ steps, ?_, hcounted.delivered, hcounted.failed, ?_⟩
  · intro i x place os
    have hstart : Booked limit i [] (callsOf i { limit }) none := ⟨rfl, rfl⟩
    have hbooked : Booked limit i os (d.callsOf i) d.deliveries[i]? := booked_run (d := { limit }) hstart steps
    obtain ⟨hstands, hcalls⟩ : Booked limit i os (d.callsOf i) (some x) := place ▸ hbooked
    refine ⟨hcalls, hstands.attempts_eq, hstands.attempts_le, hstands.retryable, hstands.delivered_iff,
      hstands.dropped_iff, ended_run place, fun script => ?_⟩
    rw [← hlimit] at hbooked hstands ⊢
    exact exists_over_alone hbooked place script hstands.ahead_le
  · rw [hcounted.delivered, hcounted.failed]
    exact (countP_isOver d.deliveries).symm

end Dispatcher
end OracleRelay
