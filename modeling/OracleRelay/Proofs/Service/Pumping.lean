/-
# What a pump hands on

The events that enter the sink while the pump is at work are received in their order (`Pump.received`); an event
counts as received once the pump has it in hand and has seen, in its second look, that it was not told to stop. What a
pump hands on are the requests in the events that it received (`Pump.Tracks`), so nothing that is still in the sink or
not yet looked at when the pump is told to stop is ever handed on (`Pump.handed_exactly`).

Key definitions: `Pump.along`, `Pump.entered`, `Pump.received`, `Pump.Tracks`.
Key theorems: `Pump.Tracks.step`, `Pump.tracks_run`, `Pump.received_told`, `Pump.run_turns`, `Pump.handed_exactly`.
-/
import OracleRelay.Proofs.Request.Event
import OracleRelay.Service.Pump

namespace OracleRelay
namespace Pump

theorem requestIn_eq_some_iff {jobId : String} {e : ChainEvent} {r : Fields} :
    requestIn jobId e = some r ↔ e.requestFor jobId = .ok (some r) := by
  unfold requestIn
  rcases e.requestFor jobId with fault | _ | fields <;> simp [Except.toOption]

/-! ### What enters and what is received -/

/-- The event that enters the sink at a step. -/
def enters? (p : Pump) : Step → Option ChainEvent
  | .event e => if p.ended then none else some e
  | _ => none

/-- The event that the pump receives at a step: it has it in hand, and has not been told to stop. -/
def receives? (p : Pump) : Step → Option ChainEvent
  | .turn =>
    match p.hand with
    | .taken e => if p.ended || p.told then none else some e
    | _ => none
  | _ => none

/-- The events that the steps of a run give in turn. -/
def along (f : Pump → Step → Option ChainEvent) : Pump → List Step → List ChainEvent
  | _, [] => []
  | p, s :: steps => (f p s).toList ++ along f (p.step s) steps

/-- The events that enter the sink in a run. -/
def entered (p : Pump) (steps : List Step) : List ChainEvent := along enters? p steps

/-- The events that the pump receives in a run. -/
def received (p : Pump) (steps : List Step) : List ChainEvent := along receives? p steps

/-- The event that is out of the sink and not yet received. -/
def Hand.unsure : Hand → List ChainEvent
  | .taken e => [e]
  | _ => []

/-- The event that is received and whose request is still to be handed on. -/
def Hand.due : Hand → List ChainEvent
  | .cleared e => [e]
  | _ => []

theorem run_append (p : Pump) (steps steps' : List Step) : p.run (steps ++ steps') = (p.run steps).run steps' :=
  List.foldl_append

theorem along_append (f : Pump → Step → Option ChainEvent) : ∀ (p : Pump) (steps steps' : List Step),
    along f p (steps ++ steps') = along f p steps ++ along f (p.run steps) steps'
  | _, [], _ => rfl
  | p, s :: steps, steps' => by
    have ih := along_append f (p.step s) steps steps'
    rw [List.cons_append, along, along, ih, List.append_assoc]
    rfl

/-! ### The books of a pump -/

/-- How a pump stands to the events that have entered its sink and to those that it has received. -/
structure Tracks (jobId : String) (entered received : List ChainEvent) (p : Pump) : Prop where
  job : p.jobId = jobId
  handed : p.handed ++ p.hand.due.filterMap (requestIn jobId) = received.filterMap (requestIn jobId)
  /-- at work, all that was not received is in hand or in the sink -/
  working : p.ended = false → entered = received ++ (p.hand.unsure ++ p.waiting)
  finished : p.ended = true → p.hand = .empty ∧ ∃ lost, entered = received ++ lost ∧ (p.told = false → lost = [])

variable {jobId : String} {ent rec : List ChainEvent} {p : Pump}

/-- A pump can end when nothing is due, and it loses what it has not received only if it was told to. -/
theorem Tracks.ends (h : Tracks jobId ent rec p) (hopen : p.ended = false) (hdue : p.hand.due = [])
    (hlost : p.told = false → p.hand.unsure ++ p.waiting = []) :
    Tracks jobId ent rec { p with hand := .empty, ended := true } := by
  have hhanded := h.handed
  rw [hdue] at hhanded
  exact ⟨h.job, hhanded, nofun, fun _ => ⟨rfl, _, h.working hopen, hlost⟩⟩

/-- The next thing that a pump does keeps its books in order. -/
theorem Tracks.turn (h : Tracks jobId ent rec p) :
    Tracks jobId ent (rec ++ (p.receives? .turn).toList) p.turn := by
  by_cases hended : p.ended = true
  · have hturn : p.turn = p := by rw [Pump.turn, if_pos hended]
    have hnone : p.receives? .turn = none := by simp [receives?, (h.finished hended).1]
    rw [hturn, hnone, Option.toList_none, List.append_nil]
    exact h
  have hopen : p.ended = false := by simpa using hended
  have hhanded := h.handed
  have hent := h.working hopen
  have hends := h.ends hopen
  unfold Pump.turn receives?
  rw [if_neg hended]
  cases hhand : p.hand with
  | empty =>
    rw [hhand] at hhanded hent hends
    simp only [Option.toList_none, List.append_nil]
    by_cases htold : p.told = true
    · rw [if_pos htold]
      exact hends rfl fun hnot => by cases htold.symm.trans hnot
    rw [if_neg htold]
    cases hwaiting : p.waiting with
    | nil =>
      rw [hwaiting] at hends
      simp only
      by_cases hclosed : p.closed = true
      · rw [if_pos hclosed]
        exact hends rfl fun _ => rfl
      · rw [if_neg hclosed]
        exact h
    | cons e rest =>
      rw [hwaiting] at hent
      exact ⟨h.job, hhanded, fun _ => hent, fun hnot => absurd hnot hended⟩
  | taken e =>
    rw [hhand] at hhanded hent hends
    simp only [hopen, Bool.false_or]
    by_cases htold : p.told = true
    · rw [if_pos htold, if_pos htold, Option.toList_none, List.append_nil]
      exact hends rfl fun hnot => by cases htold.symm.trans hnot
    · -- the event is received, and its request is due
      rw [if_neg htold, if_neg htold, Option.toList_some]
      refine ⟨h.job, ?_, fun _ => ?_, nofun⟩
      · have hbefore : p.handed = rec.filterMap (requestIn jobId) := by simpa [Hand.due] using hhanded
        rw [List.filterMap_append, ← hbefore]
        rfl
      · rw [hent, List.append_assoc]
        rfl
  | cleared e =>
    rw [hhand] at hhanded hent
    simp only [Option.toList_none, List.append_nil]
    refine ⟨h.job, ?_, fun _ => hent, fun hnot => absurd (hopen.symm.trans hnot) Bool.false_ne_true⟩
    have hone : (requestIn p.jobId e).toList = [e].filterMap (requestIn jobId) := by
      rw [h.job]
      cases hr : requestIn jobId e <;> simp [hr]
    rw [hone, ← hhanded]
    simp only [Hand.due, List.filterMap_nil, List.append_nil]

/-- Each step keeps the books of a pump in order. -/
theorem Tracks.step (h : Tracks jobId ent rec p) (s : Step) :
    Tracks jobId (ent ++ (p.enters? s).toList) (rec ++ (p.receives? s).toList) (p.step s) := by
  cases s with
  | event e =>
    have hnone : (p.receives? (.event e)).toList = [] := rfl
    rw [hnone, List.append_nil]
    simp only [Pump.step, enters?]
    by_cases hended : p.ended = true
    · rw [if_pos hended, if_pos hended, Option.toList_none, List.append_nil]
      exact h
    · rw [if_neg hended, if_neg hended, Option.toList_some]
      refine ⟨h.job, h.handed, fun hopen => ?_, fun hnot => absurd hnot hended⟩
      rw [h.working hopen, List.append_assoc, List.append_assoc]
  | told =>
    have hnone : (p.receives? .told).toList = [] := rfl
    have hnone' : (p.enters? .told).toList = [] := rfl
    rw [hnone, hnone', List.append_nil, List.append_nil]
    refine ⟨h.job, h.handed, h.working, fun hended => ?_⟩
    obtain ⟨hhand, lost, hent, -⟩ := h.finished hended
    exact ⟨hhand, lost, hent, nofun⟩
  | closed =>
    have hnone : (p.receives? .closed).toList = [] := rfl
    have hnone' : (p.enters? .closed).toList = [] := rfl
    rw [hnone, hnone', List.append_nil, List.append_nil]
    exact ⟨h.job, h.handed, h.working, h.finished⟩
  | turn =>
    have hnone : (p.enters? .turn).toList = [] := rfl
    rw [hnone, List.append_nil]
    exact h.turn

/-- So does a run. -/
theorem Tracks.run (h : Tracks jobId ent rec p) (steps : List Step) :
    Tracks jobId (ent ++ p.entered steps) (rec ++ p.received steps) (p.run steps) := by
  induction steps generalizing ent rec p with
  | nil => simpa [entered, received, along, Pump.run] using h
  | cons s steps ih =>
    have hrest := ih (h.step s)
    rw [List.append_assoc, List.append_assoc] at hrest
    exact hrest

/-- The books of a pump that starts. -/
theorem tracks_run (jobId : String) (steps : List Step) :
    Tracks jobId (entered { jobId } steps) (received { jobId } steps) (run { jobId } steps) := by
  have hstart : Tracks jobId [] [] { jobId } := ⟨rfl, rfl, fun _ => rfl, nofun⟩
  exact hstart.run steps

/-! ### After being told to stop -/

theorem told_step (h : p.told = true) (s : Step) : (p.step s).told = true := by
  cases s with
  | event e =>
    simp only [Pump.step]
    split <;> exact h
  | told => rfl
  | closed => exact h
  | turn =>
    simp only [Pump.step, Pump.turn]
    split
    · exact h
    · cases p.hand with
      | empty => simp only [h]
      | taken e => simp only [h]
      | cleared e => exact h

/-- A pump that was told to stop receives nothing more. -/
theorem received_told (h : p.told = true) (steps : List Step) : p.received steps = [] := by
  induction steps generalizing p with
  | nil => rfl
  | cons s steps ih =>
    have hnone : p.receives? s = none := by
      cases s with
      | turn =>
        unfold receives?
        cases p.hand <;> simp [h]
      | _ => rfl
    have hrest : received (p.step s) steps = [] := ih (told_step h s)
    unfold received along
    rw [hnone]
    exact hrest

/-! ### Left to itself -/

/-- A pump with empty hands takes, clears and hands on the next event in three turns. -/
theorem turn_turn_turn (hopen : p.ended = false) (htold : p.told = false) (hhand : p.hand = .empty) {e : ChainEvent}
    {rest : List ChainEvent} (hwaiting : p.waiting = e :: rest) : p.turn.turn.turn =
      { p with waiting := rest, handed := p.handed ++ (requestIn p.jobId e).toList } := by
  have hone : p.turn = { p with waiting := rest, hand := .taken e } := by
    simp [Pump.turn, hopen, htold, hhand, hwaiting]
  have htwo : p.turn.turn = { p with waiting := rest, hand := .cleared e } := by
    rw [hone]
    simp [Pump.turn, hopen, htold]
  rw [htwo]
  simp [Pump.turn, hopen, hhand]

/-- With empty hands and as many turns as it needs, a pump that is not told to stop hands on all that waits. -/
theorem run_turns (hopen : p.ended = false) (htold : p.told = false) (hhand : p.hand = .empty) :
    p.run (List.replicate (3 * p.waiting.length) .turn) =
      { p with waiting := [], handed := p.handed ++ p.waiting.filterMap (requestIn p.jobId) } := by
  obtain ⟨events, hevents⟩ : ∃ events, p.waiting = events := ⟨_, rfl⟩
  rw [hevents]
  induction events generalizing p with
  | nil =>
    cases p
    simp_all [Pump.run]
  | cons e rest ih =>
    have hthree : 3 * (e :: rest).length = 3 + 3 * rest.length := by
      rw [List.length_cons]
      omega
    have hstart : p.run (List.replicate 3 .turn) = p.turn.turn.turn := rfl
    have hrest := ih (p := { p with waiting := rest, handed := p.handed ++ (requestIn p.jobId e).toList })
      hopen htold hhand rfl
    rw [hthree, ← List.replicate_append_replicate, run_append, hstart, turn_turn_turn hopen htold hhand hevents, hrest]
    cases hr : requestIn p.jobId e <;> simp [hr]

/-- In two turns at most, a pump that is not told to stop has empty hands. -/
theorem exists_empty_hand (hopen : p.ended = false) (htold : p.told = false) : ∃ n,
    (p.run (List.replicate n .turn)).hand = .empty ∧ (p.run (List.replicate n .turn)).ended = false ∧
      (p.run (List.replicate n .turn)).told = false := by
  cases hhand : p.hand with
  | empty => exact ⟨0, hhand, hopen, htold⟩
  | taken e =>
    have htwo : p.run (List.replicate 2 .turn) = p.turn.turn := rfl
    refine ⟨2, ?_, ?_, ?_⟩ <;> rw [htwo] <;> simp [Pump.turn, hopen, htold, hhand]
  | cleared e =>
    have hone : p.run (List.replicate 1 .turn) = p.turn := rfl
    refine ⟨1, ?_, ?_, ?_⟩ <;> rw [hone] <;> simp [Pump.turn, hopen, htold, hhand]

theorem entered_turns : ∀ (p : Pump) (n : Nat), p.entered (List.replicate n .turn) = []
  | _, 0 => rfl
  | p, n + 1 => entered_turns (p.step .turn) n

/-- A pump that is not told to stop and has enough turns receives all that has entered, and hands it on. -/
theorem Tracks.exists_turns (h : Tracks jobId ent rec p) (htold : p.told = false) :
    ∃ n, (p.run (List.replicate n .turn)).handed = ent.filterMap (requestIn jobId) := by
  by_cases hended : p.ended = true
  · obtain ⟨hhand, lost, hent, hlost⟩ := h.finished hended
    have hhanded := h.handed
    rw [hhand] at hhanded
    rw [hent, hlost htold, List.append_nil, ← hhanded]
    exact ⟨0, (List.append_nil _).symm⟩
  · have hopen : p.ended = false := by simpa using hended
    obtain ⟨k, hhand, hopen', htold'⟩ := exists_empty_hand hopen htold
    have hall := run_turns hopen' htold' hhand
    set q := p.run (List.replicate k .turn) with hq
    have hrun : p.run (List.replicate (k + 3 * q.waiting.length) .turn) =
        q.run (List.replicate (3 * q.waiting.length) .turn) := by
      rw [← List.replicate_append_replicate, run_append, ← hq]
    have hbooks := h.run (List.replicate (k + 3 * q.waiting.length) .turn)
    have hhanded := hbooks.handed
    have hent := hbooks.working
    rw [entered_turns, List.append_nil] at hent
    rw [hrun, hall] at hhanded hent
    refine ⟨k + 3 * q.waiting.length, ?_⟩
    rw [hrun, hall, hent hopen']
    simp only [hhand, Hand.due, Hand.unsure, List.filterMap_nil, List.append_nil, List.filterMap_append] at hhanded ⊢
    exact hhanded

/-! ### All of it -/

/-- **What a pump hands on.** Whatever enters the sink of a pump, and whenever it is told to stop or its adapter
ends: the requests that it has handed on are those in the events that it has received, in order and each once, but
for one that may still be due. It receives the events in the order in which they entered. As long as it is at work, it
has received all but what waits, and the one that it may just have taken; when it ends without having been told to,
it has received all; and until it is told to, it needs only turns to hand on all. From the moment when it is told
to stop it receives nothing, and what it still hands on it had received before. The request of an event is what the
event holds, if it names the job and can be decoded; an event that does not name the job is passed over without a
fault, whatever it holds. -/
theorem handed_exactly (jobId : String) (steps more : List Step) :
    let start : Pump := { jobId }
    let p := start.run steps
    let requests := (start.received steps).filterMap (requestIn jobId)
    (p.handed ++ p.hand.due.filterMap (requestIn jobId) = requests ∧ (p.ended = true → p.handed = requests)) ∧
      (start.received steps <+: start.entered steps ∧
        (p.ended = false → start.entered steps = start.received steps ++ (p.hand.unsure ++ p.waiting)) ∧
        (p.ended = true → p.told = false → start.received steps = start.entered steps) ∧
        (p.told = false → ∃ n,
          (p.run (List.replicate n .turn)).handed = (start.entered steps).filterMap (requestIn jobId))) ∧
      (start.received (steps ++ .told :: more) = start.received steps ∧
        (start.run (steps ++ .told :: more)).handed <+: requests) ∧
      ∀ e : ChainEvent, (∀ r, requestIn jobId e = some r ↔ e.requestFor jobId = .ok (some r)) ∧
        (∀ r, e.requestFor jobId = .ok (some r) ↔ e.Names jobId ∧ e.payload = .ok r) ∧
        (e.requestFor jobId = .ok none ↔ ¬ e.Names jobId) := by
  intro start p requests
  have hbooks : Tracks jobId (start.entered steps) (start.received steps) p := tracks_run jobId steps
  have hstop : start.received (steps ++ .told :: more) = start.received steps := by
    have hafter : received (p.step .told) more = [] := received_told rfl more
    have hsplit : start.received (steps ++ .told :: more) = start.received steps ++ p.received (.told :: more) :=
      along_append receives? start steps (.told :: more)
    have hnone : p.received (.told :: more) = received (p.step .told) more := rfl
    rw [hsplit, hnone, hafter, List.append_nil]
  refine ⟨⟨hbooks.handed, fun hended => ?_⟩, ⟨?_, hbooks.working, fun hended htold => ?_, hbooks.exists_turns⟩,
    ⟨hstop, ?_⟩, fun e => ⟨fun r => ?_, fun r => ?_, ChainEvent.requestFor_eq_none_iff⟩⟩
  · have hhanded := hbooks.handed
    rw [(hbooks.finished hended).1] at hhanded
    simpa [Hand.due] using hhanded
  · by_cases hended : p.ended = true
    · obtain ⟨-, lost, hent, -⟩ := hbooks.finished hended
      exact ⟨lost, hent.symm⟩
    · exact ⟨_, (hbooks.working (by simpa using hended)).symm⟩
  · obtain ⟨-, lost, hent, hlost⟩ := hbooks.finished hended
    rw [hent, hlost htold, List.append_nil]
  · have hlater := (tracks_run jobId (steps ++ .told :: more)).handed
    have hsame : received { jobId } (steps ++ .told :: more) = start.received steps := hstop
    rw [hsame] at hlater
    exact ⟨_, hlater⟩
  · exact requestIn_eq_some_iff
  · exact ChainEvent.requestFor_eq_some_iff

/-- The pump is told to stop when it has just taken a request of its job: the second look drops it. -/
example (jobId : String) (fields : Fields) :
    let p := run { jobId } [.event (.request ⟨jobId, fields⟩), .turn, .told, .turn]
    p.ended = true ∧ p.handed = [] :=
  ⟨rfl, rfl⟩

end Pump
end OracleRelay
