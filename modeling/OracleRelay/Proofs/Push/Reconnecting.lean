/-
# A subscriber in time

A subscriber looks from time to time at what it waits for: its session at the connection and the consumer, and the
wait between two sessions at the clock. The shutdown and the consumer's leaving come in between at any moment
(`Course.run`). Its sessions follow one another, each but the last a failed one, and how many failures there were
since the node last named a subscription can be read off them (`Subscriber.Orderly`). So the wait before a session
depends on the whole past (`attempt`): it is what the settings give for so many failures
(`Backoff.delayIn?_eq_some_iff`). And it is kept to the moment (`Waiting`): no session begins before it is over, and at
the first look after that one does (`reconnect_discipline`).

Key definitions: `Push.Sight`, `Push.Course`, `Push.Course.look`, `Push.Course.run`, `Push.attempt`,
`Push.Subscriber.Orderly`, `Push.Waiting`.
Key theorems: `Push.Subscriber.Orderly.step`, `Push.Course.turn_of_failed`, `Push.Waiting.turn`,
`Push.reconnect_discipline`.
-/
import OracleRelay.Proofs.Push.Connection
import OracleRelay.Push.Subscriber

namespace OracleRelay
namespace Push

/-! ### The steps of a subscriber -/

/-- The session has failed. -/
def Session.HasFailed (s : Session) : Prop := ∃ fault, s.phase = .over (.failed fault)

theorem Session.HasFailed.isOver {s : Session} (h : s.HasFailed) : s.isOver = true := by
  obtain ⟨fault, hphase⟩ := h
  unfold Session.isOver
  rw [hphase]

namespace Subscriber

variable {s : Subscriber}

theorem step_of_running {session : Session} (running : s.phase = .running session) (happening : Happening) :
    s.step (.session happening) = s.follow (session.step s.spec happening) := by
  unfold Subscriber.step
  rw [running]

theorem step_told_of_resting {wait : Nat} (resting : s.phase = .resting wait) :
    s.step (.session .told) = { s with phase := .over } := by
  unfold Subscriber.step
  rw [resting]

theorem step_rested {wait : Nat} (resting : s.phase = .resting wait) :
    s.step .rested = { s with phase := .running {} } := by
  unfold Subscriber.step
  rw [resting]

theorem isOver_of_over (closed : s.phase = .over) : s.isOver = true := by
  unfold Subscriber.isOver
  rw [closed]

theorem step_of_over (closed : s.phase = .over) (e : Event) : s.step e = s := by
  unfold Subscriber.step
  rw [closed]

/-- A subscriber goes on in one of three ways after a step of its session. -/
theorem follow_cases (s : Subscriber) (session : Session) :
    (session.HasFailed ∧ s.follow session =
      { s with failures := failuresAfter s.failures session, past := s.past ++ [session] }.rest) ∨
    (session.isOver = true ∧ ¬ session.HasFailed ∧
      s.follow session = { s with phase := .over, past := s.past ++ [session] }) ∨
    (session.isOver = false ∧ s.follow session = { s with phase := .running session }) := by
  unfold Subscriber.follow Session.isOver Session.HasFailed
  cases hphase : session.phase
  case connecting | awaitingAck | subscribed | handing => exact .inr (.inr ⟨rfl, rfl⟩)
  rename_i ending
  cases ending with
  | failed fault => exact .inl ⟨⟨fault, rfl⟩, rfl⟩
  | stopped => exact .inr (.inl ⟨rfl, nofun, rfl⟩)
  | deserted => exact .inr (.inl ⟨rfl, nofun, rfl⟩)

theorem current?_eq_some_iff {session : Session} : s.current? = some session ↔ s.phase = .running session := by
  unfold current?
  cases s.phase <;> simp

theorem sessions_of_running {session : Session} (running : s.phase = .running session) :
    s.sessions = s.past ++ [session] := by
  unfold sessions current?
  rw [running]
  rfl

theorem sessions_of_resting {wait : Nat} (resting : s.phase = .resting wait) : s.sessions = s.past := by
  unfold sessions current?
  rw [resting]
  exact List.append_nil _

/-- After the wait a session begins. -/
theorem sessions_rested {wait : Nat} (resting : s.phase = .resting wait) :
    (s.step .rested).sessions = s.sessions ++ [({} : Session)] := by
  have hbegun : ({ s with phase := .running {} } : Subscriber).sessions = s.past ++ [({} : Session)] :=
    sessions_of_running rfl
  rw [step_rested resting, hbegun, sessions_of_resting resting]

theorem sessions_of_over (closed : s.phase = .over) : s.sessions = s.past := by
  unfold sessions current?
  rw [closed]
  exact List.append_nil _

theorem past_rest (s : Subscriber) : s.rest.past = s.past := by
  unfold Subscriber.rest
  split <;> rfl

/-- No session runs in a wait. -/
theorem current?_rest (s : Subscriber) : s.rest.current? = none := by
  unfold Subscriber.rest
  split <;> rfl

theorem sessions_rest (s : Subscriber) : s.rest.sessions = s.past := by
  rw [sessions, past_rest, current?_rest]
  exact List.append_nil _

theorem sessions_follow (s : Subscriber) (session : Session) : (s.follow session).sessions = s.past ++ [session] := by
  rcases follow_cases s session with ⟨-, hfollow⟩ | ⟨-, -, hfollow⟩ | ⟨-, hfollow⟩
  · rw [hfollow]
    exact sessions_rest _
  · rw [hfollow]
    exact sessions_of_over rfl
  · rw [hfollow]
    exact sessions_of_running rfl

/-- A session that has ended joins the past. -/
theorem follow_of_isOver (s : Subscriber) {session : Session} (ended : session.isOver = true) :
    (s.follow session).past = s.past ++ [session] ∧ (s.follow session).current? = none := by
  rcases follow_cases s session with ⟨-, hfollow⟩ | ⟨-, -, hfollow⟩ | ⟨goes, -⟩
  · rw [hfollow]
    exact ⟨past_rest _, current?_rest _⟩
  · rw [hfollow]
    exact ⟨rfl, rfl⟩
  · rw [ended] at goes
    cases goes

/-- One that has not ended goes on. -/
theorem follow_of_goes (s : Subscriber) {session : Session} (goes : session.isOver = false) :
    (s.follow session).past = s.past ∧ (s.follow session).current? = some session := by
  rcases follow_cases s session with ⟨failed, -⟩ | ⟨ended, -, -⟩ | ⟨-, hfollow⟩
  · rw [failed.isOver] at goes
    cases goes
  · rw [ended] at goes
    cases goes
  · rw [hfollow]
    exact ⟨rfl, rfl⟩

/-- What a step does to the sessions: it leaves them, moves the one that runs, or begins another one. -/
theorem sessions_step (s : Subscriber) (e : Event) :
    (s.step e).sessions = s.sessions ∨
      (∃ session happening, s.phase = .running session ∧ e = .session happening ∧
        (s.step e).sessions = s.past ++ [session.step s.spec happening]) ∨
      e = .rested ∧ (s.step e).sessions = s.sessions ++ [({} : Session)] := by
  unfold Subscriber.step
  split
  · rename_i session happening running
    exact .inr (.inl ⟨session, happening, running, rfl, sessions_follow s _⟩)
  · rename_i wait resting
    rw [sessions_of_resting resting]
    exact .inl (sessions_of_over rfl)
  · rename_i wait resting
    rw [sessions_of_resting resting]
    exact .inr (.inr ⟨rfl, sessions_of_running rfl⟩)
  · exact .inl rfl

theorem sessions_length_le (s : Subscriber) (e : Event) : s.sessions.length ≤ (s.step e).sessions.length := by
  rcases sessions_step s e with hsame | ⟨session, happening, running, -, hmoved⟩ | ⟨-, hbegun⟩
  · exact Nat.le_of_eq (congrArg List.length hsame.symm)
  · have hlength : s.sessions.length = (s.step e).sessions.length := by
      rw [hmoved, sessions_of_running running, List.length_append, List.length_append, List.length_singleton,
        List.length_singleton]
    exact Nat.le_of_eq hlength
  · rw [hbegun, List.length_append]
    exact Nat.le_add_right _ _

theorem spec_step (s : Subscriber) (e : Event) : (s.step e).spec = s.spec := by
  unfold Subscriber.step
  split
  · unfold Subscriber.follow
    split
    · unfold Subscriber.rest
      split <;> rfl
    · rfl
    · rfl
  · rfl
  · rfl
  · rfl

end Subscriber

/-! ### Time -/

/-- What a subscriber that looks may find ready. -/
inductive Sight where
  | nothing
  /-- the connection is open -/
  | opened
  /-- the connection cannot be opened, the request cannot be sent, or no answer to it came in time -/
  | broken (fault : TransportFault)
  | frame (frame : Frame)
  /-- there is room for a result, or nobody to take it -/
  | room

/-- What happens to a session that finds something ready, if that is what it waits for. -/
def Session.meets? (s : Session) (gone : Bool) (sight : Sight) : Option Happening :=
  match s.phase, sight with
  | .connecting, .opened => some .opened
  | .connecting, .broken fault | .awaitingAck, .broken fault => some (.failed fault)
  | .awaitingAck, .frame frame | .subscribed _, .frame frame => some frame.happening
  | .handing _ _, .room => some (if gone then .deserted else .taken)
  | _, _ => none

/-- A subscriber in time. -/
structure Course where
  subscriber : Subscriber
  /-- whether the shutdown has fired -/
  told : Bool := false
  /-- whether the consumer is gone -/
  gone : Bool := false
  /-- the time since the last session ended or got on -/
  waited : Nat := 0

namespace Course

/-- What can come next. -/
inductive Turn where
  /-- the shutdown fires -/
  | told
  /-- the consumer goes away -/
  | gone
  | passes (time : Nat)
  /-- the subscriber looks at what it waits for -/
  | look (sight : Sight)

/-- The time that passes in a turn. -/
def Turn.time : Turn → Nat
  | .passes time => time
  | _ => 0

/-- The time that passes in some turns. -/
def elapsed (turns : List Turn) : Nat := turns.foldl (fun time t => time + t.time) 0

/-- A look at what the subscriber waits for. Being told to stop comes before all else. -/
def look (c : Course) (sight : Sight) : Course :=
  if c.told then { c with subscriber := c.subscriber.step (.session .told) }
  else match c.subscriber.phase with
    | .running session =>
      match session.meets? c.gone sight with
      | some h => { c with subscriber := c.subscriber.step (.session h), waited := 0 }
      | none => c
    | .resting wait => if wait ≤ c.waited then { c with subscriber := c.subscriber.step .rested } else c
    | .over => c

/-- The course after a turn. -/
def turn (c : Course) : Turn → Course
  | .told => { c with told := true }
  | .gone => { c with gone := true }
  | .passes time => { c with waited := c.waited + time }
  | .look sight => c.look sight

/-- The course after some turns. -/
def run (c : Course) (turns : List Turn) : Course := turns.foldl turn c

/-- A subscriber that begins. -/
def opening (spec : Spec) (backoff : Backoff) (second : Nat) : Course := { subscriber := { spec, backoff, second } }

variable {c : Course}

theorem look_of_told (told : c.told = true) (sight : Sight) :
    c.look sight = { c with subscriber := c.subscriber.step (.session .told) } := by
  unfold look
  rw [if_pos told]

theorem look_of_running (untold : c.told = false) {session : Session} (running : c.subscriber.phase = .running session)
    (sight : Sight) : c.look sight =
      match session.meets? c.gone sight with
      | some h => { c with subscriber := c.subscriber.step (.session h), waited := 0 }
      | none => c := by
  unfold look
  rw [untold, running]
  rfl

theorem look_of_resting (untold : c.told = false) {wait : Nat} (resting : c.subscriber.phase = .resting wait)
    (sight : Sight) : c.look sight =
      if wait ≤ c.waited then { c with subscriber := c.subscriber.step .rested } else c := by
  unfold look
  rw [untold, resting]
  rfl

theorem look_of_over (closed : c.subscriber.phase = .over) (sight : Sight) : c.look sight = c := by
  unfold look
  rw [closed, Subscriber.step_of_over closed]
  exact ite_self c

/-- What the session that runs meets moves it. -/
theorem follow_of_met {session : Session} (running : c.subscriber.phase = .running session) {sight : Sight}
    {happening : Happening} (met : c.told = true ∧ happening = .told ∨
      c.told = false ∧ session.meets? c.gone sight = some happening) :
    (c.look sight).subscriber = c.subscriber.follow (session.step c.subscriber.spec happening) := by
  rcases met with ⟨told, rfl⟩ | ⟨untold, meets⟩
  · rw [look_of_told told]
    exact Subscriber.step_of_running running .told
  · rw [look_of_running untold running, meets]
    exact Subscriber.step_of_running running happening

/-- The shutdown stays. -/
theorem told_turn (told : c.told = true) (t : Turn) : (c.turn t).told = true := by
  cases t with
  | told => rfl
  | gone => exact told
  | passes time => exact told
  | look sight =>
    change (c.look sight).told = true
    rw [look_of_told told]
    exact told

/-- Whatever the turn is, the subscriber makes one step or none. -/
theorem turn_subscriber (c : Course) (t : Turn) :
    (c.turn t).subscriber = c.subscriber ∨ ∃ e, (c.turn t).subscriber = c.subscriber.step e := by
  cases t with
  | told => exact .inl rfl
  | gone => exact .inl rfl
  | passes time => exact .inl rfl
  | look sight =>
    simp only [turn, look]
    split
    · exact .inr ⟨_, rfl⟩
    · split
      · split
        · exact .inr ⟨_, rfl⟩
        · exact .inl rfl
      · split
        · exact .inr ⟨_, rfl⟩
        · exact .inl rfl
      · exact .inl rfl

/-- What the steps of a subscriber keep, runs keep. -/
theorem run_invariant {P : Subscriber → Prop} (step : ∀ s e, P s → P (s.step e)) {c : Course}
    (start : P c.subscriber) (turns : List Turn) : P (c.run turns).subscriber := by
  induction turns generalizing c with
  | nil => exact start
  | cons t turns ih =>
    refine ih ?_
    rcases turn_subscriber c t with hturn | ⟨e, hturn⟩
    · rw [hturn]
      exact start
    · rw [hturn]
      exact step _ e start

end Course

/-! ### One session after another -/

/-- The request with which a session began, once it had its connection. -/
def Session.asked? (s : Session) : Option Rpc.Request := s.sent.head?

/-- The number of the attempt to connect that follows some failed sessions: one after a session that had a
subscription, else one more than before it, and no more than 32 bits hold. -/
def attempt (sessions : List Session) : Nat :=
  sessions.foldl (fun n session => if session.acked then 1 else min (n + 1) 0xFFFFFFFF) 0

theorem failuresAfter_eq (failures : Nat) (session : Session) : Subscriber.failuresAfter failures session =
    if session.acked then 1 else min (failures + 1) 0xFFFFFFFF := by
  unfold Subscriber.failuresAfter
  cases session.acked <;> rfl

theorem attempt_concat (sessions : List Session) (session : Session) :
    attempt (sessions ++ [session]) = Subscriber.failuresAfter (attempt sessions) session := by
  rw [attempt, List.foldl_append, List.foldl_cons, List.foldl_nil, failuresAfter_eq]
  rfl

theorem max_failuresAfter (failures : Nat) (session : Session) :
    max (Subscriber.failuresAfter failures session) 1 = Subscriber.failuresAfter failures session := by
  unfold Subscriber.failuresAfter
  omega

namespace Subscriber

/-- The ways in which a subscriber can stand. Each session but the last has failed. -/
inductive Orderly (spec : Spec) (backoff : Backoff) (second : Nat) : Subscriber → Prop where
  | running {past : List Session} {session : Session} (failed : ∀ x ∈ past, x.HasFailed)
      (goes : session.isOver = false) :
      Orderly spec backoff second ⟨spec, backoff, second, .running session, attempt past, past⟩
  | resting {past : List Session} {wait : Nat} (failed : ∀ x ∈ past, x.HasFailed)
      (delay : backoff.delayIn? second (attempt past) = some wait) :
      Orderly spec backoff second ⟨spec, backoff, second, .resting wait, attempt past, past⟩
  | closed {past : List Session} {failures : Nat} (failed : ∀ x ∈ past.dropLast, x.HasFailed)
      (ended : ∀ x ∈ past, x.isOver = true) :
      Orderly spec backoff second ⟨spec, backoff, second, .over, failures, past⟩

variable {spec : Spec} {backoff : Backoff} {second : Nat} {s : Subscriber}

theorem Orderly.closed_of_failed {past : List Session} {failures : Nat} (failed : ∀ x ∈ past, x.HasFailed) :
    Orderly spec backoff second ⟨spec, backoff, second, .over, failures, past⟩ := by
  refine .closed ?_ ?_
  · exact fun x hx => failed x (List.dropLast_subset past hx)
  · exact fun x hx => (failed x hx).isOver

/-- A subscriber rests after failed sessions, unless it cannot keep the wait. -/
theorem Orderly.rest {past : List Session} {phase : Phase} (failed : ∀ x ∈ past, x.HasFailed) :
    Orderly spec backoff second (Subscriber.rest ⟨spec, backoff, second, phase, attempt past, past⟩) := by
  unfold Subscriber.rest
  cases hdelay : backoff.delayIn? second (attempt past) with
  | some wait => exact .resting failed hdelay
  | none => exact .closed_of_failed failed

theorem Orderly.follow {past : List Session} {phase : Phase} (failed : ∀ x ∈ past, x.HasFailed) (session : Session) :
    Orderly spec backoff second (Subscriber.follow ⟨spec, backoff, second, phase, attempt past, past⟩ session) := by
  rcases follow_cases ⟨spec, backoff, second, phase, attempt past, past⟩ session with
    ⟨hfailed, hfollow⟩ | ⟨hended, -, hfollow⟩ | ⟨hgoes, hfollow⟩
  · rw [hfollow, ← attempt_concat]
    exact Orderly.rest (List.forall_mem_append.mpr ⟨failed, List.forall_mem_singleton.mpr hfailed⟩)
  · have hover : ∀ x ∈ past, x.isOver = true := fun x hx => (failed x hx).isOver
    rw [hfollow]
    refine .closed ?_ (List.forall_mem_append.mpr ⟨hover, List.forall_mem_singleton.mpr hended⟩)
    rw [List.dropLast_concat]
    exact failed
  · rw [hfollow]
    exact .running failed hgoes

/-- Whatever a subscriber does, its sessions stay one after another. -/
theorem Orderly.step (h : Orderly spec backoff second s) (e : Event) : Orderly spec backoff second (s.step e) := by
  cases h with
  | @running past session failed goes =>
    cases e with
    | session happening => exact Orderly.follow failed (session.step spec happening)
    | rested => exact .running failed goes
  | @resting past wait failed delay =>
    cases e with
    | session happening =>
      cases happening with
      | told => exact .closed_of_failed failed
      | _ => exact .resting failed delay
    | rested => exact .running failed rfl
  | closed failed ended => exact .closed failed ended

theorem Orderly.past_isOver (h : Orderly spec backoff second s) : ∀ x ∈ s.past, x.isOver = true := by
  cases h with
  | running failed _ => exact fun x hx => (failed x hx).isOver
  | resting failed _ => exact fun x hx => (failed x hx).isOver
  | closed _ ended => exact ended

theorem Orderly.current_goes (h : Orderly spec backoff second s) : ∀ x ∈ s.current?, x.isOver = false := by
  intro x hx
  cases h with
  | running _ goes =>
    obtain rfl := Option.some.inj hx
    exact goes
  | resting => cases hx
  | closed => cases hx

theorem Orderly.dropLast_failed (h : Orderly spec backoff second s) : ∀ x ∈ s.sessions.dropLast, x.HasFailed := by
  cases h with
  | @running past session failed _ =>
    change ∀ x ∈ (past ++ [session]).dropLast, x.HasFailed
    rw [List.dropLast_concat]
    exact failed
  | @resting past _ failed _ =>
    change ∀ x ∈ (past ++ []).dropLast, x.HasFailed
    rw [List.append_nil]
    exact fun x hx => failed x (List.dropLast_subset past hx)
  | @closed past _ failed _ =>
    change ∀ x ∈ (past ++ []).dropLast, x.HasFailed
    rw [List.append_nil]
    exact failed

/-- After a session that has ended in another way the subscriber is at its end. -/
theorem Orderly.over_of_not_failed (h : Orderly spec backoff second s) {x : Session} (hx : x ∈ s.past)
    (unfailed : ¬ x.HasFailed) : s.phase = .over := by
  cases h with
  | running failed _ => exact absurd (failed x hx) unfailed
  | resting failed _ => exact absurd (failed x hx) unfailed
  | closed => rfl

end Subscriber

open Subscriber

variable {spec : Spec} {backoff : Backoff} {second : Nat}

/-! ### What the sessions ask for -/

/-- Whatever happens to a session, it stands in one of its ways. -/
theorem Stands.exists_step {heard : List String} {s : Session} (h : Stands spec heard s) (happening : Happening) :
    ∃ heard', Stands spec heard' (s.step spec happening) := by
  cases happening with
  | text t =>
    cases hphase : s.phase with
    | awaitingAck => exact ⟨_, h.hearAnswer hphase t⟩
    | subscribed id => exact ⟨_, h.hearNotification hphase t⟩
    | _ =>
      have hstep : s.step spec (.text t) = s := by
        unfold Session.step
        rw [hphase]
      rw [hstep]
      exact ⟨heard, h⟩
  | _ => exact ⟨heard, h.step nofun⟩

/-- All sessions are for one subscription. -/
structure Asking (spec : Spec) (s : Subscriber) : Prop where
  spec_eq : s.spec = spec
  stands : ∀ x ∈ s.sessions, ∃ heard, Stands spec heard x

theorem Asking.step {s : Subscriber} (h : Asking spec s) (e : Event) : Asking spec (s.step e) := by
  refine ⟨(spec_step s e).trans h.spec_eq, ?_⟩
  have hstands := h.stands
  rcases sessions_step s e with hsame | ⟨session, happening, running, -, hmoved⟩ | ⟨-, hbegun⟩
  · rw [hsame]
    exact hstands
  · rw [sessions_of_running running] at hstands
    obtain ⟨hpast, hsession⟩ := List.forall_mem_append.mp hstands
    obtain ⟨heard, hsession⟩ := List.forall_mem_singleton.mp hsession
    rw [hmoved, h.spec_eq]
    exact List.forall_mem_append.mpr ⟨hpast, List.forall_mem_singleton.mpr (hsession.exists_step happening)⟩
  · rw [hbegun]
    exact List.forall_mem_append.mpr ⟨hstands, List.forall_mem_singleton.mpr ⟨[], .connecting⟩⟩

/-- A session that has not asked yet waits for its connection. -/
theorem Stands.eq_of_unasked {heard : List String} {s : Session} (h : Stands spec heard s) (goes : s.isOver = false)
    (unasked : s.sent = []) : s = {} := by
  cases h with
  | connecting => rfl
  | unanswered => cases goes
  | refused => cases goes
  | lost => cases goes
  | deserted => cases goes
  | stopped => cases goes
  | awaiting => cases unasked
  | subscribed => cases unasked
  | handing => cases unasked

/-- A session asks as soon as it has its connection. -/
theorem Course.asks_of_opened {c : Course} (h : Orderly spec backoff second c.subscriber)
    (asking : Asking spec c.subscriber) (untold : c.told = false) {x : Session}
    (current : c.subscriber.current? = some x) (unasked : x.sent = []) :
    ∃ y, (c.look .opened).subscriber.current? = some y ∧ y.sent = [spec.subscribeRequest] := by
  have hgoes : x.isOver = false := h.current_goes x current
  have hmem : x ∈ c.subscriber.sessions := by
    unfold sessions
    rw [current]
    exact List.mem_concat_self
  obtain ⟨heard, hstands⟩ := asking.stands x hmem
  obtain rfl := hstands.eq_of_unasked hgoes unasked
  have hrunning : c.subscriber.phase = .running {} := current?_eq_some_iff.mp current
  rw [look_of_running untold hrunning]
  change ∃ y, (c.subscriber.step (.session .opened)).current? = some y ∧ _
  rw [step_of_running hrunning, asking.spec_eq]
  exact ⟨_, rfl, rfl⟩

/-! ### After the shutdown -/

theorem Session.phase_told {s : Session} (goes : s.isOver = false) : (s.step spec .told).phase = .over .stopped := by
  obtain ⟨phase, acked, sent, handed⟩ := s
  cases phase
  case connecting | awaitingAck | subscribed | handing => rfl
  cases goes

/-- A subscriber that is told to stop is at its end. -/
theorem Subscriber.Orderly.over_of_told {s : Subscriber} (h : Orderly spec backoff second s) :
    (s.step (.session .told)).phase = .over := by
  cases h with
  | running _ goes =>
    rw [step_of_running rfl]
    unfold Subscriber.follow
    rw [Session.phase_told goes]
  | resting => rfl
  | closed => rfl

/-- A session that is told to stop does not begin any more. -/
theorem Stands.asked_told {heard : List String} {s : Session} (h : Stands spec heard s) :
    (s.step spec .told).asked? = s.asked? := by
  cases h <;> rfl

theorem Asking.told {s : Subscriber} (h : Asking spec s) :
    (s.step (.session .told)).sessions.map Session.asked? = s.sessions.map Session.asked? := by
  rcases sessions_step s (.session .told) with hsame | ⟨session, happening, running, htold, hmoved⟩ | ⟨hrested, -⟩
  · rw [hsame]
  · cases htold
    have hstands := h.stands
    rw [sessions_of_running running] at hstands
    obtain ⟨heard, hsession⟩ := hstands session List.mem_concat_self
    rw [hmoved, h.spec_eq, sessions_of_running running, List.map_append, List.map_append, List.map_singleton,
      List.map_singleton, hsession.asked_told]
  · cases hrested

/-- A subscriber that is at its end stays there. -/
theorem Course.run_over {c : Course} (closed : c.subscriber.phase = .over) (turns : List Course.Turn) :
    (c.run turns).subscriber = c.subscriber :=
  Course.run_invariant (P := (· = c.subscriber)) (fun _ e h => by rw [h]; exact step_of_over closed e) rfl turns

/-- No session begins after the shutdown. -/
theorem Course.run_told {c : Course} (h : Asking spec c.subscriber) (told : c.told = true) (turns : List Course.Turn) :
    (c.run turns).subscriber.sessions.map Session.asked? = c.subscriber.sessions.map Session.asked? := by
  induction turns generalizing c with
  | nil => rfl
  | cons t turns ih =>
    cases t with
    | told => exact ih h rfl
    | gone => exact ih h told
    | passes time => exact ih h told
    | look sight =>
      have hlook : c.turn (.look sight) = { c with subscriber := c.subscriber.step (.session .told) } :=
        Course.look_of_told told sight
      have hstep : Asking spec (c.turn (.look sight)).subscriber := by
        rw [hlook]
        exact h.step _
      refine (ih hstep (Course.told_turn told _)).trans ?_
      rw [hlook]
      exact h.told

/-! ### The wait after a failure -/

/-- Where a subscriber is after failed sessions. -/
def restAfter (backoff : Backoff) (second : Nat) (sessions : List Session) : Phase :=
  match backoff.delayIn? second (attempt sessions) with
  | some wait => .resting wait
  | none => .over

theorem phase_rest (past : List Session) (phase : Phase) :
    (Subscriber.rest ⟨spec, backoff, second, phase, attempt past, past⟩).phase = restAfter backoff second past := by
  unfold Subscriber.rest restAfter
  split <;> rename_i hdelay <;> rw [hdelay]

theorem ne_concat (past : List Session) (x : Session) : past ≠ past ++ [x] := by
  intro heq
  have hnil : [x] = [] := List.self_eq_append_right.mp heq
  cases hnil

/-- No session runs after failed sessions. -/
theorem sessions_of_restAfter {s : Subscriber} {past : List Session} (h : s.phase = restAfter backoff second past) :
    s.sessions = s.past := by
  unfold restAfter at h
  split at h
  · exact sessions_of_resting h
  · exact sessions_of_over h

/-- When the past grows by a failed session, it is the one that ran; it was not told to stop, and the subscriber is in
the wait after it. -/
theorem Subscriber.Orderly.phase_of_failed {s : Subscriber} (h : Orderly spec backoff second s) {e : Event}
    {x : Session} (ended : (s.step e).past = s.past ++ [x]) (failed : x.HasFailed) :
    e ≠ .session .told ∧ (s.step e).phase = restAfter backoff second (s.past ++ [x]) := by
  cases h with
  | @running past session _ goes =>
    cases e with
    | rested => exact absurd ended (ne_concat past x)
    | session happening =>
      rw [step_of_running rfl] at ended ⊢
      rcases follow_cases ⟨spec, backoff, second, .running session, attempt past, past⟩
          (session.step spec happening) with ⟨-, hfollow⟩ | ⟨-, hunfailed, hfollow⟩ | ⟨-, hfollow⟩
      · rw [hfollow] at ended ⊢
        rw [past_rest] at ended
        obtain rfl : session.step spec happening = x := List.singleton_inj.mp (List.append_cancel_left ended)
        rw [← attempt_concat]
        refine ⟨?_, phase_rest _ _⟩
        intro htold
        obtain rfl := Event.session.inj htold
        obtain ⟨fault, hphase⟩ := failed
        rw [Session.phase_told goes] at hphase
        cases hphase
      · rw [hfollow] at ended
        obtain rfl : session.step spec happening = x := List.singleton_inj.mp (List.append_cancel_left ended)
        exact absurd failed hunfailed
      · rw [hfollow] at ended
        exact absurd ended (ne_concat past x)
  | @resting past wait _ _ =>
    cases e with
    | rested => exact absurd ended (ne_concat past x)
    | session happening => cases happening <;> exact absurd ended (ne_concat past x)
  | @closed past => exact absurd ended (ne_concat past x)

/-- When a session fails, the wait begins at once. -/
theorem Course.turn_of_failed {c : Course} (h : Orderly spec backoff second c.subscriber) {t : Turn} {x : Session}
    (ended : (c.turn t).subscriber.past = c.subscriber.past ++ [x]) (failed : x.HasFailed) :
    (c.turn t).waited = 0 ∧ (c.turn t).subscriber.phase = restAfter backoff second (c.subscriber.past ++ [x]) := by
  cases t with
  | told => exact absurd ended (ne_concat _ x)
  | gone => exact absurd ended (ne_concat _ x)
  | passes time => exact absurd ended (ne_concat _ x)
  | look sight =>
    change (c.look sight).subscriber.past = _ at ended
    change (c.look sight).waited = 0 ∧ (c.look sight).subscriber.phase = _
    rcases Bool.eq_false_or_eq_true c.told with told | untold
    · rw [look_of_told told] at ended
      exact absurd rfl (h.phase_of_failed ended failed).1
    cases hphase : c.subscriber.phase with
    | running session =>
      rw [look_of_running untold hphase] at ended ⊢
      cases hmeets : session.meets? c.gone sight with
      | none =>
        rw [hmeets] at ended
        exact absurd ended (ne_concat _ x)
      | some happening =>
        rw [hmeets] at ended
        exact ⟨rfl, (h.phase_of_failed ended failed).2⟩
    | resting wait =>
      rw [look_of_resting untold hphase, step_rested hphase] at ended
      split at ended <;> exact absurd ended (ne_concat _ x)
    | _ =>
      rw [look_of_over hphase] at ended
      exact absurd ended (ne_concat _ x)

/-- How a wait goes on: it lasts, or the subscriber was told to stop, or it was long enough for a session to begin. -/
inductive Waiting (c : Course) (wait elapsed : Nat) : Course → Prop where
  | lasts {later : Course} (same : later.subscriber = c.subscriber) (since : later.waited = elapsed) :
      Waiting c wait elapsed later
  | stopped {later : Course} (told : later.told = true) (closed : later.subscriber.phase = .over)
      (none : later.subscriber.sessions = c.subscriber.sessions) : Waiting c wait elapsed later
  | past {later : Course} (long : wait ≤ elapsed)
      (begun : c.subscriber.sessions.length < later.subscriber.sessions.length) : Waiting c wait elapsed later

theorem Course.sessions_length_le (c : Course) (t : Turn) :
    c.subscriber.sessions.length ≤ (c.turn t).subscriber.sessions.length := by
  rcases c.turn_subscriber t with hturn | ⟨e, hturn⟩
  · exact Nat.le_of_eq (congrArg (·.sessions.length) hturn.symm)
  · rw [hturn]
    exact Subscriber.sessions_length_le _ e

theorem Waiting.turn {c later : Course} {wait elapsed : Nat} (resting : c.subscriber.phase = .resting wait)
    (h : Waiting c wait elapsed later) (t : Course.Turn) : Waiting c wait (elapsed + t.time) (later.turn t) := by
  cases h with
  | lasts same since =>
    have hresting : later.subscriber.phase = .resting wait := by rw [same, resting]
    cases t with
    | told => exact .lasts same since
    | gone => exact .lasts same since
    | passes time => exact .lasts same (by rw [← since]; rfl)
    | look sight =>
      change Waiting c wait elapsed (later.look sight)
      rcases Bool.eq_false_or_eq_true later.told with told | untold
      · rw [Course.look_of_told told, step_told_of_resting hresting]
        refine .stopped told rfl ?_
        rw [sessions_of_over rfl, sessions_of_resting resting, same]
      · rw [Course.look_of_resting untold hresting]
        split
        · rename_i long
          refine .past (since ▸ long) ?_
          rw [sessions_rested hresting, same, List.length_append]
          exact Nat.lt_succ_self _
        · exact .lasts same since
  | stopped told closed none =>
    have hsame : (later.turn t).subscriber = later.subscriber := by
      rcases later.turn_subscriber t with hturn | ⟨e, hturn⟩
      · exact hturn
      · rw [hturn, step_of_over closed]
    exact .stopped (Course.told_turn told t) (by rw [hsame]; exact closed) (by rw [hsame]; exact none)
  | past long begun =>
    exact .past (Nat.le_add_right_of_le long) (Nat.lt_of_lt_of_le begun (later.sessions_length_le t))

theorem Waiting.sessions_of_lt {c later : Course} {wait elapsed : Nat} (h : Waiting c wait elapsed later)
    (short : elapsed < wait) : later.subscriber.sessions = c.subscriber.sessions := by
  cases h with
  | lasts same _ => rw [same]
  | stopped _ _ none => exact none
  | past long _ => exact absurd long (Nat.not_le_of_lt short)

/-- At the first look after the wait a session begins. -/
theorem Waiting.begun_of_le {c later : Course} {wait elapsed : Nat} (resting : c.subscriber.phase = .resting wait)
    (h : Waiting c wait elapsed later) (long : wait ≤ elapsed) (untold : later.told = false) (sight : Sight) :
    c.subscriber.sessions.length < (later.look sight).subscriber.sessions.length := by
  cases h with
  | lasts same since =>
    have hresting : later.subscriber.phase = .resting wait := by rw [same, resting]
    rw [Course.look_of_resting untold hresting, if_pos (since ▸ long), sessions_rested hresting, same,
      List.length_append]
    exact Nat.lt_succ_self _
  | stopped told _ _ =>
    rw [untold] at told
    cases told
  | past _ begun => exact Nat.lt_of_lt_of_le begun (later.sessions_length_le (.look sight))

theorem waiting_run {c : Course} {wait : Nat} (resting : c.subscriber.phase = .resting wait) (fresh : c.waited = 0)
    (turns : List Course.Turn) : Waiting c wait (Course.elapsed turns) (c.run turns) := by
  induction turns using List.reverseRecOn with
  | nil => exact .lasts rfl fresh
  | append_singleton turns t ih =>
    have hturn := ih.turn resting t
    unfold Course.elapsed at hturn ⊢
    unfold Course.run at hturn ⊢
    rw [List.foldl_append, List.foldl_append]
    exact hturn

/-! ### All together -/

theorem orderly_run (spec : Spec) (backoff : Backoff) (second : Nat) (turns : List Course.Turn) :
    Orderly spec backoff second ((Course.opening spec backoff second).run turns).subscriber := by
  have hstart : Orderly spec backoff second ⟨spec, backoff, second, .running {}, attempt [], []⟩ :=
    .running (by simp) rfl
  exact Course.run_invariant (P := Orderly spec backoff second) (fun _ e h => h.step e) hstart turns

theorem asking_run (spec : Spec) (backoff : Backoff) (second : Nat) (turns : List Course.Turn) :
    Asking spec ((Course.opening spec backoff second).run turns).subscriber := by
  have hstart : Asking spec (Course.opening spec backoff second).subscriber := by
    refine ⟨rfl, ?_⟩
    rw [sessions_of_running rfl]
    exact List.forall_mem_singleton.mpr ⟨[], .connecting⟩
  exact Course.run_invariant (P := Asking spec) (fun _ e h => h.step e) hstart turns

/-- **Reconnecting, any trace.** The sessions of a subscriber follow one another: each has ended before the next one
begins, and each that another one follows has failed. All ask for the same, and do so as soon as they have their
connection. What the session that runs meets moves it, and it joins the past when it ends. After the shutdown no session
begins, and at its next look the subscriber is at its end; nor does a session begin after one that was told to stop or
found its consumer gone. After a failed session the number of the attempt is one if the session had a subscription, and
else one more than before, as far as 32 bits go. While the waits grow, the wait is so many steps, and then it is the
ceiling; there is none only where the steps are too long together. Until the wait is over no session begins, and at the
first look after that one does, unless the shutdown has fired. Where there is no wait, the subscriber is at its end. -/
theorem reconnect_discipline (spec : Spec) (backoff : Backoff) (second : Nat) (turns more : List Course.Turn)
    (t : Course.Turn) :
    let c := (Course.opening spec backoff second).run turns
    let sessions := c.subscriber.sessions
    (∀ x ∈ c.subscriber.past, x.isOver = true) ∧ (∀ x ∈ c.subscriber.current?, x.isOver = false) ∧
      (∀ x ∈ sessions.dropLast, x.HasFailed) ∧
      (∀ x ∈ sessions, x.sent = [] ∨ x.sent = [spec.subscribeRequest] ∨
        ∃ id, x.sent = [spec.subscribeRequest, spec.unsubscribeRequest id]) ∧
      (∀ x, c.subscriber.current? = some x → x.sent = [] → c.told = false →
        ∃ y, (c.look .opened).subscriber.current? = some y ∧ y.sent = [spec.subscribeRequest]) ∧
      (∀ x sight happening, c.subscriber.current? = some x →
        c.told = true ∧ happening = .told ∨ c.told = false ∧ x.meets? c.gone sight = some happening →
        let y := x.step spec happening
        let next := (c.look sight).subscriber
        (y.isOver = false → next.past = c.subscriber.past ∧ next.current? = some y) ∧
          (y.isOver = true → next.past = c.subscriber.past ++ [y] ∧ next.current? = none)) ∧
      (c.told = true → (∀ sight, (c.look sight).subscriber.isOver = true) ∧
        (c.run more).subscriber.sessions.map Session.asked? = sessions.map Session.asked?) ∧
      (∀ x ∈ c.subscriber.past, x.phase = .over .stopped ∨ x.phase = .over .deserted →
        c.subscriber.isOver = true ∧ (c.run more).subscriber = c.subscriber) ∧
      ∀ x, x.HasFailed → (c.turn t).subscriber.past = c.subscriber.past ++ [x] →
        let failed := (c.turn t).subscriber
        let later := (c.turn t).run more
        let n := attempt failed.sessions
        failed.sessions = c.subscriber.past ++ [x] ∧
          n = (if x.acked then 1 else min (attempt c.subscriber.past + 1) 0xFFFFFFFF) ∧
          (∀ wait, backoff.delayIn? second n = some wait ↔
            (n < backoff.rampAttempts ∧ backoff.step * n < second * 0x10000000000000000 ∧ wait = backoff.step * n) ∨
              (backoff.rampAttempts ≤ n ∧ wait = backoff.ceiling)) ∧
          (backoff.delayIn? second n = none ↔
            n < backoff.rampAttempts ∧ second * 0x10000000000000000 ≤ backoff.step * n) ∧
          match backoff.delayIn? second n with
          | some wait =>
            (Course.elapsed more < wait → later.subscriber.sessions = failed.sessions) ∧
            (wait ≤ Course.elapsed more → later.told = false →
              ∀ sight, failed.sessions.length < (later.look sight).subscriber.sessions.length)
          | none => later.subscriber = failed ∧ failed.isOver = true := by
  intro c sessions
  have horderly : Orderly spec backoff second c.subscriber := orderly_run spec backoff second turns
  have hasking : Asking spec c.subscriber := asking_run spec backoff second turns
  refine ⟨horderly.past_isOver, horderly.current_goes, horderly.dropLast_failed, ?_, ?_, ?_, ?_, ?_, ?_⟩
  · intro x hx
    obtain ⟨heard, hstands⟩ := hasking.stands x hx
    exact hstands.sent_cases
  · intro x current unasked untold
    exact Course.asks_of_opened horderly hasking untold current unasked
  · intro x sight happening current met y next
    have hnext : next = c.subscriber.follow y := by
      rw [show next = (c.look sight).subscriber from rfl,
        Course.follow_of_met (current?_eq_some_iff.mp current) met, hasking.spec_eq]
    rw [hnext]
    exact ⟨follow_of_goes c.subscriber, follow_of_isOver c.subscriber⟩
  · intro told
    refine ⟨fun sight => isOver_of_over ?_, Course.run_told hasking told more⟩
    rw [Course.look_of_told told]
    exact horderly.over_of_told
  · intro x hx hended
    have hunfailed : ¬ x.HasFailed := by
      rintro ⟨fault, hfailed⟩
      rcases hended with hended | hended <;> rw [hfailed] at hended <;> cases hended
    have hover : c.subscriber.phase = .over := horderly.over_of_not_failed hx hunfailed
    exact ⟨isOver_of_over hover, Course.run_over hover more⟩
  · intro x hx ended failed later n
    obtain ⟨fresh, hphase⟩ := Course.turn_of_failed horderly ended hx
    have hsessions : failed.sessions = c.subscriber.past ++ [x] := (sessions_of_restAfter hphase).trans ended
    have hn : n = failuresAfter (attempt c.subscriber.past) x := by
      rw [show n = attempt failed.sessions from rfl, hsessions, attempt_concat]
    have hmax : max n 1 = n := by
      rw [hn]
      exact max_failuresAfter _ x
    refine ⟨hsessions, hn.trans (failuresAfter_eq _ x), fun wait => ?_, ?_, ?_⟩
    · rw [Backoff.delayIn?_eq_some_iff, hmax]
    · rw [Backoff.delayIn?_eq_none_iff, hmax]
    · rw [← hsessions] at hphase
      unfold restAfter at hphase
      cases hdelay : backoff.delayIn? second n with
      | none =>
        have hover : failed.phase = .over := by rw [hphase, hdelay]
        exact ⟨Course.run_over hover more, isOver_of_over hover⟩
      | some wait =>
        have hresting : failed.phase = .resting wait := by rw [hphase, hdelay]
        have hwaiting : Waiting (c.turn t) wait (Course.elapsed more) later := waiting_run hresting fresh more
        constructor
        · exact hwaiting.sessions_of_lt
        · intro long untold sight
          exact hwaiting.begun_of_le hresting long untold sight

/-- The connection of the first session breaks, and the second session begins two seconds later. -/
def sampleCourse : List Course.Turn := [.look (.broken .broken), .passes 2, .look .nothing, .look .opened]

/-- When no answer comes to the second session either, the next one begins four seconds after that. -/
theorem reconnect_discipline_sample :
    let c := (Course.opening sampleSpec {} 1).run sampleCourse
    let failed := c.turn (.look (.broken (.timeout 5000)))
    attempt failed.subscriber.sessions = 2 ∧
      (failed.run [.passes 3, .look .nothing]).subscriber.sessions = failed.subscriber.sessions ∧
      failed.subscriber.sessions.length <
        ((failed.run [.passes 3, .look .nothing, .passes 1]).look .nothing).subscriber.sessions.length := by
  intro c failed
  have hfailed : Session.HasFailed
      ⟨.over (.failed (.timeout 5000)), false, [sampleSpec.subscribeRequest], []⟩ := ⟨_, rfl⟩
  obtain ⟨-, -, -, -, -, -, -, -, early⟩ := reconnect_discipline sampleSpec {} 1 sampleCourse
    [.passes 3, .look .nothing] (.look (.broken (.timeout 5000)))
  obtain ⟨-, -, -, -, -, -, -, -, late⟩ := reconnect_discipline sampleSpec {} 1 sampleCourse
    [.passes 3, .look .nothing, .passes 1] (.look (.broken (.timeout 5000)))
  obtain ⟨-, number, waits, -, lasts⟩ := early _ hfailed rfl
  obtain ⟨-, -, -, -, ends⟩ := late _ hfailed rfl
  have second := number.trans (show _ = 2 from rfl)
  rw [second] at waits lasts ends
  rw [(waits 4).mpr (.inl (by decide))] at lasts ends
  exact ⟨second, lasts.1 (by decide), ends.2 (by decide) rfl .nothing⟩

end Push
end OracleRelay
