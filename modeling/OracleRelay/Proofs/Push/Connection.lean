/-
# A session on one connection

The node sends frames, and the session reads them in their order, one at a time and only when it waits for one;
the shutdown, the consumer and the timer come in between at any moment (`Line.run`). Wherever a session stands, it
has sent its one request first, and what it has handed on are the results of the notifications that it is through
with since the answer to this request (`Stands`). A notification whose result is on offer is not through: when the
session is told to stop then, or finds its consumer gone, the result cannot be handed on any more (`one_session`).
And a session does not stand still: what it waits for has its effect, and only that (`Line.Moves`, `Session.Takes`).

Key definitions: `Push.Frame`, `Push.Line`, `Push.Line.poll`, `Push.Line.run`, `Push.Session.Answers`,
`Push.Session.Names`, `Push.Session.Notifies`, `Push.Session.resultsIn`, `Push.Stands`, `Push.Session.Takes`,
`Push.Line.Moves`.
Key theorems: `Push.Stands.step`, `Push.Stands.frame`, `Push.stands_run`, `Push.Session.takes_step`,
`Push.Line.moves`, `Push.one_session`.
-/
import Mathlib.Data.List.Induction
import OracleRelay.Proofs.Rpc.Messages
import OracleRelay.Push.Session

namespace OracleRelay
namespace Push

/-- What a node sends on a connection. -/
inductive Frame where
  | text (s : String)
  /-- a frame without text -/
  | other
  /-- the connection is closed by the node, breaks or ends -/
  | lost (fault : TransportFault)

/-- A frame as it reaches a session. -/
def Frame.happening : Frame → Happening
  | .text s => .text s
  | .other => .noise
  | .lost fault => .failed fault

/-- The text of a frame that has one. -/
def Frame.text? : Frame → Option String
  | .text s => some s
  | _ => none

/-- The texts among some frames. -/
def textsOf (frames : List Frame) : List String := frames.filterMap Frame.text?

/-- A session with its connection. -/
structure Line where
  session : Session := {}
  /-- the frames that the session has read -/
  read : List Frame := []
  /-- the frames after these -/
  ahead : List Frame
  /-- whether the shutdown has fired -/
  told : Bool := false
  /-- whether the consumer is gone -/
  gone : Bool := false

/-- What a waiting session may find ready. -/
inductive Ready where
  /-- the connection is open -/
  | opened
  /-- the connection cannot be opened, the request cannot be sent, or no answer to it came in time -/
  | broken (fault : TransportFault)
  /-- the next frame is there -/
  | frame
  /-- there is room for a result, or nobody to take it -/
  | room

/-- What can come next. -/
inductive Turn where
  /-- the shutdown fires -/
  | told
  /-- the consumer goes away -/
  | gone
  /-- the session looks at what it waits for -/
  | look (ready : Ready)

namespace Line

variable (spec : Spec)

/-- The session does what fits to a happening. -/
def meet (l : Line) (h : Happening) : Line := { l with session := l.session.step spec h }

/-- The session reads the next frame. -/
def receive (l : Line) : Line :=
  match l.ahead with
  | [] => l
  | frame :: rest =>
    { l with session := l.session.step spec frame.happening, read := l.read ++ [frame], ahead := rest }

/-- A look at what the session waits for. Being told to stop comes before all else. -/
def poll (l : Line) (ready : Ready) : Line :=
  if l.told then l.meet spec .told
  else match l.session.phase, ready with
    | .connecting, .opened => l.meet spec .opened
    | .connecting, .broken fault | .awaitingAck, .broken fault => l.meet spec (.failed fault)
    | .awaitingAck, .frame | .subscribed _, .frame => l.receive spec
    | .handing _ _, .room => l.meet spec (if l.gone then .deserted else .taken)
    | _, _ => l

/-- The line after a turn. -/
def turn (l : Line) : Turn → Line
  | .told => { l with told := true }
  | .gone => { l with gone := true }
  | .look ready => l.poll spec ready

/-- The line after some turns. -/
def run (l : Line) (turns : List Turn) : Line := turns.foldl (turn spec) l

/-- A connection on which the node will send some frames. -/
def opening (frames : List Frame) : Line := { ahead := frames }

theorem run_append (l : Line) (turns more : List Turn) :
    l.run spec (turns ++ more) = (l.run spec turns).run spec more := List.foldl_append

end Line

/-! ### The answer to the request -/

namespace Session

/-- The text is a response to the request for the subscription. -/
def Answers (t : String) : Prop :=
  ∃ r, Json.readText? Rpc.Response.reader t = some r ∧ r.id = .number subscribeId

/-- The text is a response to the request for the subscription and names it, by a string or a number. -/
def Names (t id : String) : Prop :=
  ∃ r, Json.readText? Rpc.Response.reader t = some r ∧ r.id = .number subscribeId ∧ r.error = none ∧
    (r.result = some (.text id) ∨ ∃ n, r.result = some (.number n) ∧ id = (Json.number n).render)

theorem Names.answers {t id : String} (h : Names t id) : Answers t := by
  obtain ⟨r, read, hid, -⟩ := h
  exact ⟨r, read, hid⟩

theorem ackOf_eq_none_iff {t : String} : ackOf t = none ↔ ¬ Answers t := by
  unfold ackOf answerIn Answers
  cases Json.readText? Rpc.Response.reader t with
  | none => simp
  | some r => simp

theorem nameOf_eq_ok_iff {v : Json} {id : String} :
    nameOf v = .ok id ↔ v = .text id ∨ ∃ n, v = .number n ∧ id = (Json.number n).render := by
  unfold nameOf
  cases v <;> simp [eq_comm]

theorem ackOf_eq_ok_iff {t id : String} : ackOf t = some (.ok id) ↔ Names t id := by
  unfold ackOf answerIn Names
  cases Json.readText? Rpc.Response.reader t with
  | none => simp
  | some r =>
    by_cases hid : r.id = .number subscribeId
    · simp only [hid, ↓reduceIte, Option.map_some, Option.some.injEq, Rpc.Response.value, Rpc.Response.outcome,
        exists_eq_left', true_and]
      cases herror : r.error with
      | some e => simp [Except.mapError, Except.bind]
      | none =>
        simp only [Except.mapError, Except.bind, nameOf_eq_ok_iff, true_and]
        cases r.result <;> simp
    · simp [hid]

/-- An answer that names no subscription is a fault. -/
theorem ackOf_eq_error {t : String} (answers : Answers t) (nameless : ∀ id, ¬ Names t id) :
    ∃ fault, ackOf t = some (.error fault) := by
  cases hack : ackOf t with
  | none => exact absurd answers (ackOf_eq_none_iff.mp hack)
  | some answer =>
    cases answer with
    | error fault => exact ⟨fault, rfl⟩
    | ok id => exact absurd (ackOf_eq_ok_iff.mp hack) (nameless id)

/-- The first answer among some texts. -/
def answer? (ts : List String) : Option (Except TransportFault String) := ts.findSome? ackOf

/-- The texts after the first answer. -/
def afterAnswer : List String → List String
  | [] => []
  | t :: ts => if (ackOf t).isSome then ts else afterAnswer ts

/-- The results for a subscription in some texts. -/
def resultsIn (id : String) (ts : List String) : List Json := ts.filterMap (resultOf id)

theorem answer?_concat (ts : List String) (t : String) : answer? (ts ++ [t]) = (answer? ts).or (ackOf t) := by
  unfold answer?
  rw [List.findSome?_append]
  simp

theorem afterAnswer_concat {ts : List String} (h : (answer? ts).isSome) (t : String) :
    afterAnswer (ts ++ [t]) = afterAnswer ts ++ [t] := by
  induction ts with
  | nil => simp [answer?] at h
  | cons u ts ih =>
    unfold afterAnswer
    by_cases hu : (ackOf u).isSome = true
    · simp only [List.cons_append, hu, ↓reduceIte]
    · have hnone : ackOf u = none := by simpa using hu
      have hrest : (answer? ts).isSome := by simpa [answer?, List.findSome?_cons, hnone] using h
      simp only [List.cons_append, hu, Bool.false_eq_true, ↓reduceIte, ih hrest]

theorem answer?_of_first {before after : List String} {t : String} (unrelated : ∀ u ∈ before, ¬ Answers u) :
    answer? (before ++ t :: after) = (ackOf t).or (answer? after) := by
  have hbefore : before.findSome? ackOf = none :=
    List.findSome?_eq_none_iff.mpr fun u hu => ackOf_eq_none_iff.mpr (unrelated u hu)
  unfold answer?
  rw [List.findSome?_append, hbefore, Option.none_or, List.findSome?_cons]
  cases ackOf t <;> rfl

theorem afterAnswer_of_first {before after : List String} {t : String} (unrelated : ∀ u ∈ before, ¬ Answers u)
    (answers : Answers t) : afterAnswer (before ++ t :: after) = after := by
  induction before with
  | nil =>
    have hsome : (ackOf t).isSome := Option.isSome_iff_ne_none.mpr fun hnone => ackOf_eq_none_iff.mp hnone answers
    simp only [List.nil_append, afterAnswer, hsome, ↓reduceIte]
  | cons u before ih =>
    obtain ⟨hu, hbefore⟩ := List.forall_mem_cons.mp unrelated
    simp only [List.cons_append, afterAnswer, ackOf_eq_none_iff.mpr hu, Option.isSome_none, Bool.false_eq_true,
      ↓reduceIte, ih hbefore]

theorem resultsIn_concat (id : String) (ts : List String) (t : String) :
    resultsIn id (ts ++ [t]) = resultsIn id ts ++ (resultOf id t).toList := by
  unfold resultsIn
  rw [List.filterMap_append]
  cases hresult : resultOf id t <;> simp [hresult]

end Session

open Session

/-! ### Where a session stands -/

/-- A text whose result is on offer, or none. -/
def OnOffer (id : String) (ts : List String) : Prop := ts = [] ∨ ∃ t v, ts = [t] ∧ resultOf id t = some v

/-- The ways in which a session can stand after it has heard some texts. -/
inductive Stands (spec : Spec) : List String → Session → Prop where
  | connecting : Stands spec [] ⟨.connecting, false, [], []⟩
  | awaiting {heard : List String} (unanswered : answer? heard = none) :
      Stands spec heard ⟨.awaitingAck, false, [spec.subscribeRequest], []⟩
  | subscribed {heard : List String} {id : String} (named : answer? heard = some (.ok id)) :
      Stands spec heard ⟨.subscribed id, true, [spec.subscribeRequest], resultsIn id (afterAnswer heard)⟩
  /-- the result of the last text is on offer -/
  | handing {heard through : List String} {id t : String} {v : Json} (named : answer? heard = some (.ok id))
      (heard_eq : afterAnswer heard = through ++ [t]) (result : resultOf id t = some v) :
      Stands spec heard ⟨.handing id v, true, [spec.subscribeRequest], resultsIn id through⟩
  /-- it ended before the node answered -/
  | unanswered {heard : List String} {sent : List Rpc.Request} {ending : Ending}
      (unanswered : answer? heard = none) (asked : sent = [] ∨ sent = [spec.subscribeRequest]) :
      Stands spec heard ⟨.over ending, false, sent, []⟩
  /-- the node named no subscription -/
  | refused {heard : List String} {fault : TransportFault} (refused : answer? heard = some (.error fault))
      (last : afterAnswer heard = []) :
      Stands spec heard ⟨.over (.failed fault), false, [spec.subscribeRequest], []⟩
  /-- the connection failed after the node had named the subscription -/
  | lost {heard : List String} {id : String} {fault : TransportFault} (named : answer? heard = some (.ok id)) :
      Stands spec heard
        ⟨.over (.failed fault), true, [spec.subscribeRequest], resultsIn id (afterAnswer heard)⟩
  /-- nobody was there to take the result of the last text -/
  | deserted {heard through : List String} {id t : String} {v : Json} (named : answer? heard = some (.ok id))
      (heard_eq : afterAnswer heard = through ++ [t]) (result : resultOf id t = some v) :
      Stands spec heard ⟨.over .deserted, true, [spec.subscribeRequest], resultsIn id through⟩
  /-- it was told to stop, with the result of the last text on offer or with none -/
  | stopped {heard through offered : List String} {id : String} (named : answer? heard = some (.ok id))
      (heard_eq : afterAnswer heard = through ++ offered) (onOffer : OnOffer id offered) :
      Stands spec heard ⟨.over .stopped, true, [spec.subscribeRequest, spec.unsubscribeRequest id],
        resultsIn id through⟩

variable {spec : Spec} {heard : List String} {s : Session}

/-- What is no text leaves what was heard. -/
theorem Stands.step (h : Stands spec heard s) {happening : Happening} (silent : ∀ t, happening ≠ .text t) :
    Stands spec heard (s.step spec happening) := by
  cases h with
  | connecting =>
    cases happening with
    | opened => exact .awaiting rfl
    | failed | told => exact .unanswered rfl (.inl rfl)
    | text t => exact absurd rfl (silent t)
    | _ => exact .connecting
  | awaiting unanswered =>
    cases happening with
    | failed | told => exact .unanswered unanswered (.inr rfl)
    | text t => exact absurd rfl (silent t)
    | _ => exact .awaiting unanswered
  | subscribed named =>
    cases happening with
    | failed => exact .lost named
    | told => exact .stopped named (List.append_nil _).symm (.inl rfl)
    | text t => exact absurd rfl (silent t)
    | _ => exact .subscribed named
  | @handing _ through id t v named heard_eq result =>
    cases happening with
    | taken =>
      have hall : resultsIn id through ++ [v] = resultsIn id (afterAnswer heard) := by
        rw [heard_eq, resultsIn_concat, result, Option.toList_some]
      simp only [Session.step, hall]
      exact .subscribed named
    | deserted => exact .deserted named heard_eq result
    | told => exact .stopped named heard_eq (.inr ⟨t, v, rfl, result⟩)
    | _ => exact .handing named heard_eq result
  | unanswered unanswered asked => exact .unanswered unanswered asked
  | refused refused last => exact .refused refused last
  | lost named => exact .lost named
  | deserted named heard_eq result => exact .deserted named heard_eq result
  | stopped named heard_eq onOffer => exact .stopped named heard_eq onOffer

/-- A session that awaits the answer hears a text. -/
theorem Stands.hearAnswer (h : Stands spec heard s) (awaits : s.phase = .awaitingAck) (t : String) :
    Stands spec (heard ++ [t]) (s.step spec (.text t)) := by
  cases h with
  | awaiting unanswered =>
    have hconcat : answer? (heard ++ [t]) = ackOf t := by rw [answer?_concat, unanswered, Option.none_or]
    have unrelated : ∀ u ∈ heard, ¬ Answers u := fun u hu =>
      ackOf_eq_none_iff.mp (List.findSome?_eq_none_iff.mp unanswered u hu)
    simp only [Session.step]
    cases hack : ackOf t with
    | none => exact .awaiting (hconcat.trans hack)
    | some answer =>
      have answers : Answers t := not_not.mp fun hnot => by simp [ackOf_eq_none_iff.mpr hnot] at hack
      have hafter : afterAnswer (heard ++ [t]) = [] := afterAnswer_of_first unrelated answers
      cases answer with
      | error fault => exact .refused (hconcat.trans hack) hafter
      | ok id =>
        have hsubscribed : Stands spec (heard ++ [t])
            ⟨.subscribed id, true, [spec.subscribeRequest], resultsIn id (afterAnswer (heard ++ [t]))⟩ :=
          .subscribed (hconcat.trans hack)
        rwa [hafter] at hsubscribed
  | _ => cases awaits

/-- A session with a subscription hears a text. -/
theorem Stands.hearNotification (h : Stands spec heard s) {id : String} (subscribed : s.phase = .subscribed id)
    (t : String) : Stands spec (heard ++ [t]) (s.step spec (.text t)) := by
  cases h with
  | subscribed named =>
    cases subscribed
    have hsome : (answer? heard).isSome := by rw [named]; rfl
    have hnamed : answer? (heard ++ [t]) = some (.ok id) := by rw [answer?_concat, named, Option.some_or]
    have hafter : afterAnswer (heard ++ [t]) = afterAnswer heard ++ [t] := afterAnswer_concat hsome t
    simp only [Session.step]
    cases hresult : resultOf id t with
    | none =>
      have hall : resultsIn id (afterAnswer (heard ++ [t])) = resultsIn id (afterAnswer heard) := by
        rw [hafter, resultsIn_concat, hresult, Option.toList_none, List.append_nil]
      rw [← hall]
      exact .subscribed hnamed
    | some v => exact .handing hnamed hafter hresult
  | _ => cases subscribed

/-! ### Runs -/

theorem textsOf_concat (frames : List Frame) (frame : Frame) :
    textsOf (frames ++ [frame]) = textsOf frames ++ frame.text?.toList := by
  unfold textsOf
  rw [List.filterMap_append]
  cases h : frame.text? <;> simp [h]

/-- A waiting session reads a frame. -/
theorem Stands.frame (h : Stands spec heard s)
    (waits : s.phase = .awaitingAck ∨ ∃ id, s.phase = .subscribed id) (frame : Frame) :
    Stands spec (heard ++ frame.text?.toList) (s.step spec frame.happening) := by
  cases frame with
  | text t =>
    rcases waits with awaits | ⟨id, subscribed⟩
    · exact h.hearAnswer awaits t
    · exact h.hearNotification subscribed t
  | other =>
    rw [show Frame.other.text?.toList = [] from rfl, List.append_nil]
    exact h.step nofun
  | lost fault =>
    rw [show (Frame.lost fault).text?.toList = [] from rfl, List.append_nil]
    exact h.step nofun

/-- What holds of a line on which the node sends some frames. -/
structure Line.Sound (spec : Spec) (frames : List Frame) (l : Line) : Prop where
  stands : Stands spec (textsOf l.read) l.session
  frames_eq : l.read ++ l.ahead = frames

namespace Line.Sound

variable {frames : List Frame} {l : Line}

theorem meet (h : l.Sound spec frames) {happening : Happening} (silent : ∀ t, happening ≠ .text t) :
    (l.meet spec happening).Sound spec frames := ⟨h.stands.step silent, h.frames_eq⟩

theorem receive (h : l.Sound spec frames)
    (waits : l.session.phase = .awaitingAck ∨ ∃ id, l.session.phase = .subscribed id) :
    (l.receive spec).Sound spec frames := by
  have hframes := h.frames_eq
  unfold Line.receive
  cases hahead : l.ahead with
  | nil => exact h
  | cons frame rest =>
    rw [hahead] at hframes
    refine ⟨?_, ?_⟩
    · rw [textsOf_concat]
      exact h.stands.frame waits frame
    · rw [List.append_assoc]
      exact hframes

theorem turn (h : l.Sound spec frames) (t : Turn) : (l.turn spec t).Sound spec frames := by
  cases t with
  | told => exact ⟨h.stands, h.frames_eq⟩
  | gone => exact ⟨h.stands, h.frames_eq⟩
  | look ready =>
    simp only [Line.turn, Line.poll]
    by_cases htold : l.told = true
    · rw [if_pos htold]
      exact h.meet nofun
    · rw [if_neg htold]
      split
      · exact h.meet nofun
      · exact h.meet nofun
      · exact h.meet nofun
      · rename_i hphase
        exact h.receive (.inl hphase)
      · rename_i id hphase
        exact h.receive (.inr ⟨id, hphase⟩)
      · cases l.gone <;> exact h.meet nofun
      · exact h

theorem run (h : l.Sound spec frames) (turns : List Turn) : (l.run spec turns).Sound spec frames := by
  induction turns generalizing l with
  | nil => exact h
  | cons t turns ih => exact ih (h.turn t)

end Line.Sound

theorem stands_run (spec : Spec) (frames : List Frame) (turns : List Turn) :
    ((Line.opening frames).run spec turns).Sound spec frames := by
  have start : (Line.opening frames).Sound spec frames := ⟨.connecting, rfl⟩
  exact start.run turns

/-! ### What a look comes to -/

namespace Session

/-- The text is a notification for the subscription with a result, which is `null` where it holds none. -/
def Notifies (t id : String) (v : Json) : Prop :=
  ∃ n, Json.readText? Rpc.Notification.reader t = some n ∧ n.subscriptionId = id ∧ n.result = v

theorem resultOf_eq_some_iff {t id : String} {v : Json} : resultOf id t = some v ↔ Notifies t id v := by
  unfold resultOf Notifies
  cases Json.readText? Rpc.Notification.reader t with
  | none => simp
  | some n => simp

/-- A notification that a node writes is for the subscription that it names. -/
theorem notifies_written (method : String) {subscription : Json} {result : Option Json}
    (name : subscription.Numbers Json.Number.Exact) (named : subscription.Tidy (Json.maxDepth - 2))
    (value : ∀ v ∈ result, v.Numbers Json.Number.Exact) (given : ∀ v ∈ result, v.Tidy (Json.maxDepth - 2)) :
    Notifies (Rpc.Notification.written method subscription result).render subscription.plainText
      (result.getD .null) :=
  ⟨_, Rpc.Notification.readText?_written method name named value given, rfl, rfl⟩

theorem resultOf_eq_none_iff {t id : String} : resultOf id t = none ↔ ∀ v, ¬ Notifies t id v := by
  rw [Option.eq_none_iff_forall_ne_some]
  exact forall_congr' fun v => not_congr resultOf_eq_some_iff

/-- A fault in place of a name is an answer that names no subscription. -/
theorem answers_of_error {t : String} {fault : TransportFault} (h : ackOf t = some (.error fault)) :
    Answers t ∧ ∀ id, ¬ Names t id := by
  refine ⟨not_not.mp fun unrelated => ?_, fun id names => ?_⟩
  · rw [ackOf_eq_none_iff.mpr unrelated] at h
    cases h
  · rw [ackOf_eq_ok_iff.mpr names] at h
    cases h

/-- What a session waits for. -/
def Awaits (s : Session) : Ready → Prop
  | .opened => s.phase = .connecting
  | .broken _ => s.phase = .connecting ∨ s.phase = .awaitingAck
  | .frame => s.phase = .awaitingAck ∨ ∃ id, s.phase = .subscribed id
  | .room => ∃ id v, s.phase = .handing id v

/-- What a frame makes of a session that waits for one. -/
inductive Takes (s : Session) : Frame → Session → Prop where
  | other : Takes s .other s
  | lost (fault : TransportFault) : Takes s (.lost fault) { s with phase := .over (.failed fault) }
  /-- before the answer, other texts leave the session as it stands -/
  | unrelated {t : String} (awaits : s.phase = .awaitingAck) (unrelated : ¬ Answers t) : Takes s (.text t) s
  | named {t id : String} (awaits : s.phase = .awaitingAck) (names : Names t id) :
      Takes s (.text t) { s with phase := .subscribed id, acked := true }
  | refused {t : String} {fault : TransportFault} (awaits : s.phase = .awaitingAck) (answers : Answers t)
      (nameless : ∀ id, ¬ Names t id) : Takes s (.text t) { s with phase := .over (.failed fault) }
  /-- so do texts that are no notifications for the subscription -/
  | foreign {t id : String} (subscribed : s.phase = .subscribed id) (foreign : ∀ v, ¬ Notifies t id v) :
      Takes s (.text t) s
  | notified {t id : String} {v : Json} (subscribed : s.phase = .subscribed id) (notifies : Notifies t id v) :
      Takes s (.text t) { s with phase := .handing id v }

theorem takes_answer (spec : Spec) (awaits : s.phase = .awaitingAck) (t : String) :
    s.Takes (.text t) (s.step spec (.text t)) := by
  simp only [Session.step, awaits]
  cases hack : ackOf t with
  | none => exact .unrelated awaits (ackOf_eq_none_iff.mp hack)
  | some answer =>
    cases answer with
    | ok id => exact .named awaits (ackOf_eq_ok_iff.mp hack)
    | error fault =>
      obtain ⟨answers, nameless⟩ := answers_of_error hack
      exact .refused awaits answers nameless

theorem takes_notification (spec : Spec) {id : String} (subscribed : s.phase = .subscribed id) (t : String) :
    s.Takes (.text t) (s.step spec (.text t)) := by
  simp only [Session.step, subscribed]
  cases hresult : resultOf id t with
  | none => exact .foreign subscribed (resultOf_eq_none_iff.mp hresult)
  | some v => exact .notified subscribed (resultOf_eq_some_iff.mp hresult)

/-- Each frame that a waiting session reads has its effect. -/
theorem takes_step (spec : Spec) (waits : s.Awaits .frame) (frame : Frame) :
    s.Takes frame (s.step spec frame.happening) := by
  cases frame with
  | text t =>
    rcases waits with awaits | ⟨id, subscribed⟩
    · exact takes_answer spec awaits t
    · exact takes_notification spec subscribed t
  | other =>
    have same : s.step spec .noise = s := by
      unfold Session.step
      rcases waits with awaits | ⟨id, subscribed⟩
      · rw [awaits]
      · rw [subscribed]
    show s.Takes .other (s.step spec .noise)
    rw [same]
    exact .other
  | lost fault =>
    have failed : s.step spec (.failed fault) = { s with phase := .over (.failed fault) } := by
      unfold Session.step
      rcases waits with awaits | ⟨id, subscribed⟩
      · rw [awaits]
        rfl
      · rw [subscribed]
        rfl
    show s.Takes (.lost fault) (s.step spec (.failed fault))
    rw [failed]
    exact .lost fault

end Session

/-- What a look comes to as long as the session has not been told to stop. -/
structure Line.Moves (spec : Spec) (l : Line) : Prop where
  /-- a session that has its connection asks -/
  opened : l.session.phase = .connecting → l.poll spec .opened =
    { l with session :=
        { l.session with phase := .awaitingAck, sent := l.session.sent ++ [spec.subscribeRequest] } }
  broken : ∀ fault, l.session.Awaits (.broken fault) → l.poll spec (.broken fault) =
    { l with session := { l.session with phase := .over (.failed fault) } }
  frame : ∀ frame rest, l.session.Awaits .frame → l.ahead = frame :: rest →
    ∃ s, l.session.Takes frame s ∧
      l.poll spec .frame = { l with session := s, read := l.read ++ [frame], ahead := rest }
  silence : l.ahead = [] → l.poll spec .frame = l
  /-- the consumer takes the result on offer, unless it is gone -/
  room : ∀ id v, l.session.phase = .handing id v → l.poll spec .room =
    { l with session :=
        if l.gone then { l.session with phase := .over .deserted }
        else { l.session with phase := .subscribed id, handed := l.session.handed ++ [v] } }
  /-- what the session does not wait for changes nothing -/
  idle : ∀ ready, ¬ l.session.Awaits ready → l.poll spec ready = l

namespace Line

variable {l : Line}

theorem poll_opened (spec : Spec) (untold : l.told = false) (connecting : l.session.phase = .connecting) :
    l.poll spec .opened = { l with session :=
      { l.session with phase := .awaitingAck, sent := l.session.sent ++ [spec.subscribeRequest] } } := by
  simp only [poll, meet, Session.step, untold, connecting, Bool.false_eq_true, ↓reduceIte]
  rfl

theorem poll_broken (spec : Spec) (untold : l.told = false) {fault : TransportFault}
    (waits : l.session.Awaits (.broken fault)) :
    l.poll spec (.broken fault) = { l with session := { l.session with phase := .over (.failed fault) } } := by
  rcases waits with connecting | awaits
  · simp only [poll, meet, Session.step, untold, connecting, Bool.false_eq_true, ↓reduceIte]
    rfl
  · simp only [poll, meet, Session.step, untold, awaits, Bool.false_eq_true, ↓reduceIte]
    rfl

theorem poll_frame (spec : Spec) (untold : l.told = false) (waits : l.session.Awaits .frame) :
    l.poll spec .frame = l.receive spec := by
  rcases waits with awaits | ⟨id, subscribed⟩
  · simp only [poll, untold, awaits, Bool.false_eq_true, ↓reduceIte]
  · simp only [poll, untold, subscribed, Bool.false_eq_true, ↓reduceIte]

theorem poll_room (spec : Spec) (untold : l.told = false) {id : String} {v : Json}
    (handing : l.session.phase = .handing id v) : l.poll spec .room =
      { l with session :=
        if l.gone then { l.session with phase := .over .deserted }
        else { l.session with phase := .subscribed id, handed := l.session.handed ++ [v] } } := by
  simp only [poll, meet, untold, handing, Bool.false_eq_true, ↓reduceIte]
  cases l.gone with
  | true => simp only [↓reduceIte, Session.step, handing, Session.finish, Session.enter]
  | false => simp only [Bool.false_eq_true, ↓reduceIte, Session.step, handing]

theorem poll_idle (spec : Spec) (untold : l.told = false) {ready : Ready} (unawaited : ¬ l.session.Awaits ready) :
    l.poll spec ready = l := by
  unfold poll
  rw [untold, if_neg Bool.false_ne_true]
  split
  · rename_i connecting
    exact absurd connecting unawaited
  · rename_i connecting
    exact absurd (Or.inl connecting) unawaited
  · rename_i awaits
    exact absurd (Or.inr awaits) unawaited
  · rename_i awaits
    exact absurd (Or.inl awaits) unawaited
  · rename_i id subscribed
    exact absurd (Or.inr ⟨id, subscribed⟩) unawaited
  · rename_i id v handing
    exact absurd ⟨id, v, handing⟩ unawaited
  · rfl

theorem moves (spec : Spec) (untold : l.told = false) : l.Moves spec where
  opened := poll_opened spec untold
  broken _ := poll_broken spec untold
  frame frame rest waits ahead := by
    refine ⟨_, Session.takes_step spec waits frame, ?_⟩
    rw [poll_frame spec untold waits]
    unfold receive
    rw [ahead]
  silence ahead := by
    by_cases waits : l.session.Awaits .frame
    · rw [poll_frame spec untold waits]
      unfold receive
      rw [ahead]
    · exact poll_idle spec untold waits
  room _ _ := poll_room spec untold
  idle _ := poll_idle spec untold

end Line

/-! ### After the shutdown, and after the end -/

theorem Line.poll_told (spec : Spec) {l : Line} (told : l.told = true) (ready : Ready) :
    l.poll spec ready = l.meet spec .told := if_pos told

theorem handed_told (spec : Spec) (s : Session) : (s.step spec .told).handed = s.handed := by
  obtain ⟨phase, acked, sent, handed⟩ := s
  cases phase <;> rfl

/-- Once the shutdown has fired, nothing is read and nothing is handed on. -/
theorem Line.run_told {l : Line} (h : l.told = true) (turns : List Turn) :
    (l.run spec turns).session.handed = l.session.handed ∧ (l.run spec turns).read = l.read := by
  induction turns generalizing l with
  | nil => exact ⟨rfl, rfl⟩
  | cons t turns ih =>
    have hturn : (l.turn spec t).told = true ∧ (l.turn spec t).session.handed = l.session.handed ∧
        (l.turn spec t).read = l.read := by
      cases t with
      | told => exact ⟨rfl, rfl, rfl⟩
      | gone => exact ⟨h, rfl, rfl⟩
      | look ready =>
        rw [show l.turn spec (.look ready) = l.meet spec .told from Line.poll_told spec h ready]
        exact ⟨h, handed_told spec l.session, rfl⟩
    obtain ⟨htold, hhanded, hread⟩ := hturn
    obtain ⟨ihanded, iread⟩ := ih htold
    exact ⟨ihanded.trans hhanded, iread.trans hread⟩

theorem Session.step_of_over (spec : Spec) {ending : Ending} (ended : s.phase = .over ending) (h : Happening) :
    s.step spec h = s := by
  unfold Session.step
  rw [ended]

theorem Session.not_awaits_of_over {ending : Ending} (ended : s.phase = .over ending) (ready : Ready) :
    ¬ s.Awaits ready := by
  cases ready <;> simp [Session.Awaits, ended]

/-- A session that has ended does nothing any more. -/
theorem Line.run_over {l : Line} {ending : Ending} (ended : l.session.phase = .over ending) (turns : List Turn) :
    (l.run spec turns).session = l.session := by
  induction turns generalizing l with
  | nil => rfl
  | cons t turns ih =>
    have hturn : (l.turn spec t).session = l.session := by
      cases t with
      | told => rfl
      | gone => rfl
      | look ready =>
        show (l.poll spec ready).session = l.session
        rcases Bool.eq_false_or_eq_true l.told with told | untold
        · rw [Line.poll_told spec told]
          exact Session.step_of_over spec ended .told
        · rw [Line.poll_idle spec untold (Session.not_awaits_of_over ended ready)]
    refine (ih ?_).trans hturn
    rw [hturn]
    exact ended

/-! ### One session -/

theorem Stands.sent_cases (h : Stands spec heard s) : s.sent = [] ∨ s.sent = [spec.subscribeRequest] ∨
    ∃ id, s.sent = [spec.subscribeRequest, spec.unsubscribeRequest id] := by
  cases h with
  | connecting => exact .inl rfl
  | stopped => exact .inr (.inr ⟨_, rfl⟩)
  | unanswered _ asked => exact asked.imp_right .inl
  | _ => exact .inr (.inl rfl)

/-- Without an answer a session has no subscription. -/
theorem Stands.of_unanswered (h : Stands spec heard s) (unanswered : answer? heard = none) :
    s.acked = false ∧ s.handed = [] ∧ (s.sent = [] ∨ s.sent = [spec.subscribeRequest]) := by
  cases h with
  | connecting => exact ⟨rfl, rfl, .inl rfl⟩
  | awaiting => exact ⟨rfl, rfl, .inr rfl⟩
  | unanswered _ asked => exact ⟨rfl, rfl, asked⟩
  | refused refused => simp [unanswered] at refused
  | subscribed named => simp [unanswered] at named
  | handing named => simp [unanswered] at named
  | lost named => simp [unanswered] at named
  | deserted named => simp [unanswered] at named
  | stopped named => simp [unanswered] at named

/-- An answer that names no subscription is the last text that a session hears. -/
theorem Stands.of_refused {fault : TransportFault} (h : Stands spec heard s)
    (refused : answer? heard = some (.error fault)) :
    s.acked = false ∧ s.handed = [] ∧ s.sent = [spec.subscribeRequest] ∧ s.phase = .over (.failed fault) ∧
      afterAnswer heard = [] := by
  cases h with
  | connecting => cases refused
  | awaiting unanswered => simp [refused] at unanswered
  | unanswered unanswered => simp [refused] at unanswered
  | refused refused' last =>
    rw [refused', Option.some.injEq, Except.error.injEq] at refused
    subst refused
    exact ⟨rfl, rfl, rfl, rfl, last⟩
  | subscribed named => simp [refused] at named
  | handing named => simp [refused] at named
  | lost named => simp [refused] at named
  | deserted named => simp [refused] at named
  | stopped named => simp [refused] at named

/-- A session with a subscription has handed on the results of the texts that it is through with: all that it
heard since the answer, but for one whose result is on offer, or was when the session was told to stop or found its
consumer gone. -/
theorem Stands.of_named {id : String} (h : Stands spec heard s) (named : answer? heard = some (.ok id)) :
    s.acked = true ∧ (s.phase = .over .stopped → s.sent = [spec.subscribeRequest, spec.unsubscribeRequest id]) ∧
      (s.phase ≠ .over .stopped → s.sent = [spec.subscribeRequest]) ∧
      ∃ through offered, afterAnswer heard = through ++ offered ∧ s.handed = resultsIn id through ∧
        OnOffer id offered ∧ (offered = [] ∨ (∃ v, s.phase = .handing id v) ∨ s.phase = .over .stopped ∨
          s.phase = .over .deserted) := by
  cases h with
  | connecting => cases named
  | awaiting unanswered => simp [named] at unanswered
  | unanswered unanswered => simp [named] at unanswered
  | refused refused => simp [named] at refused
  | subscribed named' =>
    rw [named', Option.some.injEq, Except.ok.injEq] at named
    subst named
    exact ⟨rfl, nofun, fun _ => rfl, _, [], (List.append_nil _).symm, rfl, .inl rfl, .inl rfl⟩
  | handing named' heard_eq result =>
    rw [named', Option.some.injEq, Except.ok.injEq] at named
    subst named
    exact ⟨rfl, nofun, fun _ => rfl, _, _, heard_eq, rfl, .inr ⟨_, _, rfl, result⟩, .inr (.inl ⟨_, rfl⟩)⟩
  | lost named' =>
    rw [named', Option.some.injEq, Except.ok.injEq] at named
    subst named
    exact ⟨rfl, nofun, fun _ => rfl, _, [], (List.append_nil _).symm, rfl, .inl rfl, .inl rfl⟩
  | deserted named' heard_eq result =>
    rw [named', Option.some.injEq, Except.ok.injEq] at named
    subst named
    exact ⟨rfl, nofun, fun _ => rfl, _, _, heard_eq, rfl, .inr ⟨_, _, rfl, result⟩, .inr (.inr (.inr rfl))⟩
  | stopped named' heard_eq onOffer =>
    rw [named', Option.some.injEq, Except.ok.injEq] at named
    subst named
    exact ⟨rfl, fun _ => rfl, fun hne => absurd rfl hne, _, _, heard_eq, rfl, onOffer, .inr (.inr (.inl rfl))⟩

/-- **One session, any trace.** On a connection on which the node sends any frames, with the shutdown and the
consumer's leaving at any moments, a session reads the frames in order, and sends at most the one request and then
the one that ends the subscription. As long as it has heard no answer, it has no subscription and hands nothing on.
The first answer decides: one that names no subscription fails the session there and then. After one that names it,
the session has handed on the results of the notifications for this subscription, in order and each once, in the
texts that it is through with: all that it read since, but for a last one while its result is on offer. That one is
left when the session is told to stop, or finds its consumer gone, before the result is taken. Until the shutdown each
look has its effect (`Line.Moves`): the session asks as soon as it has its connection, reads the next frame when it
waits for one, passes over what does not concern it, and hands on what is on offer. After the shutdown nothing is read
and nothing handed on; at its next look the session ends, and one that has a subscription then asks the node to end
it, as no other session does. A session that has ended does nothing any more. -/
theorem one_session (spec : Spec) (frames : List Frame) (turns more : List Turn) :
    let l := (Line.opening frames).run spec turns
    let s := l.session
    let heard := textsOf l.read
    l.read ++ l.ahead = frames ∧
      spec.subscribeRequest = ⟨"2.0", spec.method, spec.params, .number 1⟩ ∧
      (∀ id, spec.unsubscribeRequest id = ⟨"2.0", spec.unsubscribe, [.text id], .number 2⟩) ∧
      (s.sent = [] ∨ s.sent = [spec.subscribeRequest] ∨
        ∃ id, s.sent = [spec.subscribeRequest, spec.unsubscribeRequest id]) ∧
      ((∀ t ∈ heard, ¬ Answers t) →
        s.acked = false ∧ s.handed = [] ∧ (s.sent = [] ∨ s.sent = [spec.subscribeRequest])) ∧
      (∀ before t after, heard = before ++ t :: after → (∀ u ∈ before, ¬ Answers u) → Answers t →
        ((∀ id, ¬ Names t id) → s.acked = false ∧ s.handed = [] ∧ s.sent = [spec.subscribeRequest] ∧
          (∃ fault, s.phase = .over (.failed fault)) ∧ after = []) ∧
        ∀ id, Names t id → s.acked = true ∧
          (s.phase = .over .stopped → s.sent = [spec.subscribeRequest, spec.unsubscribeRequest id]) ∧
          (s.phase ≠ .over .stopped → s.sent = [spec.subscribeRequest]) ∧
          ∃ through offered, after = through ++ offered ∧ s.handed = through.filterMap (resultOf id) ∧
            OnOffer id offered ∧ (offered = [] ∨ (∃ v, s.phase = .handing id v) ∨ s.phase = .over .stopped ∨
              s.phase = .over .deserted)) ∧
      (∀ t id v, resultOf id t = some v ↔ Notifies t id v) ∧ (l.told = false → l.Moves spec) ∧
      ((Line.opening frames).run spec (turns ++ .told :: more)).session.handed = s.handed ∧
      ((Line.opening frames).run spec (turns ++ .told :: more)).read = l.read ∧
      (∀ ready, s.phase = .connecting ∨ s.phase = .awaitingAck →
        ((Line.opening frames).run spec (turns ++ [.told, .look ready])).session = s.finish .stopped) ∧
      (∀ ready id, (s.phase = .subscribed id ∨ ∃ v, s.phase = .handing id v) →
        ((Line.opening frames).run spec (turns ++ [.told, .look ready])).session =
          (s.send (spec.unsubscribeRequest id)).finish .stopped) ∧
      ∀ ending, s.phase = .over ending → ((Line.opening frames).run spec (turns ++ more)).session = s := by
  intro l s heard
  obtain ⟨hstands, hframes⟩ : l.Sound spec frames := stands_run spec frames turns
  have htold : (l.turn spec .told).told = true := rfl
  obtain ⟨hhanded, hread⟩ := Line.run_told htold more
  refine ⟨hframes, rfl, fun id => rfl, hstands.sent_cases, fun hnone => ?_,
    fun before t after hheard hbefore ht => ⟨fun hnot => ?_, fun id hnames => ?_⟩,
    fun t id v => resultOf_eq_some_iff, Line.moves spec, ?_, ?_, fun ready hphase => ?_,
    fun ready id hphase => ?_, fun ending hphase => ?_⟩
  · exact hstands.of_unanswered (List.findSome?_eq_none_iff.mpr fun t ht => ackOf_eq_none_iff.mpr (hnone t ht))
  · obtain ⟨fault, hack⟩ := ackOf_eq_error ht hnot
    have hrefused : answer? heard = some (.error fault) := by
      rw [hheard, answer?_of_first hbefore, hack, Option.some_or]
    obtain ⟨hacked, hhanded, hsent, hphase, hlast⟩ := hstands.of_refused hrefused
    refine ⟨hacked, hhanded, hsent, ⟨fault, hphase⟩, ?_⟩
    rwa [show textsOf l.read = before ++ t :: after from hheard, afterAnswer_of_first hbefore ht] at hlast
  · have hnamed : answer? heard = some (.ok id) := by
      rw [hheard, answer?_of_first hbefore, ackOf_eq_ok_iff.mpr hnames, Option.some_or]
    have hafter : afterAnswer heard = after := by rw [hheard, afterAnswer_of_first hbefore ht]
    rw [← hafter]
    exact hstands.of_named hnamed
  · rw [Line.run_append]
    exact hhanded
  · rw [Line.run_append]
    exact hread
  · rw [Line.run_append]
    show s.step spec .told = _
    rcases hphase with hphase | hphase <;> simp only [Session.step, hphase]
  · rw [Line.run_append]
    show s.step spec .told = _
    rcases hphase with hphase | ⟨v, hphase⟩ <;> simp only [Session.step, hphase]
  · rw [Line.run_append]
    exact Line.run_over hphase more

/-- What the sample run subscribes to. -/
def sampleSpec : Spec := ⟨"eth_subscribe", [.text "logs"], "eth_unsubscribe"⟩

/-- A response in the sample run. -/
def sampleResponse (n : Nat) : String := (Rpc.Response.toJson { id := .number n, result := some (.nat 7) }).render

/-- A notification in the sample run, with its result if it has one. -/
def sampleNotice (subscription : Json) (result : Option Json) : String :=
  (Rpc.Notification.written "eth_subscription" subscription result).render

/-- A response to something else, the answer, a frame without text, and two notifications. -/
def sampleFrames : List Frame :=
  [.text (sampleResponse 3), .text (sampleResponse 1), .other, .text (sampleNotice (.text "7") (some (.bool true))),
    .text (sampleNotice (.nat 7) none)]

/-- The session reads up to the first notification. -/
def sampleStart : List Turn := [.look .opened, .look .frame, .look .frame, .look .frame, .look .frame]

/-- The consumer takes the first result, and the shutdown fires while the second one is on offer. -/
def sampleTurns : List Turn := sampleStart ++ [.look .room, .look .frame, .told, .look .room]

theorem render_seven : (Json.nat 7).render = "7" := by
  show String.ofList (Numeral.render 10 7) = "7"
  rw [Numeral.render_of_lt (by decide)]
  rfl

/-- The response with the id of the request names the subscription. -/
theorem ackOf_sampleResponse {n : Nat} (fits : n < 0x10000000000000000) :
    ackOf (sampleResponse n) = if n = subscribeId then some (.ok "7") else none := by
  have integers : (Rpc.Response.toJson { id := .number n, result := some (.nat 7) }).Numbers Json.Number.Exact := by
    simp [Rpc.Response.toJson, Rpc.Error.member?, Rpc.Id.toJson, Json.exact_nat fits,
      Json.exact_nat (show 7 < 0x10000000000000000 by decide)]
  have number : Rpc.Id.reader 127 (Json.Tree.ofValue (.nat n)) = some (.number n) := if_pos fits
  have read : Json.readText? Rpc.Response.reader (sampleResponse n) =
      some { id := .number n, result := some (.nat 7) } := by
    rw [sampleResponse, Json.Tree.readText?_render _ integers]
    show (Rpc.Id.reader 127 (Json.Tree.ofValue (.nat n))).bind
      (fun id => some ({ id, result := some (.nat 7) } : Rpc.Response)) = _
    rw [number]
    rfl
  unfold ackOf answerIn
  rw [read]
  by_cases first : n = subscribeId
  · rw [if_pos first]
    show (if Rpc.Id.number n = .number subscribeId then _ else none).map _ = _
    rw [if_pos (congrArg Rpc.Id.number first)]
    show some (Except.ok (Json.nat 7).render) = _
    rw [render_seven]
  · rw [if_neg first]
    show (if Rpc.Id.number n = .number subscribeId then _ else none).map _ = _
    rw [if_neg fun same => first (Rpc.Id.number.inj same)]
    rfl

theorem notifies_first : Notifies (sampleNotice (.text "7") (some (.bool true))) "7" (.bool true) :=
  notifies_written "eth_subscription" .text .text (by simp) (by simp [Json.Tidy.bool])

theorem notifies_second : Notifies (sampleNotice (.nat 7) none) "7" .null := by
  rw [← render_seven]
  exact notifies_written "eth_subscription" (Json.exact_nat (by decide)) .number nofun nofun

theorem run_sampleStart : (Line.opening sampleFrames).run sampleSpec sampleStart =
    { session := ⟨.handing "7" (.bool true), true, [sampleSpec.subscribeRequest], []⟩
      read := sampleFrames.take 4
      ahead := sampleFrames.drop 4 } := by
  have stray : ackOf (sampleResponse 3) = none := ackOf_sampleResponse (by decide)
  have named : ackOf (sampleResponse 1) = some (.ok "7") := ackOf_sampleResponse (by decide)
  simp [sampleStart, sampleFrames, Line.opening, Line.run, Line.turn, Line.poll, Line.receive, Line.meet,
    Session.step, Session.enter, Session.send, Frame.happening, stray, named,
    resultOf_eq_some_iff.mpr notifies_first]

theorem run_sampleTurns : (Line.opening sampleFrames).run sampleSpec sampleTurns =
    { session :=
        ⟨.over .stopped, true, [sampleSpec.subscribeRequest, sampleSpec.unsubscribeRequest "7"], [.bool true]⟩
      read := sampleFrames
      ahead := []
      told := true } := by
  rw [sampleTurns, Line.run_append, run_sampleStart]
  simp [sampleFrames, Line.run, Line.turn, Line.poll, Line.receive, Line.meet, Session.step, Session.enter,
    Session.send, Session.finish, Frame.happening, resultOf_eq_some_iff.mpr notifies_second]

/-- In the sample run the session passes over what does not concern it, hands the first result on, and asks the node
to end the subscription while the second result, which is `null`, is on offer. -/
theorem one_session_sample :
    let offering := (Line.opening sampleFrames).run sampleSpec sampleStart
    let l := (Line.opening sampleFrames).run sampleSpec sampleTurns
    textsOf l.read = [sampleResponse 3, sampleResponse 1, sampleNotice (.text "7") (some (.bool true)),
        sampleNotice (.nat 7) none] ∧
      ¬ Answers (sampleResponse 3) ∧ Names (sampleResponse 1) "7" ∧
      Notifies (sampleNotice (.text "7") (some (.bool true))) "7" (.bool true) ∧
      Notifies (sampleNotice (.nat 7) none) "7" .null ∧
      (offering.poll sampleSpec .room).session.handed = [.bool true] ∧ l.session.handed = [.bool true] ∧
      l.session.acked = true ∧
      l.session.sent = [⟨"2.0", "eth_subscribe", [.text "logs"], .number 1⟩,
        ⟨"2.0", "eth_unsubscribe", [.text "7"], .number 2⟩] := by
  have unrelated : ¬ Answers (sampleResponse 3) := ackOf_eq_none_iff.mp (ackOf_sampleResponse (by decide))
  have names : Names (sampleResponse 1) "7" := ackOf_eq_ok_iff.mp (ackOf_sampleResponse (by decide))
  obtain ⟨-, -, -, -, -, -, -, moves, -⟩ := one_session sampleSpec sampleFrames sampleStart []
  obtain ⟨-, -, -, -, -, answered, -⟩ := one_session sampleSpec sampleFrames sampleTurns []
  rw [run_sampleStart] at moves ⊢
  rw [run_sampleTurns] at answered ⊢
  intro offering l
  -- the first result is on offer, so the consumer can take it
  have taken := (moves rfl).room "7" (.bool true) rfl
  -- the first answer names the subscription
  obtain ⟨-, named⟩ := answered [sampleResponse 3] (sampleResponse 1) _ rfl
    (List.forall_mem_singleton.mpr unrelated) names.answers
  obtain ⟨acked, sent, -⟩ := named "7" names
  exact ⟨rfl, unrelated, names, notifies_first, notifies_second, congrArg (·.session.handed) taken, rfl, acked,
    sent rfl⟩

end Push
end OracleRelay
