/-
# The head of the chain as a cursor

The connection test takes over as the cursor whatever text the node names as its head. Noting events makes a
quantity beyond them of a tag of the tip, and of any quantity (`Tracker.Settles.observe`), so after such a head
every query begins behind the events that were handed on (`Evm.moving_run`). After any other text the first
event leaves the cursor where it is (`Tracker.observe_zero_of_unsettled`), and the queries go on asking from that
text (`Evm.stuck_head`).

Key definitions: `Tracker.Settles`, `Evm.lowerText?`, `Evm.Past`, `Evm.Moving`.
Key theorems: `Tracker.Settles.observe`, `Evm.moving_run`, `Evm.later_queries_iff`.
-/
import OracleRelay.Proofs.Cursor.Forward
import OracleRelay.Proofs.Evm.Polling

namespace OracleRelay

/-! ### The cursor -/

namespace Tracker

/-- The first event that is noted makes a quantity of the cursor, or it is one: the cursor stands at a tag of the
tip, is a quantity of any size, or is read as zero. -/
def Settles (t : Tracker) : Prop :=
  t.isSentinel = true ∨ (∃ n, Position.Quantity t.bound n) ∨ t.number? = some 0

/-- A quantity is moved by the events that do not lie before it. One that is too large for a position is moved by
none, as there is no position beyond it. -/
theorem advances_of_quantity {t : Tracker} {n : Nat} (h : Position.Quantity t.bound n) (position : Nat) :
    t.advances position = true ↔ n < Position.next position := by
  have hparse := Position.parse?_of_quantity h
  by_cases hn : n < Position.bound
  · have hc : t.number? = some n := by rw [number?, hparse, if_pos hn]
    rw [advances_of_usable (.inr ⟨n, hc⟩)]
    simp [hc]
  · have hs : t.isSentinel = false := RangeKind.isSentinel_of_quantity h
    have hlt := Position.next_lt position
    have hbeyond : ¬ n < Position.next position := by omega
    simp [advances, hs, hparse, if_neg hn, hbeyond]

/-- **One event makes a quantity of the cursor**, which lies at the position after the event or further on, and
not before the quantity that it was. -/
theorem Settles.observe {t : Tracker} (h : t.Settles) (position : Nat) :
    ∃ m, Position.Quantity (t.observe position).bound m ∧ Position.next position ≤ m ∧
      ∀ c, Position.Quantity t.bound c → c ≤ m := by
  by_cases hadv : t.advances position = true
  · refine ⟨Position.next position, ?_, le_rfl, fun c hc => ?_⟩
    · rw [Tracker.observe, if_pos hadv]
      exact Position.quantity_encode _
    · exact Nat.le_of_lt ((advances_of_quantity hc position).mp hadv)
  · have hsame : t.observe position = t := by rw [Tracker.observe, if_neg hadv]
    have hquantity : ∃ n, Position.Quantity t.bound n := by
      rcases h with hs | hquantity | hzero
      · exact absurd (by simp [advances, hs]) hadv
      · exact hquantity
      · -- what is read as zero lies before the position after any event
        refine absurd ((advances_of_usable (.inr ⟨0, hzero⟩) position).mpr fun c hc => ?_) hadv
        rw [hzero, Option.some.injEq] at hc
        have hpos : 0 < Position.next position := by
          unfold Position.next Position.bound
          omega
        omega
    obtain ⟨n, hn⟩ := hquantity
    rw [advances_of_quantity hn] at hadv
    refine ⟨n, by rw [hsame]; exact hn, not_lt.mp hadv, fun c hc => ?_⟩
    exact Nat.le_of_eq (hc.unique hn)

/-- An event at the first position does not move a cursor that does not settle. -/
theorem observe_zero_of_unsettled {t : Tracker} (h : ¬ t.Settles) : t.observe 0 = t := by
  have hs : t.isSentinel = false := by
    by_contra hs
    exact h (.inl (by simpa using hs))
  have hstays : ¬ t.advances 0 = true := by
    intro hadv
    have hnext : Position.next 0 = 1 := rfl
    cases hc : t.number? with
    | none =>
      have hp : Position.parse? t.bound = none := hc
      simp [advances, hs, hp] at hadv
    | some c =>
      have hlt := (advances_of_usable (.inr ⟨c, hc⟩) 0).mp hadv c hc
      have hzero : c = 0 := by omega
      exact h (.inr (.inr (hzero ▸ hc)))
  rw [observe, if_neg hstays]

end Tracker

namespace Evm

open Adapter

variable {flavor : Flavor}

/-! ### Queries behind the events -/

/-- The text at which a query begins. -/
def lowerText? (kind : RangeKind) (query : Rpc.Call) : Option String :=
  match query.params with
  | [argument] => (argument.get? kind.fromKey).bind Json.text?
  | _ => none

/-- A bound is a quantity beyond all events that were handed on. Beyond the last position there is none. -/
def Past (bound : String) (taken : List ChainEvent) : Prop :=
  ∀ e n, .log e ∈ taken → e.position = some n → n + 1 < Position.bound → ∃ m, Position.Quantity bound m ∧ n < m

/-- What an adapter keeps whose cursor settles. -/
structure Movable (flavor : Flavor) (p : Poller) (taken : List ChainEvent) : Prop where
  kind_eq : p.filter.range.kind = flavor.rangeKind
  hash_eq : p.filter.blockHash = none
  settles : p.filter.range.Settles
  past : Past p.cursor taken

/-- What holds of such an adapter between its moves: an event on offer is behind the cursor before the sink takes
it, and a query at the node is the one that the filter gives. -/
def Moving (flavor : Flavor) (p : Poller) (taken : List ChainEvent) : Prop :=
  match p.phase with
  | .idle => Movable flavor p taken
  | .asking argument => Movable flavor p taken ∧ p.filter.argument .tip = .ok argument
  | .handing e _ => Movable flavor p (taken ++ [.log e])

variable {p : Poller} {taken : List ChainEvent}

theorem Movable.of_eq {p' : Poller} (h : Movable flavor p taken) (hfilter : p'.filter = p.filter) :
    Movable flavor p' taken := by
  refine ⟨?_, ?_, ?_, ?_⟩
  · rw [hfilter, h.kind_eq]
  · rw [hfilter, h.hash_eq]
  · rw [hfilter]
    exact h.settles
  · rw [Poller.cursor, hfilter]
    exact h.past

/-- **Noting an event puts the cursor beyond it**, and leaves it beyond the events before. -/
theorem Movable.noting (h : Movable flavor p taken) (e : LogEvent) :
    Movable flavor (p.noting e) (taken ++ [.log e]) := by
  have hkind : (p.noting e).filter.range.kind = flavor.rangeKind := (Poller.kind_noting p e).trans h.kind_eq
  have hhash : (p.noting e).filter.blockHash = none := (Poller.blockHash_noting p e).trans h.hash_eq
  have split {e' : LogEvent} (he' : .log e' ∈ taken ++ [.log e]) : .log e' ∈ taken ∨ e' = e := by
    simpa using he'
  cases hposition : e.position with
  | none =>
    have hsame : p.noting e = p := by simp [Poller.noting, hposition]
    refine ⟨hkind, hhash, by rw [hsame]; exact h.settles, fun e' n' he' hn' hlast => ?_⟩
    rw [hsame]
    rcases split he' with hbefore | rfl
    · exact h.past e' n' hbefore hn' hlast
    · rw [hposition] at hn'
      cases hn'
  | some n =>
    obtain ⟨m, hm, hnext, hfurther⟩ := h.settles.observe n
    have hcursor : (p.noting e).filter.range = p.filter.range.observe n := by simp [Poller.noting, hposition]
    have hquantity : Position.Quantity (p.noting e).cursor m := by rwa [Poller.cursor, hcursor]
    refine ⟨hkind, hhash, .inr (.inl ⟨m, hquantity⟩), fun e' n' he' hn' hlast => ⟨m, hquantity, ?_⟩⟩
    rcases split he' with hbefore | rfl
    · obtain ⟨c, hc, hlt⟩ := h.past e' n' hbefore hn' hlast
      exact lt_of_lt_of_le hlt (hfurther c hc)
    · rw [hposition, Option.some.injEq] at hn'
      subst hn'
      rw [Position.next_eq hlast] at hnext
      omega

/-- Going on through logs keeps what holds between moves. -/
theorem Moving.proceed (h : Movable flavor p taken) (logs : List Log) : Moving flavor (p.proceed logs) taken := by
  rcases p.proceed_cases logs with ⟨-, hproceed⟩ | ⟨e, rest, -, hproceed⟩
  · rw [hproceed]
    exact h.of_eq rfl
  · rw [hproceed]
    exact (h.noting e).of_eq rfl

/-- So does taking in an answer, whatever it is. -/
theorem Moving.absorb (h : Movable flavor p taken) (answer : Except TransportFault Json) :
    Moving flavor (p.absorb answer) taken := by
  have hidle : Moving flavor { p with phase := .idle } taken := h.of_eq rfl
  unfold Poller.absorb
  cases answer with
  | error fault => exact hidle
  | ok v =>
    cases hread : readLogs p.flavor v with
    | error fault => simpa only [hread] using hidle
    | ok logs =>
      simp only [hread]
      exact Moving.proceed (p := { p with seen := true }) (h.of_eq rfl) logs

theorem Moving.launch (h : Movable flavor p taken) : Moving flavor p.launch taken := by
  obtain ⟨argument, hok, -⟩ := LogFilter.argument_of_range h.hash_eq .tip
  have hlaunch : p.launch = { p with phase := .asking argument } := by simp only [Poller.launch, hok]
  rw [hlaunch]
  exact ⟨h.of_eq rfl, hok⟩

/-- **A run keeps the cursor beyond all that was handed on.** -/
theorem moving_run (start : Moving flavor p []) (hs : List (Happening Rpc.Call fun _ => Except TransportFault Json)) :
    Moving flavor (Running.run Poller.wait { state := p } hs).state
      (Running.run Poller.wait { state := p } hs).taken := by
  apply Running.run_invariant (r := { state := p }) Poller.wait (P := fun _ s taken => Moving flavor s taken) start
  · intro _ s taken next ih wait
    obtain ⟨hphase, rfl⟩ := Poller.of_wait_beat wait
    simp only [Moving, hphase] at ih
    exact Moving.launch ih
  · intro _ s taken question guard next answer ih wait
    obtain ⟨argument, hphase, -, rfl⟩ := Poller.of_wait_ask wait
    simp only [Moving, hphase] at ih
    exact Moving.absorb ih.1 answer
  · intro _ s taken event next ih wait
    obtain ⟨e, rest, hphase, rfl, rfl⟩ := Poller.of_wait_offer wait
    simp only [Moving, hphase] at ih
    exact Moving.proceed ih rest

/-- The query of a filter begins at its cursor, unless that is unset. -/
theorem lowerText?_of_argument {f : LogFilter} {argument : Json} (hkind : f.range.kind = flavor.rangeKind)
    (hhash : f.blockHash = none) (hset : f.range.bound ≠ "") (hok : f.argument .tip = .ok argument) (method : String) :
    lowerText? flavor.rangeKind ⟨method, [argument]⟩ = some f.range.bound := by
  obtain ⟨argument', hok', holds⟩ := LogFilter.argument_of_range hhash .tip
  obtain rfl : argument' = argument := Except.ok.inj (hok'.symm.trans hok)
  have hlower : f.lower .tip = f.range.bound := by rw [LogFilter.lower_eq, if_neg hset]
  have hget : argument'.get? flavor.rangeKind.fromKey = some (.text f.range.bound) := by
    rw [← hkind, holds, hlower]
    simp
  simp [lowerText?, hget, Json.text?]

/-- A query at the node begins beyond what was handed on before. -/
theorem Moving.query (h : Moving flavor p taken) {query : Rpc.Call} {guard : Guard}
    {next : Except TransportFault Json → Poller} (wait : Poller.wait p = .ask query guard next) {e : LogEvent} {n : Nat}
    (he : .log e ∈ taken) (hn : e.position = some n) (hlast : n + 1 < Position.bound) :
    ∃ lower m, lowerText? flavor.rangeKind query = some lower ∧ Position.Quantity lower m ∧ n < m := by
  obtain ⟨argument, hphase, rfl, -⟩ := Poller.of_wait_ask wait
  simp only [Moving, hphase] at h
  obtain ⟨hmovable, hok⟩ := h
  obtain ⟨m, hm, hlt⟩ := hmovable.past e n he hn hlast
  exact ⟨p.cursor, m, lowerText?_of_argument hmovable.kind_eq hmovable.hash_eq hm.ne_empty hok _, hm, hlt⟩

/-! ### Heads that do not settle -/

/-- A log at the first position, whether blocks or epochs are counted. -/
def firstLog : Json :=
  .object [("address", .text "0xoracle"), ("blockNumber", .text "0x0"), ("epochNumber", .text "0x0")]

/-- The event of this log. -/
def firstEvent : LogEvent := ⟨"0xoracle", [], [], some 0⟩

/-- A poll that is answered with this log, and the beat after it. -/
def firstPoll : List (Happening Rpc.Call fun _ => Except TransportFault Json) :=
  [.look .timer, .look (.reply fun _ => .ok (.array [firstLog])), .look .room, .look .timer]

/-- The log is read as its event, whatever the flavor. -/
theorem absorb_firstLog (p : Poller) :
    p.absorb (.ok (.array [firstLog])) =
      { ({ p with seen := true } : Poller).noting firstEvent with phase := .handing firstEvent [] } := by
  obtain ⟨flavor, filter, seen, phase⟩ := p
  cases flavor <;> rfl

/-- After the event, an adapter whose cursor does not settle asks again from where it asked before. -/
theorem run_firstPoll (idle : p.phase = .idle) (hhash : p.filter.blockHash = none)
    (unsettled : ¬ p.filter.range.Settles) :
    ∃ argument, p.filter.argument .tip = .ok argument ∧
      Running.run Poller.wait { state := p } firstPoll =
        { state := { p with seen := true, phase := .asking argument }, taken := [.log firstEvent] } := by
  obtain ⟨argument, hok, -⟩ := LogFilter.argument_of_range hhash .tip
  have hnoting : ∀ q : Poller, q.filter = p.filter → q.noting firstEvent = q := by
    intro q hq
    have hstays : q.filter.range.observe 0 = q.filter.range := by
      rw [hq]
      exact Tracker.observe_zero_of_unsettled unsettled
    simp [Poller.noting, firstEvent, hstays]
  have habsorb := absorb_firstLog { p with phase := .asking argument }
  rw [hnoting { p with seen := true, phase := .asking argument } rfl] at habsorb
  refine ⟨argument, hok, ?_⟩
  simp [firstPoll, Running.run, Running.meet, Running.poll, Poller.wait, idle, Running.enter, Running.hand,
    habsorb, Poller.proceed, Poller.launch, hok]

/-- The adapter after the connection test: the test passes for a head that is a text, which becomes the cursor. -/
theorem seeded_eq_ok_iff {jobId : String} {addresses : List String} {answer : Except TransportFault Json} :
    (Poller.create flavor jobId addresses).seeded answer = .ok p ↔
      ∃ head, answer = .ok (.text head) ∧ p =
        { Poller.create flavor jobId addresses with
          filter := { (Poller.create flavor jobId addresses).filter with range := ⟨flavor.rangeKind, head⟩ } } := by
  have hkind : (Poller.create flavor jobId addresses).filter.range.kind = flavor.rangeKind := by
    simp [Poller.create, LogFilter.runlog]
  constructor
  · intro h
    unfold Poller.seeded at h
    split at h
    · rename_i head
      refine ⟨head, rfl, (Except.ok.inj h).symm.trans ?_⟩
      rw [← hkind]
      rfl
    · cases h
    · cases h
  · rintro ⟨head, rfl, rfl⟩
    rw [← hkind]
    rfl

/-- **Which heads leave a cursor that moves.** The connection test passes exactly for a head that is a text. After
it, every query that is sent once an event below the last position was handed on begins at a quantity beyond the
event, whatever the node answers, exactly when the head is unset or a tag of the tip, is a quantity, or is read
as zero. -/
theorem later_queries_iff {jobId : String} {addresses : List String} {answer : Except TransportFault Json}
    (accepted : (Poller.create flavor jobId addresses).seeded answer = .ok p) :
    ∃ head, answer = .ok (.text head) ∧
      ((∀ hs, let r := Running.run Poller.wait { state := p } hs
          ∀ query guard next, Poller.wait r.state = .ask query guard next →
            ∀ e n, .log e ∈ r.taken → e.position = some n → n + 1 < Position.bound →
              ∃ lower m, lowerText? flavor.rangeKind query = some lower ∧ Position.Quantity lower m ∧ n < m) ↔
        flavor.rangeKind.isSentinel head = true ∨ (∃ n, Position.Quantity head n) ∨ Position.parse? head = some 0) := by
  obtain ⟨head, hanswer, hp⟩ := seeded_eq_ok_iff.mp accepted
  have hrange : p.filter.range = ⟨flavor.rangeKind, head⟩ := by rw [hp]
  have hhash : p.filter.blockHash = none := by rw [hp]; rfl
  have hidle : p.phase = .idle := by rw [hp]; rfl
  have hsettles : (flavor.rangeKind.isSentinel head = true ∨ (∃ n, Position.Quantity head n) ∨
      Position.parse? head = some 0) ↔ p.filter.range.Settles := by rw [hrange]; rfl
  refine ⟨head, hanswer, ?_⟩
  rw [hsettles]
  constructor
  · intro beyond
    by_contra unsettled
    obtain ⟨argument, hok, hrun⟩ := run_firstPoll hidle hhash unsettled
    have hset : p.filter.range.bound ≠ "" := by
      intro hempty
      refine unsettled (.inl ?_)
      rw [Tracker.isSentinel, hempty]
      rfl
    have hquery := beyond firstPoll
    rw [hrun] at hquery
    obtain ⟨lower, m, hlower, hm, -⟩ := hquery _ _ _ rfl firstEvent 0 List.mem_cons_self rfl (by decide)
    rw [lowerText?_of_argument (by rw [hrange]) hhash hset hok, Option.some.injEq] at hlower
    exact unsettled (.inr (.inl ⟨m, hlower ▸ hm⟩))
  · intro settles hs r query guard next wait e n he hn hlast
    have hmoving : Moving flavor p [] := by
      have hmovable : Movable flavor p [] := ⟨by rw [hrange], hhash, settles, fun e n he => by cases he⟩
      simpa only [Moving, hidle] using hmovable
    exact (moving_run hmoving hs).query wait he hn hlast

/-- A poll that is answered with a log at position 17, and the beat after it. -/
def pollSeventeen : List (Happening Rpc.Call fun _ => Except TransportFault Json) :=
  [.look .timer, .look (.reply fun _ => .ok (.array [plainLog "0x11"])), .look .room, .look .timer]

/-- After the head `0x10` the query after the log begins beyond it. -/
theorem later_queries_iff_sixteen :
    ∃ query lower m, (∃ guard next,
        Poller.wait (Running.run Poller.wait { state := pollerAt "0x10" } pollSeventeen).state = .ask query guard next) ∧
      lowerText? .block query = some lower ∧ Position.Quantity lower m ∧ 17 < m := by
  have accepted : (Poller.create .ethereum "job" []).seeded (.ok (.text "0x10")) = .ok (pollerAt "0x10") := rfl
  obtain ⟨head, hanswer, hiff⟩ := later_queries_iff accepted
  obtain rfl : "0x10" = head := by
    cases hanswer
    rfl
  have quantity : Position.Quantity "0x10" 16 := ⟨'x', ['1', '0'], by decide, .inl rfl, by decide⟩
  have beyond := hiff.mpr (.inr (.inl ⟨16, quantity⟩)) pollSeventeen _ _ _ rfl ⟨"0xoracle", [], [], some 17⟩ 17
    List.mem_cons_self rfl (by decide)
  obtain ⟨lower, m, hlower, hm, hlt⟩ := beyond
  exact ⟨_, lower, m, ⟨_, _, rfl⟩, hlower, hm, hlt⟩

/-- **A head that is no number is taken, and the cursor stays there**: after `pending` the query after a log at
position 17 asks from `pending` again. -/
theorem stuck_head :
    (Poller.create .ethereum "job" []).seeded (.ok (.text "pending")) = .ok (pollerAt "pending") ∧
      ∃ query e, (∃ guard next,
          Poller.wait (Running.run Poller.wait { state := pollerAt "pending" } pollSeventeen).state =
            .ask query guard next) ∧
        (Running.run Poller.wait { state := pollerAt "pending" } pollSeventeen).taken = [.log e] ∧
        e.position = some 17 ∧ lowerText? .block query = some "pending" ∧ ¬ ∃ m, Position.Quantity "pending" m := by
  refine ⟨rfl, _, ⟨"0xoracle", [], [], some 17⟩, ⟨_, _, rfl⟩, rfl, rfl, rfl, ?_⟩
  rintro ⟨m, x, digits, hs, -⟩
  cases hs

end Evm
end OracleRelay
