/-
# Polling hands on every log once

The cursor of a polling adapter is a text that moves event by event, while the adapter goes through a reply;
what fails or is skipped leaves it. Between two polls it stands behind every event of the ledger up to the tip
of the last reply (`Ahead` with no events left), so the next reply lists what is new and nothing else. Hence
the events that the sink took are the rounds of the ledger from the head that the connection test named
(`Polling.taken_eq`), and these are the events from the head to the last tip, each once.

Key definitions: `Evm.lowerBound?`, `Evm.Fails`, `Evm.Reports`, `Evm.Ahead`, `Evm.Polling`.
Key theorems: `Evm.Polling.proceed`, `Evm.polling_run`, `Evm.exactly_once`.
-/
import OracleRelay.Evm.Poll
import OracleRelay.Proofs.Adapter.Run
import OracleRelay.Proofs.Cursor.LogFilter
import OracleRelay.Proofs.Evm.Ledger

namespace OracleRelay
namespace Evm

open Adapter

/-- A question of a polling adapter with the answer of the node. -/
abbrev Poll : Type := Exchange Rpc.Call fun _ => Except TransportFault Json

variable {flavor : Flavor}

/-! ### What a node answers -/

/-- The position at which a query begins. -/
def lowerBound? (kind : RangeKind) (query : Rpc.Call) : Option Nat :=
  match query.params with
  | [argument] => ((argument.get? kind.fromKey).bind Json.text?).bind Position.parse?
  | _ => none

/-- A poll fails unless the node answers with a list. -/
def Fails (answer : Except TransportFault Json) : Prop := ∀ reply, answer ≠ .ok (.array reply)

/-- The ledgers of a node at the times of the polls that did not fail. Any poll may fail. One that does not
lists all logs from the lower bound of the query to the tip, on a ledger that has grown since the last one. -/
inductive Reports (flavor : Flavor) : List (Ledger flavor) → List Poll → Prop where
  | start : Reports flavor [] []
  | failed {ls : List (Ledger flavor)} {polls : List Poll} (poll : Poll) (before : Reports flavor ls polls)
      (fails : Fails poll.answer) : Reports flavor ls (polls ++ [poll])
  | listed {ls : List (Ledger flavor)} {polls : List Poll} (l : Ledger flavor) (query : Rpc.Call)
      (reply : List Json) (before : Reports flavor ls polls) (grown : ∀ last ∈ ls.getLast?, last.Grows l)
      (lists : ∀ lo, lowerBound? flavor.rangeKind query = some lo → Listing flavor (l.between lo l.tip) reply) :
      Reports flavor (ls ++ [l]) (polls ++ [⟨query, .ok (.array reply)⟩])

theorem Reports.concat_cases {ls : List (Ledger flavor)} {polls : List Poll} {poll : Poll}
    (h : Reports flavor ls (polls ++ [poll])) :
    (Reports flavor ls polls ∧ Fails poll.answer) ∨
      ∃ ls' l reply, ls = ls' ++ [l] ∧ poll.answer = .ok (.array reply) ∧ Reports flavor ls' polls ∧
        (∀ last ∈ ls'.getLast?, last.Grows l) ∧
        ∀ lo, lowerBound? flavor.rangeKind poll.question = some lo → Listing flavor (l.between lo l.tip) reply := by
  generalize hall : polls ++ [poll] = all at h
  cases h with
  | start => simp at hall
  | failed poll' before fails =>
    obtain ⟨rfl, hpoll⟩ := List.append_inj' hall rfl
    cases hpoll
    exact .inl ⟨before, fails⟩
  | listed l query reply before grown lists =>
    obtain ⟨rfl, hpoll⟩ := List.append_inj' hall rfl
    cases hpoll
    exact .inr ⟨_, l, reply, rfl, rfl, before, grown, lists⟩

theorem Reports.eq_nil {ls : List (Ledger flavor)} (h : Reports flavor ls []) : ls = [] := by
  generalize hnil : ([] : List Poll) = polls at h
  cases h with
  | start => rfl
  | _ => simp at hnil

theorem Reports.isChain {ls : List (Ledger flavor)} {polls : List Poll} (h : Reports flavor ls polls) :
    ls.IsChain Ledger.Grows := by
  induction h with
  | start => exact .nil
  | failed _ _ _ ih => exact ih
  | listed l _ _ _ grown _ ih =>
    refine ih.append (.singleton l) fun last hlast l' hl' => ?_
    cases hl'
    exact grown last hlast

/-! ### Moves of the adapter -/

namespace Poller

@[simp] theorem flavor_noting (p : Poller) (e : LogEvent) : (p.noting e).flavor = p.flavor := by
  unfold noting
  split <;> rfl

@[simp] theorem blockHash_noting (p : Poller) (e : LogEvent) :
    (p.noting e).filter.blockHash = p.filter.blockHash := by
  unfold noting
  split <;> rfl

@[simp] theorem kind_noting (p : Poller) (e : LogEvent) :
    (p.noting e).filter.range.kind = p.filter.range.kind := by
  unfold noting
  split <;> simp

theorem parse?_cursor_noting {p : Poller} {e : LogEvent} {c n : Nat} (hc : Position.parse? p.cursor = some c)
    (hn : e.position = some n) (hbound : n + 1 < Position.bound) :
    Position.parse? (p.noting e).cursor = some (max c (n + 1)) := by
  simp only [noting, hn, cursor]
  rw [Tracker.parse?_bound_observe hc, Position.next_eq hbound]

/-- Going on through logs either finds no event in them, or stops at the first one and has noted it. -/
theorem proceed_cases (p : Poller) (logs : List Log) :
    (polledEvents p.flavor.rangeKind logs = [] ∧ p.proceed logs = { p with phase := .idle }) ∨
      ∃ e rest, polledEvents p.flavor.rangeKind logs = e :: polledEvents p.flavor.rangeKind rest ∧
        p.proceed logs = { p.noting e with phase := .handing e rest } := by
  induction logs with
  | nil => exact .inl ⟨rfl, rfl⟩
  | cons log logs ih =>
    unfold proceed
    by_cases hremoved : log.isRemoved = true
    · simpa [polledEvents, hremoved] using ih
    · cases hevent : log.event p.flavor.rangeKind with
      | error fault => simpa [polledEvents, hremoved, hevent, Except.toOption] using ih
      | ok e =>
        refine .inr ⟨e, logs, ?_, ?_⟩
        · simp [polledEvents, hremoved, hevent, Except.toOption]
        · simp [hremoved]

/-- A cursor at a number begins polls with a query from this number on. -/
theorem launch_of_numeric {p : Poller} {c : Nat} (hhash : p.filter.blockHash = none)
    (hc : Position.parse? p.cursor = some c) :
    ∃ argument, p.launch = { p with phase := .asking argument } ∧
      argument.get? p.filter.range.kind.fromKey = some (.text p.cursor) := by
  obtain ⟨argument, hok, hget⟩ := LogFilter.argument_of_numeric hhash hc .tip
  exact ⟨argument, by simp only [launch, hok], hget⟩

theorem of_wait_beat {p next : Poller} (h : wait p = .tick next ∨ ∃ ms, wait p = .pause ms next) :
    p.phase = .idle ∧ next = p.launch := by
  unfold wait at h
  cases hphase : p.phase with
  | idle =>
    simp only [hphase, Wait.tick.injEq, reduceCtorEq, exists_false, or_false] at h
    exact ⟨rfl, h.symm⟩
  | _ => simp [hphase] at h

theorem of_wait_ask {p : Poller} {question : Rpc.Call} {guard : Guard} {go : Except TransportFault Json → Poller}
    (h : wait p = .ask question guard go) :
    ∃ argument, p.phase = .asking argument ∧ question = ⟨p.flavor.methods.getLogs, [argument]⟩ ∧ go = p.absorb := by
  unfold wait at h
  cases hphase : p.phase with
  | asking argument =>
    simp only [hphase] at h
    cases h
    exact ⟨argument, rfl, rfl, rfl⟩
  | _ => simp [hphase] at h

theorem of_wait_offer {p next : Poller} {event : ChainEvent} (h : wait p = .offer event next) :
    ∃ e rest, p.phase = .handing e rest ∧ event = .log e ∧ next = p.proceed rest := by
  unfold wait at h
  cases hphase : p.phase with
  | handing e rest =>
    simp only [hphase] at h
    cases h
    exact ⟨e, rest, rfl, rfl, rfl⟩
  | _ => simp [hphase] at h

end Poller

/-! ### The cursor and the ledger -/

/-- Where an adapter stands that has noted all events of the rounds so far but those that are still ahead of
it, and has handed on those that it noted. -/
structure Ahead (first : Nat) (ls : List (Ledger flavor)) (p : Poller) (ahead : List LogEvent)
    (taken : List ChainEvent) : Prop where
  flavor_eq : p.flavor = flavor
  kind_eq : p.filter.range.kind = flavor.rangeKind
  hash_eq : p.filter.blockHash = none
  handed : taken ++ ahead.map .log = (rounds first ls).map .log
  listed : ∀ e ∈ ahead, ∃ last ∈ ls.getLast?, e ∈ last.events first last.tip
  cursor : ∃ c, Position.parse? p.cursor = some c ∧ first ≤ c ∧ c ≤ frontier first ls ∧
    ∀ last ∈ ls.getLast?, ∀ e ∈ last.events first last.tip, ∀ n, e.position = some n → n < c ∨ e ∈ ahead

/-- What holds of a polling adapter between its moves. An event on offer is noted, but not handed on. -/
def Polling (first : Nat) (ls : List (Ledger flavor)) (p : Poller) (taken : List ChainEvent) : Prop :=
  match p.phase with
  | .idle => Ahead first ls p [] taken
  | .asking argument => Ahead first ls p [] taken ∧ argument.get? flavor.rangeKind.fromKey = some (.text p.cursor)
  | .handing e rest => Ahead first ls p (polledEvents flavor.rangeKind rest) (taken ++ [.log e])

variable {first : Nat} {ls : List (Ledger flavor)} {p : Poller} {taken : List ChainEvent}

/-- Only the flavor and the filter have a part in where an adapter stands. -/
theorem Ahead.of_eq {p' : Poller} {ahead : List LogEvent} (h : Ahead first ls p ahead taken)
    (hflavor : p'.flavor = p.flavor) (hfilter : p'.filter = p.filter) : Ahead first ls p' ahead taken := by
  refine ⟨hflavor.trans h.flavor_eq, ?_, ?_, h.handed, h.listed, ?_⟩
  · rw [hfilter, h.kind_eq]
  · rw [hfilter, h.hash_eq]
  · rw [Poller.cursor, hfilter]
    exact h.cursor

/-- Noting the first of the events ahead moves the cursor behind it, and never beyond the frontier. -/
theorem Ahead.noting {e : LogEvent} {rest : List LogEvent} (hgrow : ls.IsChain Ledger.Grows)
    (h : Ahead first ls p (e :: rest) taken) : Ahead first ls (p.noting e) rest (taken ++ [.log e]) := by
  obtain ⟨c, hc, hfirst, hfront, hahead⟩ := h.cursor
  obtain ⟨last, hlast, hmem⟩ := h.listed e List.mem_cons_self
  obtain ⟨-, n, hn, -, htip⟩ := Ledger.mem_events.mp hmem
  have hbound := Ledger.lt_bound_of_mem_events hmem hn
  refine ⟨by simp [h.flavor_eq], by simp [h.kind_eq], by simp [h.hash_eq], by simpa using h.handed,
    fun e' he' => h.listed e' (List.mem_cons_of_mem _ he'), ?_⟩
  refine ⟨max c (n + 1), Poller.parse?_cursor_noting hc hn hbound, by omega, ?_, ?_⟩
  · have := frontier_eq first hgrow hlast
    omega
  · intro last' hlast' e' he' n' hn'
    rcases hahead last' hlast' e' he' n' hn' with hlt | hin
    · exact .inl (by omega)
    · rcases List.mem_cons.mp hin with rfl | hin
      · rw [hn] at hn'
        cases hn'
        exact .inl (by omega)
      · exact .inr hin

/-- Going on through logs ahead keeps what holds between moves. -/
theorem Polling.proceed {logs : List Log} (hgrow : ls.IsChain Ledger.Grows)
    (h : Ahead first ls p (polledEvents flavor.rangeKind logs) taken) : Polling first ls (p.proceed logs) taken := by
  rcases p.proceed_cases logs with ⟨hnone, hproceed⟩ | ⟨e, rest, hsome, hproceed⟩
  · rw [h.flavor_eq] at hnone
    rw [hnone] at h
    rw [hproceed]
    exact h.of_eq rfl rfl
  · rw [h.flavor_eq] at hsome
    rw [hsome] at h
    rw [hproceed]
    exact (h.noting hgrow).of_eq rfl rfl

/-- A poll begins at the cursor. -/
theorem Polling.launch (h : Ahead first ls p [] taken) : Polling first ls p.launch taken := by
  obtain ⟨c, hc, -⟩ := h.cursor
  obtain ⟨argument, hlaunch, hget⟩ := Poller.launch_of_numeric h.hash_eq hc
  rw [h.kind_eq] at hget
  rw [hlaunch]
  exact ⟨h.of_eq rfl rfl, hget⟩

/-- What a reply lists from the cursor on is what is new since the frontier. -/
theorem Ahead.events_from_cursor {l : Ledger flavor} (hgrow : ls.IsChain Ledger.Grows)
    (grown : ∀ last ∈ ls.getLast?, last.Grows l) {c : Nat} (hfirst : first ≤ c) (hfront : c ≤ frontier first ls)
    (hbehind : ∀ last ∈ ls.getLast?, ∀ e ∈ last.events first last.tip, ∀ n, e.position = some n → n < c) :
    l.events c l.tip = l.events (frontier first ls) l.tip := by
  refine l.events_from hfront fun e he n hn => ?_
  by_contra hlt
  obtain ⟨hentry, n', hn', hc, -⟩ := Ledger.mem_events.mp he
  rw [hn, Option.some.injEq] at hn'
  cases hlast : ls.getLast? with
  | none =>
    rw [List.getLast?_eq_none_iff] at hlast
    subst hlast
    simp only [frontier, List.foldl_nil] at hlt
    omega
  | some last =>
    rw [frontier_eq first hgrow hlast] at hlt
    have hold : e ∈ last.events first last.tip := by
      rw [← Ledger.events_of_grows (grown last hlast) le_rfl]
      exact Ledger.mem_events.mpr ⟨hentry, n, hn, by omega, by omega⟩
    have := hbehind last hlast e hold n hn
    omega

/-- A reply puts ahead of the adapter what its ledger lists from the cursor on. -/
theorem Ahead.round {l : Ledger flavor} (hgrow : ls.IsChain Ledger.Grows)
    (grown : ∀ last ∈ ls.getLast?, last.Grows l) (h : Ahead first ls p [] taken) :
    ∃ c, Position.parse? p.cursor = some c ∧ Ahead first (ls ++ [l]) p (l.events c l.tip) taken := by
  obtain ⟨c, hc, hfirst, hfront, hbehind⟩ := h.cursor
  simp only [List.not_mem_nil, or_false] at hbehind
  have hhanded : taken = (rounds first ls).map .log := by simpa using h.handed
  refine ⟨c, hc, h.flavor_eq, h.kind_eq, h.hash_eq, ?_, ?_, c, hc, hfirst, ?_, ?_⟩
  · rw [rounds_concat, List.map_append, ← hhanded]
    rw [Ahead.events_from_cursor hgrow grown hfirst hfront hbehind]
  · intro e he
    obtain ⟨hentry, n, hn, hcn, htip⟩ := Ledger.mem_events.mp he
    exact ⟨l, List.getLast?_concat, Ledger.mem_events.mpr ⟨hentry, n, hn, by omega, htip⟩⟩
  · rw [frontier_concat]
    omega
  · intro last hlast e he n hn
    rw [List.getLast?_concat] at hlast
    cases hlast
    obtain ⟨hentry, n', hn', -, htip⟩ := Ledger.mem_events.mp he
    rw [hn, Option.some.injEq] at hn'
    rcases Nat.lt_or_ge n c with hlt | hge
    · exact .inl hlt
    · exact .inr (Ledger.mem_events.mpr ⟨hentry, n, hn, hge, by omega⟩)

theorem Polling.taken_prefix (h : Polling first ls p taken) : taken <+: (rounds first ls).map .log := by
  unfold Polling at h
  split at h
  · exact ⟨_, h.handed⟩
  · exact ⟨_, h.1.handed⟩
  · have hhanded := h.handed
    rw [List.append_assoc] at hhanded
    exact ⟨_, hhanded⟩

theorem Polling.taken_eq (h : Polling first ls p taken) (hbetween : ∀ e rest, p.phase ≠ .handing e rest) :
    taken = (rounds first ls).map .log := by
  unfold Polling at h
  split at h
  · simpa using h.handed
  · simpa using h.1.handed
  · rename_i e rest hphase
    exact absurd hphase (hbetween e rest)

/-! ### Runs -/

/-- The connection test puts the cursor to the head. -/
theorem Polling.start {jobId : String} {addresses : List String} {head : String}
    (seeded : (Poller.create flavor jobId addresses).seeded (.ok (.text head)) = .ok p)
    (numeric : Position.parse? head = some first) : Polling first ([] : List (Ledger flavor)) p [] := by
  simp only [Poller.seeded, Poller.create, Except.ok.injEq] at seeded
  subst seeded
  exact ⟨rfl, by simp [LogFilter.runlog], rfl, rfl, by simp, first, numeric, le_rfl, le_rfl, by simp⟩

/-- An answer is taken in: a poll that fails changes nothing, and a reply is gone through from its start. -/
theorem Polling.absorb {argument : Json} {polls : List Poll} {answer : Except TransportFault Json}
    {all : List (Ledger flavor)}
    (ih : ∀ ls : List (Ledger flavor), Reports flavor ls polls → Polling first ls p taken)
    (hphase : p.phase = .asking argument)
    (reports : Reports flavor all (polls ++ [⟨⟨p.flavor.methods.getLogs, [argument]⟩, answer⟩])) :
    Polling first all (p.absorb answer) taken := by
  rcases reports.concat_cases with ⟨before, fails⟩ | ⟨ls, l, reply, rfl, hreply, before, grown, lists⟩
  · have hpolling := ih all before
    unfold Polling at hpolling
    rw [hphase] at hpolling
    have hidle : p.absorb answer = { p with phase := .idle } := by
      unfold Poller.absorb
      cases answer with
      | error fault => rfl
      | ok v => cases v with
        | array reply => exact absurd rfl (fails reply)
        | _ => rfl
    rw [hidle]
    exact hpolling.1.of_eq rfl rfl
  · have hpolling := ih ls before
    unfold Polling at hpolling
    rw [hphase] at hpolling
    obtain ⟨hahead, hquery⟩ := hpolling
    obtain ⟨c, hc, hround⟩ := hahead.round (l := l) before.isChain grown
    have hlower : lowerBound? flavor.rangeKind ⟨p.flavor.methods.getLogs, [argument]⟩ = some c := by
      simp [lowerBound?, hquery, Json.text?, hc]
    have hevents : polledEvents flavor.rangeKind (reply.filterMap (Log.ofValue? flavor)) = l.events c l.tip := by
      rw [polledEvents_readable, (lists c hlower).filterMap_eventOf?]
      rfl
    simp only at hreply
    subst hreply
    have hread : readLogs p.flavor (.array reply) = .ok (reply.filterMap (Log.ofValue? flavor)) := by
      rw [hahead.flavor_eq]
      rfl
    simp only [Poller.absorb, hread]
    refine Polling.proceed reports.isChain ?_
    rw [hevents]
    exact hround.of_eq rfl rfl

/-- What holds between moves holds after every run. -/
theorem polling_run {jobId : String} {addresses : List String} {head : String}
    (seeded : (Poller.create flavor jobId addresses).seeded (.ok (.text head)) = .ok p)
    (numeric : Position.parse? head = some first) (hs : List (Happening Rpc.Call fun _ => Except TransportFault Json))
    (reports : Reports flavor ls (Running.exchanges Poller.wait { state := p } hs)) :
    Polling first ls (Running.run Poller.wait { state := p } hs).state
      (Running.run Poller.wait { state := p } hs).taken := by
  revert ls
  apply Running.run_invariant (r := { state := p }) Poller.wait
    (P := fun polls s taken => ∀ {ls : List (Ledger flavor)}, Reports flavor ls polls → Polling first ls s taken)
  · intro ls reports
    rw [reports.eq_nil]
    exact Polling.start seeded numeric
  · intro polls s taken next ih wait ls reports
    obtain ⟨hphase, rfl⟩ := Poller.of_wait_beat wait
    have hpolling := ih reports
    simp only [Polling, hphase] at hpolling
    exact Polling.launch hpolling
  · intro polls s taken question guard next answer ih wait all reports
    obtain ⟨argument, hphase, rfl, rfl⟩ := Poller.of_wait_ask wait
    exact Polling.absorb (fun _ => ih) hphase reports
  · intro polls s taken event next ih wait ls reports
    obtain ⟨e, rest, hphase, rfl, rfl⟩ := Poller.of_wait_offer wait
    have hpolling := ih reports
    simp only [Polling, hphase] at hpolling
    exact Polling.proceed reports.isChain hpolling

/-- **Each log once.** Whatever the polls of an adapter that was started at a head meet with, the sink has
taken events of the rounds in their order, and between two polls all of them. The rounds together are the
events of the ledger from the head to the tip of the last poll that did not fail, each once. -/
theorem exactly_once {jobId : String} {addresses : List String} {head : String}
    (seeded : (Poller.create flavor jobId addresses).seeded (.ok (.text head)) = .ok p)
    (numeric : Position.parse? head = some first) (hs : List (Happening Rpc.Call fun _ => Except TransportFault Json))
    (reports : Reports flavor ls (Running.exchanges Poller.wait { state := p } hs)) :
    let r := Running.run Poller.wait { state := p } hs
    r.taken <+: (rounds first ls).map .log ∧
      ((∀ e rest, r.state.phase ≠ .handing e rest) → r.taken = (rounds first ls).map .log) ∧
      ∀ last ∈ ls.getLast?, (rounds first ls).Perm (last.events first last.tip) := by
  intro r
  have hpolling := polling_run seeded numeric hs reports
  exact ⟨hpolling.taken_prefix, hpolling.taken_eq, fun last hlast => rounds_perm first reports.isChain hlast⟩

/-! ### A run -/

/-- A log without data at a position. -/
def plainLog (position : String) : Json := .object [("address", .text "0xoracle"), ("blockNumber", .text position)]

/-- A ledger with one log, at position 17. -/
def oneLog : Ledger .ethereum where
  entries := [plainLog "0x11"]
  tip := 18
  positioned v hv := by
    rw [List.mem_singleton] at hv
    subst hv
    exact ⟨17, rfl, by decide⟩

/-- The same ledger with a second log, at position 20. -/
def twoLogs : Ledger .ethereum where
  entries := oneLog.entries ++ [plainLog "0x14"]
  tip := 20
  positioned v hv := by
    rcases List.mem_append.mp hv with hv | hv
    · exact oneLog.positioned v hv
    · rw [List.mem_singleton] at hv
      subst hv
      exact ⟨20, rfl, by decide⟩

theorem oneLog_grows : oneLog.Grows twoLogs := by
  refine Ledger.grows_of_append (by decide) rfl fun v hv n hn => ?_
  rw [List.mem_singleton] at hv
  subst hv
  have h20 : positionOf? .ethereum (plainLog "0x14") = some 20 := rfl
  cases h20.symm.trans hn
  decide

/-- An adapter whose node named a head. -/
def pollerAt (head : String) : Poller :=
  let p := Poller.create .ethereum "job" []
  { p with filter := { p.filter with range := p.filter.range.seed head } }

/-- The query of this adapter. -/
def queryAt (head : String) : Rpc.Call := ⟨"eth_getLogs", ((pollerAt head).filter.argument .tip).toOption.toList⟩

theorem lowerBound?_queryAt {head : String} {n : Nat} (h : Position.parse? head = some n) :
    lowerBound? .block (queryAt head) = some n := by
  obtain ⟨argument, hok, hget⟩ := LogFilter.argument_of_numeric (f := (pollerAt head).filter) rfl h .tip
  have hget' : argument.get? RangeKind.block.fromKey = some (.text head) := hget
  simp [queryAt, hok, Except.toOption, lowerBound?, hget', Json.text?, h]

/-- A poll that fails, one whose reply lists the first log behind an entry that is no log, and one whose reply
lists the second. -/
def threePolls : List (Happening Rpc.Call fun _ => Except TransportFault Json) :=
  [.look .timer, .look (.reply fun _ => .error (.http "refused")),
    .look .timer, .look (.reply fun _ => .ok (.array [.null, plainLog "0x11"])), .look .room,
    .look .timer, .look (.reply fun _ => .ok (.array [plainLog "0x14"])), .look .room]

theorem exactly_once_twoLogs :
    (Running.run Poller.wait { state := pollerAt "0x10" } threePolls).taken = (twoLogs.events 16 20).map .log ∧
      (twoLogs.events 16 20).length = 2 := by
  have numeric : Position.parse? "0x10" = some 16 := by decide
  have failed : Reports .ethereum [] [⟨queryAt "0x10", .error (.http "refused")⟩] :=
    .failed ⟨queryAt "0x10", .error (.http "refused")⟩ .start (by simp [Fails])
  have first : Reports .ethereum [oneLog] [⟨queryAt "0x10", .error (.http "refused")⟩,
      ⟨queryAt "0x10", .ok (.array [.null, plainLog "0x11"])⟩] := by
    refine .listed oneLog (queryAt "0x10") _ failed (by simp) fun lo hlo => ?_
    cases (lowerBound?_queryAt numeric).symm.trans hlo
    exact .noise .null (.unreadable rfl) (.log _ .nil)
  have reports : Reports .ethereum [oneLog, twoLogs]
      (Running.exchanges Poller.wait { state := pollerAt "0x10" } threePolls) := by
    refine .listed twoLogs (queryAt (Position.encode 18)) _ first ?_ fun lo hlo => ?_
    · intro last hlast
      cases hlast
      exact oneLog_grows
    · cases (lowerBound?_queryAt (Position.parse?_encode (by decide))).symm.trans hlo
      exact .log _ .nil
  have seeded : (Poller.create .ethereum "job" []).seeded (.ok (.text "0x10")) = .ok (pollerAt "0x10") := rfl
  obtain ⟨-, hall, -⟩ := exactly_once seeded numeric threePolls reports
  refine ⟨?_, rfl⟩
  rw [hall fun e rest h => by cases h]
  rfl

end Evm
end OracleRelay
