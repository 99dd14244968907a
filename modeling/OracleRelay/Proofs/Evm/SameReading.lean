/-
# Pushed and polled logs

A log means the same however it comes. A pushed value stands for an event exactly if it does as the only entry of a
reply (`readPushed_eq_ok_iff`), except for a notice that blocks were dropped, which only a subscription carries. The
entries of a reply are read one by one, so none of them affects another (`polled_eq_flatMap`), and what a polling
adapter offers after a reply is what is read from the entries (`run_polled`).

Key definitions: `Evm.IsRevertNotice`, `Evm.polled`.
Key theorems: `Evm.readPushed_eq`, `Evm.polled_eq_filterMap`, `Evm.Poller.run_polled`, `Evm.pushed_as_polled`.
-/
import OracleRelay.Proofs.Evm.Polling
import OracleRelay.Push.Listener

namespace OracleRelay
namespace Evm

open Adapter

/-- A notice that blocks were dropped: an object under whose keys is `revertTo`, on a chain whose subscriptions carry
such notices. -/
def IsRevertNotice (flavor : Flavor) (v : Json) : Prop :=
  flavor = .conflux ∧ ∃ members, v = .object members ∧ "revertTo" ∈ members.map (·.1)

/-- The events that are read from the entries of a reply. -/
def polled (flavor : Flavor) (entries : List Json) : List LogEvent :=
  match readLogs flavor (.array entries) with
  | .ok logs => polledEvents flavor.rangeKind logs
  | .error _ => []

/-! ### Single values -/

theorem isSome_lookup_iff {key : String} : ∀ {members : List (String × Json)},
    (Json.lookup key members).isSome = true ↔ key ∈ members.map (·.1)
  | [] => by simp [Json.lookup]
  | (k, v) :: members => by
    rw [Json.lookup, List.map_cons, List.mem_cons]
    by_cases same : k = key
    · simp [same]
    · rw [if_neg same, isSome_lookup_iff]
      simp [Ne.symm same]

theorem isRevertNotice_iff {flavor : Flavor} {v : Json} :
    IsRevertNotice flavor v ↔ (flavor.hasRevertNotices && (v.get? "revertTo").isSome) = true := by
  have conflux : flavor.hasRevertNotices = true ↔ flavor = .conflux := by
    cases flavor <;> simp [Flavor.hasRevertNotices]
  rw [Bool.and_eq_true, conflux, IsRevertNotice]
  refine and_congr_right fun _ => ?_
  cases v with
  | object members => simp [Json.get?, isSome_lookup_iff]
  | _ => simp [Json.get?]

/-- A pushed value that is no such notice is read as an entry of a reply is: it stands for the same event, and where
that one stands for none it is removed or a fault. -/
theorem readPushed_eq {flavor : Flavor} {v : Json} (log : ¬ IsRevertNotice flavor v) :
    (∃ e, readPushed flavor v = .ok (some e) ∧ eventOf? flavor v = some e) ∨
      ((readPushed flavor v = .ok none ∨ ∃ fault, readPushed flavor v = .error fault) ∧
        eventOf? flavor v = none) := by
  rw [isRevertNotice_iff] at log
  rw [readPushed, if_neg log, eventOf?]
  cases Log.ofValue? flavor v with
  | none => exact .inr ⟨.inr ⟨_, rfl⟩, rfl⟩
  | some log =>
    simp only [Option.bind_some]
    by_cases removed : log.isRemoved = true
    · rw [if_pos removed, if_pos removed]
      exact .inr ⟨.inl rfl, rfl⟩
    · rw [if_neg removed, if_neg removed]
      cases log.event flavor.rangeKind with
      | ok e => exact .inl ⟨e, rfl, rfl⟩
      | error fault => exact .inr ⟨.inr ⟨fault, rfl⟩, rfl⟩

/-! ### Replies -/

/-- The entries of a reply are read one by one. -/
theorem polled_eq_filterMap (flavor : Flavor) (entries : List Json) :
    polled flavor entries = entries.filterMap (eventOf? flavor) :=
  polledEvents_readable entries

theorem polled_eq_flatMap (flavor : Flavor) (entries : List Json) :
    polled flavor entries = entries.flatMap fun v => polled flavor [v] := by
  induction entries with
  | nil => rfl
  | cons v entries ih =>
    rw [List.flatMap_cons, ← ih]
    simp only [polled_eq_filterMap]
    exact List.filterMap_append (l := [v])

theorem polled_singleton_eq_iff {flavor : Flavor} {v : Json} {e : LogEvent} :
    polled flavor [v] = [e] ↔ eventOf? flavor v = some e := by
  rw [polled_eq_filterMap]
  cases h : eventOf? flavor v <;> simp [h]

theorem polled_singleton_eq_nil_iff {flavor : Flavor} {v : Json} :
    polled flavor [v] = [] ↔ eventOf? flavor v = none := by
  rw [polled_eq_filterMap]
  cases h : eventOf? flavor v <;> simp [h]

/-! ### The adapter that polls -/

namespace Poller

variable {r : Running Poller}

/-- A sink with room takes the events of some logs one after the other, and then the next beat is due. -/
theorem run_proceed (n : Nat) (p : Poller) (logs : List Log)
    (count : (polledEvents p.flavor.rangeKind logs).length = n) (going : r.ended = false) (untold : r.told = false)
    (stands : r.state = p.proceed logs) :
    ∃ next : Poller, next.phase = .idle ∧ r.run wait (List.replicate n (.look .room)) =
      { r with state := next, taken := r.taken ++ (polledEvents p.flavor.rangeKind logs).map .log } := by
  induction n generalizing r p logs with
  | zero =>
    rcases p.proceed_cases logs with ⟨silent, ended⟩ | ⟨e, rest, speaks, -⟩
    · refine ⟨p.proceed logs, by rw [ended], ?_⟩
      rw [silent, List.map_nil, List.append_nil, ← stands]
      rfl
    · rw [speaks, List.length_cons] at count
      omega
  | succ n ih =>
    rcases p.proceed_cases logs with ⟨silent, -⟩ | ⟨e, rest, speaks, offers⟩
    · rw [silent, List.length_nil] at count
      omega
    · rw [speaks, List.length_cons, Nat.add_right_cancel_iff] at count
      let handing : Poller := { p.noting e with phase := .handing e rest }
      have flavor : handing.flavor = p.flavor := flavor_noting p e
      have waits : wait r.state = .offer (.log e) (handing.proceed rest) := by
        rw [stands, offers]
        rfl
      have step : r.poll wait .room = r.hand (.log e) (handing.proceed rest) := by
        simp [Running.poll, going, untold, waits]
      obtain ⟨next, idle, rest'⟩ := ih (r := r.hand (.log e) (handing.proceed rest)) handing rest
        (by rw [flavor]; exact count) going untold rfl
      refine ⟨next, idle, ?_⟩
      rw [List.replicate_succ, Running.run_cons, Running.meet, step, rest', flavor, speaks]
      simp [Running.hand]

/-- **An adapter that asked hands on what is read from the entries of the reply.** -/
theorem run_polled {p : Poller} {argument : Json} (going : r.ended = false) (untold : r.told = false)
    (stands : r.state = p) (asking : p.phase = .asking argument) (entries : List Json) :
    ∃ next : Poller, next.phase = .idle ∧
      r.run wait (.look (.reply fun _ => .ok (.array entries)) ::
          List.replicate (polled p.flavor entries).length (.look .room)) =
        { r with state := next, taken := r.taken ++ (polled p.flavor entries).map .log } := by
  have step : r.poll wait (.reply fun _ => .ok (.array entries)) = r.enter (p.absorb (.ok (.array entries))) := by
    simp [Running.poll, going, untold, stands, wait, asking]
  obtain ⟨next, idle, rest⟩ := run_proceed (r := r.enter (p.absorb (.ok (.array entries))))
    (polled p.flavor entries).length { p with seen := true } (entries.filterMap (Log.ofValue? p.flavor)) rfl going
    untold rfl
  refine ⟨next, idle, ?_⟩
  rw [Running.run_cons, Running.meet, step, rest]
  rfl

end Poller

/-- **Push and poll read a log the same way.** A pushed value that is no notice of dropped blocks gives an event exactly
if it gives this event as the only entry of a reply, and gives nothing or a fault exactly if it gives nothing there. A
reply gives what its entries give alone, in their order; this is what a polling adapter hands on after the reply, and
an adapter that listens hands on the same when the entries are pushed. -/
theorem pushed_as_polled (flavor : Flavor) :
    (∀ v, ¬ IsRevertNotice flavor v →
      (∀ e, readPushed flavor v = .ok (some e) ↔ polled flavor [v] = [e]) ∧
      ((readPushed flavor v = .ok none ∨ ∃ fault, readPushed flavor v = .error fault) ↔ polled flavor [v] = []) ∧
      pushedEvents flavor v = (polled flavor [v]).map .log) ∧
    (∀ entries, polled flavor entries = entries.flatMap fun v => polled flavor [v]) ∧
    ∀ (r : Running Poller) argument entries, r.ended = false → r.told = false → r.state.flavor = flavor →
      r.state.phase = .asking argument →
      ∃ next : Poller, next.phase = .idle ∧
        r.run Poller.wait (.look (.reply fun _ => .ok (.array entries)) ::
            List.replicate (polled flavor entries).length (.look .room)) =
          { r with state := next, taken := r.taken ++ (polled flavor entries).map .log } := by
  refine ⟨fun v log => ?_, polled_eq_flatMap flavor, fun r argument entries going untold same asking => ?_⟩
  · rcases readPushed_eq log with ⟨e, pushed, event⟩ | ⟨nothing, event⟩
    · have entry : polled flavor [v] = [e] := polled_singleton_eq_iff.mpr event
      refine ⟨fun e' => ?_, ?_, ?_⟩
      · simp [pushed, entry]
      · simp [pushed, entry]
      · rw [pushedEvents, pushed, entry]
        rfl
    · have entry : polled flavor [v] = [] := polled_singleton_eq_nil_iff.mpr event
      refine ⟨fun e => ?_, iff_of_true nothing entry, ?_⟩
      · rcases nothing with passed | ⟨fault, refused⟩
        · simp [passed, entry]
        · simp [refused, entry]
      · rcases nothing with passed | ⟨fault, refused⟩
        · rw [pushedEvents, passed, entry]
          rfl
        · rw [pushedEvents, refused, entry]
          rfl
  · subst same
    exact Poller.run_polled going untold rfl asking entries

end Evm
end OracleRelay
