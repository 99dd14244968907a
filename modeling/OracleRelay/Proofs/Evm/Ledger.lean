/-
# The logs of a node

A node keeps its logs in order, each at a position, and knows how far the chain has come. A reply to a query
lists logs of the ledger in their order; between them may stand entries that stand for no event. What an
adapter should hand on is the events of the ledger between two positions (`Ledger.events`), reply after reply
from where the last one ended (`rounds`): together these are the events of the whole stretch, each once
(`rounds_perm`).

Key definitions: `Evm.positionOf?`, `Evm.eventOf?`, `Evm.Skipped`, `Evm.Ledger`, `Evm.Ledger.events`,
`Evm.Ledger.Grows`, `Evm.Listing`, `Evm.rounds`.
Key theorems: `Evm.Listing.filterMap_eventOf?`, `Evm.Ledger.events_split`, `Evm.rounds_perm`.
-/
import Mathlib.Data.List.Chain
import Mathlib.Data.List.Induction
import OracleRelay.Evm.Log
import OracleRelay.Cursor.Position

namespace OracleRelay
namespace Evm

open scoped List

variable {flavor : Flavor}

/-! ### Entries -/

/-- The position of an entry of a reply. -/
def positionOf? (flavor : Flavor) (v : Json) : Option Nat :=
  (Log.ofValue? flavor v).bind (·.position flavor.rangeKind)

/-- The event that an entry of a reply stands for. -/
def eventOf? (flavor : Flavor) (v : Json) : Option LogEvent :=
  (Log.ofValue? flavor v).bind fun log =>
    if log.isRemoved then none else (log.event flavor.rangeKind).toOption

/-- An entry that stands for no event. -/
inductive Skipped (flavor : Flavor) (v : Json) : Prop where
  | unreadable (read : Log.ofValue? flavor v = none)
  | removed (log : Log) (read : Log.ofValue? flavor v = some log) (removed : log.isRemoved = true)
  | undecodable (log : Log) (fault : Hex.Fault) (read : Log.ofValue? flavor v = some log)
      (decode : Hex.decode (Hex.stripMark log.data) = .error fault)

theorem eventOf?_of_skipped {v : Json} (h : Skipped flavor v) : eventOf? flavor v = none := by
  cases h with
  | unreadable read => simp [eventOf?, read]
  | removed log read removed => simp [eventOf?, read, removed]
  | undecodable log fault read decode =>
    simp only [eventOf?, read, Option.bind_some, Log.event, decode, Except.toOption, ite_self]

theorem position_of_eventOf? {v : Json} {e : LogEvent} (h : eventOf? flavor v = some e) :
    e.position = positionOf? flavor v := by
  unfold eventOf? at h
  obtain ⟨log, read, h⟩ := Option.bind_eq_some_iff.mp h
  simp only [Log.event] at h
  split at h
  · cases h
  · split at h <;> simp only [Except.toOption, reduceCtorEq, Option.some.injEq] at h
    subst h
    simp [positionOf?, read]

/-- The events that are polled are those of the entries that can be read. -/
theorem polledEvents_readable (vs : List Json) :
    polledEvents flavor.rangeKind (vs.filterMap (Log.ofValue? flavor)) = vs.filterMap (eventOf? flavor) :=
  List.filterMap_filterMap

/-! ### Ledgers -/

/-- The logs of a node in their order, and how far the chain has come. Every log has a position, and none has
the last one that there is. -/
structure Ledger (flavor : Flavor) where
  entries : List Json
  tip : Nat
  positioned : ∀ v ∈ entries, ∃ n, positionOf? flavor v = some n ∧ n + 1 < Position.bound

namespace Ledger

/-- The logs from one position to another, both included. -/
def between (l : Ledger flavor) (lo hi : Nat) : List Json :=
  l.entries.filter fun v => (positionOf? flavor v).any fun n => decide (lo ≤ n ∧ n ≤ hi)

/-- The events from one position to another: one for each log that is not removed and can be decoded. -/
def events (l : Ledger flavor) (lo hi : Nat) : List LogEvent := (l.between lo hi).filterMap (eventOf? flavor)

/-- What a ledger may become once its tip was named: it grows beyond the tip, and the tip only moves on. -/
structure Grows (old new : Ledger flavor) : Prop where
  tip_le : old.tip ≤ new.tip
  kept : new.between 0 old.tip = old.between 0 old.tip

/-- A ledger to whose end logs beyond the tip are added has grown. -/
theorem grows_of_append {old new : Ledger flavor} {more : List Json} (tip_le : old.tip ≤ new.tip)
    (entries : new.entries = old.entries ++ more)
    (beyond : ∀ v ∈ more, ∀ n, positionOf? flavor v = some n → old.tip < n) : old.Grows new := by
  refine ⟨tip_le, ?_⟩
  unfold between
  rw [entries, List.filter_append, List.append_right_eq_self, List.filter_eq_nil_iff]
  intro v hv
  cases hn : positionOf? flavor v with
  | none => simp
  | some n =>
    have := beyond v hv n hn
    simp only [Option.any_some, decide_eq_true_eq, not_and, not_le]
    omega

theorem mem_between {l : Ledger flavor} {lo hi : Nat} {v : Json} :
    v ∈ l.between lo hi ↔ v ∈ l.entries ∧ ∃ n, positionOf? flavor v = some n ∧ lo ≤ n ∧ n ≤ hi := by
  simp [between, Option.any_eq_true]

/-- A stretch of a stretch. -/
theorem between_filter (l : Ledger flavor) {lo hi lo' hi' : Nat} (hlo : lo ≤ lo') (hhi : hi' ≤ hi) :
    (l.between lo hi).filter (fun v => (positionOf? flavor v).any fun n => decide (lo' ≤ n ∧ n ≤ hi')) =
      l.between lo' hi' := by
  unfold between
  rw [List.filter_filter]
  refine List.filter_congr fun v _ => ?_
  cases positionOf? flavor v with
  | none => rfl
  | some n =>
    simp only [Option.any_some, Bool.and_eq_decide, decide_eq_true_eq, decide_eq_decide]
    omega

/-- The events of a stretch are those whose position lies in it. -/
theorem mem_events {l : Ledger flavor} {lo hi : Nat} {e : LogEvent} :
    e ∈ l.events lo hi ↔
      (∃ v ∈ l.entries, eventOf? flavor v = some e) ∧ ∃ n, e.position = some n ∧ lo ≤ n ∧ n ≤ hi := by
  simp only [events, List.mem_filterMap, mem_between]
  constructor
  · rintro ⟨v, ⟨hv, n, hn, hrange⟩, he⟩
    exact ⟨⟨v, hv, he⟩, n, (position_of_eventOf? he).trans hn, hrange⟩
  · rintro ⟨⟨v, hv, he⟩, n, hn, hrange⟩
    exact ⟨v, ⟨hv, n, (position_of_eventOf? he).symm.trans hn, hrange⟩, he⟩

/-- No event of a ledger has the last position that there is. -/
theorem lt_bound_of_mem_events {l : Ledger flavor} {lo hi n : Nat} {e : LogEvent} (h : e ∈ l.events lo hi)
    (hn : e.position = some n) : n + 1 < Position.bound := by
  obtain ⟨⟨v, hv, he⟩, -⟩ := mem_events.mp h
  obtain ⟨n', hn', hbound⟩ := l.positioned v hv
  rw [position_of_eventOf? he, hn', Option.some.injEq] at hn
  omega

/-- What lies up to a tip that was named stays as it was. -/
theorem events_of_grows {old new : Ledger flavor} (h : old.Grows new) {lo hi : Nat} (hhi : hi ≤ old.tip) :
    new.events lo hi = old.events lo hi := by
  unfold events
  rw [← between_filter new (Nat.zero_le lo) hhi, ← between_filter old (Nat.zero_le lo) hhi, h.kept]

/-- A lower bound may be moved on as long as no event is passed over. -/
theorem events_from (l : Ledger flavor) {lo lo' hi : Nat} (hlo : lo ≤ lo')
    (hnone : ∀ e ∈ l.events lo hi, ∀ n, e.position = some n → lo' ≤ n) : l.events lo hi = l.events lo' hi := by
  unfold events at hnone ⊢
  rw [← between_filter l hlo le_rfl, List.filterMap_filter]
  refine List.filterMap_congr fun v hv => ?_
  cases he : eventOf? flavor v with
  | none => simp
  | some e =>
    obtain ⟨-, n, hn, -, hhi⟩ := mem_between.mp hv
    have hle := hnone e (List.mem_filterMap.mpr ⟨v, hv, he⟩) n ((position_of_eventOf? he).trans hn)
    simp [hn, hle, hhi]

/-- Two stretches that meet hold the events of both together. -/
theorem events_split (l : Ledger flavor) {lo mid hi : Nat} (hmid : mid ≤ hi) :
    (l.events lo mid ++ l.events (max lo (mid + 1)) hi).Perm (l.events lo hi) := by
  have hrest : l.between (max lo (mid + 1)) hi =
      (l.between lo hi).filter fun v => !(positionOf? flavor v).any fun n => decide (lo ≤ n ∧ n ≤ mid) := by
    rw [← between_filter l (le_max_left lo (mid + 1)) le_rfl]
    refine List.filter_congr fun v hv => ?_
    obtain ⟨-, n, hn, hlo, hhi⟩ := mem_between.mp hv
    simp only [hn, Option.any_some, ← decide_not, decide_eq_decide]
    omega
  unfold events
  rw [← List.filterMap_append, hrest, ← between_filter l le_rfl hmid]
  exact (List.filter_append_perm _ _).filterMap _

end Ledger

/-! ### Replies -/

/-- A reply lists logs of a ledger in their order, and entries that stand for no event anywhere between them. -/
inductive Listing (flavor : Flavor) : List Json → List Json → Prop where
  | nil : Listing flavor [] []
  | log {logs reply : List Json} (v : Json) (rest : Listing flavor logs reply) :
      Listing flavor (v :: logs) (v :: reply)
  | noise {logs reply : List Json} (v : Json) (skipped : Skipped flavor v) (rest : Listing flavor logs reply) :
      Listing flavor logs (v :: reply)

theorem Listing.filterMap_eventOf? {logs reply : List Json} (h : Listing flavor logs reply) :
    reply.filterMap (eventOf? flavor) = logs.filterMap (eventOf? flavor) := by
  induction h with
  | nil => rfl
  | log v _ ih => rw [List.filterMap_cons, List.filterMap_cons, ih]
  | noise v skipped _ ih => rw [List.filterMap_cons_none (eventOf?_of_skipped skipped), ih]

/-! ### Rounds -/

/-- The position from which the round after some others goes on. -/
def frontier (lo : Nat) (ls : List (Ledger flavor)) : Nat := ls.foldl (fun lo l => max lo (l.tip + 1)) lo

/-- The events of a ledger as it stood time after time, each time from where the time before ended. -/
def rounds (lo : Nat) : List (Ledger flavor) → List LogEvent
  | [] => []
  | l :: ls => l.events lo l.tip ++ rounds (max lo (l.tip + 1)) ls

theorem rounds_concat (lo : Nat) (ls : List (Ledger flavor)) (l : Ledger flavor) :
    rounds lo (ls ++ [l]) = rounds lo ls ++ l.events (frontier lo ls) l.tip := by
  induction ls generalizing lo with
  | nil => simp [rounds, frontier]
  | cons l' ls ih => simp only [List.cons_append, rounds, ih, List.append_assoc, frontier, List.foldl_cons]

theorem frontier_concat (lo : Nat) (ls : List (Ledger flavor)) (l : Ledger flavor) :
    frontier lo (ls ++ [l]) = max (frontier lo ls) (l.tip + 1) := by
  simp [frontier]

/-- With a tip that only moves on, a round goes on behind the last tip. -/
theorem frontier_eq (lo : Nat) {ls : List (Ledger flavor)} (hgrow : ls.IsChain Ledger.Grows) {last : Ledger flavor}
    (hlast : ls.getLast? = some last) : frontier lo ls = max lo (last.tip + 1) := by
  induction ls using List.reverseRecOn generalizing last with
  | nil => cases hlast
  | append_singleton ls l ih =>
    rw [List.getLast?_concat, Option.some.injEq] at hlast
    subst hlast
    obtain ⟨hinit, -, hlink⟩ := List.isChain_append.mp hgrow
    rw [frontier_concat]
    cases hprev : ls.getLast? with
    | none =>
      rw [List.getLast?_eq_none_iff] at hprev
      simp [hprev, frontier]
    | some prev =>
      have htip := (hlink prev hprev l rfl).tip_le
      rw [ih hinit hprev]
      omega

/-- **The rounds together are the whole stretch, each event once.** -/
theorem rounds_perm (lo : Nat) {ls : List (Ledger flavor)} (hgrow : ls.IsChain Ledger.Grows) {last : Ledger flavor}
    (hlast : ls.getLast? = some last) : (rounds lo ls).Perm (last.events lo last.tip) := by
  induction ls using List.reverseRecOn generalizing last with
  | nil => cases hlast
  | append_singleton ls l ih =>
    rw [List.getLast?_concat, Option.some.injEq] at hlast
    subst hlast
    obtain ⟨hinit, -, hlink⟩ := List.isChain_append.mp hgrow
    rw [rounds_concat]
    cases hprev : ls.getLast? with
    | none =>
      rw [List.getLast?_eq_none_iff] at hprev
      simp [hprev, frontier, rounds]
    | some prev =>
      have hgrows := hlink prev hprev l rfl
      rw [frontier_eq lo hinit hprev]
      calc rounds lo ls ++ l.events (max lo (prev.tip + 1)) l.tip
          ~ prev.events lo prev.tip ++ l.events (max lo (prev.tip + 1)) l.tip :=
            (ih hinit hprev).append_right _
        _ = l.events lo prev.tip ++ l.events (max lo (prev.tip + 1)) l.tip := by
            rw [Ledger.events_of_grows hgrows le_rfl]
        _ ~ l.events lo l.tip := l.events_split hgrows.tip_le

end Evm
end OracleRelay
