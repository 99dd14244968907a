/-
# What is read back from a store

Subscriptions are kept by job and endpoints by name. To store a subscription is to put it in the place of the first one
for its job, and to drop a job is to drop all of its subscriptions; other jobs are left as they are. The store of a
snapshot has the last endpoint of each name.

Key definitions: `Store.subscriptionsOf`.
Key theorems: `Store.subscriptionsOf_saveSubscription`, `Store.hasJob_saveSubscription`,
`Store.hasJob_deleteSubscription`, `Store.endpoint?_ofSnapshot_eq_ok_iff`.
-/
import Mathlib.Data.List.Basic
import OracleRelay.Config.Store

namespace OracleRelay

/-- Without the entries of one key, the entries of any other key are still there. -/
theorem any_filter_ne {α κ : Type} [DecidableEq κ] (key : α → κ) (l : List α) (k k' : κ) :
    (l.filter (key · ≠ k)).any (key · = k') = (l.any (key · = k') && decide (k ≠ k')) := by
  rw [List.any_filter]
  induction l with
  | nil => rfl
  | cons a l ih =>
    rw [List.any_cons, List.any_cons, ih, Bool.and_or_distrib_right]
    congr 1
    by_cases ha : key a = k'
    · rw [ha, decide_eq_decide.mpr ne_comm, Bool.and_comm]
    · rw [decide_eq_false ha, Bool.and_false, Bool.false_and]

namespace Store

/-! ### Subscriptions -/

/-- The stored subscriptions for a job, in their order. -/
def subscriptionsOf (store : Store) (jobId : String) : List Subscription :=
  store.subscriptions.filter (·.jobId = jobId)

theorem hasJob_iff {store : Store} {jobId : String} :
    store.hasJob jobId = true ↔ ∃ s ∈ store.subscriptions, s.jobId = jobId := by
  simp [hasJob]

theorem hasJob_saveSubscription (store : Store) (s : Subscription) (jobId : String) :
    (store.saveSubscription s).hasJob jobId = (store.hasJob jobId || decide (s.jobId = jobId)) := by
  simp only [hasJob, saveSubscription]
  induction store.subscriptions with
  | nil => simp [putSubscription]
  | cons t ts ih =>
    unfold putSubscription
    by_cases ht : t.jobId = s.jobId
    · rw [if_pos ht, List.any_cons, List.any_cons, ht]
      cases decide (s.jobId = jobId) <;> simp
    · rw [if_neg ht, List.any_cons, List.any_cons, ih, Bool.or_assoc]

theorem hasJob_deleteSubscription {store store' : Store} {jobId' : String}
    (h : store.deleteSubscription jobId' = .ok store') (jobId : String) :
    store'.hasJob jobId = (store.hasJob jobId && decide (jobId' ≠ jobId)) := by
  unfold deleteSubscription at h
  split at h
  · cases h
    exact any_filter_ne (·.jobId) store.subscriptions jobId' jobId
  · cases h

theorem hasJob_of_not_deleted {store : Store} {jobId : String} {fault : StoreFault}
    (h : store.deleteSubscription jobId = .error fault) : store.hasJob jobId = false := by
  unfold deleteSubscription at h
  split at h
  · cases h
  · rename_i hjob
    exact Bool.eq_false_iff.mpr hjob

theorem filter_putSubscription_self (s : Subscription) : ∀ l : List Subscription,
    (putSubscription s l).filter (·.jobId = s.jobId) = s :: (l.filter (·.jobId = s.jobId)).tail
  | [] => by simp [putSubscription]
  | t :: ts => by
    have ih := filter_putSubscription_self s ts
    unfold putSubscription
    by_cases ht : t.jobId = s.jobId
    · rw [if_pos ht, List.filter_cons_of_pos (by simp), List.filter_cons_of_pos (by simpa using ht), List.tail_cons]
    · rw [if_neg ht, List.filter_cons_of_neg (by simpa using ht), List.filter_cons_of_neg (by simpa using ht), ih]

theorem filter_putSubscription_ne {s : Subscription} {jobId : String} (h : s.jobId ≠ jobId) :
    ∀ l : List Subscription, (putSubscription s l).filter (·.jobId = jobId) = l.filter (·.jobId = jobId)
  | [] => by simp [putSubscription, h]
  | t :: ts => by
    have ih := filter_putSubscription_ne h ts
    unfold putSubscription
    by_cases ht : t.jobId = s.jobId
    · have hjob : t.jobId ≠ jobId := ht ▸ h
      rw [if_pos ht, List.filter_cons_of_neg (by simpa using h), List.filter_cons_of_neg (by simpa using hjob)]
    · rw [if_neg ht, List.filter_cons, List.filter_cons, ih]

/-- **A stored subscription takes the place of the first one for its job**, and other jobs are left as they are. -/
theorem subscriptionsOf_saveSubscription (store : Store) (s : Subscription) (jobId : String) :
    (store.saveSubscription s).subscriptionsOf jobId =
      if s.jobId = jobId then s :: (store.subscriptionsOf jobId).tail else store.subscriptionsOf jobId := by
  by_cases h : s.jobId = jobId
  · subst h
    rw [if_pos rfl]
    exact filter_putSubscription_self s store.subscriptions
  · rw [if_neg h]
    exact filter_putSubscription_ne h store.subscriptions

/-- To drop a job leaves other jobs as they are. -/
theorem subscriptionsOf_deleteSubscription {store store' : Store} {jobId' : String}
    (h : store.deleteSubscription jobId' = .ok store') (jobId : String) :
    store'.subscriptionsOf jobId = if jobId' = jobId then [] else store.subscriptionsOf jobId := by
  unfold deleteSubscription at h
  split at h
  · cases h
    unfold subscriptionsOf
    rw [List.filter_filter]
    by_cases hjob : jobId' = jobId
    · rw [if_pos hjob, List.filter_eq_nil_iff]
      intro s _
      simp only [Bool.and_eq_true, decide_eq_true_eq, not_and, not_not]
      exact fun hs => hs.trans hjob.symm
    · rw [if_neg hjob]
      refine List.filter_congr fun s _ => ?_
      by_cases hs : s.jobId = jobId
      · have hne : jobId ≠ jobId' := fun heq => hjob heq.symm
        simp [hs, hne]
      · simp [hs]
  · cases h

theorem endpoints_deleteSubscription {store store' : Store} {jobId : String}
    (h : store.deleteSubscription jobId = .ok store') : store'.endpoints = store.endpoints := by
  unfold deleteSubscription at h
  split at h <;> cases h
  rfl

/-! ### Endpoints -/

theorem find?_putEndpoint (e : Endpoint) (name : String) : ∀ es : List Endpoint,
    (putEndpoint e es).find? (·.name = name) = if e.name = name then some e else es.find? (·.name = name)
  | [] => by
    by_cases h : e.name = name <;> simp [putEndpoint, h]
  | d :: ds => by
    have ih := find?_putEndpoint e name ds
    unfold putEndpoint
    by_cases hd : d.name = e.name
    · rw [if_pos hd, List.find?_cons, List.find?_cons, hd]
      by_cases h : e.name = name <;> simp [h]
    · rw [if_neg hd, List.find?_cons, List.find?_cons, ih]
      by_cases h : e.name = name
      · have hne : d.name ≠ name := fun heq => hd (heq.trans h.symm)
        simp [h, hne]
      · simp [h]

theorem find?_foldl_putEndpoint (name : String) : ∀ es acc : List Endpoint,
    (es.foldl (fun es e => putEndpoint e es) acc).find? (·.name = name) =
      (es.reverse.find? (·.name = name)).or (acc.find? (·.name = name))
  | [], _ => rfl
  | e :: es, acc => by
    rw [List.foldl_cons, find?_foldl_putEndpoint name es, find?_putEndpoint, List.reverse_cons, List.find?_append,
      Option.or_assoc]
    by_cases h : e.name = name <;> simp [h]

/-- **The store of a snapshot has the last endpoint of each name.** -/
theorem endpoint?_ofSnapshot_eq_ok_iff {snap : Snapshot} {name : String} {e : Endpoint} :
    (ofSnapshot snap).endpoint? name = .ok e ↔ snap.endpoints.reverse.find? (·.name = name) = some e := by
  have hfind : (ofSnapshot snap).endpoints.find? (·.name = name) = snap.endpoints.reverse.find? (·.name = name) := by
    have hfold := find?_foldl_putEndpoint name snap.endpoints []
    rwa [List.find?_nil, Option.or_none] at hfold
  unfold endpoint?
  rw [hfind]
  cases snap.endpoints.reverse.find? (·.name = name) <;> simp

end Store
end OracleRelay
