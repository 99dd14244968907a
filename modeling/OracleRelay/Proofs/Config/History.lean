/-
# A store after a history

What is done to a store is read as a history that begins with what the snapshot gives. A key is a job or the name of
an endpoint. What a store holds under a key is told by the last act on the key (`Store.LastOn`), and where a job
stands among the others by the act that first added it since it was last dropped (`Store.AddedAt`). For endpoints this
is so whatever the history is. A snapshot may give a job twice, and then the store keeps both subscriptions until the
job is dropped: a job reads as a key exactly if the snapshot does not repeat it or it was dropped since
(`Store.keyed_unless_repeated`).

Key definitions: `Store.Act`, `Store.Key`, `Store.Act.Touches`, `Store.run`, `Snapshot.acts`, `Store.LastOn`,
`Store.Present`, `Store.AddedAt`, `Store.Mirrors`.
Key theorems: `Store.Mirrors.act`, `Store.mirrors_run`, `Store.length_subscriptionsOf_run`,
`Store.keyed_unless_repeated`, `Store.repeated_listed_twice`.
-/
import Mathlib.Data.List.Induction
import OracleRelay.Proofs.Config.Store

namespace OracleRelay
namespace Store

/-! ### Histories -/

/-- What can be done to a store. -/
inductive Act where
  | save (s : Subscription)
  | drop (jobId : String)
  | saveEndpoint (e : Endpoint)
  /-- drops the endpoints with other names -/
  | keepEndpoints (names : List String)

/-- What a store is asked for. -/
inductive Key where
  | job (jobId : String)
  | endpoint (name : String)

/-- An act gives something new under a key, or drops what is there. -/
def Act.Touches : Act → Key → Prop
  | .save s, .job jobId => s.jobId = jobId
  | .drop jobId', .job jobId => jobId' = jobId
  | .saveEndpoint e, .endpoint name => e.name = name
  | .keepEndpoints names, .endpoint name => name ∉ names
  | _, _ => False

/-- The store after an act. What the store refuses leaves it as it is. -/
def act (store : Store) : Act → Store
  | .save s => store.saveSubscription s
  | .drop jobId => (store.deleteSubscription jobId).toOption.getD store
  | .saveEndpoint e => store.saveEndpoint e
  | .keepEndpoints names => store.keepEndpoints names

/-- The store after some acts in order. -/
def run (store : Store) (acts : List Act) : Store := acts.foldl act store

end Store

/-- What a snapshot gives, as acts on an empty store. -/
def Snapshot.acts (snap : Snapshot) : List Store.Act :=
  snap.endpoints.map .saveEndpoint ++ snap.subscriptions.map .save

namespace Store

/-- The act touches the key, and none after it does. -/
def LastOn (key : Key) (a : Act) (history : List Act) : Prop :=
  a.Touches key ∧ ∃ before after, history = before ++ a :: after ∧ ∀ b ∈ after, ¬ b.Touches key

/-- A subscription was given for the job, and the job was not dropped since. -/
def Present (jobId : String) (history : List Act) : Prop :=
  ∃ before s after, history = before ++ .save s :: after ∧ s.jobId = jobId ∧ .drop jobId ∉ after

/-- The act at this place gave a subscription for the job, which was not there before it and was not dropped since. -/
def AddedAt (jobId : String) (history : List Act) (place : Nat) : Prop :=
  ∃ before s after, history = before ++ .save s :: after ∧ s.jobId = jobId ∧ .drop jobId ∉ after ∧
    before.length = place ∧ ¬ Present jobId before

/-- A place in a history that has one more act is the last one or a place from before. -/
theorem concat_eq_split_iff {α : Type} {l before after : List α} {a x : α} :
    l ++ [a] = before ++ x :: after ↔
      (l = before ∧ a = x ∧ after = []) ∨ ∃ rest, after = rest ++ [a] ∧ l = before ++ x :: rest := by
  rcases List.eq_nil_or_concat after with rfl | ⟨rest, b, rfl⟩
  · simp
  · have hsplit : before ++ x :: (rest ++ [b]) = before ++ x :: rest ++ [b] := by simp
    rw [List.concat_eq_append, hsplit, List.append_singleton_inj]
    refine ⟨fun ⟨hl, ha⟩ => .inr ⟨rest, by rw [ha], hl⟩, ?_⟩
    rintro (⟨-, -, hnil⟩ | ⟨rest', hrest, hl⟩)
    · simp at hnil
    · obtain ⟨rfl, hb⟩ := List.append_singleton_inj.mp hrest
      exact ⟨hl, hb.symm⟩

variable {history : List Act} {jobId : String}

theorem lastOn_concat {key : Key} {a b : Act} :
    LastOn key a (history ++ [b]) ↔ a.Touches key ∧ (b = a ∨ LastOn key a history ∧ ¬ b.Touches key) := by
  refine ⟨fun ⟨ha, before, after, heq, hafter⟩ => ⟨ha, ?_⟩, fun ⟨ha, h⟩ => ⟨ha, ?_⟩⟩
  · rcases concat_eq_split_iff.mp heq with ⟨-, rfl, -⟩ | ⟨rest, rfl, rfl⟩
    · exact .inl rfl
    · exact .inr ⟨⟨ha, before, rest, rfl, fun c hc => hafter c (by simp [hc])⟩, hafter b (by simp)⟩
  · rcases h with rfl | ⟨⟨-, before, after, rfl, hafter⟩, hb⟩
    · exact ⟨history, [], rfl, by simp⟩
    · refine ⟨before, after ++ [b], by simp, fun c hc => ?_⟩
      rcases List.mem_append.mp hc with hc | hc
      · exact hafter c hc
      · rwa [List.mem_singleton.mp hc]

theorem present_concat {b : Act} :
    Present jobId (history ++ [b]) ↔
      (∃ s, b = .save s ∧ s.jobId = jobId) ∨ (Present jobId history ∧ b ≠ .drop jobId) := by
  refine ⟨fun ⟨before, s, after, heq, hs, hafter⟩ => ?_, fun h => ?_⟩
  · rcases concat_eq_split_iff.mp heq with ⟨-, rfl, -⟩ | ⟨rest, rfl, rfl⟩
    · exact .inl ⟨s, rfl, hs⟩
    · rw [List.mem_append, not_or, List.mem_singleton] at hafter
      exact .inr ⟨⟨before, s, rest, rfl, hs, hafter.1⟩, Ne.symm hafter.2⟩
  · rcases h with ⟨s, rfl, hs⟩ | ⟨⟨before, s, after, rfl, hs, hafter⟩, hb⟩
    · exact ⟨history, s, [], rfl, hs, by simp⟩
    · exact ⟨before, s, after ++ [b], by simp, hs, by simp [hafter, Ne.symm hb]⟩

theorem addedAt_concat {b : Act} {place : Nat} :
    AddedAt jobId (history ++ [b]) place ↔
      (AddedAt jobId history place ∧ b ≠ .drop jobId) ∨
        ((∃ s, b = .save s ∧ s.jobId = jobId) ∧ place = history.length ∧ ¬ Present jobId history) := by
  refine ⟨fun ⟨before, s, after, heq, hs, hafter, hplace, hnew⟩ => ?_, fun h => ?_⟩
  · rcases concat_eq_split_iff.mp heq with ⟨rfl, rfl, -⟩ | ⟨rest, rfl, rfl⟩
    · exact .inr ⟨⟨s, rfl, hs⟩, hplace.symm, hnew⟩
    · rw [List.mem_append, not_or, List.mem_singleton] at hafter
      exact .inl ⟨⟨before, s, rest, rfl, hs, hafter.1, hplace, hnew⟩, Ne.symm hafter.2⟩
  · rcases h with ⟨⟨before, s, after, rfl, hs, hafter, hplace, hnew⟩, hb⟩ | ⟨⟨s, rfl, hs⟩, hplace, hnew⟩
    · exact ⟨before, s, after ++ [b], by simp, hs, by simp [hafter, Ne.symm hb], hplace, hnew⟩
    · exact ⟨history, s, [], rfl, hs, by simp, hplace.symm, hnew⟩

theorem AddedAt.present {place : Nat} (h : AddedAt jobId history place) : Present jobId history := by
  obtain ⟨before, s, after, heq, hs, hafter, -, -⟩ := h
  exact ⟨before, s, after, heq, hs, hafter⟩

theorem AddedAt.place_lt {place : Nat} (h : AddedAt jobId history place) : place < history.length := by
  obtain ⟨before, s, after, rfl, -, -, rfl, -⟩ := h
  simp

/-- The last act on a job that is present gave a subscription. -/
theorem Present.exists_last (h : Present jobId history) : ∃ s, LastOn (.job jobId) (.save s) history := by
  induction history using List.reverseRecOn with
  | nil =>
    obtain ⟨before, s, after, heq, -⟩ := h
    simp at heq
  | append_singleton history b ih =>
    rcases present_concat.mp h with ⟨s, rfl, hs⟩ | ⟨hpresent, hb⟩
    · exact ⟨s, lastOn_concat.mpr ⟨hs, .inl rfl⟩⟩
    · obtain ⟨s, hs⟩ := ih hpresent
      by_cases htouch : b.Touches (.job jobId)
      · cases b with
        | save t => exact ⟨t, lastOn_concat.mpr ⟨htouch, .inl rfl⟩⟩
        | drop jobId' => exact absurd (congrArg Act.drop htouch) hb
        | saveEndpoint e => exact htouch.elim
        | keepEndpoints names => exact htouch.elim
      · exact ⟨s, lastOn_concat.mpr ⟨hs.1, .inr ⟨hs, htouch⟩⟩⟩

theorem present_iff_exists_addedAt : Present jobId history ↔ ∃ place, AddedAt jobId history place := by
  refine ⟨fun h => ?_, fun ⟨_, h⟩ => h.present⟩
  induction history using List.reverseRecOn with
  | nil =>
    obtain ⟨before, s, after, heq, -⟩ := h
    simp at heq
  | append_singleton history b ih =>
    by_cases hold : Present jobId history
    · obtain ⟨place, hplace⟩ := ih hold
      refine ⟨place, addedAt_concat.mpr (.inl ⟨hplace, ?_⟩)⟩
      rintro rfl
      rcases present_concat.mp h with ⟨s, hs, -⟩ | ⟨-, hne⟩
      · cases hs
      · exact hne rfl
    · rcases present_concat.mp h with hs | ⟨hpresent, -⟩
      · exact ⟨history.length, addedAt_concat.mpr (.inr ⟨hs, rfl, hold⟩)⟩
      · exact absurd hpresent hold

/-! ### The listed jobs -/

/-- The jobs of the stored subscriptions, in their order. -/
def jobs (store : Store) : List String := store.subscriptions.map (·.jobId)

theorem mem_subscriptionsOf {store : Store} {s : Subscription} :
    s ∈ store.subscriptionsOf jobId ↔ s ∈ store.subscriptions ∧ s.jobId = jobId := by
  simp [subscriptionsOf]

theorem subscriptionsOf_eq_nil_iff {store : Store} : store.subscriptionsOf jobId = [] ↔ jobId ∉ store.jobs := by
  simp [subscriptionsOf, jobs, List.filter_eq_nil_iff]

theorem hasJob_iff_mem_jobs {store : Store} : store.hasJob jobId = true ↔ jobId ∈ store.jobs := by
  rw [hasJob_iff, jobs, List.mem_map]

theorem map_jobId_putSubscription (s : Subscription) : ∀ l : List Subscription,
    (putSubscription s l).map (·.jobId) =
      if s.jobId ∈ l.map (·.jobId) then l.map (·.jobId) else l.map (·.jobId) ++ [s.jobId]
  | [] => rfl
  | t :: ts => by
    have ih := map_jobId_putSubscription s ts
    unfold putSubscription
    by_cases ht : t.jobId = s.jobId
    · simp [ht]
    · rw [if_neg ht, List.map_cons, ih, List.map_cons]
      by_cases hmem : s.jobId ∈ ts.map (·.jobId)
      · rw [if_pos hmem, if_pos (List.mem_cons_of_mem _ hmem)]
      · rw [if_neg hmem, if_neg (List.not_mem_cons_of_ne_of_not_mem (Ne.symm ht) hmem), List.cons_append]

theorem putSubscription_of_new {s : Subscription} : ∀ {l : List Subscription}, (∀ t ∈ l, t.jobId ≠ s.jobId) →
    putSubscription s l = l ++ [s]
  | [], _ => rfl
  | t :: ts, h => by
    obtain ⟨ht, hts⟩ := List.forall_mem_cons.mp h
    rw [putSubscription, if_neg ht, putSubscription_of_new hts, List.cons_append]

theorem mem_putSubscription_self (s : Subscription) : ∀ l : List Subscription, s ∈ putSubscription s l
  | [] => List.mem_singleton.mpr rfl
  | t :: ts => by
    unfold putSubscription
    split
    · exact List.mem_cons_self
    · exact List.mem_cons_of_mem _ (mem_putSubscription_self s ts)

theorem mem_putSubscription_of_ne {s t : Subscription} {l : List Subscription} (ht : t ∈ l) (hne : s.jobId ≠ t.jobId) :
    t ∈ putSubscription s l := by
  have hmem : t ∈ (putSubscription s l).filter (·.jobId = t.jobId) := by
    rw [filter_putSubscription_ne hne]
    simpa using ht
  exact (List.mem_filter.mp hmem).1

/-- A dropped job leaves the store as if it had never been there; without it nothing is dropped. -/
theorem subscriptions_act_drop (store : Store) (jobId : String) :
    (store.act (.drop jobId)).subscriptions = store.subscriptions.filter (·.jobId ≠ jobId) := by
  unfold act deleteSubscription
  by_cases h : store.hasJob jobId = true
  · simp [h, Except.toOption]
  · have hnone : ∀ s ∈ store.subscriptions, s.jobId ≠ jobId := by
      intro s hs hjob
      exact h (hasJob_iff.mpr ⟨s, hs, hjob⟩)
    have hall : store.subscriptions.filter (·.jobId ≠ jobId) = store.subscriptions :=
      List.filter_eq_self.mpr fun s hs => by simpa using hnone s hs
    simp only [h, Bool.false_eq_true, ↓reduceIte, Except.toOption, Option.getD_none]
    exact hall.symm

theorem endpoints_act_drop (store : Store) (jobId : String) :
    (store.act (.drop jobId)).endpoints = store.endpoints := by
  cases h : store.deleteSubscription jobId with
  | ok store' =>
    simp only [act, h]
    exact endpoints_deleteSubscription h
  | error fault => simp only [act, h, Except.toOption, Option.getD_none]

theorem jobs_act_drop (store : Store) (jobId : String) :
    (store.act (.drop jobId)).jobs = store.jobs.filter (· ≠ jobId) := by
  unfold jobs
  rw [subscriptions_act_drop, List.filter_map]
  rfl

/-- To leave one thing out does not change which of two others comes first. -/
theorem idxOf_lt_idxOf_filter {α : Type} [DecidableEq α] {a b c : α} (ha : a ≠ c) (hb : b ≠ c) : ∀ l : List α,
    ((l.filter (· ≠ c)).idxOf a < (l.filter (· ≠ c)).idxOf b ↔ l.idxOf a < l.idxOf b)
  | [] => by simp
  | x :: l => by
    have ih := idxOf_lt_idxOf_filter ha hb l
    by_cases hx : x = c
    · subst hx
      rw [List.filter_cons_of_neg (by simp), List.idxOf_cons_ne _ (Ne.symm ha), List.idxOf_cons_ne _ (Ne.symm hb), ih]
      omega
    · rw [List.filter_cons_of_pos (by simpa using hx)]
      by_cases hxb : x = b
      · rw [hxb, List.idxOf_cons_self, List.idxOf_cons_self]
        omega
      · rw [List.idxOf_cons_ne _ hxb, List.idxOf_cons_ne _ hxb]
        by_cases hxa : x = a
        · rw [hxa, List.idxOf_cons_self, List.idxOf_cons_self]
          omega
        · rw [List.idxOf_cons_ne _ hxa, List.idxOf_cons_ne _ hxa]
          omega

theorem find?_keepEndpoints (store : Store) (names : List String) (name : String) :
    (store.keepEndpoints names).endpoints.find? (·.name = name) =
      if name ∈ names then store.endpoints.find? (·.name = name) else none := by
  unfold keepEndpoints
  rw [List.find?_filter]
  by_cases hname : name ∈ names
  · rw [if_pos hname]
    congr 1
    funext e
    by_cases he : e.name = name <;> simp [he, hname]
  · rw [if_neg hname, List.find?_eq_none]
    intro e _
    by_cases he : e.name = name <;> simp [he, hname]

/-! ### What a history tells of a store -/

/-- What a history tells of a store: the jobs that it lists, in which order they stand, that the subscription
given last for a job is there, and the endpoint under each name. -/
structure Mirrors (history : List Act) (store : Store) : Prop where
  listed : ∀ jobId, jobId ∈ store.jobs ↔ Present jobId history
  ordered : ∀ i j m n, AddedAt i history m → AddedAt j history n → (store.jobs.idxOf i < store.jobs.idxOf j ↔ m < n)
  last : ∀ jobId s, LastOn (.job jobId) (.save s) history → s ∈ store.subscriptions
  endpoint : ∀ name e, store.endpoints.find? (·.name = name) = some e ↔
    LastOn (.endpoint name) (.saveEndpoint e) history

namespace Mirrors

variable {store : Store}

/-- A subscription at the end of the list. -/
theorem append (h : Mirrors history store) (s : Subscription) :
    Mirrors (history ++ [.save s]) { store with subscriptions := store.subscriptions ++ [s] } := by
  have hjobs : jobs { store with subscriptions := store.subscriptions ++ [s] } = store.jobs ++ [s.jobId] := by
    simp [jobs]
  refine ⟨fun jobId => ?_, fun i j m n hi hj => ?_, fun jobId t ht => ?_, fun name e => ?_⟩
  · rw [hjobs, present_concat, List.mem_append, List.mem_singleton, h.listed]
    simp [or_comm, eq_comm]
  · rw [hjobs, List.idxOf_append, List.idxOf_append]
    have hends : ∀ {k place}, AddedAt k (history ++ [.save s]) place →
        (k ∈ store.jobs ∧ AddedAt k history place) ∨ (k = s.jobId ∧ place = history.length ∧ k ∉ store.jobs) := by
      intro k place hk
      rcases addedAt_concat.mp hk with ⟨hk, -⟩ | ⟨⟨t, ht, hjob⟩, hplace, hnew⟩
      · exact .inl ⟨(h.listed k).mpr hk.present, hk⟩
      · cases ht
        exact .inr ⟨hjob.symm, hplace, fun hmem => hnew ((h.listed k).mp hmem)⟩
    -- a job that is new stands behind all that are there
    rcases hends hi with ⟨hmemi, hi⟩ | ⟨rfl, rfl, hnewi⟩ <;> rcases hends hj with ⟨hmemj, hj⟩ | ⟨rfl, rfl, hnewj⟩
    · rw [if_pos hmemi, if_pos hmemj]
      exact h.ordered i j m n hi hj
    · rw [if_pos hmemi, if_neg hnewj]
      have hlt := List.idxOf_lt_length_iff.mpr hmemi
      exact iff_of_true (by omega) hi.place_lt
    · rw [if_neg hnewi, if_pos hmemj]
      have hlt := List.idxOf_lt_length_iff.mpr hmemj
      have hplace := hj.place_lt
      exact iff_of_false (by omega) (by omega)
    · simp
  · obtain ⟨htouch, heq | ⟨ht, -⟩⟩ := lastOn_concat.mp ht
    · cases heq
      simp
    · exact List.mem_append_left _ (h.last jobId t ht)
  · rw [h.endpoint, lastOn_concat]
    exact ⟨fun hlast => ⟨hlast.1, .inr ⟨hlast, id⟩⟩, fun ⟨_, hlast⟩ => hlast.elim nofun (·.1)⟩

theorem appendAll (h : Mirrors history store) (subs : List Subscription) :
    Mirrors (history ++ subs.map .save) { store with subscriptions := store.subscriptions ++ subs } := by
  induction subs generalizing history store with
  | nil => simpa using h
  | cons s subs ih =>
    have hrest := ih (h.append s)
    rw [List.append_assoc, List.append_assoc] at hrest
    exact hrest

/-- A subscription for a job that is listed. -/
theorem replace (h : Mirrors history store) {s : Subscription} (hmem : s.jobId ∈ store.jobs) :
    Mirrors (history ++ [.save s]) (store.saveSubscription s) := by
  have hjobs : (store.saveSubscription s).jobs = store.jobs :=
    (map_jobId_putSubscription s store.subscriptions).trans (if_pos hmem)
  refine ⟨fun jobId => ?_, fun i j m n hi hj => ?_, fun jobId t ht => ?_, fun name e => ?_⟩
  · rw [hjobs, present_concat, h.listed]
    refine ⟨fun hp => .inr ⟨hp, nofun⟩, fun hp => ?_⟩
    rcases hp with ⟨t, ht, hjob⟩ | ⟨hp, -⟩
    · cases ht
      exact hjob ▸ (h.listed _).mp hmem
    · exact hp
  · have hold : ∀ {k place}, AddedAt k (history ++ [.save s]) place → AddedAt k history place := by
      intro k place hk
      rcases addedAt_concat.mp hk with ⟨hk, -⟩ | ⟨⟨t, ht, hjob⟩, -, hnew⟩
      · exact hk
      · cases ht
        exact absurd (hjob ▸ (h.listed _).mp hmem) hnew
    rw [hjobs]
    exact h.ordered i j m n (hold hi) (hold hj)
  · obtain ⟨htouch, heq | ⟨ht, hne⟩⟩ := lastOn_concat.mp ht
    · cases heq
      exact mem_putSubscription_self s _
    · have hjob : t.jobId = jobId := htouch
      exact mem_putSubscription_of_ne (h.last jobId t ht) fun heq => hne (heq.trans hjob)
  · show store.endpoints.find? _ = some e ↔ _
    rw [h.endpoint, lastOn_concat]
    exact ⟨fun hlast => ⟨hlast.1, .inr ⟨hlast, id⟩⟩, fun ⟨_, hlast⟩ => hlast.elim nofun (·.1)⟩

theorem save (h : Mirrors history store) (s : Subscription) :
    Mirrors (history ++ [.save s]) (store.saveSubscription s) := by
  by_cases hmem : s.jobId ∈ store.jobs
  · exact h.replace hmem
  · have hnew : ∀ t ∈ store.subscriptions, t.jobId ≠ s.jobId := fun t ht heq =>
      hmem (heq ▸ List.mem_map.mpr ⟨t, ht, rfl⟩)
    rw [saveSubscription, putSubscription_of_new hnew]
    exact h.append s

theorem drop (h : Mirrors history store) (jobId : String) :
    Mirrors (history ++ [.drop jobId]) (store.act (.drop jobId)) := by
  refine ⟨fun k => ?_, fun i j m n hi hj => ?_, fun k t ht => ?_, fun name e => ?_⟩
  · rw [jobs_act_drop, List.mem_filter, h.listed, present_concat]
    rw [decide_eq_true_eq]
    refine ⟨fun ⟨hk, hne⟩ => .inr ⟨hk, fun heq => hne (Act.drop.inj heq).symm⟩, fun hk => ?_⟩
    rcases hk with ⟨t, ht, -⟩ | ⟨hk, hne⟩
    · cases ht
    · exact ⟨hk, fun heq => hne (congrArg Act.drop heq.symm)⟩
  · have hold : ∀ {k place}, AddedAt k (history ++ [.drop jobId]) place → AddedAt k history place ∧ k ≠ jobId := by
      intro k place hk
      rcases addedAt_concat.mp hk with ⟨hk, hne⟩ | ⟨⟨t, ht, -⟩, -⟩
      · exact ⟨hk, fun heq => hne (congrArg Act.drop heq.symm)⟩
      · cases ht
    obtain ⟨hi, hnei⟩ := hold hi
    obtain ⟨hj, hnej⟩ := hold hj
    rw [jobs_act_drop, idxOf_lt_idxOf_filter hnei hnej]
    exact h.ordered i j m n hi hj
  · obtain ⟨htouch, heq | ⟨ht, hne⟩⟩ := lastOn_concat.mp ht
    · cases heq
    · have hjob : t.jobId = k := htouch
      rw [subscriptions_act_drop, List.mem_filter, decide_eq_true_eq]
      exact ⟨h.last k t ht, fun heq => hne (heq.symm.trans hjob)⟩
  · rw [endpoints_act_drop, h.endpoint, lastOn_concat]
    exact ⟨fun hlast => ⟨hlast.1, .inr ⟨hlast, id⟩⟩, fun ⟨_, hlast⟩ => hlast.elim nofun (·.1)⟩

/-- An act on endpoints leaves the jobs. -/
theorem endpoints (h : Mirrors history store) {a : Act} (silent : ∀ jobId, ¬ a.Touches (.job jobId))
    {es : List Endpoint} (hes : ∀ name e, es.find? (·.name = name) = some e ↔
      LastOn (.endpoint name) (.saveEndpoint e) (history ++ [a])) :
    Mirrors (history ++ [a]) { store with endpoints := es } := by
  have hsave : ∀ s, a ≠ .save s := fun s heq => silent s.jobId (heq ▸ rfl)
  have hdrop : ∀ jobId, a ≠ .drop jobId := fun jobId heq => silent jobId (heq ▸ rfl)
  have hold : ∀ {k place}, AddedAt k (history ++ [a]) place → AddedAt k history place := by
    intro k place hk
    rcases addedAt_concat.mp hk with ⟨hk, -⟩ | ⟨⟨t, ht, -⟩, -⟩
    · exact hk
    · exact absurd ht (hsave t)
  refine ⟨fun k => ?_, fun i j m n hi hj => h.ordered i j m n (hold hi) (hold hj), fun k t ht => ?_, hes⟩
  · rw [present_concat]
    exact (h.listed k).trans
      ⟨fun hk => .inr ⟨hk, hdrop k⟩, fun hk => hk.elim (fun ⟨t, ht, _⟩ => absurd ht (hsave t)) (·.1)⟩
  · obtain ⟨-, heq | ⟨ht, -⟩⟩ := lastOn_concat.mp ht
    · exact absurd heq (hsave t)
    · exact h.last k t ht

theorem saveEndpoint (h : Mirrors history store) (e : Endpoint) :
    Mirrors (history ++ [.saveEndpoint e]) (store.saveEndpoint e) := by
  refine h.endpoints (fun _ => id) fun name d => ?_
  rw [find?_putEndpoint, lastOn_concat, ← h.endpoint]
  by_cases he : e.name = name
  · rw [if_pos he]
    constructor
    · intro hd
      cases hd
      exact ⟨he, .inl rfl⟩
    · rintro ⟨-, heq | ⟨-, hne⟩⟩
      · cases heq
        rfl
      · exact absurd he hne
  · rw [if_neg he]
    constructor
    · intro hd
      exact ⟨((h.endpoint name d).mp hd).1, .inr ⟨hd, he⟩⟩
    · rintro ⟨hd, heq | ⟨hfind, -⟩⟩
      · cases heq
        exact absurd hd he
      · exact hfind

theorem keepEndpoints (h : Mirrors history store) (names : List String) :
    Mirrors (history ++ [.keepEndpoints names]) (store.keepEndpoints names) := by
  refine h.endpoints (fun _ => id) fun name e => ?_
  show (store.keepEndpoints names).endpoints.find? _ = some e ↔ _
  rw [find?_keepEndpoints, lastOn_concat, ← h.endpoint]
  by_cases hname : name ∈ names
  · rw [if_pos hname]
    constructor
    · intro he
      exact ⟨((h.endpoint name e).mp he).1, .inr ⟨he, not_not_intro hname⟩⟩
    · rintro ⟨-, heq | ⟨hfind, -⟩⟩
      · cases heq
      · exact hfind
  · rw [if_neg hname]
    refine iff_of_false nofun ?_
    rintro ⟨-, heq | ⟨-, hne⟩⟩
    · cases heq
    · exact hne hname

/-- Each act keeps what the history tells. -/
theorem act (h : Mirrors history store) (a : Act) : Mirrors (history ++ [a]) (store.act a) := by
  cases a with
  | save s => exact h.save s
  | drop jobId => exact h.drop jobId
  | saveEndpoint e => exact h.saveEndpoint e
  | keepEndpoints names => exact h.keepEndpoints names

theorem run (h : Mirrors history store) (acts : List Act) : Mirrors (history ++ acts) (store.run acts) := by
  induction acts generalizing history store with
  | nil => rwa [List.append_nil]
  | cons a acts ih =>
    rw [List.append_cons]
    exact ih (h.act a)

end Mirrors

theorem mirrors_empty : Mirrors [] {} := by
  have hnone : ∀ {before after : List Act} {a : Act}, [] ≠ before ++ a :: after := by simp
  refine ⟨fun jobId => iff_of_false nofun ?_, ?_, ?_, fun name e => iff_of_false nofun ?_⟩
  · rintro ⟨before, s, after, heq, -⟩
    exact hnone heq
  · rintro i j m n ⟨before, s, after, heq, -⟩
    exact absurd heq hnone
  · rintro jobId s ⟨-, before, after, heq, -⟩
    exact absurd heq hnone
  · rintro ⟨-, before, after, heq, -⟩
    exact hnone heq

theorem run_saveEndpoints (es : List Endpoint) (store : Store) : store.run (es.map .saveEndpoint) =
    { store with endpoints := es.foldl (fun es e => putEndpoint e es) store.endpoints } := by
  induction es generalizing store with
  | nil => rfl
  | cons e es ih => exact ih (store.saveEndpoint e)

/-- **What the history tells of the store of a snapshot**, with acts on it or without, and with repeated jobs or
without. -/
theorem mirrors_run (snap : Snapshot) (acts : List Act) :
    Mirrors (snap.acts ++ acts) ((ofSnapshot snap).run acts) := by
  have hendpoints := mirrors_empty.run (snap.endpoints.map .saveEndpoint)
  rw [List.nil_append, run_saveEndpoints] at hendpoints
  exact (hendpoints.appendAll snap.subscriptions).run acts

/-! ### One key among the others -/

/-- **An act leaves the jobs that it does not touch.** -/
theorem subscriptionsOf_act {a : Act} (store : Store) (h : ¬ a.Touches (.job jobId)) :
    (store.act a).subscriptionsOf jobId = store.subscriptionsOf jobId := by
  cases a with
  | save s => exact (subscriptionsOf_saveSubscription store s jobId).trans (if_neg h)
  | drop jobId' =>
    unfold subscriptionsOf
    rw [subscriptions_act_drop, List.filter_filter]
    refine List.filter_congr fun s _ => ?_
    by_cases hs : s.jobId = jobId
    · have hne : s.jobId ≠ jobId' := fun heq => h (heq.symm.trans hs)
      rw [decide_eq_true hne, Bool.and_true]
    · rw [decide_eq_false hs, Bool.false_and]
  | saveEndpoint e => rfl
  | keepEndpoints names => rfl

/-- **An act leaves the endpoints that it does not touch.** -/
theorem endpoint?_act {a : Act} {name : String} (store : Store) (h : ¬ a.Touches (.endpoint name)) :
    (store.act a).endpoint? name = store.endpoint? name := by
  have hfind : (store.act a).endpoints.find? (·.name = name) = store.endpoints.find? (·.name = name) := by
    cases a with
    | save s => rfl
    | drop jobId => rw [endpoints_act_drop]
    | saveEndpoint e => exact (find?_putEndpoint e name store.endpoints).trans (if_neg h)
    | keepEndpoints names => exact (find?_keepEndpoints store names name).trans (if_pos (not_not.mp h))
  unfold endpoint?
  rw [hfind]

theorem subscriptionsOf_run {acts : List Act} (h : ∀ a ∈ acts, ¬ a.Touches (.job jobId)) (store : Store) :
    (store.run acts).subscriptionsOf jobId = store.subscriptionsOf jobId := by
  induction acts generalizing store with
  | nil => rfl
  | cons a acts ih =>
    obtain ⟨ha, hacts⟩ := List.forall_mem_cons.mp h
    exact (ih hacts (store.act a)).trans (subscriptionsOf_act store ha)

/-! ### Jobs that a snapshot repeats -/

theorem subscriptionsOf_act_drop_self (store : Store) (jobId : String) :
    (store.act (.drop jobId)).subscriptionsOf jobId = [] := by
  rw [subscriptionsOf_eq_nil_iff, jobs_act_drop]
  simp

/-- What a store lists for a job behind the first entry stays until the job is dropped. -/
theorem tail_subscriptionsOf_run {acts : List Act} (h : .drop jobId ∉ acts) (store : Store) :
    ((store.run acts).subscriptionsOf jobId).tail = (store.subscriptionsOf jobId).tail := by
  induction acts generalizing store with
  | nil => rfl
  | cons a acts ih =>
    rw [List.mem_cons, not_or] at h
    refine (ih h.2 (store.act a)).trans ?_
    by_cases htouch : a.Touches (.job jobId)
    · cases a with
      | save s =>
        have hjob : s.jobId = jobId := htouch
        rw [act, subscriptionsOf_saveSubscription, if_pos hjob, List.tail_cons]
      | drop jobId' => exact absurd (congrArg Act.drop htouch).symm h.1
      | saveEndpoint e => exact htouch.elim
      | keepEndpoints names => exact htouch.elim
    · rw [subscriptionsOf_act store htouch]

/-- A new subscription for a job takes the place of the first entry. -/
theorem subscriptionsOf_run_of_last {acts : List Act} (hdrop : .drop jobId ∉ acts) {s : Subscription}
    (h : LastOn (.job jobId) (.save s) acts) (store : Store) :
    (store.run acts).subscriptionsOf jobId = s :: (store.subscriptionsOf jobId).tail := by
  obtain ⟨htouch, before, after, rfl, hafter⟩ := h
  have hjob : s.jobId = jobId := htouch
  have hbefore : .drop jobId ∉ before := fun hmem => hdrop (List.mem_append_left _ hmem)
  have hsplit : store.run (before ++ .save s :: after) = (((store.run before).saveSubscription s).run after) := by
    rw [run, List.foldl_append]
    rfl
  rw [hsplit, subscriptionsOf_run hafter, subscriptionsOf_saveSubscription, if_pos hjob,
    tail_subscriptionsOf_run hbefore]

/-- A store lists a job more than once exactly if it did so before and the job was not dropped. -/
theorem length_subscriptionsOf_run (acts : List Act) (store : Store) (jobId : String) :
    ((store.run acts).subscriptionsOf jobId).length ≤ 1 ↔
      (store.subscriptionsOf jobId).length ≤ 1 ∨ .drop jobId ∈ acts := by
  induction acts generalizing store with
  | nil => simp [run]
  | cons a acts ih =>
    refine (ih (store.act a)).trans ?_
    rw [List.mem_cons]
    by_cases htouch : a.Touches (.job jobId)
    · cases a with
      | save s =>
        have hjob : s.jobId = jobId := htouch
        rw [act, subscriptionsOf_saveSubscription, if_pos hjob, List.length_cons, List.length_tail]
        refine or_congr ⟨fun hle => by omega, fun hle => by omega⟩ ⟨.inr, fun hmem => hmem.resolve_left nofun⟩
      | drop jobId' =>
        have hjob : jobId' = jobId := htouch
        subst hjob
        rw [subscriptionsOf_act_drop_self]
        exact iff_of_true (.inl (Nat.zero_le _)) (.inr (.inl rfl))
      | saveEndpoint e => exact htouch.elim
      | keepEndpoints names => exact htouch.elim
    · have hne : .drop jobId ≠ a := by
        rintro rfl
        exact htouch rfl
      rw [subscriptionsOf_act store htouch]
      exact or_congr_right ⟨.inr, fun hmem => hmem.resolve_left hne⟩

/-- Where a job is listed at most once, its entry is the subscription given last; else it is not one entry. -/
theorem Mirrors.single_iff {store : Store} (h : Mirrors history store) (jobId : String) :
    (∀ s, store.subscriptionsOf jobId = [s] ↔ LastOn (.job jobId) (.save s) history) ↔
      (store.subscriptionsOf jobId).length ≤ 1 := by
  have hlast : ∀ s, LastOn (.job jobId) (.save s) history → s ∈ store.subscriptionsOf jobId := fun s hs =>
    mem_subscriptionsOf.mpr ⟨h.last jobId s hs, hs.1⟩
  have hexists : store.subscriptionsOf jobId ≠ [] → ∃ s, LastOn (.job jobId) (.save s) history := fun hne =>
    ((h.listed jobId).mp (not_not.mp fun hmem => hne (subscriptionsOf_eq_nil_iff.mpr hmem))).exists_last
  constructor
  · intro hsingle
    by_cases hnil : store.subscriptionsOf jobId = []
    · simp [hnil]
    · obtain ⟨s, hs⟩ := hexists hnil
      simp [(hsingle s).mpr hs]
  · intro hlength s
    constructor
    · intro hs
      obtain ⟨t, ht⟩ := hexists (by simp [hs])
      have hmem := hlast t ht
      rw [hs, List.mem_singleton] at hmem
      rwa [← hmem]
    · intro hs
      obtain ⟨t, ht⟩ : ∃ t, store.subscriptionsOf jobId = [t] :=
        List.length_eq_one_iff.mp (Nat.le_antisymm hlength (List.length_pos_of_mem (hlast s hs)))
      have hmem := hlast s hs
      rw [ht, List.mem_singleton] at hmem
      rw [ht, hmem]

/-! ### The whole -/

/-- **A store is two keyed maps, but for jobs that its snapshot repeats.** Whatever is done to the store of a snapshot:
a job is listed if it was given and not dropped since, and jobs stand in the order in which they were first given since
then. A job is listed once, with the subscription that was given last, exactly if the snapshot does not give it more
than once or it was dropped since the snapshot; else the entries of the snapshot stay, and what is given takes the place
of the first. A job is refused to be dropped exactly if it is not listed, and then nothing changes. Under a name there
is the endpoint that was given last and not dropped since, if there is one. What is done under one key leaves all
others. -/
theorem keyed_unless_repeated (snap : Snapshot) (acts : List Act) :
    let store := (ofSnapshot snap).run acts
    let history := snap.acts ++ acts
    (∀ jobId,
      (jobId ∈ store.jobs ↔ ∃ place, AddedAt jobId history place) ∧
        ((∀ s, store.subscriptionsOf jobId = [s] ↔ LastOn (.job jobId) (.save s) history) ↔
          ((ofSnapshot snap).subscriptionsOf jobId).length ≤ 1 ∨ .drop jobId ∈ acts) ∧
        (.drop jobId ∉ acts →
          (∀ s, LastOn (.job jobId) (.save s) acts →
            store.subscriptionsOf jobId = s :: ((ofSnapshot snap).subscriptionsOf jobId).tail) ∧
          ((∀ a ∈ acts, ¬ a.Touches (.job jobId)) →
            store.subscriptionsOf jobId = (ofSnapshot snap).subscriptionsOf jobId)) ∧
        (jobId ∈ store.jobs → ∃ store', store.deleteSubscription jobId = .ok store') ∧
        (jobId ∉ store.jobs → store.deleteSubscription jobId = .error (.subscriptionNotFound jobId) ∧
          store.act (.drop jobId) = store)) ∧
      (∀ i j m n, AddedAt i history m → AddedAt j history n →
        (store.jobs.idxOf i < store.jobs.idxOf j ↔ m < n)) ∧
      (∀ name,
        (∀ e, store.endpoint? name = .ok e ↔ LastOn (.endpoint name) (.saveEndpoint e) history) ∧
          ((∀ e, ¬ LastOn (.endpoint name) (.saveEndpoint e) history) →
            store.endpoint? name = .error (.endpointNotFound name))) ∧
      ∀ a : Act,
        (∀ jobId, ¬ a.Touches (.job jobId) →
          (store.act a).subscriptionsOf jobId = store.subscriptionsOf jobId) ∧
        ∀ name, ¬ a.Touches (.endpoint name) → (store.act a).endpoint? name = store.endpoint? name := by
  intro store history
  have hmirrors : Mirrors history store := mirrors_run snap acts
  refine ⟨fun jobId => ⟨?_, ?_, fun hdrop => ⟨fun s hs => ?_, fun hnone => ?_⟩, fun hmem => ?_, fun hmem => ?_⟩,
    hmirrors.ordered, fun name => ?_, fun a => ⟨fun jobId h => ?_, fun name h => ?_⟩⟩
  · rw [hmirrors.listed, present_iff_exists_addedAt]
  · rw [hmirrors.single_iff, length_subscriptionsOf_run]
  · exact subscriptionsOf_run_of_last hdrop hs _
  · exact subscriptionsOf_run hnone _
  · exact ⟨_, if_pos (hasJob_iff_mem_jobs.mpr hmem)⟩
  · have hrefused : store.deleteSubscription jobId = .error (.subscriptionNotFound jobId) :=
      if_neg fun hjob => hmem (hasJob_iff_mem_jobs.mp hjob)
    exact ⟨hrefused, by simp only [act, hrefused, Except.toOption, Option.getD_none]⟩
  · have hfind := hmirrors.endpoint name
    unfold endpoint?
    cases hfound : store.endpoints.find? (·.name = name) with
    | none => exact ⟨fun e => iff_of_false nofun fun hlast => by simp [(hfind e).mpr hlast] at hfound, fun _ => rfl⟩
    | some d =>
      rw [hfound] at hfind
      refine ⟨fun e => ?_, fun hnone => absurd ((hfind d).mp rfl) (hnone d)⟩
      rw [← hfind e]
      simp
  · exact subscriptionsOf_act store h
  · exact endpoint?_act store h

/-- A snapshot that gives a job twice. -/
def repeatingSnapshot : Snapshot :=
  { subscriptions := [{ jobId := "a", endpoint := "x" }, { jobId := "a", endpoint := "z" }] }

/-- **A job that the snapshot repeats is listed twice**, and the older entry outlives a new subscription for the
job. -/
theorem repeated_listed_twice :
    (ofSnapshot repeatingSnapshot).jobs = ["a", "a"] ∧
      ((ofSnapshot repeatingSnapshot).run [.save { jobId := "a", endpoint := "new" }]).subscriptionsOf "a" =
        [{ jobId := "a", endpoint := "new" }, { jobId := "a", endpoint := "z" }] := by
  decide

end Store
end OracleRelay
