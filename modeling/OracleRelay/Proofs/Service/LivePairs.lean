/-
# One live pair for each job

A pair is live from its start until it is told to stop, or until a call has taken it out of the table and is
about to tell it. Whatever calls are in progress and in whatever order they take their steps, the live pairs
are the pairs of the table (`Desk.Sound.live_iff`), and the table has one for each active job. The test of a
connection stands between the two looks that an addition takes at the table: only the second one counts, and
of two additions that both passed the test, the second finds the pair of the first
(`Desk.not_both_finished`).

Key definitions: `Manager.Desk.Live`, `Manager.Desk.Sound`, `Manager.Desk.Undisturbed`.
Key theorems: `Manager.Desk.Sound.step`, `Manager.Desk.sound_run`, `Manager.Desk.Sound.live_iff`,
`Manager.Desk.one_live_pair`.
-/
import OracleRelay.Proofs.Service.Desk

namespace OracleRelay
namespace Manager
namespace Desk

/-- A call has taken the pair out of the table and is about to tell it to stop. -/
def Doomed (d : Desk) (p : Pair) : Prop := ∃ (i : Nat) (c : Call), d.calls[i]? = some c ∧ p ∈ c.doomed

/-- The pair was started; it was not told to stop, and no call is about to tell it. -/
structure Live (d : Desk) (p : Pair) : Prop where
  started : p ∈ d.manager.started
  untold : p.number ∉ d.manager.told
  spared : ¬ d.Doomed p

/-- How pairs, signals and the table hang together. -/
structure Sound (d : Desk) : Prop where
  numbered : ∀ (i : Nat) (p : Pair), d.manager.started[i]? = some p → p.number = i
  distinct : (d.manager.active.map (·.jobId)).Nodup
  active_started : ∀ p ∈ d.manager.active, p ∈ d.manager.started
  told_lt : ∀ n ∈ d.manager.told, n < d.manager.started.length
  doomed_started : ∀ p, d.Doomed p → p ∈ d.manager.started
  orderly : ∀ c ∈ d.calls, c.Orderly
  active_iff : ∀ p ∈ d.manager.started, p ∈ d.manager.active ↔ p.number ∉ d.manager.told ∧ ¬ d.Doomed p

variable {d : Desk}

theorem Sound.number_lt (h : Sound d) {p : Pair} (hp : p ∈ d.manager.started) :
    p.number < d.manager.started.length := by
  obtain ⟨i, hi⟩ := List.mem_iff_getElem?.mp hp
  rw [h.numbered i p hi]
  exact (List.getElem?_eq_some_iff.mp hi).1

/-- A number belongs to one pair. -/
theorem Sound.eq_of_number (h : Sound d) {p q : Pair} (hp : p ∈ d.manager.started) (hq : q ∈ d.manager.started)
    (heq : p.number = q.number) : p = q := by
  obtain ⟨i, hi⟩ := List.mem_iff_getElem?.mp hp
  obtain ⟨j, hj⟩ := List.mem_iff_getElem?.mp hq
  have hij : i = j := by rw [← h.numbered i p hi, ← h.numbered j q hj, heq]
  subst hij
  exact Option.some.inj (hi.symm.trans hj)

/-- The live pairs are the pairs of the table. -/
theorem Sound.live_iff (h : Sound d) {p : Pair} : d.Live p ↔ p ∈ d.manager.active := by
  refine ⟨fun hlive => (h.active_iff p hlive.started).mpr ⟨hlive.untold, hlive.spared⟩, fun hp => ?_⟩
  obtain ⟨huntold, hspared⟩ := (h.active_iff p (h.active_started p hp)).mp hp
  exact ⟨h.active_started p hp, huntold, hspared⟩

/-- The table has one pair at most for a job. -/
theorem Sound.eq_of_jobId (h : Sound d) {p q : Pair} (hp : p ∈ d.manager.active) (hq : q ∈ d.manager.active)
    (heq : p.jobId = q.jobId) : p = q :=
  List.inj_on_of_nodup_map h.distinct hp hq heq

/-! ### Steps -/

/-- Another call than one is about to tell the pair to stop. -/
def DoomedElsewhere (d : Desk) (i : Nat) (p : Pair) : Prop :=
  ∃ (j : Nat) (c : Call), j ≠ i ∧ d.calls[j]? = some c ∧ p ∈ c.doomed

theorem doomed_iff {i : Nat} {c : Call} (hc : d.calls[i]? = some c) {p : Pair} :
    d.Doomed p ↔ p ∈ c.doomed ∨ d.DoomedElsewhere i p := by
  constructor
  · rintro ⟨j, c', hj, hp⟩
    by_cases hij : j = i
    · subst hij
      rw [hc] at hj
      cases hj
      exact .inl hp
    · exact .inr ⟨j, c', hij, hj, hp⟩
  · rintro (hp | ⟨j, c', -, hj, hp⟩)
    · exact ⟨i, c, hc, hp⟩
    · exact ⟨j, c', hj, hp⟩

/-- After a step, only the call that took it can have a part in what is new. -/
theorem doomed_set_iff {i : Nat} {c : Call} (hc : d.calls[i]? = some c) {m : Manager} {c' : Call} {p : Pair} :
    Doomed ⟨m, d.calls.set i c'⟩ p ↔ p ∈ c'.doomed ∨ d.DoomedElsewhere i p := by
  have hlt := (List.getElem?_eq_some_iff.mp hc).1
  rw [doomed_iff (i := i) (c := c') (List.getElem?_set_self hlt)]
  refine or_congr_right ⟨?_, ?_⟩
  · rintro ⟨j, c'', hij, hj, hp⟩
    exact ⟨j, c'', hij, by rwa [List.getElem?_set_ne (Ne.symm hij)] at hj, hp⟩
  · rintro ⟨j, c'', hij, hj, hp⟩
    exact ⟨j, c'', hij, by rwa [List.getElem?_set_ne (Ne.symm hij)], hp⟩

/-- A call that has taken nothing out, before and after its step, dooms no pair. -/
theorem doomed_set_iff_of_nil {i : Nat} {c c' : Call} (hc : d.calls[i]? = some c) (before : c.doomed = [])
    (after : c'.doomed = []) {m : Manager} {p : Pair} : Doomed ⟨m, d.calls.set i c'⟩ p ↔ d.Doomed p := by
  rw [doomed_set_iff hc, doomed_iff hc, before, after]

theorem Sound.orderly_set (h : Sound d) (i : Nat) {c' : Call} (horderly : c'.Orderly) :
    ∀ c ∈ d.calls.set i c', c.Orderly := by
  intro c hc
  rcases List.mem_or_eq_of_mem_set hc with hc | rfl
  · exact h.orderly c hc
  · exact horderly

/-- A step that changes no pair. -/
theorem Sound.keeps {i : Nat} {c c' : Call} (h : Sound d) (hc : d.calls[i]? = some c) (horderly : c'.Orderly)
    (store : Store) (before : c.doomed = []) (after : c'.doomed = []) :
    Sound ⟨{ d.manager with store }, d.calls.set i c'⟩ := by
  refine ⟨h.numbered, h.distinct, h.active_started, h.told_lt, fun p hp => ?_, h.orderly_set i horderly,
    fun p hp => ?_⟩
  · exact h.doomed_started p ((doomed_set_iff_of_nil hc before after).mp hp)
  · rw [doomed_set_iff_of_nil hc before after]
    exact h.active_iff p hp

/-- A step that starts the pair of an idle job. -/
theorem Sound.starts {i : Nat} {c c' : Call} (h : Sound d) (hc : d.calls[i]? = some c) (horderly : c'.Orderly)
    {s : Subscription} (e : Endpoint) (idle : d.manager.isActive s.jobId = false) (before : c.doomed = [])
    (after : c'.doomed = []) : Sound ⟨d.manager.start s e, d.calls.set i c'⟩ := by
  -- the number of the new pair is that of no other
  have hnew : ∀ p ∈ d.manager.started, p ≠ ⟨d.manager.started.length, s, e.name⟩ := by
    rintro p hp rfl
    exact absurd (h.number_lt hp) (Nat.lt_irrefl _)
  refine ⟨fun j p hj => ?_, ?_, fun p hp => ?_, fun n hn => ?_, fun p hp => ?_, h.orderly_set i horderly,
    fun p hp => ?_⟩
  · rcases Nat.lt_or_ge j d.manager.started.length with hlt | hge
    · rw [start, List.getElem?_append_left hlt] at hj
      exact h.numbered j p hj
    · rw [start, List.getElem?_append_right hge, List.getElem?_singleton] at hj
      split at hj
      · cases hj
        simp only
        omega
      · cases hj
  · rw [start, List.map_append, List.map_singleton, List.nodup_append]
    refine ⟨h.distinct, List.nodup_singleton _, fun jobId hjob => ?_⟩
    obtain ⟨p, hp, rfl⟩ := List.mem_map.mp hjob
    simpa [Pair.jobId] using isActive_eq_false.mp idle p hp
  · rcases List.mem_append.mp hp with hp | hp
    · exact List.mem_append_left _ (h.active_started p hp)
    · exact List.mem_append_right _ hp
  · have := h.told_lt n hn
    simp only [start, List.length_append, List.length_singleton]
    omega
  · exact List.mem_append_left _ (h.doomed_started p ((doomed_set_iff_of_nil hc before after).mp hp))
  · rw [doomed_set_iff_of_nil hc before after]
    rcases List.mem_append.mp hp with hp | hp
    · rw [start, List.mem_append, List.mem_singleton, or_iff_left (hnew p hp)]
      exact h.active_iff p hp
    · refine iff_of_true (List.mem_append_right _ hp) ⟨fun htold => ?_, fun hd => ?_⟩
      · rw [List.mem_singleton] at hp
        subst hp
        exact absurd (h.told_lt _ htold) (Nat.lt_irrefl _)
      · exact hnew p (h.doomed_started p hd) (List.mem_singleton.mp hp)

/-- A step that takes pairs out: they leave the table and are doomed by the call at once. -/
theorem Sound.takes {i : Nat} {c next : Call} (h : Sound d) (hc : d.calls[i]? = some c)
    (out : Pair → Bool) (horderly : (Call.tell (d.manager.active.filter out) next).Orderly) (before : c.doomed = []) :
    Sound ⟨{ d.manager with active := d.manager.active.filter (!out ·) },
      d.calls.set i (.tell (d.manager.active.filter out) next)⟩ := by
  have hdoomed : ∀ p, d.Doomed p ↔ d.DoomedElsewhere i p := by
    intro p
    rw [doomed_iff hc, before]
    simp
  refine ⟨h.numbered, ?_, fun p hp => h.active_started p (List.mem_of_mem_filter hp), h.told_lt, fun p hp => ?_,
    h.orderly_set i horderly, fun p hp => ?_⟩
  · exact h.distinct.sublist (List.filter_sublist.map _)
  · rcases (doomed_set_iff hc).mp hp with hp | hp
    · exact h.active_started p (List.mem_of_mem_filter hp)
    · exact h.doomed_started p ((hdoomed p).mpr hp)
  · have hactive := h.active_iff p hp
    rw [hdoomed] at hactive
    rw [doomed_set_iff hc]
    simp only [Call.doomed, List.mem_filter, Bool.not_eq_true', not_or, not_and, Bool.not_eq_true]
    rw [hactive]
    tauto

/-- A step that tells pairs to stop: what was doomed by the call is told now. -/
theorem Sound.tells {i : Nat} {pairs : List Pair} {next : Call} (h : Sound d)
    (hc : d.calls[i]? = some (.tell pairs next)) (horderly : (Call.linger pairs next).Orderly) :
    Sound ⟨d.manager.tell pairs, d.calls.set i (.linger pairs next)⟩ := by
  have hpairs : ∀ p ∈ pairs, p ∈ d.manager.started := fun p hp => h.doomed_started p ⟨i, _, hc, hp⟩
  refine ⟨h.numbered, h.distinct, h.active_started, fun n hn => ?_, fun p hp => ?_, h.orderly_set i horderly,
    fun p hp => ?_⟩
  · rcases List.mem_append.mp hn with hn | hn
    · exact h.told_lt n hn
    · obtain ⟨p, hp, rfl⟩ := List.mem_map.mp hn
      exact h.number_lt (hpairs p hp)
  · rcases (doomed_set_iff hc).mp hp with hp | hp
    · cases hp
    · exact h.doomed_started p ((doomed_iff hc).mpr (.inr hp))
  · have hactive := h.active_iff p hp
    -- a pair is told by its number, and no other pair has this number
    have hnumber : p.number ∈ pairs.map (·.number) ↔ p ∈ pairs := by
      refine ⟨fun hmem => ?_, fun hmem => List.mem_map_of_mem hmem⟩
      obtain ⟨q, hq, heq⟩ := List.mem_map.mp hmem
      exact h.eq_of_number (hpairs q hq) hp heq ▸ hq
    rw [doomed_iff hc] at hactive
    rw [doomed_set_iff hc]
    simp only [tell, Call.doomed, List.mem_append, hnumber, List.not_mem_nil, false_or, not_or] at hactive ⊢
    rw [hactive, and_assoc]

/-- A step keeps pairs, signals and the table together. -/
theorem Sound.step (h : Sound d) (i : Nat) (x : Surroundings) : Sound (d.step i x) := by
  cases hc : d.calls[i]? with
  | none =>
    rw [step_of_none hc]
    exact h
  | some c =>
    have horderly := h.orderly c (List.mem_of_getElem? hc)
    have horderly' := horderly.step (m := d.manager) x
    have heffect := Call.step_effect x horderly h.distinct
    rw [step_of_some hc]
    generalize (c.step d.manager x).1 = m' at heffect
    generalize (c.step d.manager x).2 = c' at heffect horderly'
    cases heffect with
    | keeps store _ before after => exact h.keeps hc horderly' store before after
    | starts s e keep call_eq idle =>
      refine h.starts hc horderly' e idle ?_ ?_
      · rw [call_eq]
        rfl
      · cases keep <;> rfl
    | takes out next before => exact h.takes hc out horderly' before
    | tells pairs next call_eq =>
      subst call_eq
      exact h.tells hc horderly'

/-- A manager that has done nothing yet is sound, whatever it is asked. -/
theorem sound_opened (substrate : SubstrateSettings) (store : Store) (rs : List Request) :
    Sound (opened { substrate, store } rs) := by
  have hspared : ∀ p, ¬ (opened { substrate, store } rs).Doomed p := by
    rintro p ⟨i, c, hi, hp⟩
    obtain ⟨r, -, rfl⟩ := List.mem_map.mp (List.mem_of_getElem? hi)
    simp [r.doomed_call] at hp
  refine ⟨by simp [opened], by simp [opened], by simp [opened], by simp [opened],
    fun p hp => absurd hp (hspared p), fun c hc => ?_, by simp [opened]⟩
  obtain ⟨r, -, rfl⟩ := List.mem_map.mp hc
  exact r.orderly_call

/-- Pairs, signals and the table hang together after every run. -/
theorem sound_run (substrate : SubstrateSettings) (store : Store) (rs : List Request) (turns : List Turn) :
    Sound ((opened { substrate, store } rs).run turns) :=
  run_invariant (fun _ i x h => h.step i x) (sound_opened substrate store rs) turns

/-! ### Additions -/

/-- Where the call of an addition can stand. -/
def Adding (s : Subscription) (e : Endpoint) : Call → Prop
  | .check s' e' keep | .trial s' e' keep | .insert s' e' keep => s' = s ∧ e' = e ∧ keep = false
  | .ended _ => True
  | _ => False

/-- A step of an addition leaves the manager as it is, unless it starts the pair; then the addition goes well. -/
theorem step_adding {m : Manager} {c : Call} {s : Subscription} {e : Endpoint} (x : Surroundings)
    (h : Adding s e c) : Adding s e (c.step m x).2 ∧
      ((c.step m x).1 = m ∧ (c ≠ .ended (.ok ()) → (c.step m x).2 ≠ .ended (.ok ())) ∨
        m.isActive s.jobId = false ∧ c.step m x = (m.start s e, .ended (.ok ()))) := by
  cases c with
  | check s' e' keep =>
    obtain ⟨rfl, rfl, rfl⟩ := h
    simp only [Call.step]
    cases m.isActive s'.jobId with
    | true => exact ⟨trivial, .inl ⟨trivial, fun _ => by simp [Call.fail]⟩⟩
    | false => exact ⟨⟨rfl, rfl, rfl⟩, .inl ⟨trivial, fun _ h => by cases h⟩⟩
  | trial s' e' keep =>
    obtain ⟨rfl, rfl, rfl⟩ := h
    simp only [Call.step]
    cases Call.tried m x s' e' with
    | error fault => exact ⟨trivial, .inl ⟨rfl, fun _ => by simp [Call.fail]⟩⟩
    | ok => exact ⟨⟨rfl, rfl, rfl⟩, .inl ⟨rfl, fun _ h => by cases h⟩⟩
  | insert s' e' keep =>
    obtain ⟨rfl, rfl, rfl⟩ := h
    simp only [Call.step]
    cases hactive : m.isActive s'.jobId with
    | true => exact ⟨trivial, .inl ⟨rfl, fun _ => by simp [Call.fail]⟩⟩
    | false => exact ⟨trivial, .inr ⟨rfl, rfl⟩⟩
  | ended v => exact ⟨trivial, .inl ⟨rfl, fun hne => hne⟩⟩
  | _ => exact h.elim

/-- The call of an addition stays one. -/
theorem adding_run {m : Manager} {rs : List Request} {i : Nat} {s : Subscription} {e : Endpoint}
    (h : rs[i]? = some (.add s e)) (turns : List Turn) :
    ∃ c, ((opened m rs).run turns).calls[i]? = some c ∧ Adding s e c := by
  refine run_invariant (P := fun d => ∃ c, d.calls[i]? = some c ∧ Adding s e c) (fun d j x hd => ?_) ?_ turns
  · obtain ⟨c, hc, hadding⟩ := hd
    rw [calls_step, hc]
    by_cases hji : j = i
    · rw [if_pos hji]
      exact ⟨_, rfl, (step_adding x hadding).1⟩
    · rw [if_neg hji]
      exact ⟨c, rfl, hadding⟩
  · exact ⟨.check s e false, by simp [opened, h, Request.call], rfl, rfl, rfl⟩

/-- The steps of an addition that fails in the end leave the manager as it is. -/
theorem manager_eq_of_failed {m : Manager} {rs : List Request} {i : Nat} {s : Subscription} {e : Endpoint}
    (h : rs[i]? = some (.add s e)) {before after : List Turn} {x : Surroundings} {fault : SubscriptionFault}
    (failed : ((opened m rs).run (before ++ ⟨i, x⟩ :: after)).calls[i]? = some (.ended (.error fault))) :
    (((opened m rs).run before).step i x).manager = ((opened m rs).run before).manager := by
  obtain ⟨c, hc, hadding⟩ := adding_run (m := m) h before
  obtain ⟨-, ⟨hmanager, -⟩ | ⟨-, hstart⟩⟩ := step_adding (m := ((opened m rs).run before).manager) x hadding
  · rw [step_of_some hc]
    exact hmanager
  · have hended : (((opened m rs).run before).step i x).calls[i]? = some (.ended (.ok ())) := by
      rw [calls_step, if_pos rfl, hc, Option.map_some, hstart]
    rw [run_append] at failed
    cases (ended_run hended after).symm.trans failed

/-- An addition whose test went well starts the pair, or finds that the job is active. -/
theorem verdict_of_passed {d : Desk} {i : Nat} {s : Subscription} {e : Endpoint} {turns : List Turn} {v : Verdict}
    (passed : d.calls[i]? = some (.insert s e false)) (returned : (d.run turns).calls[i]? = some (.ended v)) :
    v = .ok () ∨ v = .error (.duplicateJob s.jobId) := by
  have hstill := run_invariant
    (P := fun d => d.calls[i]? = some (.insert s e false) ∨ d.calls[i]? = some (.ended (.ok ())) ∨
      d.calls[i]? = some (.ended (.error (.duplicateJob s.jobId)))) (fun d j x hd => ?_) (.inl passed) turns
  · rw [returned] at hstill
    rcases hstill with hstill | hstill | hstill <;> cases hstill
    · exact .inl rfl
    · exact .inr rfl
  · rw [calls_step]
    by_cases hji : j = i
    · rw [if_pos hji]
      rcases hd with hd | hd | hd <;> rw [hd, Option.map_some]
      · simp only [Call.step]
        split
        · exact .inr (.inr rfl)
        · exact .inr (.inl rfl)
      · exact .inr (.inl rfl)
      · exact .inr (.inr rfl)
    · rw [if_neg hji]
      exact hd

/-! ### Additions with no removal between them -/

/-- The step of the call can take a pair of the job out of the table. -/
def Removes (jobId : String) : Call → Prop
  | .take jobId' _ | .withdraw jobId' _ => jobId' = jobId
  | .takeAll => True
  | _ => False

/-- No step of a run takes a pair of the job out of the table. -/
def Undisturbed (jobId : String) : Desk → List Turn → Prop
  | _, [] => True
  | d, t :: turns => (∀ c, d.calls[t.call]? = some c → ¬ Removes jobId c) ∧
      Undisturbed jobId (d.step t.call t.around) turns

/-- A job stays active under a step that does not remove it. -/
theorem isActive_step {m : Manager} {c : Call} {jobId : String} (x : Surroundings) (hc : ¬ Removes jobId c)
    (h : m.isActive jobId = true) : (c.step m x).1.isActive jobId = true := by
  cases c with
  | insert s e keep =>
    simp only [Call.step]
    split
    · exact h
    · rw [isActive_start, h, Bool.true_or]
  | take jobId' drop =>
    simp only [Call.step]
    split
    · rw [isActive_without, h, Bool.true_and]
      exact decide_eq_true hc
    · exact h
  | withdraw jobId' fault =>
    simp only [Call.step]
    split
    · rw [isActive_without, h, Bool.true_and]
      exact decide_eq_true hc
    · exact h
  | takeAll => exact absurd trivial hc
  | check s e keep => exact h
  | tell pairs next => exact h
  | linger pairs next => exact h
  | ended v => exact h
  | _ =>
    simp only [Call.step]
    split <;> exact h

/-- An addition that has gone well had gone well before, or has just started the pair of an idle job. -/
theorem finished_step {i k : Nat} {c : Call} {s : Subscription} {e : Endpoint} {x : Surroundings}
    (hc : d.calls[i]? = some c) (hadding : Adding s e c)
    (finished : (d.step k x).calls[i]? = some (.ended (.ok ()))) :
    d.calls[i]? = some (.ended (.ok ())) ∨
      k = i ∧ d.manager.isActive s.jobId = false ∧ (d.step k x).manager.isActive s.jobId = true := by
  rw [calls_step] at finished
  by_cases hki : k = i
  · subst hki
    rw [if_pos rfl, hc, Option.map_some, Option.some.injEq] at finished
    obtain ⟨-, ⟨-, hnot⟩ | ⟨hidle, hstart⟩⟩ := step_adding (m := d.manager) x hadding
    · by_cases hended : c = .ended (.ok ())
      · exact .inl (hended ▸ hc)
      · exact absurd finished (hnot hended)
    · refine .inr ⟨rfl, hidle, ?_⟩
      rw [step_of_some hc, hstart]
      simp [isActive_start]
  · rw [if_neg hki] at finished
    exact .inl finished

/-- Of two additions for a job one has gone well at most, and once one has, the job is active. -/
structure Exclusive (jobId : String) (i j : Nat) (d : Desk) : Prop where
  left : d.calls[i]? = some (.ended (.ok ())) → d.manager.isActive jobId = true
  right : d.calls[j]? = some (.ended (.ok ())) → d.manager.isActive jobId = true
  not_both : ¬ (d.calls[i]? = some (.ended (.ok ())) ∧ d.calls[j]? = some (.ended (.ok ())))

theorem Exclusive.step {i j k : Nat} {ci cj : Call} {s s' : Subscription} {e e' : Endpoint}
    (h : Exclusive s.jobId i j d) (hij : i ≠ j) (hjob : s'.jobId = s.jobId) (hi : d.calls[i]? = some ci)
    (hj : d.calls[j]? = some cj) (hci : Adding s e ci) (hcj : Adding s' e' cj)
    (undisturbed : ∀ c, d.calls[k]? = some c → ¬ Removes s.jobId c) (x : Surroundings) :
    Exclusive s.jobId i j (d.step k x) := by
  have hstays : d.manager.isActive s.jobId = true → (d.step k x).manager.isActive s.jobId = true := by
    intro hactive
    cases hk : d.calls[k]? with
    | none =>
      rw [step_of_none hk]
      exact hactive
    | some c =>
      rw [step_of_some hk]
      exact isActive_step x (undisturbed c hk) hactive
  refine ⟨fun hfin => ?_, fun hfin => ?_, fun ⟨hfini, hfinj⟩ => ?_⟩
  · rcases finished_step hi hci hfin with hbefore | ⟨-, -, hactive⟩
    · exact hstays (h.left hbefore)
    · exact hactive
  · rcases finished_step hj hcj hfin with hbefore | ⟨-, -, hactive⟩
    · exact hstays (h.right hbefore)
    · rwa [hjob] at hactive
  · rcases finished_step hi hci hfini with hbeforei | ⟨hki, hidlei, -⟩ <;>
      rcases finished_step hj hcj hfinj with hbeforej | ⟨hkj, hidlej, -⟩
    · exact h.not_both ⟨hbeforei, hbeforej⟩
    · rw [hjob, h.left hbeforei] at hidlej
      cases hidlej
    · rw [h.right hbeforej] at hidlei
      cases hidlei
    · exact hij (hki.symm.trans hkj)

/-- While no step removes the job, one addition for it goes well at most. -/
theorem exclusive_run {m : Manager} {rs : List Request} {i j : Nat} {s s' : Subscription} {e e' : Endpoint}
    (hij : i ≠ j) (hi : rs[i]? = some (.add s e)) (hj : rs[j]? = some (.add s' e')) (hjob : s'.jobId = s.jobId) :
    ∀ before turns : List Turn, Undisturbed s.jobId ((opened m rs).run before) turns →
      Exclusive s.jobId i j ((opened m rs).run before) →
      Exclusive s.jobId i j ((opened m rs).run (before ++ turns))
  | before, [], _, h => by rwa [List.append_nil]
  | before, t :: turns, undisturbed, h => by
    obtain ⟨ci, hci, haddi⟩ := adding_run (m := m) hi before
    obtain ⟨cj, hcj, haddj⟩ := adding_run (m := m) hj before
    have hstep := h.step hij hjob hci hcj haddi haddj undisturbed.1 t.around
    have hrest := undisturbed.2
    rw [← run_concat] at hstep hrest
    have hrun := exclusive_run hij hi hj hjob (before ++ [t]) turns hrest hstep
    rwa [List.append_assoc] at hrun

/-! ### All of it -/

/-- **One live pair for each active job.** Whatever is asked of a manager and in whatever order the calls take
their steps: a job has one live pair at most, and it has one exactly if it is active; no step of an addition
that fails in the end touches the manager; of two additions for a job that have not returned when a stretch
begins in which no step removes the job, one goes well in it at most; and an addition whose test went well
starts the pair or finds that the job is active. -/
theorem one_live_pair (substrate : SubstrateSettings) (store : Store) (rs : List Request) (turns : List Turn) :
    let start := opened { substrate, store } rs
    let d := start.run turns
    (∀ p q, d.Live p → d.Live q → p.jobId = q.jobId → p = q) ∧
      (∀ jobId, (∃ p, d.Live p ∧ p.jobId = jobId) ↔ d.manager.isActive jobId = true) ∧
      (∀ (i : Nat) (s : Subscription) (e : Endpoint), rs[i]? = some (.add s e) →
        (∀ fault, d.calls[i]? = some (.ended (.error fault)) → ∀ before x after, turns = before ++ ⟨i, x⟩ :: after →
          ((start.run before).step i x).manager = (start.run before).manager) ∧
        (∀ before after v, turns = before ++ after → (start.run before).calls[i]? = some (.insert s e false) →
          d.calls[i]? = some (.ended v) → v = .ok () ∨ v = .error (.duplicateJob s.jobId))) ∧
      ∀ (i j : Nat) (s : Subscription) (e : Endpoint) (s' : Subscription) (e' : Endpoint), i ≠ j →
        rs[i]? = some (.add s e) → rs[j]? = some (.add s' e') → s'.jobId = s.jobId →
        ∀ before stretch, turns = before ++ stretch → Undisturbed s.jobId (start.run before) stretch →
          (∀ v, (start.run before).calls[i]? ≠ some (.ended v)) →
          (∀ v, (start.run before).calls[j]? ≠ some (.ended v)) →
          ¬ (d.calls[i]? = some (.ended (.ok ())) ∧ d.calls[j]? = some (.ended (.ok ()))) := by
  intro start d
  have hsound : Sound d := sound_run substrate store rs turns
  refine ⟨fun p q hp hq heq => ?_, fun jobId => ?_, fun i s e hadd => ⟨?_, ?_⟩, ?_⟩
  · exact hsound.eq_of_jobId (hsound.live_iff.mp hp) (hsound.live_iff.mp hq) heq
  · constructor
    · rintro ⟨p, hp, hjob⟩
      exact List.any_eq_true.mpr ⟨p, hsound.live_iff.mp hp, decide_eq_true hjob⟩
    · intro hactive
      obtain ⟨p, hp, hjob⟩ := List.any_eq_true.mp hactive
      exact ⟨p, hsound.live_iff.mpr hp, of_decide_eq_true hjob⟩
  · intro fault hfailed before x after hturns
    subst hturns
    exact manager_eq_of_failed hadd hfailed
  · intro before after v hturns hpassed hreturned
    subst hturns
    have hrun : d = (start.run before).run after := run_append _ _ _
    rw [hrun] at hreturned
    exact verdict_of_passed hpassed hreturned
  · intro i j s e s' e' hij hi hj hjob before stretch hturns hundisturbed hpendi hpendj
    subst hturns
    refine (exclusive_run hij hi hj hjob before stretch hundisturbed ⟨?_, ?_, ?_⟩).not_both
    · exact fun h => absurd h (hpendi _)
    · exact fun h => absurd h (hpendj _)
    · exact fun h => hpendi _ h.1

/-- Two additions pass the test. The second one starts its pair, a removal takes it out, and then the first one
finds the job idle: both go well, and one pair is live. -/
example :
    let s := sampleSubscription
    let e := sampleEndpoint
    let d := (opened {} [.add s e, .add s e, .remove s.jobId]).run
      [⟨0, {}⟩, ⟨1, {}⟩, ⟨0, {}⟩, ⟨1, {}⟩, ⟨1, {}⟩, ⟨2, {}⟩, ⟨0, {}⟩]
    d.manager.started.map (·.number) = [0, 1] ∧ d.manager.active.map (·.number) = [1] ∧
      d.calls.map (fun c => c.doomed.map (·.number)) = [[], [], [0]] := ⟨rfl, rfl, rfl⟩

end Desk
end Manager
end OracleRelay
