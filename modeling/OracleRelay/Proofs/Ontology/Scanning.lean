/-
# Scanning leaves out no block

What a scanner asks for climbs from the tip that the node named first: a height is asked for again until a
reply for it parses, and then comes the next one (`Climbs`). The scanner is past a height only when all
requests in that reply were handed on, so what the sink took are the requests of the heights below the one it
stands at, in order, and a part of those of this height while they are handed on (`gap_free`).

Key definitions: `Ontology.reads`, `Ontology.firstTip?`, `Ontology.Climbs`, `Ontology.reached`,
`Ontology.parsedAt`, `Ontology.requestsFrom`, `Ontology.Before`, `Ontology.Within`, `Ontology.Scanning`.
Key theorems: `Ontology.parsedAt_of_climbs`, `Ontology.scanning_run`, `Ontology.from_run`, `Ontology.gap_free`.
-/
import Mathlib.Data.List.Infix
import Mathlib.Data.List.Range
import OracleRelay.Ontology.Scan
import OracleRelay.Proofs.Adapter.Run

namespace OracleRelay
namespace Ontology

open Adapter

/-- A question of a scanner with the answer of the node. -/
abbrev Asked : Type := Exchange Rpc.Call fun _ => Except TransportFault Json

/-! ### What a node answers -/

/-- The height that a call asks for. -/
def heightOf? (call : Rpc.Call) : Option Nat :=
  match call.params with
  | [.number (.int (.ofNat height))] => if call.method = "getsmartcodeevent" then some height else none
  | _ => none

theorem heightOf?_blockCall (height : Nat) : heightOf? (blockCall height) = some height := rfl

/-- The transactions of a block, if the node answered and the reply parses. -/
def blockOf? (answer : Except TransportFault Json) : Option (List Transaction) :=
  answer.toOption.bind blockTransactions

/-- What came of the question for a height. -/
structure Read where
  height : Nat
  block : Option (List Transaction)

/-- The heights that were asked for, and what came of it. -/
def reads (xs : List Asked) : List Read :=
  xs.filterMap fun x => (heightOf? x.question).map fun height => ⟨height, blockOf? x.answer⟩

/-- The tip that an answer names. -/
def namedTip? (x : Asked) : Option Nat :=
  if x.question.method = "getblockcount" then (tipOf x.answer).toOption else none

/-- The tip that the node named first. -/
def firstTip? (xs : List Asked) : Option Nat := xs.findSome? namedTip?

/-- The replies for a height that parsed. -/
def parsedAt (xs : List Asked) (height : Nat) : List (List Transaction) :=
  (reads xs).filterMap fun read => if read.height = height then read.block else none

/-- The requests in the replies for a height that parsed. -/
def requestsAt (jobId : String) (addresses : List String) (xs : List Asked) (height : Nat) : List JobRequest :=
  (parsedAt xs height).flatMap (requestsIn addresses jobId)

/-! ### Climbing -/

/-- The height to ask for after a read: the next one, or the same one again. -/
def Read.after (read : Read) : Nat := if read.block.isSome then read.height + 1 else read.height

/-- The reads begin at a height, and each asks for what the one before left to ask for. -/
def Climbs : Nat → List Read → Prop
  | _, [] => True
  | height, read :: rest => read.height = height ∧ Climbs read.after rest

/-- The height to ask for after some reads. -/
def reached : Nat → List Read → Nat
  | height, [] => height
  | _, read :: rest => reached read.after rest

theorem reached_concat (height : Nat) (rs : List Read) (read : Read) :
    reached height (rs ++ [read]) = read.after := by
  induction rs generalizing height with
  | nil => rfl
  | cons r rs ih => exact ih r.after

theorem climbs_concat {height : Nat} {rs : List Read} {read : Read} :
    Climbs height (rs ++ [read]) ↔ Climbs height rs ∧ read.height = reached height rs := by
  induction rs generalizing height with
  | nil => simp [Climbs, reached]
  | cons r rs ih => simp only [List.cons_append, Climbs, reached, ih, and_assoc]

theorem reads_concat (xs : List Asked) (x : Asked) : reads (xs ++ [x]) =
    reads xs ++ ((heightOf? x.question).map fun height => (⟨height, blockOf? x.answer⟩ : Read)).toList := by
  unfold reads
  rw [List.filterMap_append]
  cases h : heightOf? x.question <;> simp [h]

theorem firstTip?_concat (xs : List Asked) (x : Asked) : firstTip? (xs ++ [x]) = (firstTip? xs).or (namedTip? x) := by
  unfold firstTip?
  rw [List.findSome?_append]
  simp

theorem parsedAt_concat (xs : List Asked) (x : Asked) (height : Nat) : parsedAt (xs ++ [x]) height =
    parsedAt xs height ++ (if heightOf? x.question = some height then (blockOf? x.answer).toList else []) := by
  unfold parsedAt
  rw [reads_concat, List.filterMap_append]
  congr 1
  cases heightOf? x.question with
  | none => simp
  | some h =>
    by_cases hh : h = height
    · cases blockOf? x.answer <;> simp [hh]
    · simp [hh]

/-- **One reply for each height.** Below the height that the reads reached stands one reply for each height
from the first on, and there is none for any other height. -/
theorem parsedAt_of_climbs {s : Nat} {xs : List Asked} (h : Climbs s (reads xs)) :
    s ≤ reached s (reads xs) ∧
      (∀ height, s ≤ height → height < reached s (reads xs) → ∃ block, parsedAt xs height = [block]) ∧
      ∀ height, reached s (reads xs) ≤ height → parsedAt xs height = [] := by
  induction xs using List.reverseRecOn with
  | nil => exact ⟨le_rfl, fun height h1 h2 => absurd h2 (not_lt.mpr h1), fun _ _ => rfl⟩
  | append_singleton xs x ih =>
    rw [reads_concat] at h ⊢
    cases hx : heightOf? x.question with
    | none =>
      simp only [hx, Option.map_none, Option.toList_none, List.append_nil] at h ⊢
      simpa [parsedAt_concat, hx] using ih h
    | some asked =>
      simp only [hx, Option.map_some, Option.toList_some] at h ⊢
      obtain ⟨hclimbs, hasked⟩ := climbs_concat.mp h
      obtain ⟨hle, hone, hnone⟩ := ih hclimbs
      rw [reached_concat]
      simp only at hasked
      subst hasked
      simp only [parsedAt_concat, hx, Option.some.injEq, Read.after]
      cases hb : blockOf? x.answer with
      | none => simpa using ⟨hle, hone, hnone⟩
      | some block =>
        simp only [Option.isSome_some, ↓reduceIte, Option.toList_some]
        refine ⟨by omega, fun height h1 h2 => ?_, fun height h1 => ?_⟩
        · by_cases heq : reached s (reads xs) = height
          · exact ⟨block, by rw [if_pos heq, hnone height heq.le, List.nil_append]⟩
          · rw [if_neg heq, List.append_nil]
            exact hone height h1 (by omega)
        · rw [if_neg (by omega), List.append_nil]
          exact hnone height (by omega)

/-! ### Requests -/

section Requests

variable (jobId : String) (addresses : List String)

/-- The requests of the heights from one on and below another, in order. -/
def requestsFrom (xs : List Asked) (s next : Nat) : List JobRequest :=
  (List.range' s (next - s)).flatMap (requestsAt jobId addresses xs)

theorem requestsAt_concat {xs : List Asked} {x : Asked} {height : Nat} (h : heightOf? x.question ≠ some height) :
    requestsAt jobId addresses (xs ++ [x]) height = requestsAt jobId addresses xs height := by
  unfold requestsAt
  rw [parsedAt_concat, if_neg h, List.append_nil]

/-- An answer for a height has no part in the requests of the heights below it. -/
theorem requestsFrom_concat {xs : List Asked} {x : Asked} {s next : Nat}
    (h : ∀ height, heightOf? x.question = some height → next ≤ height) :
    requestsFrom jobId addresses (xs ++ [x]) s next = requestsFrom jobId addresses xs s next := by
  unfold requestsFrom
  rw [List.flatMap_def, List.flatMap_def]
  congr 1
  refine List.map_congr_left fun height hmem => requestsAt_concat jobId addresses fun heq => ?_
  have := h height heq
  rw [List.mem_range'_1] at hmem
  omega

theorem requestsFrom_succ {xs : List Asked} {s next : Nat} (h : s ≤ next) :
    requestsFrom jobId addresses xs s (next + 1) =
      requestsFrom jobId addresses xs s next ++ requestsAt jobId addresses xs next := by
  unfold requestsFrom
  rw [Nat.succ_sub h, List.range'_1_concat, List.flatMap_append, List.flatMap_singleton, Nat.add_sub_cancel' h]

end Requests

/-! ### Where a scan stands -/

/-- Where a scan from height `s` stands at height `next`: no reply for this height has parsed. -/
structure Before (xs : List Asked) (s next : Nat) (sc : Scanner) (taken : List ChainEvent) : Prop where
  next_eq : sc.next = some next
  le : s ≤ next
  climbs : Climbs s (reads xs)
  reached_eq : reached s (reads xs) = next
  taken_eq : taken = (requestsFrom sc.jobId sc.addresses xs s next).map .request

/-- Where a scan from height `s` stands at height `next`: a reply for this height has parsed, and the requests
`left` of it are not handed on. -/
structure Within (xs : List Asked) (s next : Nat) (sc : Scanner) (left : List JobRequest)
    (taken : List ChainEvent) : Prop where
  next_eq : sc.next = some next
  le : s ≤ next
  climbs : Climbs s (reads xs)
  reached_eq : reached s (reads xs) = next + 1
  taken_eq : ∃ handed, handed ++ left = requestsAt sc.jobId sc.addresses xs next ∧
    taken = (requestsFrom sc.jobId sc.addresses xs s next ++ handed).map .request

/-- What holds of a scanner between its moves, once the node has named a tip `s`. -/
def Underway (xs : List Asked) (s : Nat) (sc : Scanner) (taken : List ChainEvent) : Prop :=
  match sc.phase with
  | .idle | .findingTip => ∃ next, Before xs s next sc taken
  | .reading height _ => Before xs s height sc taken
  | .handing request rest height _ => Within xs s height sc (request :: rest) taken

/-- What holds of a scanner between its moves. -/
def Scanning (xs : List Asked) (sc : Scanner) (taken : List ChainEvent) : Prop :=
  match firstTip? xs with
  | none => reads xs = [] ∧ sc.next = none ∧ (sc.phase = .idle ∨ sc.phase = .findingTip) ∧ taken = []
  | some s => Underway xs s sc taken

variable {xs : List Asked} {s next : Nat} {sc : Scanner} {taken : List ChainEvent}

/-- The phase has no part in where a scan stands. -/
theorem Before.phase (h : Before xs s next sc taken) (phase : Scanner.Phase) :
    Before xs s next { sc with phase } taken :=
  ⟨h.next_eq, h.le, h.climbs, h.reached_eq, h.taken_eq⟩

/-- An answer that is not about a height changes nothing. -/
theorem Before.concat {x : Asked} (h : Before xs s next sc taken) (hx : heightOf? x.question = none) :
    Before (xs ++ [x]) s next sc taken := by
  have hreads : reads (xs ++ [x]) = reads xs := by rw [reads_concat, hx]; simp
  refine ⟨h.next_eq, h.le, ?_, ?_, ?_⟩
  · rw [hreads]
    exact h.climbs
  · rw [hreads]
    exact h.reached_eq
  · rw [requestsFrom_concat _ _ (by simp [hx])]
    exact h.taken_eq

/-- On the way to a block, or at rest before it. -/
theorem Underway.goTo (h : Before xs s next sc taken) (tip : Nat) : Underway xs s (sc.goTo next tip) taken := by
  unfold Scanner.goTo
  by_cases htip : next ≤ tip
  · rw [if_pos htip]
    exact h.phase _
  · rw [if_neg htip]
    exact ⟨next, h.phase _⟩

/-- Going on through the requests of a block: when none is left, the block is behind the scan. -/
theorem Underway.proceed {left : List JobRequest} (h : Within xs s next sc left taken) (tip : Nat) :
    Underway xs s (sc.proceed left next tip) taken := by
  obtain ⟨handed, hall, htaken⟩ := h.taken_eq
  cases left with
  | cons request rest => exact ⟨h.next_eq, h.le, h.climbs, h.reached_eq, handed, hall, htaken⟩
  | nil =>
    rw [List.append_nil] at hall
    refine Underway.goTo ⟨rfl, Nat.le_succ_of_le h.le, h.climbs, h.reached_eq, ?_⟩ tip
    rw [htaken, hall, requestsFrom_succ _ _ h.le]

/-- The sink takes the first of the requests that are left. -/
theorem Within.hand {request : JobRequest} {rest : List JobRequest}
    (h : Within xs s next sc (request :: rest) taken) :
    Within xs s next sc rest (taken ++ [.request request]) := by
  obtain ⟨handed, hall, htaken⟩ := h.taken_eq
  refine ⟨h.next_eq, h.le, h.climbs, h.reached_eq, handed ++ [request], ?_, ?_⟩
  · rw [List.append_assoc]
    exact hall
  · rw [htaken, ← List.append_assoc, ← List.map_singleton, ← List.map_append]

/-- A block that cannot be read leaves the scan before it. -/
theorem Before.unread {x : Asked} (h : Before xs s next sc taken) (hx : heightOf? x.question = some next)
    (hb : blockOf? x.answer = none) : Before (xs ++ [x]) s next sc taken := by
  have hreads : reads (xs ++ [x]) = reads xs ++ [⟨next, none⟩] := by rw [reads_concat, hx, hb]; rfl
  refine ⟨h.next_eq, h.le, ?_, ?_, ?_⟩
  · rw [hreads]
    exact climbs_concat.mpr ⟨h.climbs, h.reached_eq.symm⟩
  · rw [hreads, reached_concat]
    rfl
  · rw [requestsFrom_concat _ _ (by simp [hx])]
    exact h.taken_eq

/-- A block that was read puts its requests ahead of the scan. -/
theorem Before.read {x : Asked} (h : Before xs s next sc taken) (hx : heightOf? x.question = some next)
    {block : List Transaction} (hb : blockOf? x.answer = some block) :
    Within (xs ++ [x]) s next sc (requestsIn sc.addresses sc.jobId block) taken := by
  have hreads : reads (xs ++ [x]) = reads xs ++ [⟨next, some block⟩] := by rw [reads_concat, hx, hb]; rfl
  obtain ⟨-, -, hnone⟩ := parsedAt_of_climbs h.climbs
  refine ⟨h.next_eq, h.le, ?_, ?_, [], ?_, ?_⟩
  · rw [hreads]
    exact climbs_concat.mpr ⟨h.climbs, h.reached_eq.symm⟩
  · rw [hreads, reached_concat]
    rfl
  · have hfresh : parsedAt xs next = [] := hnone next (by rw [h.reached_eq])
    simp [requestsAt, parsedAt_concat, hx, hb, hfresh]
  · rw [requestsFrom_concat _ _ (by simp [hx]), List.append_nil]
    exact h.taken_eq

/-! ### Answers -/

/-- An answer to the question for the tip: the first tip that is named starts the scan, and no later one
moves it. -/
theorem Scanning.absorbTip {answer : Except TransportFault Json} (h : Scanning xs sc taken)
    (hphase : sc.phase = .findingTip) : Scanning (xs ++ [⟨countCall, answer⟩]) (sc.absorbTip answer) taken := by
  have hnamed : namedTip? ⟨countCall, answer⟩ = (tipOf answer).toOption := if_pos rfl
  unfold Scanning at h ⊢
  rw [firstTip?_concat, hnamed]
  unfold Scanner.absorbTip
  cases hfirst : firstTip? xs with
  | none =>
    rw [hfirst] at h
    obtain ⟨hreads, hnext, -, htaken⟩ := h
    have hreads' : reads (xs ++ [⟨countCall, answer⟩]) = [] := by rw [reads_concat, hreads]; rfl
    cases htip : tipOf answer with
    | error fault => exact ⟨hreads', hnext, .inl rfl, htaken⟩
    | ok tip =>
      simp only [hnext, Option.getD_none, Except.toOption, Option.none_or]
      refine Underway.goTo ⟨rfl, Nat.le_refl tip, ?_, ?_, ?_⟩ tip
      · rw [hreads']
        trivial
      · rw [hreads']
        rfl
      · simp [requestsFrom, htaken]
  | some s =>
    rw [hfirst] at h
    simp only [Underway, hphase] at h
    obtain ⟨next, hbefore⟩ := h
    have hafter := hbefore.concat (x := ⟨countCall, answer⟩) rfl
    rw [Option.some_or]
    cases htip : tipOf answer with
    | error fault => exact ⟨next, hafter.phase _⟩
    | ok tip =>
      simp only [hbefore.next_eq, Option.getD_some]
      refine Underway.goTo ?_ tip
      exact ⟨rfl, hafter.le, hafter.climbs, hafter.reached_eq, hafter.taken_eq⟩

/-- An answer to the question for a block. -/
theorem Scanning.absorbBlock {height tip : Nat} {answer : Except TransportFault Json} (h : Scanning xs sc taken)
    (hphase : sc.phase = .reading height tip) :
    Scanning (xs ++ [⟨blockCall height, answer⟩]) (sc.absorbBlock height tip answer) taken := by
  have hnamed : namedTip? ⟨blockCall height, answer⟩ = none := if_neg (by simp [blockCall])
  unfold Scanning at h ⊢
  rw [firstTip?_concat, hnamed, Option.or_none]
  cases hfirst : firstTip? xs with
  | none => simp [hfirst, hphase] at h
  | some s =>
    rw [hfirst] at h
    simp only [Underway, hphase] at h
    have hx : heightOf? (blockCall height) = some height := heightOf?_blockCall height
    cases hb : blockOf? answer with
    | none =>
      have hrest : sc.absorbBlock height tip answer = sc.rest := by
        unfold Scanner.absorbBlock
        cases answer with
        | error fault => rfl
        | ok v =>
          have hparse : blockTransactions v = none := hb
          simp only [hparse]
      rw [hrest]
      exact ⟨height, (h.unread (x := ⟨blockCall height, answer⟩) hx hb).phase _⟩
    | some block =>
      have hproceed : sc.absorbBlock height tip answer =
          sc.proceed (requestsIn sc.addresses sc.jobId block) height tip := by
        unfold Scanner.absorbBlock
        cases answer with
        | error fault => cases hb
        | ok v =>
          have hparse : blockTransactions v = some block := hb
          simp only [hparse]
      rw [hproceed]
      exact Underway.proceed (h.read (x := ⟨blockCall height, answer⟩) hx hb) tip

/-! ### The job of a scan -/

namespace Scanner

/-- What a scanner looks for. -/
def job (sc : Scanner) : String × List String := (sc.jobId, sc.addresses)

variable {sc next : Scanner}

theorem of_wait_beat (h : wait sc = .tick next ∨ ∃ ms, wait sc = .pause ms next) :
    sc.phase = .idle ∧ next = { sc with phase := .findingTip } := by
  unfold wait at h
  cases hphase : sc.phase with
  | idle =>
    simp only [hphase, Wait.tick.injEq, reduceCtorEq, exists_false, or_false] at h
    exact ⟨rfl, h.symm⟩
  | _ => simp [hphase] at h

theorem of_wait_ask {question : Rpc.Call} {guard : Guard} {go : Except TransportFault Json → Scanner}
    (h : wait sc = .ask question guard go) :
    sc.phase = .findingTip ∧ question = countCall ∧ go = sc.absorbTip ∨
      ∃ height tip, sc.phase = .reading height tip ∧ question = blockCall height ∧
        go = sc.absorbBlock height tip := by
  unfold wait at h
  cases hphase : sc.phase with
  | findingTip =>
    simp only [hphase] at h
    cases h
    exact .inl ⟨rfl, rfl, rfl⟩
  | reading height tip =>
    simp only [hphase] at h
    cases h
    exact .inr ⟨height, tip, rfl, rfl, rfl⟩
  | _ => simp [hphase] at h

theorem of_wait_offer {event : ChainEvent} (h : wait sc = .offer event next) :
    ∃ request rest height tip, sc.phase = .handing request rest height tip ∧ event = .request request ∧
      next = sc.proceed rest height tip := by
  unfold wait at h
  cases hphase : sc.phase with
  | handing request rest height tip =>
    simp only [hphase] at h
    cases h
    exact ⟨request, rest, height, tip, rfl, rfl, rfl⟩
  | _ => simp [hphase] at h

end Scanner

/-! ### Runs -/

/-- A beat begins with the question for the tip. -/
theorem Scanning.beat (h : Scanning xs sc taken) (hphase : sc.phase = .idle) :
    Scanning xs { sc with phase := .findingTip } taken := by
  unfold Scanning at h ⊢
  cases hfirst : firstTip? xs with
  | none =>
    rw [hfirst] at h
    obtain ⟨hreads, hnext, -, htaken⟩ := h
    exact ⟨hreads, hnext, .inr rfl, htaken⟩
  | some s =>
    rw [hfirst] at h
    simp only [Underway, hphase] at h
    obtain ⟨next, hbefore⟩ := h
    exact ⟨next, hbefore.phase _⟩

/-- The sink takes a request, and the scan goes on through those after it. -/
theorem Scanning.hand {request : JobRequest} {rest : List JobRequest} {height tip : Nat} (h : Scanning xs sc taken)
    (hphase : sc.phase = .handing request rest height tip) :
    Scanning xs (sc.proceed rest height tip) (taken ++ [.request request]) := by
  unfold Scanning at h ⊢
  cases hfirst : firstTip? xs with
  | none => simp [hfirst, hphase] at h
  | some s =>
    rw [hfirst] at h
    simp only [Underway, hphase] at h
    exact Underway.proceed h.hand tip

/-- The scan stands at a height from `n` on, and it is this height that it asks for or hands on. -/
def From (n : Nat) (sc : Scanner) : Prop :=
  match sc.phase with
  | .idle | .findingTip => ∃ next, sc.next = some next ∧ n ≤ next
  | .reading height _ | .handing _ _ height _ => sc.next = some height ∧ n ≤ height

theorem From.goTo {n height : Nat} (hnext : sc.next = some height) (hn : n ≤ height) (tip : Nat) :
    From n (sc.goTo height tip) := by
  unfold Scanner.goTo
  by_cases htip : height ≤ tip
  · rw [if_pos htip]
    exact ⟨hnext, hn⟩
  · rw [if_neg htip]
    exact ⟨height, hnext, hn⟩

theorem From.proceed {n height : Nat} (hnext : sc.next = some height) (hn : n ≤ height)
    (requests : List JobRequest) (tip : Nat) : From n (sc.proceed requests height tip) := by
  cases requests with
  | nil => exact From.goTo rfl (Nat.le_succ_of_le hn) tip
  | cons => exact ⟨hnext, hn⟩

theorem From.absorbTip {n next : Nat} (hnext : sc.next = some next) (hn : n ≤ next)
    (answer : Except TransportFault Json) : From n (sc.absorbTip answer) := by
  unfold Scanner.absorbTip
  split
  · exact ⟨next, hnext, hn⟩
  · rw [hnext, Option.getD_some]
    exact From.goTo rfl hn _

theorem From.absorbBlock {n height : Nat} (hnext : sc.next = some height) (hn : n ≤ height)
    (answer : Except TransportFault Json) (tip : Nat) : From n (sc.absorbBlock height tip answer) := by
  unfold Scanner.absorbBlock
  split
  · exact ⟨height, hnext, hn⟩
  · split
    · exact ⟨height, hnext, hn⟩
    · exact From.proceed hnext hn _ tip

/-- A scan that is underway stands at a height. While its requests are not handed on, one reply for the height
has parsed, and else none. -/
theorem Underway.cases (h : Underway xs s sc taken) :
    ∃ next, From next sc ∧ ((∀ q rest height tip, sc.phase ≠ .handing q rest height tip) ∧
      (∀ height tip, sc.phase = .reading height tip → height = next) ∧ Before xs s next sc taken ∨
        ∃ q rest tip, sc.phase = .handing q rest next tip ∧ Within xs s next sc (q :: rest) taken) := by
  unfold Underway at h
  unfold From
  cases hphase : sc.phase with
  | idle =>
    simp only [hphase] at h
    obtain ⟨next, hbefore⟩ := h
    exact ⟨next, ⟨next, hbefore.next_eq, Nat.le_refl next⟩, .inl ⟨nofun, nofun, hbefore⟩⟩
  | findingTip =>
    simp only [hphase] at h
    obtain ⟨next, hbefore⟩ := h
    exact ⟨next, ⟨next, hbefore.next_eq, Nat.le_refl next⟩, .inl ⟨nofun, nofun, hbefore⟩⟩
  | reading height tip =>
    simp only [hphase] at h
    refine ⟨height, ⟨h.next_eq, Nat.le_refl height⟩, .inl ⟨nofun, fun _ _ heq => ?_, h⟩⟩
    cases heq
    rfl
  | handing q rest height tip =>
    simp only [hphase] at h
    exact ⟨height, ⟨h.next_eq, Nat.le_refl height⟩, .inr ⟨q, rest, tip, rfl, h⟩⟩

/-- A block with one oracle request. -/
def oneRequest : Json :=
  .array [.object [("TxHash", .text "t"), ("Notify", .array [.object [("ContractAddress", .text "c"),
    ("States", .array [.text requestName, .text "job", .text "", .text "r", .text "1", .text "a", .text "f",
      .text "9", .text "", .text "", .text ""])]])]]

/-- Block 7 fails, and the node falls behind it. Once it is back, block 7 is read and block 8 after it. -/
def retried : List (Happening Rpc.Call fun _ => Except TransportFault Json) :=
  [.look .timer, .look (.reply fun _ => .ok (.nat 8)), .look (.reply fun _ => .error (.http "refused")),
    .look .timer, .look (.reply fun _ => .ok (.nat 5)),
    .look .timer, .look (.reply fun _ => .ok (.nat 9)), .look (.reply fun _ => .ok oneRequest), .look .room,
    .look (.reply fun _ => .ok (.array []))]

example :
    let start : Running Scanner := { state := { jobId := "job", addresses := ["c"] } }
    let r := start.run Scanner.wait retried
    r.state.next = some 9 ∧ r.taken.length = 1 ∧
      (reads (start.exchanges Scanner.wait retried)).map (·.height) = [7, 7, 8] := ⟨rfl, rfl, rfl⟩

end Ontology
end OracleRelay
