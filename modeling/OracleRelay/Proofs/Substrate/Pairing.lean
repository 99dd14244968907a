/-
# Names and the values that they meet

The parameters of a request come as names and values one after the other, and empty strings are passed over. A name
waits until a value comes, so a value is put under the nearest string before it that is not empty, when that stands at
an even place (`Meets`). If the value of a name is left empty and the name after it too, the value after that strays
back to the first name (`value_strays`). Where no value strays, a name has the value that stands next to it in its last
pair, and names come in the order of their first pairs (`values_meet_names`).

Key definitions: `Substrate.Meets`, `Substrate.PairAt`, `Substrate.Collects`, `Substrate.Pairing.step`.
Key theorems: `Substrate.Collects.insert`, `Substrate.Paired.step`, `Substrate.collects_met`,
`Substrate.values_meet_names`.
-/
import Mathlib.Data.List.Induction
import OracleRelay.Proofs.Request.Fields
import OracleRelay.Substrate.Request

namespace OracleRelay
namespace Substrate

/-! ### Fields that were given values one after the other -/

/-- A value `v` is given to the name `k` at the place `j`. -/
abbrev Giving : Type := Nat → String → String → Prop

/-- The last value that the name is given. -/
def Giving.Last (given : Giving) (k v : String) : Prop := ∃ j, given j k v ∧ ∀ j' v', j < j' → ¬ given j' k v'

/-- The one name is given a value before the other is given its first. -/
def Giving.Sooner (given : Giving) (k k' : String) : Prop := ∃ j v, given j k v ∧ ∀ j' v', j' ≤ j → ¬ given j' k' v'

/-- The fields hold under each name the last value that it was given, in the order in which the names were given their
first values. -/
structure Collects (given : Giving) (f : Fields) : Prop where
  names : ∀ k, k ∈ f.keys ↔ ∃ j v, given j k v
  value : ∀ k x, f.get? k = some x ↔ ∃ v, x = .text v ∧ given.Last k v
  order : f.keys.Pairwise given.Sooner

theorem Giving.Sooner.asymm {given : Giving} {k k' : String} (h : given.Sooner k k') : ¬ given.Sooner k' k := by
  rintro ⟨j', v', there', alone'⟩
  obtain ⟨j, v, there, alone⟩ := h
  rcases Nat.le_total j j' with le | le
  · exact alone' j v le there
  · exact alone j' v' le there'

theorem Collects.empty {given : Giving} (nothing : ∀ j k v, ¬ given j k v) : Collects given {} := by
  refine ⟨fun k => ?_, fun k x => ?_, List.Pairwise.nil⟩
  · simp [Fields.keys, nothing]
  · simp [Fields.get?, Json.lookup, Giving.Last, nothing]

theorem Collects.congr {given given' : Giving} {f : Fields} (same : ∀ j k v, given j k v ↔ given' j k v)
    (h : Collects given f) : Collects given' f := by
  have eq : given = given' := by
    funext j k v
    exact propext (same j k v)
  rwa [eq] at h

/-- A value that is given after all others replaces the one that its name has, or comes last with a new name. -/
theorem Collects.insert {given : Giving} {f : Fields} (h : Collects given f) {place : Nat}
    (before : ∀ j k v, given j k v → j < place) (key text : String) :
    Collects (fun j k v => given j k v ∨ j = place ∧ k = key ∧ v = text) (f.insert key (.text text)) := by
  have sooner : ∀ {k k'}, given.Sooner k k' →
      Giving.Sooner (fun j k v => given j k v ∨ j = place ∧ k = key ∧ v = text) k k' := by
    rintro k k' ⟨j, v, there, alone⟩
    have early : j < place := before j k v there
    refine ⟨j, v, .inl there, fun j' v' le => ?_⟩
    rintro (old | ⟨rfl, -, -⟩)
    · exact alone j' v' le old
    · omega
  refine ⟨fun k => ?_, fun k x => ?_, ?_⟩
  · have there : k ∈ (f.insert key (.text text)).keys ↔ k = key ∨ k ∈ f.keys := Fields.mem_keys_put
    rw [there, h.names]
    constructor
    · rintro (rfl | ⟨j, v, old⟩)
      · exact ⟨place, text, .inr ⟨rfl, rfl, rfl⟩⟩
      · exact ⟨j, v, .inl old⟩
    · rintro ⟨j, v, old | ⟨-, rfl, -⟩⟩
      · exact .inr ⟨j, v, old⟩
      · exact .inl rfl
  · rw [Fields.get?_insert]
    by_cases same : key = k
    · subst same
      rw [if_pos rfl, Option.some.injEq]
      constructor
      · rintro rfl
        refine ⟨text, rfl, place, .inr ⟨rfl, rfl, rfl⟩, fun j v later => ?_⟩
        rintro (old | ⟨rfl, -⟩)
        · have := before j key v old
          omega
        · omega
      · rintro ⟨v, rfl, j, old | ⟨-, -, rfl⟩, last⟩
        · exact absurd (.inr ⟨rfl, rfl, rfl⟩) (last place text (before j key v old))
        · rfl
    · have other : ∀ j v, (given j k v ∨ j = place ∧ k = key ∧ v = text) ↔ given j k v := by
        intro j v
        simp [Ne.symm same]
      rw [if_neg same, h.value]
      simp only [Giving.Last, other]
  · rw [Fields.keys_insert]
    split_ifs with there
    · exact h.order.imp sooner
    · refine List.pairwise_append.mpr ⟨h.order.imp sooner, List.pairwise_singleton _ _, ?_⟩
      intro k hk k' hk'
      obtain rfl := List.mem_singleton.mp hk'
      obtain ⟨j, v, old⟩ := (h.names k).mp hk
      have early : j < place := before j k v old
      refine ⟨j, v, .inl old, fun j' v' le => ?_⟩
      rintro (old' | ⟨rfl, -, -⟩)
      · exact there ((h.names k').mpr ⟨j', v', old'⟩)
      · omega

/-! ### Strings that meet -/

/-- The value at the odd place of the pair `j` meets the name at the even place of the pair `i`: between them all
strings are empty. -/
structure Meets (items : List String) (i j : Nat) (k v : String) : Prop where
  name : items[2 * i]? = some k
  value : items[2 * j + 1]? = some v
  named : k ≠ ""
  valued : v ≠ ""
  ahead : i ≤ j
  between : ∀ m, 2 * i < m → m < 2 * j + 1 → items[m]? = some ""

/-- A value in the pair `j` that meets some name. -/
def Met (items : List String) : Giving := fun j k v => ∃ i, Meets items i j k v

/-- A name and the value that stands next to it. -/
structure PairAt (items : List String) (j : Nat) (k v : String) : Prop where
  name : items[2 * j]? = some k
  value : items[2 * j + 1]? = some v
  named : k ≠ ""
  valued : v ≠ ""

/-- The name at the even place of the pair `i` waits: all strings after it are empty. -/
structure Waits (items : List String) (i : Nat) (k : String) : Prop where
  name : items[2 * i]? = some k
  named : k ≠ ""
  after : ∀ m, 2 * i < m → m < items.length → items[m]? = some ""

theorem meets_self_iff {items : List String} {j : Nat} {k v : String} : Meets items j j k v ↔ PairAt items j k v := by
  constructor
  · intro h
    exact ⟨h.name, h.value, h.named, h.valued⟩
  · intro h
    exact ⟨h.name, h.value, h.named, h.valued, Nat.le_refl j, fun m low high => by omega⟩

theorem PairAt.met {items : List String} {j : Nat} {k v : String} (h : PairAt items j k v) : Met items j k v :=
  ⟨j, meets_self_iff.mpr h⟩

theorem Met.lt_length {items : List String} {j : Nat} {k v : String} (h : Met items j k v) :
    2 * j + 1 < items.length := by
  obtain ⟨i, meets⟩ := h
  exact (List.getElem?_eq_some_iff.mp meets.value).1

theorem Waits.lt_length {items : List String} {i : Nat} {k : String} (h : Waits items i k) : 2 * i < items.length :=
  (List.getElem?_eq_some_iff.mp h.name).1

section Concat

variable {items : List String} {s k v : String} {i j : Nat}

theorem getElem?_concat_of_lt {m : Nat} (h : m < items.length) : (items ++ [s])[m]? = items[m]? :=
  List.getElem?_append_left h

/-- A new string leaves a name waiting if it is empty, and is itself a name that waits if it stands at an even
place. -/
theorem waits_concat_iff :
    Waits (items ++ [s]) i k ↔ s = "" ∧ Waits items i k ∨ items.length = 2 * i ∧ s = k ∧ k ≠ "" := by
  have last : (items ++ [s])[items.length]? = some s := List.getElem?_concat_length
  constructor
  · intro h
    have bound : 2 * i < items.length + 1 := by simpa using h.lt_length
    rcases Nat.lt_or_eq_of_le (Nat.le_of_lt_succ bound) with inside | here
    · refine .inl ⟨?_, ?_, h.named, fun m low high => ?_⟩
      · have empty := h.after items.length inside (by simp)
        rw [last] at empty
        exact Option.some.inj empty
      · rw [← getElem?_concat_of_lt inside]
        exact h.name
      · rw [← getElem?_concat_of_lt high]
        exact h.after m low (by simp; omega)
    · have name := h.name
      rw [here, last] at name
      exact .inr ⟨here.symm, Option.some.inj name, h.named⟩
  · rintro (⟨rfl, h⟩ | ⟨here, rfl, named⟩)
    · refine ⟨?_, h.named, fun m low high => ?_⟩
      · rw [getElem?_concat_of_lt h.lt_length]
        exact h.name
      · rw [List.length_append, List.length_singleton] at high
        rcases Nat.lt_or_eq_of_le (Nat.le_of_lt_succ high) with inside | here
        · rw [getElem?_concat_of_lt inside]
          exact h.after m low inside
        · rw [here]
          exact last
    · refine ⟨?_, named, fun m low high => ?_⟩
      · rw [← here]
        exact last
      · rw [List.length_append, List.length_singleton] at high
        omega

/-- A new string is a value that meets the name that waits, if it stands at an odd place and is not empty. -/
theorem met_concat_iff : Met (items ++ [s]) j k v ↔
    Met items j k v ∨ items.length = 2 * j + 1 ∧ s = v ∧ v ≠ "" ∧ ∃ i, Waits items i k := by
  have last : (items ++ [s])[items.length]? = some s := List.getElem?_concat_length
  constructor
  · rintro ⟨i, h⟩
    have bound : 2 * j + 1 < items.length + 1 := by simpa using (List.getElem?_eq_some_iff.mp h.value).1
    have ahead := h.ahead
    have inside : ∀ m, m < 2 * j + 1 → items[m]? = (items ++ [s])[m]? := fun m lt =>
      (getElem?_concat_of_lt (by omega)).symm
    rcases Nat.lt_or_eq_of_le (Nat.le_of_lt_succ bound) with old | here
    · refine .inl ⟨i, ?_, ?_, h.named, h.valued, ahead, fun m low high => ?_⟩
      · rw [inside _ (by omega)]
        exact h.name
      · rw [← getElem?_concat_of_lt old]
        exact h.value
      · rw [inside m high]
        exact h.between m low high
    · have value := h.value
      rw [here, last] at value
      refine .inr ⟨here.symm, Option.some.inj value, h.valued, i, ?_, h.named, fun m low high => ?_⟩
      · rw [inside _ (by omega)]
        exact h.name
      · rw [inside m (by omega)]
        exact h.between m low (by omega)
  · rintro (⟨i, h⟩ | ⟨here, rfl, valued, i, h⟩)
    · have bound : 2 * j + 1 < items.length := (List.getElem?_eq_some_iff.mp h.value).1
      have ahead := h.ahead
      refine ⟨i, ?_, ?_, h.named, h.valued, ahead, fun m low high => ?_⟩
      · rw [getElem?_concat_of_lt (by omega)]
        exact h.name
      · rw [getElem?_concat_of_lt bound]
        exact h.value
      · rw [getElem?_concat_of_lt (by omega)]
        exact h.between m low high
    · have bound := h.lt_length
      refine ⟨i, ?_, ?_, h.named, valued, by omega, fun m low high => ?_⟩
      · rw [getElem?_concat_of_lt bound]
        exact h.name
      · rw [← here]
        exact last
      · rw [getElem?_concat_of_lt (by omega)]
        exact h.after m low (by omega)

/-- A new string meets nothing if it is empty, is a name, or no name waits. -/
theorem met_concat_of_silent (silent : s = "" ∨ items.length % 2 = 0 ∨ ∀ i k, ¬ Waits items i k) :
    Met (items ++ [s]) j k v ↔ Met items j k v := by
  rw [met_concat_iff]
  refine or_iff_left ?_
  rintro ⟨odd, rfl, valued, i, waits⟩
  rcases silent with empty | even | nobody
  · exact valued empty
  · omega
  · exact nobody i k waits

end Concat

/-! ### The pairing step by step -/

/-- Where the pairing stands: whether a name is next, the name that waits, and the fields so far. -/
structure Pairing where
  isKey : Bool := true
  pending : Option String := none
  fields : Fields := {}

/-- The pairing takes one more string. -/
def Pairing.step (p : Pairing) (s : String) : Pairing :=
  if s = "" then { p with isKey := !p.isKey }
  else if p.isKey then { p with isKey := !p.isKey, pending := some s }
  else
    match p.pending with
    | some k => { isKey := !p.isKey, pending := none, fields := p.fields.insert k (.text s) }
    | none => { p with isKey := !p.isKey }

theorem pairsFrom_eq (items : List String) (isKey : Bool) (pending : Option String) (fields : Fields) :
    pairsFrom isKey pending fields items = (items.foldl Pairing.step ⟨isKey, pending, fields⟩).fields := by
  induction items generalizing isKey pending fields with
  | nil => rfl
  | cons s items ih =>
    unfold pairsFrom
    rw [List.foldl_cons, Pairing.step]
    by_cases empty : s = ""
    · rw [if_pos empty, if_pos empty, ih]
    · rw [if_neg empty, if_neg empty]
      cases isKey with
      | true => exact ih _ _ _
      | false => cases pending <;> exact ih _ _ _

/-- What the pairing knows of the strings that it took. -/
structure Paired (items : List String) (p : Pairing) : Prop where
  place : p.isKey = true ↔ items.length % 2 = 0
  pending : ∀ k, p.pending = some k ↔ ∃ i, Waits items i k
  fields : Collects (Met items) p.fields

section Step

variable {items : List String} {p : Pairing} {s : String}

theorem Paired.place_concat (h : Paired items p) (s : String) :
    (!p.isKey) = true ↔ (items ++ [s]).length % 2 = 0 := by
  rw [Bool.not_eq_true', ← Bool.not_eq_true, h.place, List.length_append, List.length_singleton]
  omega

/-- An empty string is passed over. -/
theorem Paired.step_empty (h : Paired items p) : Paired (items ++ [""]) { p with isKey := !p.isKey } := by
  refine ⟨h.place_concat "", fun k => ?_, h.fields.congr fun j k v => (met_concat_of_silent (.inl rfl)).symm⟩
  have silent : ∀ i, ¬ (items.length = 2 * i ∧ "" = k ∧ k ≠ "") := by
    rintro i ⟨-, same, named⟩
    exact named same.symm
  simp only [waits_concat_iff, silent, or_false, true_and]
  exact h.pending k

/-- A name waits, and no other does. -/
theorem Paired.step_name (h : Paired items p) (empty : s ≠ "") (isKey : p.isKey = true) :
    Paired (items ++ [s]) { p with isKey := !p.isKey, pending := some s } := by
  have even : items.length % 2 = 0 := h.place.mp isKey
  refine ⟨h.place_concat s, fun k => ?_, h.fields.congr fun j k v => (met_concat_of_silent (.inr (.inl even))).symm⟩
  simp only [waits_concat_iff, empty, false_and, false_or, Option.some.injEq]
  constructor
  · rintro rfl
    exact ⟨items.length / 2, by omega, rfl, empty⟩
  · rintro ⟨_, -, same, -⟩
    exact same

/-- After a value no name waits. -/
theorem Paired.nobody_waits (h : Paired items p) (empty : s ≠ "") (isKey : ¬ p.isKey = true) (k : String) :
    none = some k ↔ ∃ i, Waits (items ++ [s]) i k := by
  have odd : items.length % 2 ≠ 0 := fun even => isKey (h.place.mpr even)
  simp only [waits_concat_iff, empty, false_and, false_or, reduceCtorEq, false_iff]
  rintro ⟨i, even, -⟩
  omega

/-- A value is put under the name that waits. -/
theorem Paired.step_value (h : Paired items p) (empty : s ≠ "") (isKey : ¬ p.isKey = true) {key : String}
    (waiting : p.pending = some key) :
    Paired (items ++ [s]) { isKey := !p.isKey, pending := none, fields := p.fields.insert key (.text s) } := by
  have odd : items.length % 2 ≠ 0 := fun even => isKey (h.place.mpr even)
  have before : ∀ j k v, Met items j k v → j < items.length / 2 := by
    intro j k v met
    have := met.lt_length
    omega
  refine ⟨h.place_concat s, h.nobody_waits empty isKey, (h.fields.insert before key s).congr fun j k v => ?_⟩
  have given : (j = items.length / 2 ∧ k = key ∧ v = s) ↔
      (items.length = 2 * j + 1 ∧ s = v ∧ v ≠ "" ∧ ∃ i, Waits items i k) := by
    rw [← h.pending k, waiting, Option.some.injEq]
    constructor
    · rintro ⟨rfl, rfl, rfl⟩
      exact ⟨by omega, rfl, empty, rfl⟩
    · rintro ⟨here, rfl, -, rfl⟩
      exact ⟨by omega, rfl, rfl⟩
  rw [met_concat_iff, given]

/-- A value is dropped if no name waits. -/
theorem Paired.step_orphan (h : Paired items p) (empty : s ≠ "") (isKey : ¬ p.isKey = true)
    (waiting : p.pending = none) : Paired (items ++ [s]) { p with isKey := !p.isKey } := by
  have nobody : ∀ i k, ¬ Waits items i k := by
    intro i k waits
    have pending : p.pending = some k := (h.pending k).mpr ⟨i, waits⟩
    rw [waiting] at pending
    cases pending
  refine ⟨h.place_concat s, ?_, h.fields.congr fun j k v => (met_concat_of_silent (.inr (.inr nobody))).symm⟩
  rw [waiting]
  exact h.nobody_waits empty isKey

/-- **One more string keeps what the pairing knows.** -/
theorem Paired.step (h : Paired items p) (s : String) : Paired (items ++ [s]) (p.step s) := by
  unfold Pairing.step
  by_cases empty : s = ""
  · subst empty
    rw [if_pos rfl]
    exact h.step_empty
  rw [if_neg empty]
  by_cases isKey : p.isKey = true
  · rw [if_pos isKey]
    exact h.step_name empty isKey
  rw [if_neg isKey]
  cases waiting : p.pending with
  | none =>
    have orphan := h.step_orphan empty isKey waiting
    rwa [waiting] at orphan
  | some key => exact h.step_value empty isKey waiting

end Step

/-- What the pairing knows after all strings. -/
theorem paired_run (items : List String) : Paired items (items.foldl Pairing.step {}) := by
  induction items using List.reverseRecOn with
  | nil =>
    refine ⟨by simp, fun k => ?_, Collects.empty fun j k v met => ?_⟩
    · simp only [List.foldl_nil, reduceCtorEq, false_iff]
      rintro ⟨i, waits⟩
      exact absurd waits.lt_length (Nat.not_lt_zero _)
    · exact absurd met.lt_length (Nat.not_lt_zero _)
  | append_singleton items s ih =>
    rw [List.foldl_append]
    exact ih.step s

/-- **Each name has the last value that it met, and names come as they met their first values.** -/
theorem collects_met (items : List String) : Collects (Met items) (pairFields items) := by
  rw [pairFields, pairsFrom_eq]
  exact (paired_run items).fields

/-! ### Pairs that stay together -/

theorem exists_last_of_met {items : List String} {j : Nat} {k v : String} (h : Met items j k v) :
    ∃ v, (Met items).Last k v := by
  have collects := collects_met items
  obtain ⟨x, there⟩ := Fields.exists_get?_of_mem ((collects.names k).mpr ⟨j, v, h⟩)
  obtain ⟨v, -, last⟩ := (collects.value k x).mp there
  exact ⟨v, last⟩

theorem pairAt_last_unique {items : List String} {k v v' : String} (h : Giving.Last (PairAt items) k v)
    (h' : Giving.Last (PairAt items) k v') : v = v' := by
  obtain ⟨j, there, last⟩ := h
  obtain ⟨j', there', last'⟩ := h'
  rcases Nat.lt_trichotomy j j' with less | same | more
  · exact absurd there' (last j' v' less)
  · subst same
    exact Option.some.inj (there.value.symm.trans there'.value)
  · exact absurd there (last' j v more)

/-- Names that met their first values one after the other stand in this order. -/
theorem sooner_of_met_sooner {items : List String} {given : Giving} {k k' : String}
    (ordered : (pairFields items).keys.Pairwise given.Sooner) (met : k ∈ (pairFields items).keys)
    (met' : k' ∈ (pairFields items).keys) (h : (Met items).Sooner k k') : given.Sooner k k' := by
  have places := (collects_met items).order
  obtain ⟨a, ha, rfl⟩ := List.getElem_of_mem met
  obtain ⟨b, hb, rfl⟩ := List.getElem_of_mem met'
  rcases Nat.lt_trichotomy a b with less | same | more
  · exact List.pairwise_iff_getElem.mp ordered a b ha hb less
  · subst same
    exact absurd h h.asymm
  · exact absurd (List.pairwise_iff_getElem.mp places b a hb ha more) h.asymm

/-- The pairs decide exactly if each name meets the value of its last pair last, and names meet their first values in
the order of their first pairs. -/
theorem collects_pairAt_iff (items : List String) : Collects (PairAt items) (pairFields items) ↔
    (∀ k v, (Met items).Last k v → Giving.Last (PairAt items) k v) ∧
      ∀ k k', (Met items).Sooner k k' → Giving.Sooner (PairAt items) k k' := by
  have collects := collects_met items
  constructor
  · intro pairs
    refine ⟨fun k v last => ?_, fun k k' sooner => ?_⟩
    · have there := (collects.value k (.text v)).mpr ⟨v, rfl, last⟩
      obtain ⟨v', same, last'⟩ := (pairs.value k (.text v)).mp there
      cases same
      exact last'
    · obtain ⟨j, v, met, -⟩ := id sooner
      have there : k ∈ (pairFields items).keys := (collects.names k).mpr ⟨j, v, met⟩
      by_cases there' : k' ∈ (pairFields items).keys
      · exact sooner_of_met_sooner pairs.order there there' sooner
      · obtain ⟨j, v, pair⟩ := (pairs.names k).mp there
        exact ⟨j, v, pair, fun j' v' _ pair' => there' ((pairs.names k').mpr ⟨j', v', pair'⟩)⟩
  · rintro ⟨values, order⟩
    refine ⟨fun k => ?_, fun k x => ?_, collects.order.imp fun {k k'} => order k k'⟩
    · rw [collects.names]
      constructor
      · rintro ⟨j, v, met⟩
        obtain ⟨v, last⟩ := exists_last_of_met met
        obtain ⟨j, pair, -⟩ := values k v last
        exact ⟨j, v, pair⟩
      · rintro ⟨j, v, pair⟩
        exact ⟨j, v, pair.met⟩
    · rw [collects.value]
      constructor
      · rintro ⟨v, rfl, last⟩
        exact ⟨v, rfl, values k v last⟩
      · rintro ⟨v, rfl, last⟩
        obtain ⟨j, pair, -⟩ := id last
        obtain ⟨v', last'⟩ := exists_last_of_met pair.met
        have same : v = v' := pairAt_last_unique last (values k v' last')
        exact ⟨v, rfl, same ▸ last'⟩

/-- **Values are put under the names that they meet.** A name has the last value that it met, and names come as they
met their first values. That these are the values and the order of the pairs holds exactly if each name meets last the
value of its last pair and first values come in the order of first pairs; so it holds wherever no value strays, which
is to say that each one that meets a name stands next to it. -/
theorem values_meet_names (items : List String) :
    Collects (Met items) (pairFields items) ∧
      (Collects (PairAt items) (pairFields items) ↔
        (∀ k v, (Met items).Last k v → Giving.Last (PairAt items) k v) ∧
          ∀ k k', (Met items).Sooner k k' → Giving.Sooner (PairAt items) k k') ∧
      ((∀ i j k v, Meets items i j k v → i = j) → Collects (PairAt items) (pairFields items)) := by
  refine ⟨collects_met items, collects_pairAt_iff items, fun together => ?_⟩
  refine (collects_met items).congr fun j k v => ⟨?_, PairAt.met⟩
  rintro ⟨i, meets⟩
  obtain rfl : i = j := together i j k v meets
  exact meets_self_iff.mp meets

/-- A name without a value, and a value without a name. -/
def strayed : List String := ["get", "", "", "https://a.io"]

/-- A value whose own name is empty goes to an earlier name whose value is. -/
theorem value_strays :
    (pairFields strayed).members = [("get", .text "https://a.io")] ∧ Meets strayed 0 1 "get" "https://a.io" ∧
      (∀ j k v, ¬ PairAt strayed j k v) ∧ ¬ Collects (PairAt strayed) (pairFields strayed) := by
  have alone : ∀ j k v, ¬ PairAt strayed j k v := by
    intro j k v pair
    have bound : 2 * j + 1 < 4 := (List.getElem?_eq_some_iff.mp pair.value).1
    have place : j = 0 ∨ j = 1 := by omega
    rcases place with rfl | rfl
    · exact pair.valued (Option.some.inj pair.value).symm
    · exact pair.named (Option.some.inj pair.name).symm
  have stands : (pairFields strayed).members = [("get", .text "https://a.io")] := rfl
  refine ⟨stands, ⟨rfl, rfl, by decide, by decide, by decide, fun m low high => ?_⟩, alone, fun collects => ?_⟩
  · have place : m = 1 ∨ m = 2 := by omega
    rcases place with rfl | rfl <;> rfl
  · have there : "get" ∈ (pairFields strayed).keys := by simp [Fields.keys, stands]
    obtain ⟨j, v, pair⟩ := (collects.names "get").mp there
    exact alone j "get" v pair

end Substrate
end OracleRelay
