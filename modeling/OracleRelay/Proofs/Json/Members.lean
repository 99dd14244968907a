/-
# Members of objects

The members that an object is made of can be read back: under a key stands the last value that the key was
given (`Json.get?_ofMembers`). An object has its members in the order of their keys (`Json.inKeyOrder_collected`), so
no key stands there twice, and a value that is put under a key drives out the one that stood there and leaves the
others (`Json.insertMember_perm`). This and the last value of each key say all of an object (`Json.eq_collected_iff`).

Key definitions: `Json.InKeyOrder`, `Json.collected`, `Json.LastGiven`.
Key theorems: `Json.lookup_insertMember`, `Json.get?_ofMembers`, `Json.get?_ofMembers_of_single`,
`Json.get?_ofMembers_eq_some_iff`, `Json.inKeyOrder_collected`, `Json.insertMember_perm`, `Json.mem_collected_iff`,
`Json.mem_keys_collected`, `Json.InKeyOrder.keys_eq`, `Json.InKeyOrder.collected_eq`, `Json.eq_collected_iff`.
-/
import Mathlib.Data.List.Induction
import Mathlib.Data.List.Nodup
import Mathlib.Data.String.Basic
import OracleRelay.Json.Value

namespace OracleRelay
namespace Json

theorem lookup_insertMember (key k : String) (v : Json) (ms : List (String × Json)) :
    lookup key (insertMember k v ms) = if k = key then some v else lookup key ms := by
  induction ms with
  | nil => rfl
  | cons m ms ih =>
    obtain ⟨j, w⟩ := m
    simp only [insertMember]
    by_cases hkj : k = j
    · subst hkj
      rw [if_pos rfl]
      by_cases hkey : k = key <;> simp [lookup, hkey]
    · rw [if_neg hkj]
      by_cases hlt : k < j
      · rw [if_pos hlt, lookup]
      · rw [if_neg hlt, lookup, ih, lookup]
        by_cases hkey : k = key
        · have hjkey : j ≠ key := fun h => hkj (hkey.trans h.symm)
          simp only [if_pos hkey, if_neg hjkey]
        · simp only [if_neg hkey]

/-- **The last value of a key counts.** -/
theorem get?_ofMembers (key : String) (ms : List (String × Json)) :
    (ofMembers ms).get? key = lookup key ms.reverse := by
  induction ms using List.reverseRecOn with
  | nil => rfl
  | append_singleton ms m ih =>
    obtain ⟨k, v⟩ := m
    rw [ofMembers, List.foldl_append]
    simp only [List.foldl_cons, List.foldl_nil, get?, List.reverse_append, List.reverse_cons, List.reverse_nil,
      List.nil_append, List.cons_append, lookup_insertMember]
    rw [lookup]
    split_ifs with hkey
    · rfl
    · exact ih

theorem lookup_eq_head? (key : String) (ms : List (String × Json)) :
    lookup key ms = ((ms.filter (·.1 = key)).head?).map (·.2) := by
  induction ms with
  | nil => rfl
  | cons m ms ih =>
    obtain ⟨k, v⟩ := m
    rw [lookup]
    by_cases same : k = key
    · rw [if_pos same, List.filter_cons_of_pos (by simpa using same)]
      rfl
    · rw [if_neg same, List.filter_cons_of_neg (by simpa using same), ih]

/-- A key that is given once has its value. -/
theorem get?_ofMembers_of_single {key : String} {ms : List (String × Json)} {m : String × Json}
    (single : ms.filter (·.1 = key) = [m]) : (ofMembers ms).get? key = some m.2 := by
  rw [get?_ofMembers, lookup_eq_head?, List.filter_reverse, single]
  rfl

/-- Under keys that are given once each stands what they are given. -/
theorem lookup_eq_some_iff {key : String} {v : Json} : ∀ {ms : List (String × Json)}, (ms.map (·.1)).Nodup →
    (lookup key ms = some v ↔ (key, v) ∈ ms)
  | [], _ => by simp [lookup]
  | (k, w) :: ms, distinct => by
    rw [List.map_cons, List.nodup_cons] at distinct
    rw [lookup, List.mem_cons]
    by_cases same : k = key
    · subst same
      have other : (k, v) ∉ ms := fun there => distinct.1 (List.mem_map.mpr ⟨(k, v), there, rfl⟩)
      simp [other, eq_comm]
    · have other : (key, v) ≠ (k, w) := fun h => same (congrArg Prod.fst h).symm
      rw [if_neg same, lookup_eq_some_iff distinct.2]
      simp [other]

/-- **An object of distinct keys has exactly the members that it is made of.** -/
theorem get?_ofMembers_eq_some_iff {ms : List (String × Json)} (distinct : (ms.map (·.1)).Nodup) {key : String}
    {v : Json} : (ofMembers ms).get? key = some v ↔ (key, v) ∈ ms := by
  have reversed : (ms.reverse.map (·.1)).Nodup := by
    rw [List.map_reverse]
    exact (List.reverse_perm _).nodup_iff.mpr distinct
  rw [get?_ofMembers, lookup_eq_some_iff reversed, List.mem_reverse]

/-- The members stand in the order of their keys, and no key stands there twice. -/
def InKeyOrder (ms : List (String × Json)) : Prop := ms.Pairwise (·.1 < ·.1)

theorem mem_of_mem_insertMember {k : String} {v : Json} {m : String × Json} {ms : List (String × Json)}
    (h : m ∈ insertMember k v ms) : m = (k, v) ∨ m ∈ ms := by
  induction ms with
  | nil => exact .inl (List.mem_singleton.mp h)
  | cons m' ms ih =>
    obtain ⟨j, w⟩ := m'
    rw [insertMember] at h
    split_ifs at h with same less
    · exact (List.mem_cons.mp h).imp id (List.mem_cons_of_mem _)
    · exact List.mem_cons.mp h
    · rcases List.mem_cons.mp h with rfl | later
      · exact .inr List.mem_cons_self
      · exact (ih later).imp id (List.mem_cons_of_mem _)

/-- Members in order stay so when a value is put under a key. -/
theorem InKeyOrder.insertMember (k : String) (v : Json) {ms : List (String × Json)} (ordered : InKeyOrder ms) :
    InKeyOrder (insertMember k v ms) := by
  induction ms with
  | nil => exact List.pairwise_singleton _ _
  | cons m ms ih =>
    obtain ⟨j, w⟩ := m
    obtain ⟨first, rest⟩ := List.pairwise_cons.mp ordered
    rw [Json.insertMember]
    split_ifs with same less
    · subst same
      exact List.pairwise_cons.mpr ⟨first, rest⟩
    · refine List.pairwise_cons.mpr ⟨fun m hm => ?_, ordered⟩
      rcases List.mem_cons.mp hm with rfl | later
      · exact less
      · exact less.trans (first m later)
    · refine List.pairwise_cons.mpr ⟨fun m hm => ?_, ih rest⟩
      rcases mem_of_mem_insertMember hm with rfl | there
      · exact lt_of_le_of_ne (not_lt.mp less) (Ne.symm same)
      · exact first m there

/-- What stands in the object of some members. -/
def collected (ms : List (String × Json)) : List (String × Json) :=
  ms.foldl (fun acc (k, v) => insertMember k v acc) []

theorem collected_append_singleton (ms : List (String × Json)) (k : String) (v : Json) :
    collected (ms ++ [(k, v)]) = insertMember k v (collected ms) := by
  simp [collected]

/-- **An object has its members in the order of their keys.** -/
theorem inKeyOrder_collected (ms : List (String × Json)) : InKeyOrder (collected ms) := by
  induction ms using List.reverseRecOn with
  | nil => exact List.Pairwise.nil
  | append_singleton ms m ih =>
    rw [collected_append_singleton]
    exact ih.insertMember m.1 m.2

/-- **A value that is put under a key drives out the one that stood there, and leaves the others.** -/
theorem insertMember_perm (k : String) (v : Json) {ms : List (String × Json)} (ordered : InKeyOrder ms) :
    (insertMember k v ms).Perm ((k, v) :: ms.filter (·.1 ≠ k)) := by
  induction ms with
  | nil => exact List.Perm.refl _
  | cons m ms ih =>
    obtain ⟨j, w⟩ := m
    obtain ⟨first, rest⟩ := List.pairwise_cons.mp ordered
    have later : ∀ {i : String}, i ≤ j → ms.filter (·.1 ≠ i) = ms := fun le =>
      List.filter_eq_self.mpr fun m hm => by simpa using (lt_of_le_of_lt le (first m hm)).ne'
    rw [insertMember]
    split_ifs with same less
    · subst same
      rw [List.filter_cons_of_neg (by simp), later le_rfl]
    · rw [List.filter_cons_of_pos (by simpa using Ne.symm same), later less.le]
    · rw [List.filter_cons_of_pos (by simpa using Ne.symm same)]
      exact ((ih rest).cons (j, w)).trans (.swap _ _ _)

/-! ### The last value of each key -/

/-- The value that the key is given last. -/
def LastGiven (ms : List (String × Json)) (key : String) (v : Json) : Prop :=
  ∃ before after, ms = before ++ (key, v) :: after ∧ key ∉ after.map (·.1)

/-- One more member is the last one for its key, and leaves the other keys alone. -/
theorem lastGiven_concat {ms : List (String × Json)} {k key : String} {w v : Json} :
    LastGiven (ms ++ [(k, w)]) key v ↔ if k = key then w = v else LastGiven ms key v := by
  constructor
  · rintro ⟨before, after, same, later⟩
    rcases List.eq_nil_or_concat' after with rfl | ⟨after, m, rfl⟩
    · obtain ⟨-, last⟩ := List.append_inj' same rfl
      cases last
      rw [if_pos rfl]
    · have split : ms ++ [(k, w)] = (before ++ (key, v) :: after) ++ [m] := by
        rw [same, List.append_assoc, List.cons_append]
      obtain ⟨front, last⟩ := List.append_inj' split rfl
      cases last
      have other : k ≠ key := by
        rintro rfl
        exact later (by simp)
      rw [if_neg other]
      exact ⟨before, after, front, fun there => later (by rw [List.map_append]; exact List.mem_append_left _ there)⟩
  · intro h
    by_cases hit : k = key
    · rw [if_pos hit] at h
      exact ⟨ms, [], by rw [hit, h], by simp⟩
    · rw [if_neg hit] at h
      obtain ⟨before, after, rfl, later⟩ := h
      refine ⟨before, after ++ [(k, w)], by simp, ?_⟩
      rw [List.map_append, List.mem_append]
      rintro (there | there)
      · exact later there
      · exact hit (List.mem_singleton.mp there).symm

/-- What is found from the end is what is given last. -/
theorem lookup_reverse_eq_some_iff {ms : List (String × Json)} {key : String} {v : Json} :
    lookup key ms.reverse = some v ↔ LastGiven ms key v := by
  induction ms using List.reverseRecOn with
  | nil =>
    apply iff_of_false
    · exact nofun
    · rintro ⟨before, after, same, -⟩
      simp at same
  | append_singleton ms m ih =>
    rw [List.reverse_append, List.reverse_singleton, List.singleton_append, lookup, lastGiven_concat]
    by_cases hit : m.1 = key
    · rw [if_pos hit, if_pos hit, Option.some.injEq]
    · rw [if_neg hit, if_neg hit, ih]

theorem InKeyOrder.nodup {ms : List (String × Json)} (ordered : InKeyOrder ms) : (ms.map (·.1)).Nodup :=
  List.pairwise_map.mpr (ordered.imp ne_of_lt)

/-- **An object has exactly the last value of each key.** -/
theorem mem_collected_iff {ms : List (String × Json)} {key : String} {v : Json} :
    (key, v) ∈ collected ms ↔ LastGiven ms key v := by
  have found : lookup key (collected ms) = lookup key ms.reverse := get?_ofMembers key ms
  rw [← lookup_eq_some_iff (inKeyOrder_collected ms).nodup, found, lookup_reverse_eq_some_iff]

theorem mem_of_mem_collected {m : String × Json} {ms : List (String × Json)} (h : m ∈ collected ms) : m ∈ ms := by
  obtain ⟨before, after, rfl, -⟩ := mem_collected_iff.mp h
  exact List.mem_append_right before List.mem_cons_self

theorem mem_keys_insertMember {key k : String} {v : Json} {ms : List (String × Json)} :
    key ∈ (insertMember k v ms).map (·.1) ↔ key = k ∨ key ∈ ms.map (·.1) := by
  induction ms with
  | nil => simp [insertMember]
  | cons m ms ih =>
    obtain ⟨j, w⟩ := m
    rw [insertMember]
    split_ifs with same less
    · subst same
      simp
    · simp
    · simp only [List.map_cons, List.mem_cons, ih]
      tauto

/-- **An object has the keys that it is given, and no other.** -/
theorem mem_keys_collected {key : String} {ms : List (String × Json)} :
    key ∈ (collected ms).map (·.1) ↔ key ∈ ms.map (·.1) := by
  induction ms using List.reverseRecOn with
  | nil => rfl
  | append_singleton ms m ih =>
    rw [collected_append_singleton, mem_keys_insertMember, ih, List.map_append, List.mem_append, or_comm]
    simp

/-- Keys in order are the same if they are the same but for the order. -/
theorem InKeyOrder.keys_eq {ms ms' : List (String × Json)} (ordered : InKeyOrder ms) (ordered' : InKeyOrder ms')
    (same : ∀ key, key ∈ ms.map (·.1) ↔ key ∈ ms'.map (·.1)) : ms.map (·.1) = ms'.map (·.1) := by
  have sorted : ∀ {ms : List (String × Json)}, InKeyOrder ms → (ms.map (·.1)).Pairwise (· < ·) := List.pairwise_map.mpr
  have perm : (ms.map (·.1)).Perm (ms'.map (·.1)) :=
    (List.perm_ext_iff_of_nodup ordered.nodup ordered'.nodup).mpr same
  exact perm.eq_of_pairwise (fun _ _ _ _ less more => absurd more (lt_asymm less)) (sorted ordered) (sorted ordered')

/-- Members in order are the same if they are the same but for the order. -/
theorem InKeyOrder.eq_of_mem_iff {ms ms' : List (String × Json)} (ordered : InKeyOrder ms) (ordered' : InKeyOrder ms')
    (same : ∀ m, m ∈ ms ↔ m ∈ ms') : ms = ms' := by
  have perm : ms.Perm ms' :=
    (List.perm_ext_iff_of_nodup (.of_map _ ordered.nodup) (.of_map _ ordered'.nodup)).mpr same
  exact perm.eq_of_pairwise (fun _ _ _ _ less more => absurd more (lt_asymm less)) ordered ordered'

/-- Members in order stay as they are in the object that they make. -/
theorem InKeyOrder.collected_eq {ms : List (String × Json)} (ordered : InKeyOrder ms) : collected ms = ms := by
  apply (inKeyOrder_collected ms).eq_of_mem_iff ordered
  rintro ⟨key, v⟩
  rw [← lookup_eq_some_iff (inKeyOrder_collected ms).nodup]
  exact get?_ofMembers_eq_some_iff ordered.nodup

/-- **The order of the keys and the last value of each are all there is to an object.** -/
theorem eq_collected_iff {ms ms' : List (String × Json)} :
    ms' = collected ms ↔ InKeyOrder ms' ∧ ∀ key v, (key, v) ∈ ms' ↔ LastGiven ms key v := by
  constructor
  · rintro rfl
    exact ⟨inKeyOrder_collected ms, fun key v => mem_collected_iff⟩
  · rintro ⟨ordered, values⟩
    apply ordered.eq_of_mem_iff (inKeyOrder_collected ms)
    rintro ⟨key, v⟩
    rw [values, mem_collected_iff]

end Json
end OracleRelay
