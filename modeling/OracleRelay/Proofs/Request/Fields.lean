/-
# Fields under their names

What setting values does to a request. A value that is set stands under its name and all other names keep theirs
(`get?_insert`); a name keeps its place, and a new one goes to the end (`keys_insert`). So after several values were set
under distinct names, the names that were there before come first and the missing ones follow in the order given
(`keys_merge`). The order of the names and the value under each are all there is to a request (`eq_of_get?`), so this
says all of the result (`eq_merge_iff`). And a request made of named values has each name where it comes first, with the
value that it is given last (`eq_ofList_iff`).

Key definitions: `Fields.keys`.
Key theorems: `Fields.get?_insert`, `Fields.keys_insert`, `Fields.get?_merge`, `Fields.keys_merge`, `Fields.eq_of_get?`,
`Fields.eq_merge_iff`, `Fields.eq_ofList_iff`, `Fields.ofList_members`.
-/
import Mathlib.Data.List.Nodup
import OracleRelay.Proofs.Json.Members
import OracleRelay.Request.Fields

namespace OracleRelay
namespace Fields

/-- The names of a request in their order. -/
def keys (f : Fields) : List String := f.members.map (·.1)

theorem lookup_put (key k : String) (v : Json) (ms : List (String × Json)) :
    Json.lookup key (put k v ms) = if k = key then some v else Json.lookup key ms := by
  induction ms with
  | nil => rfl
  | cons m ms ih =>
    obtain ⟨j, w⟩ := m
    rw [put]
    by_cases same : j = k
    · subst same
      by_cases hit : j = key <;> simp [Json.lookup, hit]
    · rw [if_neg same, Json.lookup, ih, Json.lookup]
      by_cases hit : k = key
      · subst hit
        simp [same]
      · simp [hit]

theorem lookup_eq_none {key : String} : ∀ {ms : List (String × Json)}, key ∉ ms.map (·.1) → Json.lookup key ms = none
  | [], _ => rfl
  | (k, v) :: ms, other => by
    simp only [List.map_cons, List.mem_cons, not_or] at other
    rw [Json.lookup, if_neg (Ne.symm other.1), lookup_eq_none other.2]

theorem exists_lookup_of_mem {key : String} : ∀ {ms : List (String × Json)}, key ∈ ms.map (·.1) →
    ∃ v, Json.lookup key ms = some v
  | (k, v) :: ms, there => by
    by_cases same : k = key
    · exact ⟨v, by rw [Json.lookup, if_pos same]⟩
    · rw [List.map_cons, List.mem_cons] at there
      obtain ⟨w, found⟩ := exists_lookup_of_mem (there.resolve_left (Ne.symm same))
      exact ⟨w, by rw [Json.lookup, if_neg same, found]⟩

theorem keys_put (k : String) (v : Json) (ms : List (String × Json)) : (put k v ms).map (·.1) =
    if k ∈ ms.map (·.1) then ms.map (·.1) else ms.map (·.1) ++ [k] := by
  induction ms with
  | nil => rfl
  | cons m ms ih =>
    obtain ⟨j, w⟩ := m
    rw [put]
    by_cases same : j = k
    · subst same
      simp
    · rw [if_neg same, List.map_cons, ih]
      by_cases there : k ∈ ms.map (·.1)
      · rw [if_pos there, if_pos (by simp only [List.map_cons]; exact List.mem_cons_of_mem _ there)]
        rfl
      · rw [if_neg there, if_neg (by simp only [List.map_cons, List.mem_cons]; tauto)]
        rfl

@[simp] theorem get?_insert (f : Fields) (key k : String) (v : Json) :
    (f.insert k v).get? key = if k = key then some v else f.get? key := lookup_put key k v f.members

theorem exists_get?_of_mem {f : Fields} {key : String} (h : key ∈ f.keys) : ∃ v, f.get? key = some v :=
  exists_lookup_of_mem h

theorem keys_insert (f : Fields) (k : String) (v : Json) :
    (f.insert k v).keys = if k ∈ f.keys then f.keys else f.keys ++ [k] := keys_put k v f.members

/-- A name that was given no value keeps the one it had. -/
theorem get?_merge_of_not_mem {key : String} : ∀ {ms : List (String × Json)} (f : Fields), key ∉ ms.map (·.1) →
    (f.merge ms).get? key = f.get? key
  | [], _, _ => rfl
  | (k, v) :: ms, f, other => by
    simp only [List.map_cons, List.mem_cons, not_or] at other
    have rest : ((f.insert k v).merge ms).get? key = (f.insert k v).get? key := get?_merge_of_not_mem _ other.2
    rw [get?_insert, if_neg (Ne.symm other.1)] at rest
    exact rest

/-- A value is found under its name, if the name was given no other one. -/
theorem get?_merge {key : String} {v : Json} : ∀ {ms : List (String × Json)} (f : Fields), (ms.map (·.1)).Nodup →
    (key, v) ∈ ms → (f.merge ms).get? key = some v
  | (k, w) :: ms, f, distinct, given => by
    rw [List.map_cons, List.nodup_cons] at distinct
    rcases List.mem_cons.mp given with first | later
    · cases first
      have rest : ((f.insert key v).merge ms).get? key = (f.insert key v).get? key :=
        get?_merge_of_not_mem _ distinct.1
      rw [get?_insert, if_pos rfl] at rest
      exact rest
    · exact get?_merge (f.insert k w) distinct.2 later

/-- Names that are there keep their places, and the missing ones follow. -/
theorem keys_merge : ∀ {ms : List (String × Json)} (f : Fields), (ms.map (·.1)).Nodup →
    (f.merge ms).keys = f.keys ++ (ms.map (·.1)).filter (· ∉ f.keys)
  | [], f, _ => (List.append_nil _).symm
  | (k, v) :: ms, f, distinct => by
    rw [List.map_cons, List.nodup_cons] at distinct
    have rest : ((f.insert k v).merge ms).keys = _ := keys_merge (f.insert k v) distinct.2
    change ((f.insert k v).merge ms).keys = _
    rw [rest, keys_insert, List.map_cons]
    by_cases there : k ∈ f.keys
    · simp [there]
    · have others : (ms.map (·.1)).filter (· ∉ f.keys ++ [k]) = (ms.map (·.1)).filter (· ∉ f.keys) := by
        refine List.filter_congr fun j hj => ?_
        have : j ≠ k := fun h => distinct.1 (h ▸ hj)
        simp [this]
      rw [if_neg there, others, List.filter_cons_of_pos (by simpa using there), List.append_assoc]
      rfl

theorem eq_of_lookup : ∀ {ms ms' : List (String × Json)}, (ms.map (·.1)).Nodup → ms.map (·.1) = ms'.map (·.1) →
    (∀ key, Json.lookup key ms = Json.lookup key ms') → ms = ms'
  | [], [], _, _, _ => rfl
  | [], _ :: _, _, names, _ => by simp at names
  | _ :: _, [], _, names, _ => by simp at names
  | (k, v) :: ms, (k', v') :: ms', distinct, names, values => by
    simp only [List.map_cons, List.cons.injEq] at names
    obtain ⟨rfl, names⟩ := names
    rw [List.map_cons, List.nodup_cons] at distinct
    have first : v = v' := by simpa [Json.lookup] using values k
    have rest : ms = ms' := by
      refine eq_of_lookup distinct.2 names fun key => ?_
      by_cases hit : k = key
      · subst hit
        rw [lookup_eq_none distinct.1, lookup_eq_none (names ▸ distinct.1)]
      · simpa [Json.lookup, hit] using values key
    rw [first, rest]

/-- **Names in their order and the value under each are all there is to a request.** -/
theorem eq_of_get? {f g : Fields} (names : f.keys = g.keys) (values : ∀ key, f.get? key = g.get? key) : f = g := by
  obtain ⟨ms, distinct⟩ := f
  obtain ⟨ms', distinct'⟩ := g
  congr
  exact eq_of_lookup distinct names values

/-- **What setting values under distinct names gives**: these values, and of the rest what was there. -/
theorem eq_merge_iff {f g : Fields} {ms : List (String × Json)} (distinct : (ms.map (·.1)).Nodup) :
    g = f.merge ms ↔ (∀ m ∈ ms, g.get? m.1 = some m.2) ∧ (∀ key ∉ ms.map (·.1), g.get? key = f.get? key) ∧
      g.keys = f.keys ++ (ms.map (·.1)).filter (· ∉ f.keys) := by
  constructor
  · rintro rfl
    exact ⟨fun m hm => get?_merge f distinct hm, fun key other => get?_merge_of_not_mem f other, keys_merge f distinct⟩
  · rintro ⟨set, kept, names⟩
    apply eq_of_get?
    · rw [names, keys_merge f distinct]
    · intro key
      by_cases given : key ∈ ms.map (·.1)
      · obtain ⟨m, hm, rfl⟩ := List.mem_map.mp given
        rw [set m hm, get?_merge f distinct hm]
      · rw [kept key given, get?_merge_of_not_mem f given]

/-! ### Named values in a row -/

theorem ofList_concat (ms : List (String × Json)) (k : String) (v : Json) :
    ofList (ms ++ [(k, v)]) = (ofList ms).insert k v := by
  simp [ofList, merge, List.foldl_append]

/-- The value that a name is given last stands under it. -/
theorem get?_ofList_eq_some_iff {ms : List (String × Json)} {key : String} {v : Json} :
    (ofList ms).get? key = some v ↔ Json.LastGiven ms key v := by
  rw [← Json.lookup_reverse_eq_some_iff]
  induction ms using List.reverseRecOn with
  | nil => rfl
  | append_singleton ms m ih =>
    rw [ofList_concat, get?_insert, List.reverse_append, List.reverse_singleton, List.singleton_append, Json.lookup]
    by_cases hit : m.1 = key
    · rw [if_pos hit, if_pos hit]
    · rw [if_neg hit, if_neg hit, ih]

/-- The names stand in the order in which they come first. -/
theorem keys_ofList (ms : List (String × Json)) : (ofList ms).keys = (ms.map (·.1)).eraseDups := by
  induction ms using List.reverseRecOn with
  | nil => rfl
  | append_singleton ms m ih =>
    rw [ofList_concat, keys_insert, ih, List.map_append, List.eraseDups_append]
    by_cases there : m.1 ∈ ms.map (·.1)
    · have known : m.1 ∈ (ms.map (·.1)).eraseDups := List.mem_eraseDups.mpr there
      have nothing : ([m].map (·.1)).removeAll (ms.map (·.1)) = [] := by simpa [List.removeAll] using there
      rw [if_pos known, nothing]
      exact (List.append_nil _).symm
    · have new : m.1 ∉ (ms.map (·.1)).eraseDups := fun h => there (List.mem_eraseDups.mp h)
      have one : ([m].map (·.1)).removeAll (ms.map (·.1)) = [m.1] := by simpa [List.removeAll] using there
      rw [if_neg new, one]
      rfl

/-- **The names in the order in which they come first, and the last value of each, are all that named values give.** -/
theorem eq_ofList_iff {f : Fields} {ms : List (String × Json)} : f = ofList ms ↔
    f.keys = (ms.map (·.1)).eraseDups ∧ ∀ key v, f.get? key = some v ↔ Json.LastGiven ms key v := by
  constructor
  · rintro rfl
    exact ⟨keys_ofList ms, fun key v => get?_ofList_eq_some_iff⟩
  · rintro ⟨names, values⟩
    apply eq_of_get?
    · rw [names, keys_ofList]
    · intro key
      apply Option.ext
      intro v
      rw [values, get?_ofList_eq_some_iff]

/-- **A request is what its own named values give.** -/
theorem ofList_members (f : Fields) : ofList f.members = f := by
  apply eq_of_get?
  · have names : (ofList f.members).keys = _ := keys_merge {} f.nodup
    rw [names]
    simp [keys]
  · intro key
    by_cases there : key ∈ f.keys
    · obtain ⟨v, found⟩ := exists_get?_of_mem there
      rw [found]
      exact get?_merge {} f.nodup ((Json.lookup_eq_some_iff f.nodup).mp found)
    · have none : f.get? key = none := lookup_eq_none there
      rw [none]
      exact get?_merge_of_not_mem {} there

end Fields
end OracleRelay
