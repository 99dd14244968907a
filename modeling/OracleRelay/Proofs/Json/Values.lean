/-
# Values and their trees

The value of the tree of a value is the value again, if its objects have their members in the order of the keys and it is
not nested too deeply (`Json.Tree.value?_ofValue`). Every value that is read from a tree is such a value
(`Json.Tree.tidy_of_value?`), and its numbers are among those of the tree (`Json.Tree.numbers_of_value?`).

Key definitions: `Json.Numbers`, `Json.Tidy`, `Json.Tree.Numbers`.
Key theorems: `Json.Tree.value?_ofValue`, `Json.Tree.tidy_of_value?`, `Json.Tree.numbers_of_value?`.
-/
import OracleRelay.Json.Tree
import OracleRelay.Proofs.Json.Members

namespace OracleRelay
namespace Json

/-! ### Numbers and nesting of values -/

/-- Every number in the value is of this kind. -/
inductive Numbers (p : Number → Prop) : Json → Prop where
  | null : Numbers p .null
  | bool {b : Bool} : Numbers p (.bool b)
  | number {n : Number} : p n → Numbers p (.number n)
  | text {s : String} : Numbers p (.text s)
  | array {items : List Json} : (∀ v ∈ items, Numbers p v) → Numbers p (.array items)
  | object {members : List (String × Json)} : (∀ m ∈ members, Numbers p m.2) → Numbers p (.object members)

/-- At most so many arrays and objects are inside each other, and every object has its members in the order of their
keys. -/
inductive Tidy : Nat → Json → Prop where
  | null {depth : Nat} : Tidy depth .null
  | bool {depth : Nat} {b : Bool} : Tidy depth (.bool b)
  | number {depth : Nat} {n : Number} : Tidy depth (.number n)
  | text {depth : Nat} {s : String} : Tidy depth (.text s)
  | array {depth : Nat} {items : List Json} : (∀ v ∈ items, Tidy depth v) → Tidy (depth + 1) (.array items)
  | object {depth : Nat} {members : List (String × Json)} : InKeyOrder members → (∀ m ∈ members, Tidy depth m.2) →
    Tidy (depth + 1) (.object members)

section Numbers

variable {p q : Number → Prop}

@[simp] theorem numbers_text (s : String) : (Json.text s).Numbers p := .text

@[simp] theorem numbers_bool (b : Bool) : (Json.bool b).Numbers p := .bool

@[simp] theorem numbers_null : Json.null.Numbers p := .null

@[simp] theorem numbers_number_iff {n : Number} : (Json.number n).Numbers p ↔ p n := by
  constructor
  · rintro ⟨⟩
    assumption
  · exact .number

@[simp] theorem numbers_array_iff {items : List Json} : (Json.array items).Numbers p ↔ ∀ v ∈ items, v.Numbers p := by
  constructor
  · rintro ⟨⟩
    assumption
  · exact .array

@[simp] theorem numbers_object_iff {ms : List (String × Json)} :
    (Json.object ms).Numbers p ↔ ∀ m ∈ ms, m.2.Numbers p := by
  constructor
  · rintro ⟨⟩
    assumption
  · exact .object

theorem Numbers.and {v : Json} (hp : v.Numbers p) (hq : v.Numbers q) : v.Numbers fun n => p n ∧ q n := by
  induction hp with
  | null => exact .null
  | bool => exact .bool
  | number here => exact .number ⟨here, numbers_number_iff.mp hq⟩
  | text => exact .text
  | array _ ih => exact .array fun v hv => ih v hv (numbers_array_iff.mp hq v hv)
  | object _ ih => exact .object fun m hm => ih m hm (numbers_object_iff.mp hq m hm)

end Numbers

theorem Tidy.mono {depth depth' : Nat} (le : depth ≤ depth') {v : Json} (h : v.Tidy depth) : v.Tidy depth' := by
  induction h generalizing depth' with
  | null => exact .null
  | bool => exact .bool
  | number => exact .number
  | text => exact .text
  | @array depth items _ ih =>
    obtain ⟨more, rfl⟩ : ∃ more, depth' = more + 1 := ⟨depth' - 1, by omega⟩
    exact .array fun v hv => ih v hv (by omega)
  | @object depth members ordered _ ih =>
    obtain ⟨more, rfl⟩ : ∃ more, depth' = more + 1 := ⟨depth' - 1, by omega⟩
    exact .object ordered fun m hm => ih m hm (by omega)

namespace Tree

/-- Every number that the tree has a value for is of this kind. -/
inductive Numbers (p : Number → Prop) : Tree → Prop where
  | null : Numbers p .null
  | bool {b : Bool} : Numbers p (.bool b)
  | number {n : Option Number} : (∀ k ∈ n, p k) → Numbers p (.number n)
  | text {s : Option String} : Numbers p (.text s)
  | array {items : List Tree} : (∀ t ∈ items, Numbers p t) → Numbers p (.array items)
  | object {members : List (Option String × Tree)} : (∀ m ∈ members, Numbers p m.2) → Numbers p (.object members)

/-! ### The value of the tree of a value -/

theorem ofMembers_eq_map : ∀ ms : List (String × Json), ofMembers ms = ms.map fun m => (some m.1, ofValue m.2)
  | [] => rfl
  | (k, v) :: ms => congrArg ((some k, ofValue v) :: ·) (ofMembers_eq_map ms)

theorem ofValue_ne_null {v : Json} (other : v ≠ .null) : ofValue v ≠ .null := by
  cases v with
  | null => exact absurd rfl other
  | bool _ => exact nofun
  | number _ => exact nofun
  | text _ => exact nofun
  | array _ => exact nofun
  | object _ => exact nofun

theorem values?_ofValues {depth : Nat} : ∀ {items : List Json}, (∀ v ∈ items, value? depth (ofValue v) = some v) →
    values? depth (ofValues items) = some items
  | [], _ => rfl
  | v :: vs, back => by
    have first := back v List.mem_cons_self
    have later := values?_ofValues fun w hw => back w (List.mem_cons_of_mem v hw)
    rw [ofValues, values?, first, later]

theorem members?_ofMembers {depth : Nat} : ∀ {ms : List (String × Json)},
    (∀ m ∈ ms, value? depth (ofValue m.2) = some m.2) → members? depth (ofMembers ms) = some ms
  | [], _ => rfl
  | (k, v) :: ms, back => by
    have first : value? depth (ofValue v) = some v := back (k, v) List.mem_cons_self
    have later := members?_ofMembers fun m hm => back m (List.mem_cons_of_mem (k, v) hm)
    simp only [ofMembers, members?, first, later]

/-- **A value is the value of its tree**, if it can be nested that deeply. -/
theorem value?_ofValue {depth : Nat} {v : Json} (tidy : v.Tidy depth) : value? depth (ofValue v) = some v := by
  induction tidy with
  | null => rfl
  | bool => rfl
  | number => rfl
  | text => rfl
  | @array depth items _ ih =>
    rw [ofValue, value?, if_neg (Nat.succ_ne_zero depth), Nat.add_sub_cancel, values?_ofValues ih]
    rfl
  | @object depth ms ordered _ ih =>
    rw [ofValue, value?, if_neg (Nat.succ_ne_zero depth), Nat.add_sub_cancel, members?_ofMembers ih]
    show some (Json.object (collected ms)) = some (Json.object ms)
    rw [ordered.collected_eq]

/-! ### What is read from a tree -/

theorem exists_of_values? {depth : Nat} {v : Json} : ∀ {ts : List Tree} {vs : List Json},
    values? depth ts = some vs → v ∈ vs → ∃ t ∈ ts, value? depth t = some v
  | [], vs, read, there => by
    cases read
    cases there
  | t :: ts, vs, read, there => by
    rw [values?] at read
    split at read
    · rename_i w ws first later
      cases read
      rcases List.mem_cons.mp there with rfl | among
      · exact ⟨t, List.mem_cons_self, first⟩
      · obtain ⟨t', member, same⟩ := exists_of_values? later among
        exact ⟨t', List.mem_cons_of_mem t member, same⟩
    · cases read

theorem exists_of_members? {depth : Nat} {m : String × Json} : ∀ {ts : List (Option String × Tree)}
    {ms : List (String × Json)}, members? depth ts = some ms → m ∈ ms → ∃ t ∈ ts, value? depth t.2 = some m.2
  | [], ms, read, there => by
    cases read
    cases there
  | (k, t) :: ts, ms, read, there => by
    rw [members?.eq_def] at read
    simp only at read
    split at read
    · rename_i first later
      cases read
      rcases List.mem_cons.mp there with rfl | among
      · exact ⟨(_, t), List.mem_cons_self, first⟩
      · obtain ⟨t', member, same⟩ := exists_of_members? later among
        exact ⟨t', List.mem_cons_of_mem _ member, same⟩
    · cases read

/-- **A value that is read is nested no deeper than it may be, and has its members in order.** -/
theorem tidy_of_value? : ∀ {depth : Nat} {t : Tree} {v : Json}, value? depth t = some v → v.Tidy depth
  | _, .null, _, read => by
    cases read
    exact .null
  | _, .bool _, _, read => by
    cases read
    exact .bool
  | _, .number _, _, read => by
    obtain ⟨n, -, rfl⟩ := Option.map_eq_some_iff.mp read
    exact .number
  | _, .text _, _, read => by
    obtain ⟨s, -, rfl⟩ := Option.map_eq_some_iff.mp read
    exact .text
  | 0, .array _, _, read => by cases read
  | 0, .object _, _, read => by cases read
  | depth + 1, .array items, _, read => by
    obtain ⟨vs, elements, rfl⟩ := Option.map_eq_some_iff.mp read
    refine .array fun v hv => ?_
    obtain ⟨t, -, element⟩ := exists_of_values? elements hv
    exact tidy_of_value? element
  | depth + 1, .object ms, _, read => by
    obtain ⟨ms', members, rfl⟩ := Option.map_eq_some_iff.mp read
    refine .object (inKeyOrder_collected ms') fun m hm => ?_
    obtain ⟨t, -, member⟩ := exists_of_members? members (mem_of_mem_collected hm)
    exact tidy_of_value? member

/-- **The numbers of a value that is read stand in the tree.** -/
theorem numbers_of_value? {p : Number → Prop} : ∀ {t : Tree}, t.Numbers p → ∀ {depth : Nat} {v : Json},
    value? depth t = some v → v.Numbers p := by
  intro t numbers
  induction numbers with
  | null =>
    intro depth v read
    cases read
    exact .null
  | bool =>
    intro depth v read
    cases read
    exact .bool
  | number here =>
    intro depth v read
    obtain ⟨n, rfl, rfl⟩ := Option.map_eq_some_iff.mp read
    exact .number (here n rfl)
  | text =>
    intro depth v read
    obtain ⟨s, -, rfl⟩ := Option.map_eq_some_iff.mp read
    exact .text
  | array _ ih =>
    intro depth v read
    rw [value?] at read
    split_ifs at read
    obtain ⟨vs, elements, rfl⟩ := Option.map_eq_some_iff.mp read
    refine .array fun v hv => ?_
    obtain ⟨t, there, element⟩ := exists_of_values? elements hv
    exact ih t there element
  | object _ ih =>
    intro depth v read
    rw [value?] at read
    split_ifs at read
    obtain ⟨ms, members, rfl⟩ := Option.map_eq_some_iff.mp read
    refine .object fun m hm => ?_
    obtain ⟨t, there, member⟩ := exists_of_members? members (mem_of_mem_collected hm)
    exact ih t there member

end Tree
end Json
end OracleRelay
