/-
# Records written and read again

A way to read values of a type and a way to write them belong together if whatever is read can be written and read again,
and gives the same value (`Json.Lawful`). Strings, natural numbers, integers, booleans, named values and free values are
written so, and lists and records of what is written so are too (`Json.lawful_list`, `Json.lawful_record`). A record may
be read from an object or from an array, with fields left out and others among them; it is written as an object, so a
field that is left out is written with its default, which may take more nesting than the text had. The nesting that the
defaults take stands beside each law.

Key definitions: `Json.Restores`, `Json.Lawful`, `Json.Record.Keeps`, `Json.RoundTrips`.
Key theorems: `Json.lawful_list`, `Json.lawful_value`, `Json.Record.read?_ofValue`, `Json.Record.keeps_required`,
`Json.Record.keeps_withDefault`, `Json.Record.keeps_optional`, `Json.lawful_record`, `Json.Lawful.roundTrips`.
-/
import OracleRelay.Proofs.Json.Reading

namespace OracleRelay
namespace Json

variable {α : Type}

/-! ### What is written and read again -/

/-- What is written is read as the value wherever it may be nested so deeply, and its integers have 64 bits. -/
structure Restores (reader : Reader α) (depth : Nat) (written : Json) (x : α) : Prop where
  back : ∀ d, depth ≤ d → reader d (Tree.ofValue written) = some x
  sized : written.Numbers Number.Sized

/-- Whatever is read from a text can be written and read again, in the nesting of the text or in so many levels. -/
def Lawful (reader : Reader α) (toJson : α → Json) (levels : Nat) : Prop :=
  ∀ ⦃depth : Nat⦄ ⦃t : Tree⦄ ⦃x : α⦄, t.Numbers Number.Sized → reader depth t = some x →
    Restores reader (max depth levels) (toJson x) x

theorem Restores.mono {reader : Reader α} {depth depth' : Nat} {written : Json} {x : α} (le : depth ≤ depth')
    (restored : Restores reader depth written x) : Restores reader depth' written x :=
  ⟨fun d le' => restored.back d (le_trans le le'), restored.sized⟩

theorem Lawful.mono {reader : Reader α} {toJson : α → Json} {levels levels' : Nat} (le : levels ≤ levels')
    (law : Lawful reader toJson levels) : Lawful reader toJson levels' :=
  fun _ _ _ sized read => (law sized read).mono (max_le_max_left _ le)

/-- **Whatever text is read as a value, the text written for the value is read as the value again**, and writing that
gives the same text. This is asked of the values of some kind. -/
def RoundTrips (reader : Reader α) (toJson : α → Json) (kind : α → Prop) : Prop :=
  ∀ (s : String) (x : α), readText? reader s = some x → kind x →
    readText? reader (toJson x).render = some x ∧
      (readText? reader (toJson x).render).map (fun y => (toJson y).render) = some (toJson x).render

theorem Lawful.roundTrips {reader : Reader α} {toJson : α → Json} {levels : Nat} {kind : α → Prop}
    (law : Lawful reader toJson levels) (few : levels ≤ maxDepth)
    (whole : ∀ x, kind x → (toJson x).Numbers Number.Whole) : RoundTrips reader toJson kind := by
  intro s x read free
  obtain ⟨t, split, given⟩ := Option.bind_eq_some_iff.mp read
  have restored := law (Tree.sized_of_ofText? split) given
  have integers : (toJson x).Numbers Number.Exact := restored.sized.and (whole x free)
  have again : readText? reader (toJson x).render = some x := by
    rw [Tree.readText?_render reader integers]
    exact restored.back maxDepth (max_le le_rfl few)
  exact ⟨again, by rw [again, Option.map_some]⟩

/-- What an empty record is read as can be written and read again. -/
theorem Lawful.restores_default {reader : Reader α} {toJson : α → Json} {levels : Nat} {x : α}
    (law : Lawful reader toJson levels) (empty : reader levels (.object []) = some x) :
    Restores reader levels (toJson x) x := by
  have restored := law (.object (by simp)) empty
  rwa [max_self] at restored

/-! ### Plain values -/

theorem lawful_string (levels : Nat) : Lawful Tree.string? Json.text levels := by
  intro depth t s _ read
  exact ⟨fun _ _ => rfl, .text⟩

theorem lawful_bool (levels : Nat) : Lawful Tree.bool? Json.bool levels := by
  intro depth t b _ read
  exact ⟨fun _ _ => rfl, .bool⟩

/-- A natural number that fits is read again. -/
theorem restores_nat {bits n : Nat} (few : bits ≤ 64) (fits : n < 2 ^ bits) (depth : Nat) :
    Restores (Tree.nat? bits) depth (.nat n) n := by
  have le : 2 ^ bits ≤ 2 ^ 64 := Nat.pow_le_pow_right (by decide) few
  constructor
  · intro d _
    exact if_pos fits
  · refine .number ⟨by omega, ?_⟩
    show (n : Int) < 0x10000000000000000
    omega

theorem lawful_nat {bits : Nat} (few : bits ≤ 64) (levels : Nat) : Lawful (Tree.nat? bits) Json.nat levels := by
  intro depth t n _ read
  unfold Tree.nat? at read
  split at read
  · split_ifs at read with fits
    cases read
    exact restores_nat few fits _
  · cases read

theorem lawful_int (levels : Nat) : Lawful (Tree.int? 64) Json.int levels := by
  intro depth t n sized read
  unfold Tree.int? at read
  split at read
  · rename_i m
    simp only at read
    split_ifs at read with fits
    cases read
    cases sized with
    | number here => exact ⟨fun _ _ => if_pos fits, .number (here _ rfl)⟩
  · cases read

/-- A value that has a name is read again from its name. -/
theorem lawful_tag {names : List (String × α)} {tag : α → String} (named : ∀ x, names.lookup (tag x) = some x)
    (levels : Nat) : Lawful (Tree.tag? names) (fun x => .text (tag x)) levels := by
  intro depth t x _ _
  exact ⟨fun _ _ => named x, .text⟩

/-- A free value is read again as it is. -/
theorem lawful_value (levels : Nat) : Lawful Tree.value? id levels := by
  intro depth t v sized read
  have tidy : v.Tidy depth := Tree.tidy_of_value? read
  have deeper {d : Nat} (le : max depth levels ≤ d) : v.Tidy d := tidy.mono (le_trans (le_max_left depth levels) le)
  exact ⟨fun d le => Tree.value?_ofValue (deeper le), Tree.numbers_of_value? sized read⟩

/-- Only `null` is read as `null`. -/
theorem Tree.value?_ne_null {depth : Nat} {t : Tree} {v : Json} (other : t ≠ .null) (read : value? depth t = some v) :
    v ≠ .null := by
  rintro rfl
  cases t with
  | null => exact other rfl
  | bool b => cases read
  | number n =>
    obtain ⟨n, -, same⟩ := Option.map_eq_some_iff.mp read
    cases same
  | text s =>
    obtain ⟨s, -, same⟩ := Option.map_eq_some_iff.mp read
    cases same
  | array items =>
    rw [value?] at read
    split_ifs at read
    obtain ⟨vs, -, same⟩ := Option.map_eq_some_iff.mp read
    cases same
  | object ms =>
    rw [value?] at read
    split_ifs at read
    obtain ⟨ms', -, same⟩ := Option.map_eq_some_iff.mp read
    cases same

@[simp] theorem whole_nat (n : Nat) : (Json.nat n).Numbers Number.Whole := .number trivial

@[simp] theorem whole_int (n : Int) : (Json.int n).Numbers Number.Whole := .number trivial

theorem exact_nat {n : Nat} (fits : n < 0x10000000000000000) : (Json.nat n).Numbers Number.Exact :=
  .number ⟨⟨by omega, Int.ofNat_lt.mpr fits⟩, trivial⟩

/-! ### Lists -/

theorem exists_of_mapM {β γ : Type} {f : β → Option γ} {y : γ} : ∀ {xs : List β} {ys : List γ}, xs.mapM f = some ys →
    y ∈ ys → ∃ x ∈ xs, f x = some y
  | [], ys, read, there => by
    cases read
    cases there
  | x :: xs, ys, read, there => by
    rw [List.mapM_cons] at read
    obtain ⟨z, first, read⟩ := Option.bind_eq_some_iff.mp read
    obtain ⟨zs, later, same⟩ := Option.bind_eq_some_iff.mp read
    cases same
    rcases List.mem_cons.mp there with rfl | among
    · exact ⟨x, List.mem_cons_self, first⟩
    · obtain ⟨x', member, same⟩ := exists_of_mapM later among
      exact ⟨x', List.mem_cons_of_mem x member, same⟩

theorem mapM_ofValues {f : Tree → Option α} {toJson : α → Json} : ∀ {xs : List α},
    (∀ x ∈ xs, f (Tree.ofValue (toJson x)) = some x) → (Tree.ofValues (xs.map toJson)).mapM f = some xs
  | [], _ => rfl
  | x :: xs, back => by
    have first := back x List.mem_cons_self
    have later := mapM_ofValues fun y hy => back y (List.mem_cons_of_mem x hy)
    rw [List.map_cons, Tree.ofValues, List.mapM_cons, first, later]
    rfl

/-- **A list is read again if its elements are.** -/
theorem lawful_list {reader : Reader α} {toJson : α → Json} {levels : Nat} (law : Lawful reader toJson levels) :
    Lawful (Tree.list? reader) (fun xs => .array (xs.map toJson)) (levels + 1) := by
  intro depth t xs sized read
  unfold Tree.list? at read
  split at read
  · rename_i items
    split_ifs at read with nested
    have elements : ∀ x ∈ xs, Restores reader (max (depth - 1) levels) (toJson x) x := by
      intro x hx
      obtain ⟨t, there, given⟩ := exists_of_mapM read hx
      cases sized with
      | array all => exact law (all t there) given
    constructor
    · intro d le
      have room : max (depth - 1) levels ≤ d - 1 := by omega
      rw [Tree.ofValue, Tree.list?, if_neg (by omega)]
      exact mapM_ofValues fun x hx => (elements x hx).back (d - 1) room
    · refine .array fun v hv => ?_
      obtain ⟨x, hx, rfl⟩ := List.mem_map.mp hv
      exact (elements x hx).sized
  · cases read

/-- A list of free values is read again as it is. -/
theorem lawful_values (levels : Nat) : Lawful (Tree.list? Tree.value?) Json.array (levels + 1) := by
  have elements := lawful_list (lawful_value levels)
  simpa only [List.map_id] using elements

/-! ### Records as they are read -/

/-- What a text says about a field that something is written for, or nothing is. -/
def Slot.ofWritten : Option Json → Slot
  | some v => .given (Tree.ofValue v)
  | none => .absent

namespace Record

/-- Every number that stands in a field is of this kind. -/
def Numbers (p : Number → Prop) (r : Record) : Prop := ∀ {name : String} {t : Tree}, r.slot name = .given t → t.Numbers p

theorem mem_ofItems {name : String} {t : Tree} : ∀ {names : List String} {items : List Tree},
    (name, Slot.given t) ∈ ofItems names items → t ∈ items
  | [], _, there => by cases there
  | n :: names, [], there => by
    rcases List.mem_cons.mp there with same | later
    · cases same
    · exact mem_ofItems later
  | n :: names, u :: items, there => by
    rcases List.mem_cons.mp there with same | later
    · cases same
      exact List.mem_cons_self
    · exact List.mem_cons_of_mem u (mem_ofItems later)

theorem exists_of_find? {name : String} {members : List (Option String × Tree)} {t : Tree}
    (found : find? name members = some (.given t)) : ∃ m ∈ members, m.2 = t := by
  unfold find? at found
  split at found
  · cases found
  · rename_i k u only
    cases found
    have there : (k, t) ∈ members.filter (·.1 = some name) := by rw [only]; exact List.mem_cons_self
    exact ⟨(k, t), (List.mem_filter.mp there).1, rfl⟩
  · cases found

theorem mem_slots {r : Record} {name : String} {t : Tree} (said : r.slot name = .given t) :
    (name, Slot.given t) ∈ r.slots := by
  rw [slot] at said
  cases found : r.slots.lookup name with
  | none =>
    rw [found] at said
    cases said
  | some s =>
    rw [found] at said
    cases said
    obtain ⟨before, after, same, -⟩ := List.lookup_eq_some_iff.mp found
    rw [same]
    exact List.mem_append_right before List.mem_cons_self

/-- A record that is read has the fields' values one level deeper, and its numbers stand in the text. -/
theorem of_read? {p : Number → Prop} {names : List String} {depth : Nat} {t : Tree} {r : Record} (numbers : t.Numbers p)
    (read : read? names depth t = some r) : depth = r.depth + 1 ∧ r.Numbers p := by
  unfold read? at read
  split at read
  · cases read
  · split_ifs at read
    obtain ⟨slots, fields, rfl⟩ := Option.map_eq_some_iff.mp read
    refine ⟨rfl, fun {name u} said => ?_⟩
    obtain ⟨name', -, field⟩ := exists_of_mapM fields (mem_slots said)
    obtain ⟨s, found, same⟩ := Option.map_eq_some_iff.mp field
    cases same
    obtain ⟨m, there, rfl⟩ := exists_of_find? found
    cases numbers with
    | object all => exact all m there
  · split_ifs at read
    cases read
    refine ⟨rfl, fun {name u} said => ?_⟩
    cases numbers with
    | array all => exact all u (mem_ofItems (mem_slots said))
  · cases read

/-! ### Records as they are written -/

theorem find?_ofMembers (name : String) : ∀ {ms : List (String × Json)}, (ms.map (·.1)).Nodup →
    find? name (Tree.ofMembers ms) = some (Slot.ofWritten (lookup name ms))
  | [], _ => rfl
  | (k, v) :: ms, distinct => by
    rw [List.map_cons, List.nodup_cons] at distinct
    by_cases same : k = name
    · subst same
      have once : (Tree.ofMembers ms).filter (·.1 = some k) = [] := by
        rw [Tree.ofMembers_eq_map, List.filter_eq_nil_iff]
        intro m hm
        obtain ⟨m', there, rfl⟩ := List.mem_map.mp hm
        have other : m'.1 ≠ k := fun h => distinct.1 (List.mem_map.mpr ⟨m', there, h⟩)
        simpa using other
      rw [Tree.ofMembers, find?, List.filter_cons_of_pos (by simp), once, lookup, if_pos rfl]
      rfl
    · rw [Tree.ofMembers, find?, List.filter_cons_of_neg (by simpa using same), ← find?, lookup, if_neg same]
      exact find?_ofMembers name distinct.2

/-- **A written record is read as what it is written from**, for each of the names. -/
theorem read?_ofValue (names : List String) (depth : Nat) {ms : List (String × Json)} (distinct : (ms.map (·.1)).Nodup) :
    read? names (depth + 1) (Tree.ofValue (.object ms)) =
      some ⟨depth, names.map fun name => (name, Slot.ofWritten (lookup name ms))⟩ := by
  have named : (Tree.ofMembers ms).all (·.1.isSome) = true := by
    rw [Tree.ofMembers_eq_map, List.all_map, List.all_eq_true]
    exact fun _ _ => rfl
  rw [Tree.ofValue, read?, if_pos named]
  simp only [find?_ofMembers _ distinct, Option.map_some]
  have slots : names.mapM (fun name => some (name, Slot.ofWritten (lookup name ms))) = some _ := List.mapM_pure
  rw [slots]
  rfl

theorem slot_map {name : String} {names : List String} (listed : name ∈ names) (depth : Nat) (saying : String → Slot) :
    slot ⟨depth, names.map fun name => (name, saying name)⟩ name = saying name := by
  have found : (names.map fun name => (name, saying name)).lookup name = some (saying name) := by
    induction names with
    | nil => cases listed
    | cons n names ih =>
      rw [List.map_cons, List.lookup_cons]
      by_cases same : name = n
      · rw [same, beq_self_eq_true]
      · rw [beq_eq_false_iff_ne.mpr same]
        exact ih ((List.mem_cons.mp listed).resolve_left same)
  rw [slot, found]
  rfl

/-! ### Fields -/

/-- A field whose value is written so, or not at all, has the value again in every record that says so of it. -/
structure Keeps (field : Record → Option α) (name : String) (depth : Nat) (written : Option Json) (x : α) : Prop where
  back : ∀ r, depth ≤ r.depth → r.slot name = Slot.ofWritten written → field r = some x
  sized : ∀ v ∈ written, v.Numbers Number.Sized

variable {reader : Reader α} {toJson : α → Json} {levels : Nat} {r : Record} {name : String}

/-- A field whose value is written and read where it is given. -/
theorem keeps_given {field : Record → Option α} {depth : Nat} {written : Json} {x : α}
    (gives : ∀ {r t}, r.slot name = .given t → field r = reader r.depth t) (restored : Restores reader depth written x) :
    Keeps field name depth (some written) x := by
  constructor
  · intro r' le said
    rw [gives said]
    exact restored.back r'.depth le
  · intro v hv
    cases hv
    exact restored.sized

theorem required_given {t : Tree} (said : r.slot name = .given t) : r.required name reader = reader r.depth t := by
  rw [required, said]

theorem withDefault_given {t : Tree} (said : r.slot name = .given t) (value : α) :
    r.withDefault name reader value = reader r.depth t := by
  rw [withDefault, said]

theorem optional_given {t : Tree} (said : r.slot name = .given t) (other : t ≠ .null) :
    r.optional name reader = (reader r.depth t).map some := by
  rw [optional, said]
  cases t with
  | null => exact absurd rfl other
  | bool _ => rfl
  | number _ => rfl
  | text _ => rfl
  | array _ => rfl
  | object _ => rfl

/-- A field that must be there. -/
theorem keeps_required (law : Lawful reader toJson levels) (sized : r.Numbers Number.Sized) {x : α}
    (read : r.required name reader = some x) :
    Keeps (·.required name reader) name (max r.depth levels) (some (toJson x)) x := by
  apply keeps_given required_given
  unfold required at read
  split at read
  · rename_i t said
    exact law (sized said) read
  · cases read

/-- A field that is written with its default when it is left out. -/
theorem keeps_withDefault {value : α} (law : Lawful reader toJson levels)
    (default : Restores reader levels (toJson value) value) (sized : r.Numbers Number.Sized) {x : α}
    (read : r.withDefault name reader value = some x) :
    Keeps (·.withDefault name reader value) name (max r.depth levels) (some (toJson x)) x := by
  apply keeps_given fun said => withDefault_given said value
  unfold withDefault at read
  split at read
  · rename_i t said
    exact law (sized said) read
  · cases read
    exact default.mono (le_max_right r.depth levels)

/-- A natural number that is written with its default when it is left out. -/
theorem keeps_nat {bits value : Nat} (few : bits ≤ 64) (fits : value < 2 ^ bits) (sized : r.Numbers Number.Sized) {n : Nat}
    (read : r.withDefault name (Tree.nat? bits) value = some n) :
    Keeps (·.withDefault name (Tree.nat? bits) value) name (max r.depth levels) (some (.nat n)) n :=
  keeps_withDefault (lawful_nat few levels) (restores_nat few fits levels) sized read

/-- A record inside a record, which is read from nothing when it is left out. -/
theorem keeps_part {value : α} {inner : Nat} (law : Lawful reader toJson inner) (few : inner ≤ levels)
    (empty : reader inner (.object []) = some value) (sized : r.Numbers Number.Sized) {x : α}
    (read : r.withDefault name reader value = some x) :
    Keeps (·.withDefault name reader value) name (max r.depth levels) (some (toJson x)) x :=
  keeps_withDefault (law.mono few) ((law.restores_default empty).mono few) sized read

/-- A list that is empty when it is left out. -/
theorem keeps_list {inner : Nat} (law : Lawful reader toJson inner) (few : inner < levels)
    (sized : r.Numbers Number.Sized) {xs : List α} (read : r.withDefault name (Tree.list? reader) [] = some xs) :
    Keeps (·.withDefault name (Tree.list? reader) []) name (max r.depth levels) (some (.array (xs.map toJson))) xs := by
  have none : Restores (Tree.list? reader) levels (.array ([].map toJson)) [] :=
    ⟨fun d le => if_neg (by omega), .array (by simp)⟩
  exact keeps_withDefault ((lawful_list law).mono few) none sized read

/-- An optional field of which nothing is written when it has no value, and which is not written as `null` when it has
one. -/
theorem keeps_optional (law : Lawful reader toJson levels)
    (solid : ∀ {depth : Nat} {t : Tree} {x : α}, t ≠ .null → reader depth t = some x → toJson x ≠ .null)
    (sized : r.Numbers Number.Sized) {x : Option α} (read : r.optional name reader = some x) :
    Keeps (·.optional name reader) name (max r.depth levels) (x.map toJson) x := by
  have nothing : Keeps (·.optional name reader) name (max r.depth levels) none (none : Option α) :=
    ⟨fun r' _ said => by simp only [optional, said, Slot.ofWritten], nofun⟩
  unfold optional at read
  split at read
  · cases read
    exact nothing
  · rename_i t other said
    obtain ⟨y, given, rfl⟩ := Option.map_eq_some_iff.mp read
    have restored := law (sized said) given
    have other : Tree.ofValue (toJson y) ≠ .null := Tree.ofValue_ne_null (solid (fun h => other h) given)
    constructor
    · intro r' le said'
      rw [optional_given said' other, restored.back r'.depth le, Option.map_some]
    · intro v hv
      cases hv
      exact restored.sized
  · cases read
    exact nothing
  · cases read

/-- An optional free value. -/
theorem keeps_value (sized : r.Numbers Number.Sized) {v : Option Json} (read : r.optional name Tree.value? = some v) :
    Keeps (·.optional name Tree.value?) name (max r.depth levels) v v := by
  have kept := keeps_optional (lawful_value levels) Tree.value?_ne_null sized read
  rwa [Option.map_id] at kept

/-! ### Whole records -/

/-- The members of the fields that something is written for. -/
def members (rows : List (String × Option Json)) : List (String × Json) :=
  rows.filterMap fun row => row.2.map (row.1, ·)

theorem mem_members {rows : List (String × Option Json)} {name : String} {v : Json} :
    (name, v) ∈ members rows ↔ (name, some v) ∈ rows := by
  rw [members, List.mem_filterMap]
  constructor
  · rintro ⟨⟨n, w⟩, there, given⟩
    obtain ⟨v', rfl, same⟩ := Option.map_eq_some_iff.mp given
    cases same
    exact there
  · exact fun there => ⟨(name, some v), there, rfl⟩

theorem nodup_members {rows : List (String × Option Json)} (distinct : (rows.map (·.1)).Nodup) :
    ((members rows).map (·.1)).Nodup := by
  have sub : ((members rows).map (·.1)).Sublist (rows.map (·.1)) := by
    induction rows with
    | nil => exact List.Sublist.refl _
    | cons row rows ih =>
      obtain ⟨name, written⟩ := row
      have later := ih (List.nodup_cons.mp distinct).2
      cases written with
      | none => exact later.cons name
      | some v => exact later.cons_cons name
  exact distinct.sublist sub

/-- Under the name of a field stands what is written for it. -/
theorem lookup_members {rows : List (String × Option Json)} (distinct : (rows.map (·.1)).Nodup)
    {row : String × Option Json} (there : row ∈ rows) : lookup row.1 (members rows) = row.2 := by
  apply Option.ext
  intro v
  rw [lookup_eq_some_iff (nodup_members distinct), mem_members]
  constructor
  · intro given
    have same : (row.1, some v) = row := List.inj_on_of_nodup_map distinct given there rfl
    exact (congrArg Prod.snd same).symm
  · intro value
    rw [← value]
    exact there

/-- The fields whose values are written so have them again, one after the other. -/
structure KeepsAll (fields : Record → Option α) (depth : Nat) (rows : List (String × Option Json)) (x : α) : Prop where
  back : ∀ r, depth ≤ r.depth → (∀ row ∈ rows, r.slot row.1 = Slot.ofWritten row.2) → fields r = some x
  sized : ∀ row ∈ rows, ∀ v ∈ row.2, v.Numbers Number.Sized

theorem keepsAll_pure (depth : Nat) (x : α) : KeepsAll (fun _ => pure x) depth [] x := ⟨fun _ _ _ => rfl, nofun⟩

/-- One field, and the ones behind it. -/
theorem Keeps.bind {β : Type} {field : Record → Option β} {rest : Record → β → Option α} {name : String} {depth : Nat}
    {written : Option Json} {rows : List (String × Option Json)} {y : β} {x : α} (first : Keeps field name depth written y)
    (later : KeepsAll (rest · y) depth rows x) :
    KeepsAll (fun r => field r >>= rest r) depth ((name, written) :: rows) x := by
  constructor
  · intro r le slots
    rw [List.forall_mem_cons] at slots
    rw [first.back r le slots.1]
    exact later.back r le slots.2
  · exact List.forall_mem_cons.mpr ⟨first.sized, later.sized⟩

end Record

/-- **A record is read again if its fields are**, each from what is written under its name. -/
theorem lawful_record {names : List String} {fields : Record → Option α} {levels : Nat} {reader : Reader α}
    {toJson : α → Json} (rows : α → List (String × Option Json)) (distinct : names.Nodup)
    (reads : ∀ depth t, reader depth t = (Record.read? names depth t).bind fields)
    (writes : ∀ x, (rows x).map (·.1) = names ∧ toJson x = .object (Record.members (rows x)))
    (law : ∀ (r : Record) (x : α), r.Numbers Number.Sized → fields r = some x →
      Record.KeepsAll fields (max r.depth levels) (rows x) x) :
    Lawful reader toJson (levels + 1) := by
  intro depth t x sized read
  rw [reads] at read
  obtain ⟨r, record, given⟩ := Option.bind_eq_some_iff.mp read
  obtain ⟨rfl, numbers⟩ := Record.of_read? sized record
  obtain ⟨same, written⟩ := writes x
  have kept := law r x numbers given
  have once : ((rows x).map (·.1)).Nodup := by rwa [same]
  rw [written]
  constructor
  · intro d le
    obtain ⟨inner, rfl⟩ : ∃ inner, d = inner + 1 := ⟨d - 1, by omega⟩
    rw [reads, Record.read?_ofValue names inner (Record.nodup_members once), Option.bind_some]
    refine kept.back _ (by simp only; omega) fun row there => ?_
    have listed : row.1 ∈ names := by
      rw [← same]
      exact List.mem_map_of_mem there
    rw [Record.slot_map listed inner fun name => Slot.ofWritten (lookup name (Record.members (rows x))),
      Record.lookup_members once there]
  · exact .object fun m there => kept.sized (m.1, some m.2) (Record.mem_members.mp there) m.2 rfl

end Json
end OracleRelay
