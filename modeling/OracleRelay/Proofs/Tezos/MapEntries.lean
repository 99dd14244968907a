/-
# What the entries of a map give

The entries of a map as nodes write them: a key is a literal, a value is a literal or a truth value, alone or wrapped.
Literals are told by their text, so an empty string and no octets are the same as no literal (`Datum.Blank`), and such
a value fails the map. A field is named by the string of its key, so all keys without one (numbers, octets, the empty
string) have one name, and the last of them counts (`collected_perm`). A map keeps every entry exactly if neither
happens (`map_entries_kept`).

Key definitions: `Micheline.Key`, `Micheline.Datum`, `Micheline.Item`, `Micheline.Entry`, `Micheline.readMap`,
`Micheline.nameless`, `Micheline.surviving`, `Micheline.KeepsEvery`.
Key theorems: `Micheline.value_item`, `Micheline.readMap_eq`, `Micheline.collected_perm`,
`Micheline.map_entries_kept`.
-/
import OracleRelay.Proofs.Json.Members
import OracleRelay.Proofs.Text.Hex
import OracleRelay.Proofs.Text.Numeral
import OracleRelay.Tezos.Micheline

namespace OracleRelay
namespace Micheline

/-! ### Maps as nodes write them -/

/-- The key of an entry: a literal. -/
inductive Key where
  | text (s : String)
  | int (n : Int)
  | bytes (octets : List UInt8)
  deriving DecidableEq

/-- A literal or a truth value. -/
inductive Datum where
  | text (s : String)
  | int (n : Int64)
  | bytes (octets : List UInt8)
  | bool (b : Bool)
  deriving DecidableEq

/-- A primitive around a value. -/
inductive Wrapper where
  | left
  | right
  | present

/-- The value of an entry. -/
inductive Item where
  | datum (d : Datum)
  | wrapped (w : Wrapper) (item : Item)

/-- An entry of a map. -/
structure Entry where
  key : Key
  item : Item

/-- The kinds of literals. -/
inductive Kind where
  | string
  | int
  | bytes

/-- The member that holds the text of a literal. -/
def Kind.label : Kind → String
  | .string => "string"
  | .int => "int"
  | .bytes => "bytes"

/-- What a node says that is a literal. -/
def Kind.head (text : String) : Kind → Head
  | .string => { string := text }
  | .int => { int := text }
  | .bytes => { bytes := text }

/-- A literal. -/
def written (kind : Kind) (text : String) : Json := .object [(kind.label, .text text)]

/-- A primitive with arguments. -/
def writtenNode (prim : String) (args : List Json) : Json := .object [("args", .array args), ("prim", .text prim)]

def Key.toJson : Key → Json
  | .text s => written .string s
  | .int n => written .int (Numeral.decimalInt n)
  | .bytes octets => written .bytes (Hex.text octets)

def Datum.toJson : Datum → Json
  | .text s => written .string s
  | .int n => written .int (Numeral.decimalInt n.toInt)
  | .bytes octets => written .bytes (Hex.text octets)
  | .bool b => .object [("prim", .text (if b then "True" else "False"))]

def Wrapper.prim : Wrapper → String
  | .left => "Left"
  | .right => "Right"
  | .present => "Some"

def Item.toJson : Item → Json
  | .datum d => d.toJson
  | .wrapped w item => writtenNode w.prim [item.toJson]

def Entry.toJson (e : Entry) : Json := writtenNode "Elt" [e.key.toJson, e.item.toJson]

/-- The type of a map under an annotation. Its arguments are the types of keys and values. -/
def mapType (name : String) (params : List Json) : Json :=
  .object [("annots", Json.texts ["%" ++ name]), ("args", .array params), ("prim", .text "map")]

/-- A map: its entries in a row. -/
def mapValue (entries : List Entry) : Json := .array (entries.map Entry.toJson)

/-- What is taken from a map. -/
def readMap (name : String) (params : List Json) (entries : List Entry) : Except MichelineFault Json :=
  extract (ofJson (mapType name params)) (ofJson (mapValue entries))

/-! ### What an entry says -/

/-- What a literal or truth value says. -/
def Datum.read : Datum → Json
  | .text s => .text s
  | .int n => .int n.toInt
  | .bytes octets => .text (Hex.text octets)
  | .bool b => .bool b

/-- A literal without any text. -/
def Datum.Blank (d : Datum) : Prop := d = .text "" ∨ d = .bytes []

instance (d : Datum) : Decidable d.Blank := inferInstanceAs (Decidable (_ ∨ _))

/-- What a value holds inside its wrappers. -/
def Item.core : Item → Datum
  | .datum d => d
  | .wrapped _ item => item.core

/-- What the value of an entry says. -/
def Entry.read (e : Entry) : Json := e.item.core.read

/-- The value of an entry is a literal without any text. -/
def Entry.Blank (e : Entry) : Prop := e.item.core.Blank

instance (e : Entry) : Decidable e.Blank := inferInstanceAs (Decidable e.item.core.Blank)

/-- The string of a key; other keys have none. -/
def Key.name : Key → String
  | .text s => s
  | .int _ => ""
  | .bytes _ => ""

/-- A string names one key only, unless it is empty. -/
theorem Key.eq_of_name_eq {k k' : Key} (same : k.name = k'.name) (named : k'.name ≠ "") : k = k' := by
  cases k <;> cases k' <;> simp_all [Key.name]

/-- The field that an entry gives. -/
def Entry.field (e : Entry) : String × Json := (e.key.name, e.read)

/-! ### What is read of an entry -/

theorem ofJson_written (kind : Kind) (text : String) :
    ofJson (written kind text) = .node (kind.head text) [] (written kind text) := by
  cases kind <;> simp [written, Kind.label, Kind.head, ofJson, Head.ofMembers?, textMember?, annotsMember?,
    Json.lookup, argsOf?, Json.text?]

theorem ofJson_writtenNode (prim : String) (args : List Json) :
    ofJson (writtenNode prim args) = .node { prim } (ofItems args) (writtenNode prim args) := by
  simp [writtenNode, ofJson, Head.ofMembers?, textMember?, annotsMember?, Json.lookup, argsOf?, listOf?, Json.text?]

theorem ofJson_mapType (name : String) (params : List Json) : ofJson (mapType name params) =
    .node { prim := "map", annots := ["%" ++ name] } (ofItems params) (mapType name params) := by
  simp [mapType, ofJson, Head.ofMembers?, textMember?, annotsMember?, Json.lookup, argsOf?, listOf?, Json.text?,
    Json.texts, Json.array?]

theorem value_datum (d : Datum) : value (ofJson d.toJson) = if d.Blank then .error .noValue else .ok d.read := by
  cases d with
  | text s =>
    rw [Datum.toJson, ofJson_written, value]
    by_cases empty : s = "" <;> simp [Head.literal?, Kind.head, Datum.Blank, Datum.read, empty]
  | int n =>
    have fits : Numeral.signed? 64 (Numeral.decimalInt n.toInt).toList = some n.toInt :=
      Numeral.signed?_decimalInt n.le_toInt n.toInt_lt
    rw [Datum.toJson, ofJson_written, value]
    simp [Head.literal?, Kind.head, Datum.Blank, Datum.read, Numeral.decimalInt_ne_empty, fits]
  | bytes octets =>
    rw [Datum.toJson, ofJson_written, value]
    by_cases empty : octets = [] <;>
      simp [Head.literal?, Kind.head, Datum.Blank, Datum.read, Hex.text_eq_empty_iff, empty]
  | bool b => cases b <;> rfl

/-- A wrapper says nothing itself, so the value is looked for inside of it. -/
theorem value_item : ∀ item : Item,
    value (ofJson item.toJson) = if item.core.Blank then .error .noValue else .ok item.core.read
  | .datum d => value_datum d
  | .wrapped w item => by
    have silent : Head.literal? { prim := w.prim } = none := by cases w <;> rfl
    rw [Item.toJson, ofJson_writtenNode, ofItems, value, silent]
    exact value_item item

theorem entry_toJson (e : Entry) :
    entry (ofJson e.toJson) = if e.Blank then .error .noValue else .ok e.field := by
  have key : ∃ head source, ofJson e.key.toJson = .node head [] source ∧ head.string = e.key.name := by
    cases e.key <;> exact ⟨_, _, ofJson_written _ _, rfl⟩
  obtain ⟨head, source, key, same⟩ := key
  rw [Entry.toJson, ofJson_writtenNode, ofItems, ofItems, ofItems, key]
  simp only [entry, value_item, same]
  by_cases blank : e.Blank
  · rw [if_pos blank, if_pos (show e.item.core.Blank from blank)]
    rfl
  · rw [if_neg blank, if_neg (show ¬ e.item.core.Blank from blank)]
    rfl

theorem mapM_entry : ∀ entries : List Entry, (ofItems (entries.map Entry.toJson)).mapM entry =
    if ∃ e ∈ entries, e.Blank then .error .noValue else .ok (entries.map Entry.field)
  | [] => rfl
  | e :: entries => by
    rw [List.map_cons, ofItems, List.mapM_cons, entry_toJson, mapM_entry entries]
    by_cases blank : e.Blank
    · have some : ∃ e' ∈ e :: entries, e'.Blank := ⟨e, List.mem_cons_self, blank⟩
      rw [if_pos blank, if_pos some]
      rfl
    · by_cases later : ∃ e ∈ entries, e.Blank
      · rw [if_neg blank, if_pos later, if_pos (by simpa using Or.inr later)]
        rfl
      · rw [if_neg blank, if_neg later, if_neg (by simpa [blank] using later)]
        rfl

/-- **A blank value fails a map, and else the fields of its entries are collected under the annotation.** -/
theorem readMap_eq (name : String) (params : List Json) (entries : List Entry) : readMap name params entries =
    if ∃ e ∈ entries, e.Blank then .error .noValue
    else .ok (.object [(name, .object (Json.collected (entries.map Entry.field)))]) := by
  have annotated : annotation ["%" ++ name] = .ok name := by
    unfold annotation
    simp
  have typed : "map" ∉ scalarTypes := by decide
  rw [readMap, ofJson_mapType, mapValue, ofJson, extract, members, leaf?, if_neg typed, if_pos rfl]
  simp only [annotated, args, mapM_entry]
  split_ifs <;> rfl

/-! ### What stands in the object -/

/-- The entries whose key has no string. -/
def nameless (entries : List Entry) : List Entry := entries.filter (·.key.name = "")

/-- The fields of the entries whose key has a string. -/
def named (entries : List Entry) : List (String × Json) := (entries.filter (·.key.name ≠ "")).map Entry.field

/-- The field of the last entry whose key has no string, if there is one. -/
def lastNameless (entries : List Entry) : List (String × Json) := (nameless entries).getLast?.toList.map Entry.field

/-- The fields that are left. -/
def surviving (entries : List Entry) : List (String × Json) := named entries ++ lastNameless entries

theorem key_ne_empty_of_mem_named {entries : List Entry} {m : String × Json} (h : m ∈ named entries) : m.1 ≠ "" := by
  obtain ⟨e, there, rfl⟩ := List.mem_map.mp h
  have named : e.key.name ≠ "" := by simpa using (List.mem_filter.mp there).2
  exact named

theorem key_eq_empty_of_mem_lastNameless {entries : List Entry} {m : String × Json} (h : m ∈ lastNameless entries) :
    m.1 = "" := by
  obtain ⟨e, last, rfl⟩ := List.mem_map.mp h
  have there : e ∈ nameless entries := List.mem_of_getLast? (Option.mem_toList.mp last)
  have none : e.key.name = "" := by simpa using (List.mem_filter.mp there).2
  exact none

/-- The field of one more entry drives out the one without a name, if it has none itself, and no other. -/
theorem surviving_append_singleton {entries : List Entry} {e : Entry} (new : e.key ∉ entries.map Entry.key) :
    (e.field :: (surviving entries).filter (·.1 ≠ e.key.name)).Perm (surviving (entries ++ [e])) := by
  by_cases none : e.key.name = ""
  · have keep : (named entries).filter (·.1 ≠ e.key.name) = named entries :=
      List.filter_eq_self.mpr fun m hm => by simpa [none] using key_ne_empty_of_mem_named hm
    have drop : (lastNameless entries).filter (·.1 ≠ e.key.name) = [] :=
      List.filter_eq_nil_iff.mpr fun m hm => by simpa [none] using key_eq_empty_of_mem_lastNameless hm
    have after : surviving (entries ++ [e]) = named entries ++ [e.field] := by
      simp [surviving, named, lastNameless, nameless, none]
    rw [surviving, List.filter_append, keep, drop, List.append_nil, after]
    exact (List.perm_append_singleton _ _).symm
  · have keep : (named entries).filter (·.1 ≠ e.key.name) = named entries := by
      refine List.filter_eq_self.mpr fun m hm => ?_
      obtain ⟨e', there, rfl⟩ := List.mem_map.mp hm
      have other : e'.key ≠ e.key := fun same =>
        new (List.mem_map.mpr ⟨e', (List.mem_filter.mp there).1, same⟩)
      have apart : e'.field.1 ≠ e.key.name := fun same => other (Key.eq_of_name_eq same none)
      simpa using apart
    have stay : (lastNameless entries).filter (·.1 ≠ e.key.name) = lastNameless entries :=
      List.filter_eq_self.mpr fun m hm => by simpa [key_eq_empty_of_mem_lastNameless hm] using Ne.symm none
    have after : surviving (entries ++ [e]) = named entries ++ e.field :: lastNameless entries := by
      simp [surviving, named, lastNameless, nameless, none]
    rw [surviving, List.filter_append, keep, stay, after]
    exact List.perm_middle.symm

/-- **The object of a map has the field of each entry whose key has a string, and one for the last of all others.** -/
theorem collected_perm {entries : List Entry} (distinct : (entries.map Entry.key).Nodup) :
    (Json.collected (entries.map Entry.field)).Perm (surviving entries) := by
  induction entries using List.reverseRecOn with
  | nil => exact List.Perm.refl _
  | append_singleton entries e ih =>
    rw [List.map_append, List.nodup_append] at distinct
    have new : e.key ∉ entries.map Entry.key := fun there => distinct.2.2 _ there _ (by simp) rfl
    have before : (Json.collected (entries.map Entry.field)).Perm (surviving entries) := ih distinct.1
    have step : Json.collected ((entries ++ [e]).map Entry.field) =
        Json.insertMember e.key.name e.read (Json.collected (entries.map Entry.field)) := by
      rw [List.map_append]
      exact Json.collected_append_singleton _ _ _
    rw [step]
    calc (Json.insertMember e.key.name e.read (Json.collected (entries.map Entry.field))).Perm
          (e.field :: (Json.collected (entries.map Entry.field)).filter (·.1 ≠ e.key.name)) :=
        Json.insertMember_perm _ _ (Json.inKeyOrder_collected _)
      List.Perm _ (e.field :: (surviving entries).filter (·.1 ≠ e.key.name)) := (before.filter _).cons _
      List.Perm _ (surviving (entries ++ [e])) := surviving_append_singleton new

/-- With at most one key without a string all fields are left. -/
theorem surviving_perm {entries : List Entry} (one : (nameless entries).length ≤ 1) :
    (surviving entries).Perm (entries.map Entry.field) := by
  have all : (nameless entries).getLast?.toList = nameless entries := by
    cases h : nameless entries with
    | nil => rfl
    | cons e rest =>
      have last : rest = [] := by
        rw [h, List.length_cons] at one
        exact List.length_eq_zero_iff.mp (by omega)
      rw [last]
      rfl
  have split : (entries.filter (·.key.name ≠ "") ++ nameless entries).Perm entries := by
    have h := List.filter_append_perm (fun e : Entry => decide (e.key.name ≠ "")) entries
    simpa [nameless] using h
  rw [surviving, named, lastNameless, all, ← List.map_append]
  exact split.map Entry.field

/-- Each further key without a string costs a field. -/
theorem length_surviving (entries : List Entry) :
    (surviving entries).length + (nameless entries).length = entries.length + min 1 (nameless entries).length := by
  have parts : (entries.filter (·.key.name ≠ "")).length + (nameless entries).length = entries.length := by
    have h := List.length_eq_length_filter_add (l := entries) (fun e : Entry => decide (e.key.name ≠ ""))
    simpa [nameless] using h.symm
  have last : (nameless entries).getLast?.toList.length = min 1 (nameless entries).length := by
    cases nameless entries <;> simp
  simp only [surviving, named, lastNameless, List.length_append, List.length_map]
  omega

/-- The object under the annotation has one field for each entry, and they hold what the entries' values say. -/
def KeepsEvery (name : String) (entries : List Entry) (r : Except MichelineFault Json) : Prop :=
  ∃ fields, r = .ok (.object [(name, .object fields)]) ∧ (fields.map (·.2)).Perm (entries.map Entry.read)

theorem not_exists_blank {entries : List Entry} : (¬ ∃ e ∈ entries, e.Blank) ↔ ∀ e ∈ entries, ¬ e.Blank := by
  push Not
  rfl

theorem map_snd_field (entries : List Entry) : (entries.map Entry.field).map (·.2) = entries.map Entry.read := by
  simp [Entry.field]

/-- **A map keeps every entry exactly if no value is blank and at most one key has no string.** A blank value fails the
whole map. Without one, the object has a field for each key with a string and one for the last of the other entries;
if there is only one of these, or none, each entry has its own field under the string of its key. -/
theorem map_entries_kept (name : String) (params : List Json) (entries : List Entry)
    (distinct : (entries.map Entry.key).Nodup) :
    ((∃ e ∈ entries, e.Blank) → readMap name params entries = .error .noValue) ∧
    ((∀ e ∈ entries, ¬ e.Blank) → ∃ fields, readMap name params entries = .ok (.object [(name, .object fields)]) ∧
      Json.InKeyOrder fields ∧ fields.Perm (surviving entries) ∧
      ((nameless entries).length ≤ 1 → fields.Perm (entries.map Entry.field))) ∧
    (KeepsEvery name entries (readMap name params entries) ↔
      (∀ e ∈ entries, ¬ e.Blank) ∧ (nameless entries).length ≤ 1) := by
  have left : (Json.collected (entries.map Entry.field)).Perm (surviving entries) := collected_perm distinct
  have read (full : ∀ e ∈ entries, ¬ e.Blank) : readMap name params entries =
      .ok (.object [(name, .object (Json.collected (entries.map Entry.field)))]) := by
    rw [readMap_eq, if_neg (not_exists_blank.mpr full)]
  have fail (blank : ∃ e ∈ entries, e.Blank) : readMap name params entries = .error .noValue := by
    rw [readMap_eq, if_pos blank]
  refine ⟨fail, fun full => ?_, ?_, ?_⟩
  · exact ⟨_, read full, Json.inKeyOrder_collected _, left, fun one => left.trans (surviving_perm one)⟩
  · rintro ⟨fields, ok, same⟩
    have full : ∀ e ∈ entries, ¬ e.Blank := by
      refine not_exists_blank.mp fun blank => ?_
      rw [fail blank] at ok
      cases ok
    rw [read full] at ok
    cases ok
    have count : (surviving entries).length = entries.length := by
      have h := same.length_eq
      rw [List.length_map, List.length_map] at h
      rw [← left.length_eq, h]
    have lost := length_surviving entries
    exact ⟨full, by omega⟩
  · rintro ⟨full, one⟩
    have values := (left.trans (surviving_perm one)).map (·.2)
    rw [map_snd_field] at values
    exact ⟨_, read full, values⟩

/-- A string, a wrapped number and octets, under a string, a number and another string. -/
def mixed : List Entry :=
  [⟨.text "get", .datum (.text "https://a.io")⟩, ⟨.int 7, .wrapped .present (.datum (.int (-100)))⟩,
    ⟨.text "path", .wrapped .left (.wrapped .right (.datum (.bytes [0xbe, 0xef])))⟩]

theorem map_entries_kept_mixed :
    (mixed.map Entry.key).Nodup ∧ KeepsEvery "m" mixed (readMap "m" [] mixed) ∧
      ∃ fields, readMap "m" [] mixed = .ok (.object [("m", .object fields)]) ∧ fields.Perm (mixed.map Entry.field) := by
  have distinct : (mixed.map Entry.key).Nodup := by decide
  have full : ∀ e ∈ mixed, ¬ e.Blank := by decide
  have one : (nameless mixed).length ≤ 1 := by decide
  obtain ⟨-, read, kept⟩ := map_entries_kept "m" [] mixed distinct
  obtain ⟨fields, ok, -, -, all⟩ := read full
  exact ⟨distinct, kept.mpr ⟨full, one⟩, fields, ok, all one⟩

/-- Entries under distinct keys give this, and not every entry is kept. -/
def Loses (name : String) (entries : List Entry) (r : Except MichelineFault Json) : Prop :=
  (entries.map Entry.key).Nodup ∧ readMap name [] entries = r ∧ ¬ KeepsEvery name entries r

theorem loses_of_blank {entries : List Entry} (name : String) (distinct : (entries.map Entry.key).Nodup)
    (blank : ∃ e ∈ entries, e.Blank) : Loses name entries (.error .noValue) := by
  have fail : readMap name [] entries = .error .noValue := by rw [readMap_eq, if_pos blank]
  refine ⟨distinct, fail, ?_⟩
  rintro ⟨_, ok, -⟩
  cases ok

/-- The second of two entries without a name drives out the first. -/
theorem loses_of_nameless {e e' : Entry} (name : String) (apart : e.key ≠ e'.key) (first : e.key.name = "")
    (second : e'.key.name = "") (full : ¬ e.Blank) (full' : ¬ e'.Blank) :
    Loses name [e, e'] (.ok (.object [(name, .object [("", e'.read)])])) := by
  have none : ¬ ∃ e'' ∈ [e, e'], e''.Blank := by simp [full, full']
  have last : Json.collected ([e, e'].map Entry.field) = [("", e'.read)] := by
    simp [Json.collected, Json.insertMember, Entry.field, first, second]
  refine ⟨by simpa using apart, by rw [readMap_eq, if_neg none, last], ?_⟩
  rintro ⟨fields, ok, same⟩
  cases ok
  exact absurd same.length_eq (by simp)

/-- Of two entries under numbers the last one is left, and likewise under octets; an empty string and no octets fail
their map. -/
theorem map_entries_lost :
    Loses "m" [⟨.int 1, .datum (.text "a")⟩, ⟨.int 2, .datum (.text "b")⟩]
      (.ok (.object [("m", .object [("", .text "b")])])) ∧
    Loses "m" [⟨.bytes [0], .datum (.text "a")⟩, ⟨.bytes [1], .datum (.text "b")⟩]
      (.ok (.object [("m", .object [("", .text "b")])])) ∧
    Loses "m" [⟨.text "k", .datum (.text "")⟩] (.error .noValue) ∧
    Loses "m" [⟨.text "k", .datum (.bytes [])⟩] (.error .noValue) :=
  ⟨loses_of_nameless "m" (by decide) rfl rfl (by decide) (by decide),
    loses_of_nameless "m" (by decide) rfl rfl (by decide) (by decide),
    loses_of_blank "m" (by decide) (by decide), loses_of_blank "m" (by decide) (by decide)⟩

end Micheline
end OracleRelay
