/-
# What the entries of a map become

The entries of the outermost map become fields, maps inside become objects and arrays stay arrays. This fails for two
reasons only, however deep they lie: a map has a key that is neither a text nor an integer, or a bignum is no byte
string (`Item.Flawed`). Otherwise all values are converted (`Converts`), and of several entries with one name the first
gives the place and the last the value. A text and an integer have one name if the text is the numeral of the integer.

Key definitions: `Cbor.Item.Part`, `Cbor.Item.Unfit`, `Cbor.Item.Flawed`, `Cbor.Names`, `Cbor.Converts`,
`Cbor.ConvertsEntries`.
Key theorems: `Cbor.Item.toJson_fails_iff`, `Cbor.Item.toJson_eq_ok_iff`, `Cbor.entriesToFields_lossless`.
-/
import OracleRelay.Proofs.Cbor.Bignum
import OracleRelay.Proofs.Request.Fields

namespace OracleRelay
namespace Cbor

/-! ### Flaws -/

/-- The tag is one of those that make a number of a byte string. -/
def IsBignumTag (tag : Nat) : Prop := tag = positiveBignum ∨ tag = negativeBignum

/-- What stands in an item, at any depth: the item itself, the elements of arrays, the values of maps, and what the tags
are put on that fall away. -/
inductive Item.Part : Item → Item → Prop where
  | self (item : Item) : Part item item
  | element {items : List Item} {item part : Item} : item ∈ items → Part item part → Part (.array items) part
  | value {entries : List (Item × Item)} {key item part : Item} : (key, item) ∈ entries → Part item part →
    Part (.map entries) part
  | tagged {tag : Nat} {item part : Item} : ¬ IsBignumTag tag → Part item part → Part (.tag tag item) part

/-- The key is neither a text nor an integer. -/
def Nameless (key : Item) : Prop := (∀ s, key ≠ .text s) ∧ ∀ n, key ≠ .int n

/-- The item is a map with such a key, or a bignum that is no byte string. -/
inductive Item.Unfit : Item → Prop where
  | key {entries : List (Item × Item)} {key item : Item} : (key, item) ∈ entries → Nameless key → Unfit (.map entries)
  | bignum {tag : Nat} {item : Item} : IsBignumTag tag → (∀ bs, item ≠ .bytes bs) → Unfit (.tag tag item)

/-- There is an unfit part somewhere in the item. -/
def Item.Flawed (item : Item) : Prop := ∃ part, item.Part part ∧ part.Unfit

/-! ### Conversions -/

/-- The name that a key gives: a text itself, and an integer its numeral. -/
inductive Names : Item → String → Prop where
  | text (s : String) : Names (.text s) s
  | int {n : Int} {s : String} : Numeral.Canonical s n → Names (.int n) s

mutual

/-- The JSON value stands for the item. -/
inductive Converts : Item → Json → Prop where
  | null : Converts .null .null
  | bool (b : Bool) : Converts (.bool b) (.bool b)
  | text (s : String) : Converts (.text s) (.text s)
  | bytes (bs : List UInt8) : Converts (.bytes bs) (.text (Hex.marked bs))
  | int {n : Int} {v : Json} : Exact v n → Converts (.int n) v
  | float {x : Binary64} : x.isFinite = true → Converts (.float x) (.number (.double x))
  /-- an infinity, or no number at all -/
  | noNumber {x : Binary64} : x.isFinite = false → Converts (.float x) .null
  | positive {bs : List UInt8} {v : Json} : Exact v (Octets.bigEndian bs) →
    Converts (.tag positiveBignum (.bytes bs)) v
  | negative {bs : List UInt8} {v : Json} : Exact v (-1 - Octets.bigEndian bs) →
    Converts (.tag negativeBignum (.bytes bs)) v
  | tag {tag : Nat} {item : Item} {v : Json} : ¬ IsBignumTag tag → Converts item v → Converts (.tag tag item) v
  | array {items : List Item} {vs : List Json} : ConvertsAll items vs → Converts (.array items) (.array vs)
  /-- the last value of each name, in the order of the names -/
  | map {entries : List (Item × Item)} {rows ms : List (String × Json)} : ConvertsEntries entries rows →
    Json.InKeyOrder ms → (∀ name v, (name, v) ∈ ms ↔ Json.LastGiven rows name v) → Converts (.map entries) (.object ms)

/-- The JSON values stand for the items, one for each and in their order. -/
inductive ConvertsAll : List Item → List Json → Prop where
  | nil : ConvertsAll [] []
  | cons {item : Item} {v : Json} {items : List Item} {vs : List Json} : Converts item v → ConvertsAll items vs →
    ConvertsAll (item :: items) (v :: vs)

/-- The named values stand for the entries, one for each and in their order. -/
inductive ConvertsEntries : List (Item × Item) → List (String × Json) → Prop where
  | nil : ConvertsEntries [] []
  | cons {key item : Item} {name : String} {v : Json} {entries : List (Item × Item)} {rows : List (String × Json)} :
    Names key name → Converts item v → ConvertsEntries entries rows →
    ConvertsEntries ((key, item) :: entries) ((name, v) :: rows)

end

/-! ### Names and numbers -/

theorem keyName_eq_ok_iff {key : Item} {name : String} : keyName key = .ok name ↔ Names key name := by
  constructor
  · intro h
    cases key with
    | text s =>
      cases h
      exact .text name
    | int n =>
      cases h
      exact .int (Numeral.canonical_decimalInt n)
    | _ => exact absurd h nofun
  · intro h
    cases h with
    | text => rfl
    | int numeral => rw [keyName, Numeral.canonical_iff.mp numeral]

theorem keyName_fails_iff {key : Item} : (∃ fault, keyName key = .error fault) ↔ Nameless key := by
  cases key with
  | text s => exact iff_of_false nofun fun h => h.1 s rfl
  | int n => exact iff_of_false nofun fun h => h.2 n rfl
  | _ => exact iff_of_true ⟨_, rfl⟩ ⟨nofun, nofun⟩

theorem Item.toJson_of_bignum {tag : Nat} (big : IsBignumTag tag) (item : Item) :
    (Item.tag tag item).toJson = bignumToJson tag item := by
  rw [Item.toJson]
  exact if_pos big

/-- Other tags fall away. -/
theorem Item.toJson_of_tag {tag : Nat} (small : ¬ IsBignumTag tag) (item : Item) :
    (Item.tag tag item).toJson = item.toJson := by
  rw [Item.toJson]
  exact if_neg small

/-- There is one value that stands for an integer. -/
theorem exact_iff {v : Json} {n : Int} : Exact v n ↔ v = intToJson n := by
  constructor
  · intro h
    by_cases fits : FitsWord n
    · rw [h.number fits, (exact_intToJson n).number fits]
    · obtain ⟨numeral, rfl, canonical⟩ := h.numeral fits
      obtain ⟨numeral', same, canonical'⟩ := (exact_intToJson n).numeral fits
      rw [same, Numeral.canonical_iff.mp canonical, Numeral.canonical_iff.mp canonical']
  · rintro rfl
    exact exact_intToJson n

/-! ### When it fails -/

theorem Item.flawed_array_iff {items : List Item} : (Item.array items).Flawed ↔ ∃ item ∈ items, item.Flawed := by
  constructor
  · rintro ⟨part, inside, unfit⟩
    cases inside with
    | self => cases unfit
    | element mem inside => exact ⟨_, mem, part, inside, unfit⟩
  · rintro ⟨item, mem, part, inside, unfit⟩
    exact ⟨part, .element mem inside, unfit⟩

theorem Item.flawed_map_iff {entries : List (Item × Item)} : (Item.map entries).Flawed ↔
    ∃ e ∈ entries, Nameless e.1 ∨ e.2.Flawed := by
  constructor
  · rintro ⟨part, inside, unfit⟩
    cases inside with
    | self =>
      cases unfit with
      | key mem nameless => exact ⟨_, mem, .inl nameless⟩
    | value mem inside => exact ⟨_, mem, .inr ⟨part, inside, unfit⟩⟩
  · rintro ⟨⟨key, item⟩, mem, nameless | ⟨part, inside, unfit⟩⟩
    · exact ⟨_, .self _, .key mem nameless⟩
    · exact ⟨part, .value mem inside, unfit⟩

theorem Item.flawed_bignum_iff {tag : Nat} (big : IsBignumTag tag) {item : Item} :
    (Item.tag tag item).Flawed ↔ ∀ bs, item ≠ .bytes bs := by
  constructor
  · rintro ⟨part, inside, unfit⟩
    cases inside with
    | self =>
      cases unfit with
      | bignum _ other => exact other
    | tagged small => exact absurd big small
  · intro other
    exact ⟨_, .self _, .bignum big other⟩

theorem Item.flawed_tag_iff {tag : Nat} (small : ¬ IsBignumTag tag) {item : Item} :
    (Item.tag tag item).Flawed ↔ item.Flawed := by
  constructor
  · rintro ⟨part, inside, unfit⟩
    cases inside with
    | self =>
      cases unfit with
      | bignum big => exact absurd big small
    | tagged _ inside => exact ⟨part, inside, unfit⟩
  · rintro ⟨part, inside, unfit⟩
    exact ⟨part, .tagged small inside, unfit⟩

/-- What has no parts but itself, and is no map and no bignum, has no flaw. -/
theorem Item.not_flawed {item : Item} (alone : ∀ part, item.Part part → part = item) (fit : ¬ item.Unfit) :
    ¬ item.Flawed := by
  rintro ⟨part, inside, unfit⟩
  exact fit (alone part inside ▸ unfit)

theorem bignumToJson_fails_iff {tag : Nat} {item : Item} :
    (∃ fault, bignumToJson tag item = .error fault) ↔ ∀ bs, item ≠ .bytes bs := by
  cases item with
  | bytes bs => exact iff_of_false nofun fun h => h bs rfl
  | _ => exact iff_of_true ⟨_, rfl⟩ nofun

mutual

/-- **An item has no JSON value exactly if there is a flaw in it.** -/
theorem Item.toJson_fails_iff : ∀ item : Item, (∃ fault, item.toJson = .error fault) ↔ item.Flawed
  | .null | .bool _ | .text _ | .bytes _ | .int _ | .float _ =>
    iff_of_false nofun (Item.not_flawed (fun _ inside => by cases inside; rfl) nofun)
  | .array items => by
    rw [Item.flawed_array_iff, ← Item.listToJson_fails_iff items, Item.toJson]
    cases Item.listToJson items with
    | error fault => simp
    | ok vs => simp
  | .map entries => by
    rw [Item.flawed_map_iff, ← Item.entriesToJson_fails_iff entries, Item.toJson]
    cases Item.entriesToJson entries with
    | error fault => simp
    | ok ms => simp
  | .tag n item => by
    by_cases big : IsBignumTag n
    · rw [Item.toJson_of_bignum big, Item.flawed_bignum_iff big, bignumToJson_fails_iff]
    · rw [Item.toJson_of_tag big, Item.flawed_tag_iff big, Item.toJson_fails_iff item]

theorem Item.listToJson_fails_iff : ∀ items : List Item,
    (∃ fault, Item.listToJson items = .error fault) ↔ ∃ item ∈ items, item.Flawed
  | [] => iff_of_false nofun nofun
  | item :: items => by
    have first := Item.toJson_fails_iff item
    have more := Item.listToJson_fails_iff items
    rw [Item.listToJson, List.exists_mem_cons_iff, ← first, ← more]
    cases item.toJson with
    | error fault => simp
    | ok v => cases Item.listToJson items <;> simp

theorem Item.entriesToJson_fails_iff : ∀ entries : List (Item × Item),
    (∃ fault, Item.entriesToJson entries = .error fault) ↔ ∃ e ∈ entries, Nameless e.1 ∨ e.2.Flawed
  | [] => iff_of_false nofun nofun
  | (key, item) :: entries => by
    have name : (∃ fault, keyName key = .error fault) ↔ Nameless key := keyName_fails_iff
    have first := Item.toJson_fails_iff item
    have more := Item.entriesToJson_fails_iff entries
    rw [Item.entriesToJson, List.exists_mem_cons_iff, ← name, ← first, ← more]
    cases keyName key with
    | error fault => simp
    | ok name =>
      cases item.toJson with
      | error fault => simp
      | ok v => cases Item.entriesToJson entries <;> simp

end

/-! ### What it gives -/

mutual

/-- The JSON value of an item stands for it. -/
theorem Item.converts : ∀ {item : Item} {v : Json}, item.toJson = .ok v → Converts item v
  | .null, _, rfl => .null
  | .bool b, _, rfl => .bool b
  | .text s, _, rfl => .text s
  | .bytes bs, _, rfl => .bytes bs
  | .int n, _, rfl => .int (exact_intToJson n)
  | .float x, v, h => by
    rw [Item.toJson] at h
    cases finite : x.isFinite with
    | true =>
      rw [finite] at h
      cases h
      exact .float finite
    | false =>
      rw [finite] at h
      cases h
      exact .noNumber finite
  | .array items, v, h => by
    rw [Item.toJson] at h
    cases all : Item.listToJson items with
    | error fault =>
      rw [all] at h
      exact absurd h nofun
    | ok vs =>
      rw [all] at h
      cases h
      exact .array (Item.listConverts all)
  | .map entries, v, h => by
    rw [Item.toJson] at h
    cases all : Item.entriesToJson entries with
    | error fault =>
      rw [all] at h
      exact absurd h nofun
    | ok rows =>
      rw [all] at h
      cases h
      exact .map (Item.entriesConvert all) (Json.inKeyOrder_collected rows) fun name v => Json.mem_collected_iff
  | .tag n item, v, h => by
    by_cases big : IsBignumTag n
    · rw [Item.toJson_of_bignum big] at h
      cases item with
      | bytes bs =>
        rw [bignumToJson_bytes] at h
        cases h
        rcases big with rfl | rfl
        · exact .positive (exact_intToJson _)
        · exact .negative (exact_intToJson _)
      | _ => exact absurd h nofun
    · rw [Item.toJson_of_tag big] at h
      exact .tag big (Item.converts h)

theorem Item.listConverts : ∀ {items : List Item} {vs : List Json}, Item.listToJson items = .ok vs →
    ConvertsAll items vs
  | [], _, rfl => .nil
  | item :: items, vs, h => by
    rw [Item.listToJson] at h
    cases first : item.toJson with
    | error fault =>
      rw [first] at h
      exact absurd h nofun
    | ok v =>
      cases more : Item.listToJson items with
      | error fault =>
        rw [first, more] at h
        exact absurd h nofun
      | ok vs =>
        rw [first, more] at h
        cases h
        exact .cons (Item.converts first) (Item.listConverts more)

theorem Item.entriesConvert : ∀ {entries : List (Item × Item)} {rows : List (String × Json)},
    Item.entriesToJson entries = .ok rows → ConvertsEntries entries rows
  | [], _, rfl => .nil
  | (key, item) :: entries, rows, h => by
    rw [Item.entriesToJson] at h
    cases named : keyName key with
    | error fault =>
      rw [named] at h
      exact absurd h nofun
    | ok name =>
      cases first : item.toJson with
      | error fault =>
        rw [named, first] at h
        exact absurd h nofun
      | ok v =>
        cases more : Item.entriesToJson entries with
        | error fault =>
          rw [named, first, more] at h
          exact absurd h nofun
        | ok rows =>
          rw [named, first, more] at h
          cases h
          exact .cons (keyName_eq_ok_iff.mp named) (Item.converts first) (Item.entriesConvert more)

end

mutual

/-- What stands for an item is its JSON value. -/
theorem Converts.toJson : ∀ {item : Item} {v : Json}, Converts item v → item.toJson = .ok v
  | _, _, .null => rfl
  | _, _, .bool _ => rfl
  | _, _, .text _ => rfl
  | _, _, .bytes _ => rfl
  | _, _, .int exact => by rw [Item.toJson, exact_iff.mp exact]
  | _, _, .float finite => by rw [Item.toJson, finite, if_pos rfl]
  | _, _, .noNumber infinite => by
    rw [Item.toJson, infinite]
    rfl
  | _, _, .positive exact => by rw [toJson_positive, exact_iff.mp exact]
  | _, _, .negative exact => by rw [toJson_negative, exact_iff.mp exact]
  | _, _, .tag small h => by rw [Item.toJson_of_tag small, h.toJson]
  | _, _, .array h => by rw [Item.toJson, h.toJson]
  | _, _, @Converts.map _ rows _ h ordered values => by
    have collected : Json.ofMembers rows = .object (Json.collected rows) := rfl
    rw [Item.toJson, h.toJson, Json.eq_collected_iff.mpr ⟨ordered, values⟩, ← collected]

theorem ConvertsAll.toJson : ∀ {items : List Item} {vs : List Json}, ConvertsAll items vs →
    Item.listToJson items = .ok vs
  | _, _, .nil => rfl
  | _, _, .cons first more => by rw [Item.listToJson, first.toJson, more.toJson]

theorem ConvertsEntries.toJson : ∀ {entries : List (Item × Item)} {rows : List (String × Json)},
    ConvertsEntries entries rows → Item.entriesToJson entries = .ok rows
  | _, _, .nil => rfl
  | _, _, .cons named first more => by
    rw [Item.entriesToJson, keyName_eq_ok_iff.mpr named, first.toJson, more.toJson]

end

/-- **What stands for an item is exactly its JSON value.** -/
theorem Item.toJson_eq_ok_iff {item : Item} {v : Json} : item.toJson = .ok v ↔ Converts item v :=
  ⟨Item.converts, Converts.toJson⟩

/-- **Nothing of a map is lost.** Its entries give no fields exactly if there is a flaw somewhere in it. Otherwise all
of them are converted, and the names are in the order in which they come first, each with its last value. -/
theorem entriesToFields_lossless (entries : List (Item × Item)) :
    ((∃ fault, entriesToFields entries = .error fault) ↔ ∃ part, (Item.map entries).Part part ∧ part.Unfit) ∧
      ∀ fields : Fields, entriesToFields entries = .ok fields ↔ ∃ rows, ConvertsEntries entries rows ∧
        fields.keys = (rows.map (·.1)).eraseDups ∧
        ∀ name v, fields.get? name = some v ↔ Json.LastGiven rows name v := by
  constructor
  · have fails : (∃ fault, Item.entriesToJson entries = .error fault) ↔ (Item.map entries).Flawed := by
      rw [Item.flawed_map_iff, Item.entriesToJson_fails_iff]
    apply Iff.trans _ fails
    rw [entriesToFields]
    cases Item.entriesToJson entries with
    | error fault => simp [Except.map]
    | ok rows => simp [Except.map]
  · intro fields
    constructor
    · intro h
      rw [entriesToFields] at h
      cases all : Item.entriesToJson entries with
      | error fault =>
        rw [all] at h
        exact absurd h nofun
      | ok rows =>
        rw [all] at h
        have made : fields = .ofList rows := (Except.ok.inj h).symm
        exact ⟨rows, Item.entriesConvert all, Fields.eq_ofList_iff.mp made⟩
    · rintro ⟨rows, converts, spelt⟩
      rw [entriesToFields, converts.toJson, Fields.eq_ofList_iff.mpr spelt]
      rfl

end Cbor
end OracleRelay
