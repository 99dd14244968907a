/-
# Parameters do not depend on their encoding

Whatever encoding a requester chooses for its keys and values, and whether it puts them into a map or not, the decoder
reads items with the same JSON value (`Written.read`), and so the parameters are the same fields
(`parseParams_written`).

Key theorems: `Cbor.Written.read`, `Cbor.WrittenEntries.read`, `Cbor.Written.toJson`, `Cbor.parseParams_written`.
-/
import OracleRelay.Proofs.Cbor.Bignum
import OracleRelay.Proofs.Cbor.Encoding

namespace OracleRelay
namespace Cbor

/-! ### Scalars -/

theorem IntHead.read {n : Int} {e : List UInt8} (h : IntHead n e) (fuel levels : Nat) (rest : List UInt8) :
    Item.read (fuel + 1) levels (e ++ rest) = some (.int n, rest) := by
  cases h with
  | positive fits =>
    rw [Item.read, Head.read_head (by decide) fits]
    rfl
  | negative fits =>
    rw [Item.read, Head.read_head (by decide) fits]
    rfl

theorem BytesWritten.read {bs e : List UInt8} (h : BytesWritten bs e) (fuel levels : Nat) (rest : List UInt8) :
    Item.read (fuel + 1) levels (e ++ rest) = some (.bytes bs, rest) := by
  obtain ⟨segments, rfl, pieces⟩ := h
  obtain ⟨len, rest', opened, read⟩ := pieces.read rest
  rw [Item.read, opened]
  simp [stringHead, read]

theorem TextWritten.read {s : String} {e : List UInt8} (h : TextWritten s e) (fuel levels : Nat) (rest : List UInt8) :
    Item.read (fuel + 1) levels (e ++ rest) = some (.text s, rest) := by
  obtain ⟨parts, whole, pieces⟩ := h
  obtain ⟨len, rest', opened, read⟩ := pieces.read rest
  rw [Item.read, opened]
  simp [stringHead, read, joinTexts_encode, whole, String.ofList_toList]

/-! ### Bignums -/

theorem ShortBytes.taken {bs e : List UInt8} (h : ShortBytes bs e) (rest : List UInt8) :
    startsShortBytes (e ++ rest) = true ∧ shortBytes? (e ++ rest) = some (bs, rest) := by
  obtain ⟨short, w, fits, rfl⟩ := h
  rw [List.append_assoc, startsShortBytes, shortBytes?, Head.read_head (by decide) fits]
  simp [Head.ofParts?, Argument.length?, short, Octets.take?_append]

/-- A byte string is short and in one piece, or the decoder does not look into it under a bignum tag. -/
theorem BytesWritten.short_or {bs e : List UInt8} (h : BytesWritten bs e) (rest : List UInt8) :
    ShortBytes bs e ∨ startsShortBytes (e ++ rest) = false := by
  obtain ⟨segments, rfl, pieces⟩ := h
  cases pieces with
  | @definite w segment fits =>
    by_cases short : segment.length ≤ 16
    · exact .inl (by simpa using ⟨short, w, fits, rfl⟩)
    · right
      rw [List.append_assoc, startsShortBytes, Head.read_stringHead false fits]
      simpa [stringHead] using short
  | indefinite _ =>
    right
    rw [List.append_assoc, List.append_assoc, startsShortBytes, Head.read_openString false]
    rfl

theorem Item.read_shortBignum {tag : Nat} (big : tag = positiveBignum ∨ tag = negativeBignum) {w : Width}
    (fits : tag < w.bound) {bs e : List UInt8} (short : ShortBytes bs e) (fuel levels : Nat) (rest : List UInt8) :
    Item.read (fuel + 1) levels (head 6 w tag ++ (e ++ rest)) = (bignumItem? tag bs).map (·, rest) := by
  obtain ⟨starts, taken⟩ := short.taken rest
  rw [Item.read, Head.read_head (by decide) fits]
  simp [Head.ofParts?, big, starts, taken]

/-- Under any other tag, and over a byte string that is no short one, an item stays tagged. -/
theorem Item.read_tag {tag : Nat} {w : Width} (fits : tag < w.bound) {bs : List UInt8}
    (other : startsShortBytes bs = false) (fuel levels : Nat) :
    Item.read (fuel + 1) (levels + 1) (head 6 w tag ++ bs) =
      (Item.read fuel levels bs).map fun (item, rest) => (.tag tag item, rest) := by
  rw [Item.read, Head.read_head (by decide) fits]
  simp [Head.ofParts?, other]

/-- A bignum on a short byte string is read as an integer. -/
theorem Bignum.read_short {n : Int} {e : List UInt8} (h : Bignum ShortBytes n e) (fuel levels : Nat)
    (rest : List UInt8) : Item.read (fuel + 1) levels (e ++ rest) = some (.int n, rest) := by
  cases h with
  | positive fits small short =>
    rw [List.append_assoc, Item.read_shortBignum (.inl rfl) fits short, bignumItem?]
    simpa [positiveBignum] using small
  | negative fits small short =>
    rw [List.append_assoc, Item.read_shortBignum (.inr rfl) fits short, bignumItem?]
    simpa [positiveBignum, negativeBignum] using small

/-- What a short byte string becomes under a bignum tag has the JSON value of the tagged string. -/
theorem bignumItem?_toJson {tag : Nat} {bs : List UInt8} (size : Sizable tag bs) :
    ∃ item, bignumItem? tag bs = some item ∧ item.toJson = (Item.tag tag (.bytes bs)).toJson := by
  have same : Octets.bigEndian (dropZeros bs) = Octets.bigEndian bs := Octets.bigEndian_dropWhile bs
  unfold bignumItem?
  obtain rfl | ⟨rfl, bounded⟩ := size
  · rw [if_pos rfl]
    split
    · exact ⟨_, rfl, by rw [toJson_positive, Item.toJson]⟩
    · exact ⟨_, rfl, by rw [toJson_positive, toJson_positive, same]⟩
  · rw [if_neg (by decide)]
    split
    · exact ⟨_, rfl, by rw [toJson_negative, Item.toJson]⟩
    · exact ⟨_, rfl, by rw [toJson_negative, toJson_negative, same]⟩

/-- A byte string under a bignum tag is read as an item with the JSON value of the tagged string. -/
theorem Item.read_bignum {tag : Nat} {w : Width} {bs e : List UInt8} (size : Sizable tag bs) (fits : tag < w.bound)
    (written : BytesWritten bs e) (fuel levels : Nat) (rest : List UInt8) :
    ∃ item, Item.read (fuel + 2) (levels + 1) (head 6 w tag ++ e ++ rest) = some (item, rest) ∧
      item.toJson = (Item.tag tag (.bytes bs)).toJson := by
  rw [List.append_assoc]
  obtain short | other := written.short_or rest
  · obtain ⟨item, read, same⟩ := bignumItem?_toJson size
    refine ⟨item, ?_, same⟩
    rw [Item.read_shortBignum (size.imp id And.left) fits short, read]
    rfl
  · refine ⟨.tag tag (.bytes bs), ?_, rfl⟩
    rw [Item.read_tag fits other, written.read]
    rfl

/-- So an integer that is written as a bignum is read as an item with its JSON value. -/
theorem Bignum.read {n : Int} {e : List UInt8} (h : Bignum BytesWritten n e) (fuel levels : Nat) (rest : List UInt8) :
    ∃ item, Item.read (fuel + 2) (levels + 1) (e ++ rest) = some (item, rest) ∧ item.toJson = (Item.int n).toJson := by
  cases h with
  | positive fits small written =>
    obtain ⟨item, read, same⟩ := Item.read_bignum (.inl rfl) fits written fuel levels rest
    exact ⟨item, read, by rw [same, toJson_positive, Item.toJson]⟩
  | negative fits small written =>
    have size := Nat.lt_trans small (show Nat.pow 2 64 < Nat.pow 2 127 by decide)
    obtain ⟨item, read, same⟩ := Item.read_bignum (.inr ⟨rfl, size⟩) fits written fuel levels rest
    exact ⟨item, read, by rw [same, toJson_negative, Item.toJson]⟩

theorem WrittenKey.read {key : Item} {e : List UInt8} (h : WrittenKey key e) (fuel levels : Nat) (rest : List UInt8) :
    Item.read (fuel + 1) levels (e ++ rest) = some (key, rest) := by
  cases h with
  | text h => exact h.read fuel levels rest
  | int h => exact h.read fuel levels rest
  | bignum h => exact h.read_short fuel levels rest

/-! ### Arrays and maps -/

/-- Where a row of `n` items ends: at its count, or at a stop. -/
inductive RowEnd (n : Nat) (rest : List UInt8) : Option Nat → List UInt8 → Prop where
  | counted : RowEnd n rest (some n) rest
  | stopped : RowEnd n rest none (breakOctet :: rest)

theorem RowEnd.pred {n : Nat} {rest tail : List UInt8} {count : Option Nat} (h : RowEnd (n + 1) rest count tail) :
    RowEnd n rest (count.map (· - 1)) tail ∧ count ≠ some 0 := by
  cases h with
  | counted => exact ⟨.counted, by simp⟩
  | stopped => exact ⟨.stopped, by simp⟩

/-- A stop is no item, nor is the end. -/
theorem Item.read_some {fuel levels : Nat} {bs : List UInt8} {r : Item × List UInt8}
    (h : Item.read fuel levels bs = some r) : ∃ b bs', bs = b :: bs' ∧ b ≠ breakOctet := by
  cases fuel with
  | zero => simp [Item.read] at h
  | succ fuel =>
    cases bs with
    | nil => simp [Item.read, Head.read] at h
    | cons b bs =>
      refine ⟨b, bs, rfl, fun same => ?_⟩
      subst same
      rw [Item.read, Head.read_stop] at h
      simp at h

theorem Item.readMany_end {rest tail : List UInt8} {count : Option Nat} (h : RowEnd 0 rest count tail)
    (fuel levels : Nat) : Item.readMany (fuel + 1) levels count tail = some ([], rest) := by
  cases h with
  | counted => rw [Item.readMany]
  | stopped => rw [breakOctet, Item.readMany]

theorem Item.readMany_cons {fuel levels : Nat} {count : Option Nat} (more : count ≠ some 0) {bs rest : List UInt8}
    {item : Item} (h : Item.read fuel levels bs = some (item, rest)) :
    Item.readMany (fuel + 1) levels count bs =
      (Item.readMany fuel levels (count.map (· - 1)) rest).map fun (items, rest) => (item :: items, rest) := by
  -- What is read as an item does not start with a stop, so the row does not end here.
  obtain ⟨b, bs, rfl, ne⟩ := Item.read_some h
  rw [Item.readMany]
  · simp only [h]
  · exact more
  · rintro rest rfl same
    exact ne (List.cons.inj same).1

theorem Item.readEntries_end {rest tail : List UInt8} {count : Option Nat} (h : RowEnd 0 rest count tail)
    (fuel levels : Nat) : Item.readEntries (fuel + 1) levels count tail = some ([], rest) := by
  cases h with
  | counted => rw [Item.readEntries]
  | stopped => rw [breakOctet, Item.readEntries]

theorem Item.readEntries_cons {fuel levels : Nat} {count : Option Nat} (more : count ≠ some 0)
    {bs bs' rest : List UInt8} {key item : Item} (hKey : Item.read fuel levels bs = some (key, bs'))
    (hItem : Item.read fuel levels bs' = some (item, rest)) :
    Item.readEntries (fuel + 1) levels count bs =
      (Item.readEntries fuel levels (count.map (· - 1)) rest).map fun (entries, rest) =>
        ((key, item) :: entries, rest) := by
  obtain ⟨b, bs, rfl, ne⟩ := Item.read_some hKey
  rw [Item.readEntries]
  · simp only [hKey, hItem]
  · exact more
  · rintro rest rfl same
    exact ne (List.cons.inj same).1

/-- An array is read as the row in it, to the end of the row. -/
theorem Enclosed.read_array {n : Nat} {row e : List UInt8} (h : Enclosed 4 n row e) (rest : List UInt8) :
    ∃ count tail, RowEnd n rest count tail ∧ ∀ fuel levels, Item.read (fuel + 1) (levels + 1) (e ++ rest) =
      (Item.readMany fuel levels count (row ++ tail)).map fun (items, rest) => (.array items, rest) := by
  cases h with
  | counted fits =>
    refine ⟨some n, rest, .counted, fun fuel levels => ?_⟩
    rw [List.append_assoc, Item.read, Head.read_head (by decide) fits]
    rfl
  | stopped =>
    refine ⟨none, breakOctet :: rest, .stopped, fun fuel levels => ?_⟩
    rw [List.append_assoc, List.append_assoc, Item.read, Head.read_openHead (by decide)]
    rfl

/-- So is a map. -/
theorem Enclosed.read_map {n : Nat} {row e : List UInt8} (h : Enclosed 5 n row e) (rest : List UInt8) :
    ∃ count tail, RowEnd n rest count tail ∧ ∀ fuel levels, Item.read (fuel + 1) (levels + 1) (e ++ rest) =
      (Item.readEntries fuel levels count (row ++ tail)).map fun (entries, rest) => (.map entries, rest) := by
  cases h with
  | counted fits =>
    refine ⟨some n, rest, .counted, fun fuel levels => ?_⟩
    rw [List.append_assoc, Item.read, Head.read_head (by decide) fits]
    rfl
  | stopped =>
    refine ⟨none, breakOctet :: rest, .stopped, fun fuel levels => ?_⟩
    rw [List.append_assoc, List.append_assoc, Item.read, Head.read_openHead (by decide)]
    rfl

theorem Enclosed.length_lt {major n : Nat} {row e : List UInt8} (h : Enclosed major n row e) :
    row.length < e.length := by
  cases h with
  | counted => simp only [head, List.length_append, List.length_cons]; omega
  | stopped => simp only [openHead, List.length_append, List.length_singleton]; omega

/-! ### Items -/

theorem Item.length_pos_of_read {fuel levels : Nat} {e : List UInt8} {r : Item × List UInt8}
    (h : Item.read fuel levels (e ++ []) = some r) : 0 < e.length := by
  obtain ⟨b, bs, same, _⟩ := Item.read_some h
  rw [List.append_nil] at same
  simp [same]

theorem Written.length_pos {levels : Nat} {item : Item} {e : List UInt8} (h : Written levels item e) :
    0 < e.length := by
  cases h with
  | null => simp
  | bool => simp
  | int h => exact Item.length_pos_of_read (h.read 0 0 [])
  | bytes h => exact Item.length_pos_of_read (h.read 0 0 [])
  | text h => exact Item.length_pos_of_read (h.read 0 0 [])
  | bignum h =>
    obtain ⟨_, read, _⟩ := h.read 0 0 []
    exact Item.length_pos_of_read read
  | large => simp [head]
  | array _ h => exact Nat.zero_lt_of_lt h.length_lt
  | map _ h => exact Nat.zero_lt_of_lt h.length_lt

theorem WrittenKey.length_pos {key : Item} {e : List UInt8} (h : WrittenKey key e) : 0 < e.length :=
  Item.length_pos_of_read (h.read 0 0 [])

mutual

/-- An item that is written in any way is read as one with its JSON value, and what follows is left. Two turns for each
octet are enough. -/
theorem Written.read {levels : Nat} {item : Item} {e : List UInt8} : Written levels item e →
    ∀ {fuel : Nat} (rest : List UInt8), 2 * e.length ≤ fuel →
      ∃ read, Item.read fuel levels (e ++ rest) = some (read, rest) ∧ read.toJson = item.toJson
  | .null, fuel + 1, rest, _ => ⟨.null, rfl, rfl⟩
  | .bool b, fuel + 1, rest, _ => by
    cases b <;> exact ⟨.bool _, rfl, rfl⟩
  | .int h, fuel + 1, rest, _ => ⟨_, h.read fuel levels rest, rfl⟩
  | .bytes h, fuel + 1, rest, _ => ⟨_, h.read fuel levels rest, rfl⟩
  | .text h, fuel + 1, rest, _ => ⟨_, h.read fuel levels rest, rfl⟩
  | .bignum h, fuel + 2, rest, _ => h.read fuel _ rest
  | .large size fits h, fuel + 2, rest, _ => Item.read_bignum size fits h fuel _ rest
  | @Written.array _ _ row e h encloses, fuel + 1, rest, le => by
    obtain ⟨count, tail, ends, opened⟩ := encloses.read_array rest
    have enough : 2 * row.length < fuel := by
      have := encloses.length_lt
      omega
    obtain ⟨read, ok, same⟩ := h.read enough ends
    refine ⟨.array read, ?_, by rw [Item.toJson, same, Item.toJson]⟩
    rw [opened, ok]
    rfl
  | @Written.map _ _ row e h encloses, fuel + 1, rest, le => by
    obtain ⟨count, tail, ends, opened⟩ := encloses.read_map rest
    have enough : 2 * row.length < fuel := by
      have := encloses.length_lt
      omega
    obtain ⟨read, ok, same⟩ := h.read enough ends
    refine ⟨.map read, ?_, by rw [Item.toJson, same, Item.toJson]⟩
    rw [opened, ok]
    rfl
  -- Whatever is written has an octet, so less fuel than this is not enough.
  | .bignum h, 1, _, le => absurd (@Written.bignum 0 _ _ h).length_pos (by omega)
  | .large size fits h, 1, _, le => absurd (@Written.large 0 _ _ _ _ size fits h).length_pos (by omega)
  | h, 0, _, le => absurd h.length_pos (by omega)

/-- So are rows of items, to their end. -/
theorem WrittenItems.read {levels : Nat} {items : List Item} {e : List UInt8} : WrittenItems levels items e →
    ∀ {fuel : Nat} {count : Option Nat} {tail rest : List UInt8}, 2 * e.length < fuel →
      RowEnd items.length rest count tail → ∃ read, Item.readMany fuel levels count (e ++ tail) = some (read, rest) ∧
        Item.listToJson read = Item.listToJson items
  | .nil, fuel + 1, count, tail, rest, _, ends => ⟨[], Item.readMany_end ends fuel levels, rfl⟩
  | @WrittenItems.cons _ _ _ e es first more, fuel + 1, count, tail, rest, lt, ends => by
    have nonempty := first.length_pos
    rw [List.length_append] at lt
    obtain ⟨ends, uncounted⟩ := ends.pred
    have enoughItem : 2 * e.length ≤ fuel := by omega
    have enoughItems : 2 * es.length < fuel := by omega
    obtain ⟨item, okItem, sameItem⟩ := first.read (es ++ tail) enoughItem
    obtain ⟨items, okItems, sameItems⟩ := more.read enoughItems ends
    refine ⟨item :: items, ?_, by rw [Item.listToJson, sameItem, sameItems, Item.listToJson]⟩
    rw [List.append_assoc, Item.readMany_cons uncounted okItem, okItems]
    rfl

/-- So are rows of keys and values. The keys are read as they are. -/
theorem WrittenEntries.read {levels : Nat} {entries : List (Item × Item)} {e : List UInt8} :
    WrittenEntries levels entries e → ∀ {fuel : Nat} {count : Option Nat} {tail rest : List UInt8},
      2 * e.length < fuel → RowEnd entries.length rest count tail →
      ∃ read, Item.readEntries fuel levels count (e ++ tail) = some (read, rest) ∧
        Item.entriesToJson read = Item.entriesToJson entries
  | .nil, fuel + 1, count, tail, rest, _, ends => ⟨[], Item.readEntries_end ends fuel levels, rfl⟩
  | @WrittenEntries.cons _ key _ _ e e' es hKey first more, fuel + 1, count, tail, rest, lt, ends => by
    have nonempty := hKey.length_pos
    rw [List.length_append, List.length_append] at lt
    obtain ⟨ends, uncounted⟩ := ends.pred
    obtain ⟨fuel, rfl⟩ : ∃ n, fuel = n + 1 := ⟨fuel - 1, by omega⟩
    have enoughItem : 2 * e'.length ≤ fuel + 1 := by omega
    have enoughEntries : 2 * es.length < fuel + 1 := by omega
    have okKey := hKey.read fuel levels (e' ++ (es ++ tail))
    obtain ⟨item, okItem, sameItem⟩ := first.read (es ++ tail) enoughItem
    obtain ⟨entries, okEntries, sameEntries⟩ := more.read enoughEntries ends
    refine ⟨(key, item) :: entries, ?_, by rw [Item.entriesToJson, sameItem, sameEntries, Item.entriesToJson]⟩
    rw [List.append_assoc, List.append_assoc, Item.readEntries_cons uncounted okKey okItem, okEntries]
    rfl

end

/-! ### JSON values -/

theorem WrittenKey.name {key : Item} {e : List UInt8} (h : WrittenKey key e) : ∃ name, keyName key = .ok name := by
  cases h with
  | text h => exact ⟨_, rfl⟩
  | int h => exact ⟨_, rfl⟩
  | bignum h => exact ⟨_, rfl⟩

mutual

/-- What can be written has a JSON value. -/
theorem Written.toJson {levels : Nat} {item : Item} {e : List UInt8} : Written levels item e →
    ∃ v, item.toJson = .ok v
  | .null => ⟨_, rfl⟩
  | .bool _ => ⟨_, rfl⟩
  | .int _ => ⟨_, rfl⟩
  | .bytes _ => ⟨_, rfl⟩
  | .text _ => ⟨_, rfl⟩
  | .bignum _ => ⟨_, rfl⟩
  | .large size _ _ => ⟨_, toJson_bignum (size.imp id And.left) _⟩
  | .array h _ => by
    obtain ⟨vs, ok⟩ := h.toJson
    exact ⟨.array vs, by rw [Item.toJson, ok]⟩
  | .map h _ => by
    obtain ⟨ms, ok⟩ := h.toJson
    exact ⟨.ofMembers ms, by rw [Item.toJson, ok]⟩

theorem WrittenItems.toJson {levels : Nat} {items : List Item} {e : List UInt8} : WrittenItems levels items e →
    ∃ vs, Item.listToJson items = .ok vs
  | .nil => ⟨[], rfl⟩
  | .cons first more => by
    obtain ⟨v, ok⟩ := first.toJson
    obtain ⟨vs, oks⟩ := more.toJson
    exact ⟨v :: vs, by rw [Item.listToJson, ok, oks]⟩

theorem WrittenEntries.toJson {levels : Nat} {entries : List (Item × Item)} {e : List UInt8} :
    WrittenEntries levels entries e → ∃ ms, Item.entriesToJson entries = .ok ms
  | .nil => ⟨[], rfl⟩
  | .cons key first more => by
    obtain ⟨name, named⟩ := key.name
    obtain ⟨v, ok⟩ := first.toJson
    obtain ⟨ms, oks⟩ := more.toJson
    exact ⟨(name, v) :: ms, by rw [Item.entriesToJson, named, ok, oks]⟩

end

/-! ### Frames -/

/-- The first octet is one of the major type. -/
def Starts (major : Nat) (e : List UInt8) : Prop := ∃ b bs, e = b :: bs ∧ b.toNat / 32 = major

theorem Starts.append {major : Nat} {e : List UInt8} (h : Starts major e) (rest : List UInt8) :
    Starts major (e ++ rest) := by
  obtain ⟨b, bs, rfl, same⟩ := h
  exact ⟨b, bs ++ rest, rfl, same⟩

theorem starts_head {major : Nat} (known : major < 8) {w : Width} {n : Nat} (fits : n < w.bound) :
    Starts major (head major w n) := by
  have low := Width.low_lt fits
  refine ⟨_, _, rfl, ?_⟩
  rw [Octets.toNat_ofNat (by omega)]
  omega

theorem starts_openHead {major : Nat} (known : major < 8) : Starts major (openHead major) := by
  refine ⟨_, _, rfl, ?_⟩
  rw [Octets.toNat_ofNat (by omega)]
  omega

theorem Pieces.starts {isText : Bool} {segments : List (List UInt8)} {e : List UInt8} (h : Pieces isText segments e) :
    Starts (stringMajor isText) e := by
  have known : stringMajor isText < 8 := by cases isText <;> decide
  cases h with
  | definite fits => exact (starts_head known fits).append _
  | indefinite _ => exact ((starts_openHead known).append _).append _

theorem Bignum.starts {written : List UInt8 → List UInt8 → Prop} {n : Int} {e : List UInt8}
    (h : Bignum written n e) : Starts 6 e := by
  cases h with
  | positive fits => exact (starts_head (by decide) fits).append _
  | negative fits => exact (starts_head (by decide) fits).append _

/-- A key starts no map. -/
theorem WrittenKey.starts {key : Item} {e : List UInt8} (h : WrittenKey key e) :
    ∃ major, Starts major e ∧ major ≠ 5 := by
  cases h with
  | text h =>
    obtain ⟨_, _, pieces⟩ := h
    exact ⟨3, pieces.starts, by decide⟩
  | int h =>
    cases h with
    | positive fits => exact ⟨0, starts_head (by decide) fits, by decide⟩
    | negative fits => exact ⟨1, starts_head (by decide) fits, by decide⟩
  | bignum h => exact ⟨6, h.starts, by decide⟩

/-- Keys and values without a map around them get one without a length. A key and a value are two octets at least, and
the first one tells a key from a map. -/
theorem frame_entries {levels : Nat} {entries : List (Item × Item)} {e : List UInt8}
    (h : WrittenEntries levels entries e) : frame e = openHead 5 ++ e ++ [breakOctet] := by
  cases h with
  | nil => rfl
  | @cons _ _ _ _ e e' es hKey first more =>
    obtain ⟨major, ⟨b, bs, rfl, same⟩, other⟩ := hKey.starts
    have nonempty := first.length_pos
    obtain ⟨b', rest, two⟩ := List.exists_cons_of_length_pos (l := bs ++ (e' ++ es))
      (by simp only [List.length_append]; omega)
    rw [List.cons_append, two, frame, isBare, if_pos (by simpa [same] using other)]
    · rfl
    · simp

/-- A map is left as it is. -/
theorem frame_map {e : List UInt8} (h : Starts 5 e) : frame e = e := by
  obtain ⟨b, bs, rfl, same⟩ := h
  cases bs with
  | nil => rfl
  | cons b' bs => simp [frame, isBare, same]

theorem Enclosed.starts {major n : Nat} (known : major < 8) {row e : List UInt8} (h : Enclosed major n row e) :
    Starts major e := by
  cases h with
  | counted fits => exact (starts_head known fits).append _
  | stopped => exact ((starts_openHead known).append _).append _

/-- In their frame, parameters are a map. -/
theorem WrittenParams.framed {entries : List (Item × Item)} {bs : List UInt8} (h : WrittenParams entries bs) :
    ∃ row, WrittenEntries (maxLevels - 1) entries row ∧ Enclosed 5 entries.length row (frame bs) := by
  cases h with
  | bare h =>
    rw [frame_entries h]
    exact ⟨bs, h, .stopped⟩
  | map h encloses =>
    rw [frame_map (encloses.starts (by decide))]
    exact ⟨_, h, encloses⟩

/-- **Parameters are the same fields in every encoding of them**, with and without a map around them. -/
theorem parseParams_written {entries : List (Item × Item)} {bs : List UInt8} (h : WrittenParams entries bs) :
    ∃ fields, entriesToFields entries = .ok fields ∧ parseParams bs = .ok fields := by
  obtain ⟨row, entriesWritten, encloses⟩ := h.framed
  obtain ⟨count, tail, ends, opened⟩ := encloses.read_map []
  have enough : 2 * row.length < 2 * (frame bs).length + 1 := by
    have := encloses.length_lt
    omega
  obtain ⟨read, ok, same⟩ := entriesWritten.read enough ends
  obtain ⟨ms, named⟩ := entriesWritten.toJson
  have decoded : Item.decode? (frame bs) = some (.map read) := by
    rw [List.append_nil] at opened
    rw [Item.decode?, show maxLevels = maxLevels - 1 + 1 from rfl, opened, ok]
    rfl
  refine ⟨Fields.ofList ms, by rw [entriesToFields, named]; rfl, ?_⟩
  rw [parseParams, decoded]
  simp only [Item.toFields, entriesToFields, same, named]
  rfl

/-- A key with a longer head than it needs, and under it an array without a length: a bignum in segments that starts
with zeros, and a map with a number for a key. -/
def mixedOctets : List UInt8 :=
  [0x78, 1, 0x61, 0x9F, 0xF5, 0xC2, 0x5F, 0x42, 0, 0, 0x41, 7, 0xFF, 0xA1, 0x18, 5, 0x7F, 0x61, 0x62, 0xFF, 0xFF]

theorem mixedOctets_written : WrittenParams
    [(.text "a", .array [.bool true, .int 7, .map [(.int 5, .text "b")]])] mixedOctets := by
  have key : WrittenKey (.text "a") (head 3 .one 1 ++ [0x61]) :=
    .text ⟨[['a']], rfl, .definite (w := .one) (by decide)⟩
  have big : Bignum BytesWritten 7 (head 6 .inline 2 ++ (openHead 2 ++ (head 2 .inline 2 ++ [0, 0] ++
      (head 2 .inline 1 ++ [7] ++ [])) ++ [breakOctet])) :=
    @Bignum.positive _ .inline [0, 0, 7] _ (by decide) (by decide)
      ⟨[[0, 0], [7]], rfl, .indefinite (.cons (by decide) (.cons (by decide) .nil))⟩
  have inner : Written 254 (.map [(.int 5, .text "b")]) (head 5 .inline 1 ++
      (head 0 .one 5 ++ ((openHead 3 ++ (head 3 .inline 1 ++ [0x62] ++ []) ++ [breakOctet]) ++ []))) :=
    .map (.cons (.int (.positive (by decide)))
      (.text ⟨[['b']], rfl, .indefinite (.cons (by decide) .nil)⟩) .nil) (.counted (by decide))
  exact .bare (.cons key (.array (.cons (.bool true) (.cons (.bignum big) (.cons inner .nil))) .stopped) .nil)

theorem parseParams_mixedOctets : parseParams mixedOctets =
    .ok (Fields.ofList [("a", .array [.bool true, .int 7, .object [("5", .text "b")]])]) := by
  obtain ⟨fields, named, parsed⟩ := parseParams_written mixedOctets_written
  have numeral : Numeral.decimalInt 5 = "5" := by
    rw [show (5 : Int) = .ofNat 5 from rfl, Numeral.decimalInt, Numeral.decimal, Numeral.render, Numeral.renderOnto]
    rfl
  rw [parsed, ← named, entriesToFields]
  simp only [Item.entriesToJson, keyName, Item.toJson, Item.listToJson, numeral]
  rfl

end Cbor
end OracleRelay
