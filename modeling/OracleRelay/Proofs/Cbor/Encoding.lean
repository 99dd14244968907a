/-
# Encodings of items

The well-formed encodings of RFC 8949 for the items that request parameters are made of. An item has many of them: a
head may be longer than its argument asks for, strings, arrays and maps may have their length in front or a stop
behind, and an integer may be written as a tagged byte string with zeros in front. What the decoder makes of a head
and of a string does not depend on the choice (`Head.read_head`, `Pieces.read`).

Key definitions: `Cbor.Width`, `Cbor.head`, `Cbor.Pieces`, `Cbor.Bignum`, `Cbor.WrittenKey`, `Cbor.Written`.
Key theorems: `Cbor.Head.read_head`, `Cbor.Segments.read`, `Cbor.Pieces.read`.
-/
import OracleRelay.Cbor.Decoder
import OracleRelay.Proofs.Text.Octets
import OracleRelay.Proofs.Text.Utf8

namespace OracleRelay
namespace Cbor

/-! ### Heads -/

/-- Where the argument of a head stands: in its first octet, or in so many octets behind it. -/
inductive Width where
  | inline | one | two | four | eight
  deriving DecidableEq, Repr

namespace Width

/-- The octets behind the first one. -/
def octets : Width → Nat
  | .inline => 0
  | .one => 1
  | .two => 2
  | .four => 4
  | .eight => 8

/-- What the arguments are below. A wider place takes the arguments of a narrower one too. -/
def bound : Width → Nat
  | .inline => 24
  | w => 256 ^ w.octets

/-- The low five bits of the first octet. -/
def low (n : Nat) : Width → Nat
  | .inline => n
  | .one => 24
  | .two => 25
  | .four => 26
  | .eight => 27

theorem low_lt {n : Nat} : ∀ {w : Width}, n < w.bound → w.low n < 28
  | .inline, h => Nat.lt_trans h (by decide)
  | .one, _ | .two, _ | .four, _ | .eight, _ => by simp [low]

end Width

/-- A head of a major type with its argument. -/
def head (major : Nat) (w : Width) (n : Nat) : List UInt8 :=
  UInt8.ofNat (major * 32 + w.low n) :: Octets.ofNatBig w.octets n

/-- A head of a major type without a length. -/
def openHead (major : Nat) : List UInt8 := [UInt8.ofNat (major * 32 + 31)]

/-- What ends an item without a length. -/
def breakOctet : UInt8 := 0xFF

/-- The octets behind the first one give the argument that was put there. -/
theorem Argument.read_wide {k n : Nat} (fits : n < 256 ^ k) (rest : List UInt8) :
    (Octets.take? k (Octets.ofNatBig k n ++ rest)).map (fun (arg, rest) =>
      (Argument.number (Octets.bigEndian arg) k, rest)) = some (.number n k, rest) := by
  rw [Octets.take?_append (Octets.length_ofNatBig k n), Option.map_some]
  dsimp only
  rw [Octets.bigEndian_ofNatBig, Nat.mod_eq_of_lt fits]

theorem Argument.read_low {w : Width} {n : Nat} (fits : n < w.bound) (rest : List UInt8) :
    Argument.read (w.low n) (Octets.ofNatBig w.octets n ++ rest) = some (.number n w.octets, rest) := by
  cases w with
  | inline =>
    rw [Argument.read]
    exact if_pos fits
  | one => exact Argument.read_wide fits rest
  | two => exact Argument.read_wide fits rest
  | four => exact Argument.read_wide fits rest
  | eight => exact Argument.read_wide fits rest

/-- A head is read as its major type with its argument, wherever the argument stands. -/
theorem Head.read_head {major : Nat} (known : major < 8) {w : Width} {n : Nat} (fits : n < w.bound)
    (rest : List UInt8) :
    Head.read (head major w n ++ rest) = (Head.ofParts? major (.number n w.octets)).map (·, rest) := by
  have low := Width.low_lt fits
  rw [head, List.cons_append, Head.read, Octets.toNat_ofNat (by omega),
    show (major * 32 + w.low n) % 32 = w.low n by omega, show (major * 32 + w.low n) / 32 = major by omega,
    Argument.read_low fits]

theorem Head.read_openHead {major : Nat} (known : major < 8) (rest : List UInt8) :
    Head.read (openHead major ++ rest) = (Head.ofParts? major .indefinite).map (·, rest) := by
  rw [openHead, List.cons_append, Head.read, Octets.toNat_ofNat (by omega),
    show (major * 32 + 31) % 32 = 31 by omega, show (major * 32 + 31) / 32 = major by omega]
  rfl

theorem Head.read_stop (rest : List UInt8) : Head.read (breakOctet :: rest) = some (.stop, rest) := rfl

/-! ### Strings -/

/-- The major type of a byte string or of a text. -/
def stringMajor (isText : Bool) : Nat := if isText then 3 else 2

/-- The head that the decoder gets for a string. -/
def stringHead (isText : Bool) (len : Option Nat) : Head := if isText then .text len else .bytes len

/-- Segments one after the other, each with its length in front. -/
inductive Segments (isText : Bool) : List (List UInt8) → List UInt8 → Prop where
  | nil : Segments isText [] []
  | cons {w : Width} {segment : List UInt8} {segments : List (List UInt8)} {e : List UInt8} :
    segment.length < w.bound → Segments isText segments e →
    Segments isText (segment :: segments) (head (stringMajor isText) w segment.length ++ segment ++ e)

/-- A string in one piece, or in segments up to a stop. -/
inductive Pieces (isText : Bool) : List (List UInt8) → List UInt8 → Prop where
  | definite {w : Width} {segment : List UInt8} : segment.length < w.bound →
    Pieces isText [segment] (head (stringMajor isText) w segment.length ++ segment)
  | indefinite {segments : List (List UInt8)} {e : List UInt8} : Segments isText segments e →
    Pieces isText segments (openHead (stringMajor isText) ++ e ++ [breakOctet])

theorem Head.read_stringHead (isText : Bool) {w : Width} {n : Nat} (fits : n < w.bound) (rest : List UInt8) :
    Head.read (head (stringMajor isText) w n ++ rest) = some (stringHead isText (some n), rest) := by
  cases isText <;> exact Head.read_head (by decide) fits rest

theorem Head.read_openString (isText : Bool) (rest : List UInt8) :
    Head.read (openHead (stringMajor isText) ++ rest) = some (stringHead isText none, rest) := by
  cases isText <;> exact Head.read_openHead (by decide) rest

theorem Segments.length_le {isText : Bool} {segments : List (List UInt8)} {e : List UInt8}
    (h : Segments isText segments e) : segments.length ≤ e.length := by
  induction h with
  | nil => simp
  | cons _ _ ih =>
    simp only [head, List.length_cons, List.length_append]
    omega

/-- Segments are read up to their stop. -/
theorem Segments.read {isText : Bool} {segments : List (List UInt8)} {e : List UInt8}
    (h : Segments isText segments e) (rest : List UInt8) : ∀ {fuel : Nat}, segments.length < fuel →
      readSegments isText fuel 1 (e ++ breakOctet :: rest) = some (segments, rest) := by
  induction h with
  | nil =>
    intro fuel lt
    obtain ⟨fuel, rfl⟩ := Nat.exists_eq_succ_of_ne_zero (Nat.ne_zero_of_lt lt)
    rw [readSegments, List.nil_append, Head.read_stop]
    rfl
  | @cons w segment segments e fits _ ih =>
    intro fuel lt
    obtain ⟨fuel, rfl⟩ := Nat.exists_eq_succ_of_ne_zero (Nat.ne_zero_of_lt lt)
    simp only [List.length_cons, Nat.succ_eq_add_one, Nat.add_lt_add_iff_right] at lt
    rw [readSegments, List.append_assoc, List.append_assoc, Head.read_stringHead isText fits]
    have taken := Octets.take?_append (n := segment.length) rfl (e ++ breakOctet :: rest)
    cases isText <;> simp [stringHead, Head.segment?, taken, ih lt]

/-- A string is read as its pieces. -/
theorem Pieces.read {isText : Bool} {segments : List (List UInt8)} {e : List UInt8} (h : Pieces isText segments e)
    (rest : List UInt8) : ∃ len rest', Head.read (e ++ rest) = some (stringHead isText len, rest') ∧
      readString isText len rest' = some (segments, rest) := by
  cases h with
  | @definite w segment fits =>
    refine ⟨some segment.length, segment ++ rest, ?_, ?_⟩
    · rw [List.append_assoc, Head.read_stringHead isText fits]
    · rw [readString, Octets.take?_append rfl]
      rfl
  | @indefinite _ e h =>
    refine ⟨none, e ++ breakOctet :: rest, ?_, ?_⟩
    · rw [List.append_assoc, List.append_assoc, Head.read_openString]
      rfl
    · refine h.read rest ?_
      have := h.length_le
      simp only [List.length_append]
      omega

/-- The octets are written as a byte string. -/
def BytesWritten (bs e : List UInt8) : Prop := ∃ segments, segments.flatten = bs ∧ Pieces false segments e

/-- The text is written as a text string, in whole characters where it is in segments. -/
def TextWritten (s : String) (e : List UInt8) : Prop :=
  ∃ parts : List (List Char), parts.flatten = s.toList ∧ Pieces true (parts.map Utf8.encode) e

theorem joinTexts_encode (parts : List (List Char)) :
    joinTexts (parts.map Utf8.encode) = some (String.ofList parts.flatten) := by
  have decoded : (parts.map Utf8.encode).mapM Utf8.decode? = some parts := by
    induction parts with
    | nil => rfl
    | cons part parts ih => simp [Utf8.decode?_encode, ih]
  rw [joinTexts, decoded, Option.map_some]

/-! ### Integers -/

/-- The integer is written as a head. -/
inductive IntHead : Int → List UInt8 → Prop where
  | positive {w : Width} {n : Nat} : n < w.bound → IntHead n (head 0 w n)
  | negative {w : Width} {n : Nat} : n < w.bound → IntHead (-1 - n) (head 1 w n)

/-- The integer is written as a tagged byte string, which is itself `written` in some way. Octets in front that are
zero do not count. -/
inductive Bignum (written : List UInt8 → List UInt8 → Prop) : Int → List UInt8 → Prop where
  | positive {w : Width} {bs e : List UInt8} : positiveBignum < w.bound → Octets.bigEndian bs < Nat.pow 2 64 →
    written bs e → Bignum written (Octets.bigEndian bs) (head 6 w positiveBignum ++ e)
  | negative {w : Width} {bs e : List UInt8} : negativeBignum < w.bound → Octets.bigEndian bs < Nat.pow 2 64 →
    written bs e → Bignum written (-1 - Octets.bigEndian bs) (head 6 w negativeBignum ++ e)

/-- The octets under the tag spell a number that any byte string may have. A short one below `-2 ^ 127` is refused. -/
def Sizable (tag : Nat) (bs : List UInt8) : Prop :=
  tag = positiveBignum ∨ tag = negativeBignum ∧ Octets.bigEndian bs < Nat.pow 2 127

/-- The octets, 16 at most, are written as a byte string in one piece. -/
def ShortBytes (bs e : List UInt8) : Prop :=
  bs.length ≤ 16 ∧ ∃ w : Width, bs.length < w.bound ∧ e = head 2 w bs.length ++ bs

/-! ### Items -/

/-- So many items in a row, after their number or up to a stop. -/
inductive Enclosed (major n : Nat) (row : List UInt8) : List UInt8 → Prop where
  | counted {w : Width} : n < w.bound → Enclosed major n row (head major w n ++ row)
  | stopped : Enclosed major n row (openHead major ++ row ++ [breakOctet])

/-- The key is written as a text or as an integer. Of bignums only the short ones are keys: the decoder takes them for
integers, and leaves the others tagged. -/
inductive WrittenKey : Item → List UInt8 → Prop where
  | text {s : String} {e : List UInt8} : TextWritten s e → WrittenKey (.text s) e
  | int {n : Int} {e : List UInt8} : IntHead n e → WrittenKey (.int n) e
  | bignum {n : Int} {e : List UInt8} : Bignum ShortBytes n e → WrittenKey (.int n) e

mutual

/-- The item is written with at most so many arrays, maps and bignum tags inside each other. An integer may be a head
or a bignum; a number beyond the integers is a bignum. -/
inductive Written : Nat → Item → List UInt8 → Prop where
  | null {levels : Nat} : Written levels .null [0xF6]
  | bool {levels : Nat} (b : Bool) : Written levels (.bool b) [if b then 0xF5 else 0xF4]
  | int {levels : Nat} {n : Int} {e : List UInt8} : IntHead n e → Written levels (.int n) e
  | bignum {levels : Nat} {n : Int} {e : List UInt8} : Bignum BytesWritten n e → Written (levels + 1) (.int n) e
  | large {levels tag : Nat} {w : Width} {bs e : List UInt8} : Sizable tag bs → tag < w.bound → BytesWritten bs e →
    Written (levels + 1) (.tag tag (.bytes bs)) (head 6 w tag ++ e)
  | bytes {levels : Nat} {bs e : List UInt8} : BytesWritten bs e → Written levels (.bytes bs) e
  | text {levels : Nat} {s : String} {e : List UInt8} : TextWritten s e → Written levels (.text s) e
  | array {levels : Nat} {items : List Item} {row e : List UInt8} : WrittenItems levels items row →
    Enclosed 4 items.length row e → Written (levels + 1) (.array items) e
  | map {levels : Nat} {entries : List (Item × Item)} {row e : List UInt8} : WrittenEntries levels entries row →
    Enclosed 5 entries.length row e → Written (levels + 1) (.map entries) e

/-- The items are written one after the other. -/
inductive WrittenItems : Nat → List Item → List UInt8 → Prop where
  | nil {levels : Nat} : WrittenItems levels [] []
  | cons {levels : Nat} {item : Item} {items : List Item} {e es : List UInt8} : Written levels item e →
    WrittenItems levels items es → WrittenItems levels (item :: items) (e ++ es)

/-- The keys and values are written one after the other. -/
inductive WrittenEntries : Nat → List (Item × Item) → List UInt8 → Prop where
  | nil {levels : Nat} : WrittenEntries levels [] []
  | cons {levels : Nat} {key item : Item} {entries : List (Item × Item)} {e e' es : List UInt8} : WrittenKey key e →
    Written levels item e' → WrittenEntries levels entries es →
    WrittenEntries levels ((key, item) :: entries) (e ++ (e' ++ es))

end

/-- Parameters as requesters write them: keys and values without a map around them, or a map. -/
inductive WrittenParams (entries : List (Item × Item)) : List UInt8 → Prop where
  | bare {row : List UInt8} : WrittenEntries (maxLevels - 1) entries row → WrittenParams entries row
  | map {row e : List UInt8} : WrittenEntries (maxLevels - 1) entries row → Enclosed 5 entries.length row e →
    WrittenParams entries e

end Cbor
end OracleRelay
