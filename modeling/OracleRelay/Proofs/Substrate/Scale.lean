/-
# SCALE read back

A reader spells a value by some octets if it gives the value for them and leaves what follows (`Spells`). All
readers are steady: what is read from some octets is read also when more octets follow (`Steady`). Both together
rule out that a value is read from a strict part of its octets (`Steady.eq_none`), so a reader that was cut short
always notices.

Key definitions: `Scale.Spells`, `Scale.Steady`, `Scale.writeBytes`, `Scale.writeVector`.
Key theorems: `Scale.Steady.eq_none`, `Scale.spells_compact`, `Scale.spells_bytes`, `Scale.spells_vector`,
`Scale.steady_compact`, `Scale.steady_vector`.
-/
import OracleRelay.Proofs.Text.Octets
import OracleRelay.Substrate.Scale

namespace OracleRelay
namespace Scale

variable {α β : Type} {r : Reader α} {e : List UInt8} {x : α}

/-- The reader gives `x` for the octets `e`, and leaves what follows them. -/
def Spells (r : Reader α) (e : List UInt8) (x : α) : Prop := ∀ rest, r (e ++ rest) = some (x, rest)

/-- What is read from some octets is read also when more follow, and those are left. -/
def Steady (r : Reader α) : Prop :=
  ∀ bs x rest more, r bs = some (x, rest) → r (bs ++ more) = some (x, rest ++ more)

/-- **Nothing is read from a strict part.** -/
theorem Steady.eq_none (steady : Steady r) (spells : Spells r e x) {part : List UInt8} (h : part <+: e)
    (hne : part ≠ e) : r part = none := by
  obtain ⟨more, rfl⟩ := h
  cases hpart : r part with
  | none => rfl
  | some read =>
    obtain ⟨y, rest⟩ := read
    have hlong : r (part ++ more) = some (y, rest ++ more) := steady part y rest more hpart
    have hwhole : r (part ++ more) = some (x, []) := by
      have := spells []
      rwa [List.append_nil] at this
    rw [hwhole, Option.some.injEq, Prod.mk.injEq] at hlong
    have hmore : more = [] := (List.append_eq_nil_iff.mp hlong.2.symm).2
    exact absurd (by rw [hmore, List.append_nil]) hne

/-- A part of two texts in a row, if it is not all of them, ends before the first one does or in the second. -/
theorem part_of_append {part a b : List UInt8} (h : part <+: a ++ b) (hne : part ≠ a ++ b) :
    (part <+: a ∧ part ≠ a) ∨ ∃ part', part = a ++ part' ∧ part' <+: b ∧ part' ≠ b := by
  rcases List.prefix_or_prefix_of_prefix h (List.prefix_append a b) with hshort | ⟨part', rfl⟩
  · by_cases heq : part = a
    · subst heq
      exact .inr ⟨[], (List.append_nil _).symm, List.nil_prefix, fun hb => hne (by rw [← hb, List.append_nil])⟩
    · exact .inl ⟨hshort, heq⟩
  · refine .inr ⟨part', rfl, (List.prefix_append_right_inj a).mp h, fun hb => hne (by rw [hb])⟩

/-! ### Readers from readers -/

theorem Spells.map (spells : Spells r e x) (f : α → β) :
    Spells (fun bs => (r bs).map fun (x, rest) => (f x, rest)) e (f x) := by
  intro rest
  simp only [spells rest, Option.map_some]

theorem Steady.map (steady : Steady r) (f : α → β) :
    Steady fun bs => (r bs).map fun (x, rest) => (f x, rest) := by
  intro bs y rest more h
  simp only [Option.map_eq_some_iff, Prod.mk.injEq] at h
  obtain ⟨⟨x, left⟩, hread, rfl, rfl⟩ := h
  simp only [steady bs x left more hread, Option.map_some]

theorem steady_octets (n : Nat) : Steady (octets n) := by
  intro bs x rest more h
  obtain ⟨hlen, rfl⟩ := Octets.take?_eq_some_iff.mp h
  rw [List.append_assoc]
  exact Octets.take?_append hlen _

theorem spells_octets {n : Nat} {bs : List UInt8} (h : bs.length = n) : Spells (octets n) bs bs :=
  fun rest => Octets.take?_append h rest

theorem steady_number (width : Nat) : Steady (number width) := (steady_octets width).map Octets.littleEndian

theorem spells_number {width n : Nat} (h : n < 256 ^ width) :
    Spells (number width) (Octets.ofNatLittle width n) n := by
  have hread := (spells_octets (Octets.length_ofNatLittle width n)).map Octets.littleEndian
  rwa [Octets.littleEndian_ofNatLittle, Nat.mod_eq_of_lt h] at hread

theorem steady_boolean : Steady boolean := by
  intro bs x rest more h
  unfold boolean at h
  split at h <;> cases h <;> rfl

theorem spells_boolean (b : Bool) : Spells boolean [if b then 1 else 0] b := by
  intro rest
  cases b <;> rfl

/-! ### Compact numbers -/

/-- The numbers that have a compact form. -/
def compactBound : Nat := 0x100000000

/-- A number of so many octets that is checked afterwards. -/
theorem steady_checked (width : Nat) (f : Nat → Nat) (p : Nat → Prop) [DecidablePred p] :
    Steady fun bs => (number width bs).bind fun (n, rest) => if p n then some (f n, rest) else none := by
  intro bs x rest more h
  simp only [Option.bind_eq_some_iff] at h
  obtain ⟨⟨n, left⟩, hread, hchecked⟩ := h
  simp only [steady_number width bs n left more hread, Option.bind_some]
  split at hchecked
  · rename_i hp
    cases hchecked
    rw [if_pos hp]
  · cases hchecked

/-- A compact number by the mode in the two lowest bits of its first octet. -/
theorem compact_cons (b : UInt8) (bs : List UInt8) : compact (b :: bs) =
    if b.toNat % 4 = 0 then some (b.toNat / 4, bs)
    else if b.toNat % 4 = 1 then
      (number 2 (b :: bs)).bind fun (n, rest) => if 0x40 ≤ n / 4 then some (n / 4, rest) else none
    else if b.toNat % 4 = 2 then
      (number 4 (b :: bs)).bind fun (n, rest) => if 0x4000 ≤ n / 4 then some (n / 4, rest) else none
    else if b.toNat / 4 = 0 then
      (number 4 bs).bind fun (n, rest) => if 0x40000000 ≤ n then some (n, rest) else none
    else none := by
  obtain h | h | h | h : b.toNat % 4 = 0 ∨ b.toNat % 4 = 1 ∨ b.toNat % 4 = 2 ∨ b.toNat % 4 = 3 := by omega
  all_goals simp [compact, h]

theorem steady_compact : Steady compact := by
  intro bs x rest more h
  cases bs with
  | nil => cases h
  | cons b bs =>
    rw [List.cons_append, compact_cons]
    rw [compact_cons] at h
    split_ifs at h ⊢ with hmode
    · cases h
      rfl
    · exact steady_checked 2 (· / 4) (0x40 ≤ · / 4) (b :: bs) x rest more h
    · exact steady_checked 4 (· / 4) (0x4000 ≤ · / 4) (b :: bs) x rest more h
    · exact steady_checked 4 id (0x40000000 ≤ ·) bs x rest more h

theorem spells_compact {n : Nat} (h : n < compactBound) : Spells compact (writeCompact n) n := by
  intro rest
  have hbound : compactBound = 0x100000000 := rfl
  unfold writeCompact
  split_ifs with h1 h2 h3
  · have hfirst : (UInt8.ofNat (4 * n % 256)).toNat = 4 * n := by
      rw [Octets.toNat_ofNat (Nat.mod_lt _ (by decide))]
      omega
    rw [Octets.ofNatLittle, Octets.ofNatLittle, List.singleton_append, compact_cons, hfirst, if_pos (by omega)]
    simp
  · have hfirst : (UInt8.ofNat ((4 * n + 1) % 256)).toNat % 4 = 1 := by
      rw [Octets.toNat_ofNat (Nat.mod_lt _ (by decide))]
      omega
    have hread : number 2 (Octets.ofNatLittle 2 (4 * n + 1) ++ rest) = some (4 * n + 1, rest) :=
      spells_number (by omega) rest
    rw [Octets.ofNatLittle, List.cons_append] at hread ⊢
    rw [compact_cons, if_neg (by omega), if_pos hfirst, hread, Option.bind_some]
    simp only
    rw [if_pos (by omega)]
    congr
    omega
  · have hfirst : (UInt8.ofNat ((4 * n + 2) % 256)).toNat % 4 = 2 := by
      rw [Octets.toNat_ofNat (Nat.mod_lt _ (by decide))]
      omega
    have hread : number 4 (Octets.ofNatLittle 4 (4 * n + 2) ++ rest) = some (4 * n + 2, rest) :=
      spells_number (by omega) rest
    rw [Octets.ofNatLittle, List.cons_append] at hread ⊢
    rw [compact_cons, if_neg (by omega), if_neg (by omega), if_pos hfirst, hread, Option.bind_some]
    simp only
    rw [if_pos (by omega)]
    congr
    omega
  · have hread : number 4 (Octets.ofNatLittle 4 n ++ rest) = some (n, rest) := spells_number (by omega) rest
    have hmode : (3 : UInt8).toNat = 3 := rfl
    rw [List.cons_append, compact_cons, hmode, if_neg (by decide), if_neg (by decide), if_neg (by decide),
      if_pos (by decide), hread, Option.bind_some]
    simp only
    rw [if_pos (by omega)]

/-! ### Values behind their count -/

/-- Some octets behind their length. -/
def writeBytes (bs : List UInt8) : List UInt8 := writeCompact bs.length ++ bs

/-- Some values behind their count. -/
def writeVector (write : α → List UInt8) (xs : List α) : List UInt8 := writeCompact xs.length ++ xs.flatMap write

theorem steady_bytes : Steady bytes := by
  intro bs x rest more h
  unfold bytes at h ⊢
  cases hcount : compact bs with
  | none => simp [hcount] at h
  | some read =>
    obtain ⟨n, left⟩ := read
    simp only [hcount] at h
    simp only [steady_compact bs n left more hcount]
    exact steady_octets n left x rest more h

theorem spells_bytes {bs : List UInt8} (h : bs.length < compactBound) : Spells bytes (writeBytes bs) bs := by
  intro rest
  unfold bytes writeBytes
  rw [List.append_assoc, spells_compact h]
  exact spells_octets rfl rest

theorem steady_many (steady : Steady r) (n : Nat) : Steady (many r n) := by
  induction n with
  | zero =>
    intro bs x rest more h
    cases h
    rfl
  | succ n ih =>
    intro bs xs rest more h
    unfold many at h ⊢
    cases hread : r bs with
    | none => simp [hread] at h
    | some read =>
      obtain ⟨x, left⟩ := read
      simp only [hread] at h
      simp only [steady bs x left more hread]
      exact (ih.map (x :: ·)) left xs rest more h

theorem spells_many {write : α → List UInt8} {xs : List α} (h : ∀ x ∈ xs, Spells r (write x) x) :
    Spells (many r xs.length) (xs.flatMap write) xs := by
  induction xs with
  | nil => exact fun rest => rfl
  | cons x xs ih =>
    intro rest
    obtain ⟨hx, hxs⟩ := List.forall_mem_cons.mp h
    rw [List.flatMap_cons, List.append_assoc, List.length_cons, many, hx]
    simp only [ih hxs rest, Option.map_some]

theorem steady_vector (steady : Steady r) : Steady (vector r) := by
  intro bs xs rest more h
  unfold vector at h ⊢
  cases hcount : compact bs with
  | none => simp [hcount] at h
  | some read =>
    obtain ⟨n, left⟩ := read
    simp only [hcount] at h
    simp only [steady_compact bs n left more hcount]
    split at h
    · rename_i hlength
      have hmore : Octets.hasLength n (left ++ more) = true := by
        rw [Octets.hasLength_iff] at hlength ⊢
        rw [List.length_append]
        omega
      rw [if_pos hmore]
      exact steady_many steady n left xs rest more h
    · cases h

/-- Values that take at least one octet each are never more than the octets that they take. -/
theorem length_le_flatMap {write : α → List UInt8} {xs : List α} (h : ∀ x ∈ xs, write x ≠ []) :
    xs.length ≤ (xs.flatMap write).length := by
  induction xs with
  | nil => exact Nat.zero_le _
  | cons x xs ih =>
    obtain ⟨hx, hxs⟩ := List.forall_mem_cons.mp h
    have hpos : 0 < (write x).length := List.length_pos_iff.mpr hx
    have := ih hxs
    rw [List.flatMap_cons, List.length_append, List.length_cons]
    omega

theorem spells_vector {write : α → List UInt8} {xs : List α} (h : ∀ x ∈ xs, Spells r (write x) x)
    (nonempty : ∀ x ∈ xs, write x ≠ []) (few : xs.length < compactBound) :
    Spells (vector r) (writeVector write xs) xs := by
  intro rest
  have hlength : Octets.hasLength xs.length (xs.flatMap write ++ rest) = true := by
    rw [Octets.hasLength_iff, List.length_append]
    exact Nat.le_add_right_of_le (length_le_flatMap nonempty)
  unfold vector writeVector
  rw [List.append_assoc, spells_compact few]
  simp only [hlength, ↓reduceIte]
  exact spells_many h rest

theorem writeCompact_ne_nil (n : Nat) : writeCompact n ≠ [] := by
  unfold writeCompact
  split_ifs <;> simp [Octets.ofNatLittle]

end Scale
end OracleRelay
