/-
# Values read back from their text

The text of a value whose numbers are integers of 64 bits is split into the tree of the value (`Json.Tree.ofText?_render`).
Members are read in the order in which they stand, so this holds of objects in any order of their keys. And every integer
that a text gives has 64 bits (`Json.Tree.sized_of_ofText?`).

Key theorems: `Json.Tree.read_print`, `Json.Tree.ofText?_render`, `Json.Tree.readText?_render`, `Json.Tree.sized_of_ofText?`.
-/
import OracleRelay.Json.Record
import OracleRelay.Proofs.Json.Literals
import OracleRelay.Proofs.Json.Values

namespace OracleRelay
namespace Json
namespace Tree

/-! ### The text of a value -/

theorem skipBlanks_cons {c : Char} (visible : isBlank c = false) (cs : List Char) : skipBlanks (c :: cs) = c :: cs := by
  simp [skipBlanks, visible]

/-- The character begins a number: a minus sign or a figure. -/
def BeginsNumber (c : Char) : Prop := c = '-' ∨ ∃ d < 10, c = Numeral.digitChar d

theorem BeginsNumber.other {c : Char} (h : BeginsNumber c) : isBlank c = false ∧ c ≠ ']' ∧
    c ∉ ['n', 't', 'f', '"', '[', '\x7b'] := by
  have figures : ∀ d < 10, isBlank (Numeral.digitChar d) = false ∧ Numeral.digitChar d ≠ ']' ∧
      Numeral.digitChar d ∉ ['n', 't', 'f', '"', '[', '\x7b'] := by decide
  rcases h with rfl | ⟨d, small, rfl⟩
  · decide
  · exact figures d small

theorem exists_print_number {n : Number} (integer : n.Exact) : ∃ c cs, n.print = c :: cs ∧ BeginsNumber c := by
  cases n with
  | double x => exact integer.2.elim
  | int n =>
    cases n with
    | ofNat k =>
      obtain ⟨ds, numeral, nonempty, digits, -⟩ := Literal.exists_digits k
      obtain ⟨d, ds, rfl⟩ := List.exists_cons_of_ne_nil nonempty
      exact ⟨_, _, numeral, .inr ⟨d, digits d List.mem_cons_self, rfl⟩⟩
    | negSucc k => exact ⟨'-', _, rfl, .inl rfl⟩

/-- The text of a value begins with no blank and with nothing that closes a row. -/
theorem exists_print {v : Json} (integers : v.Numbers Number.Exact) :
    ∃ c cs, v.print = c :: cs ∧ isBlank c = false ∧ c ≠ ']' := by
  cases integers with
  | null => exact ⟨'n', _, by rw [print], by decide, by decide⟩
  | @bool b =>
    cases b with
    | true => exact ⟨'t', _, by rw [print], by decide, by decide⟩
    | false => exact ⟨'f', _, by rw [print], by decide, by decide⟩
  | number integer =>
    obtain ⟨c, cs, same, begins⟩ := exists_print_number integer
    exact ⟨c, cs, by rw [print, same], begins.other.1, begins.other.2.1⟩
  | text => exact ⟨'"', _, by rw [print, quote]; rfl, by decide, by decide⟩
  | array _ => exact ⟨'[', _, by rw [print]; rfl, by decide, by decide⟩
  | object _ => exact ⟨'\x7b', _, by rw [print]; rfl, by decide, by decide⟩

theorem read_number {c : Char} (begins : BeginsNumber c) (fuel : Nat) (cs : List Char) :
    read (fuel + 1) (c :: cs) = (Literal.readNumber (c :: cs)).map fun read => (.number read.1, read.2) := by
  obtain ⟨visible, -, other⟩ := begins.other
  simp only [List.mem_cons, List.not_mem_nil, or_false, not_or] at other
  rw [read, skipBlanks_cons visible]
  split
  · rename_i same
    exact absurd (List.cons.inj same).1 other.1
  · rename_i same
    exact absurd (List.cons.inj same).1 other.2.1
  · rename_i same
    exact absurd (List.cons.inj same).1 other.2.2.1
  · rename_i same
    exact absurd (List.cons.inj same).1 other.2.2.2.1
  · rename_i same
    exact absurd (List.cons.inj same).1 other.2.2.2.2.1
  · rename_i same
    exact absurd (List.cons.inj same).1 other.2.2.2.2.2
  · rfl

/-- What stands between two marks stands between the first of them and the text behind the second. -/
theorem enclosed_append (l r : Char) (cs rest : List Char) : (l :: cs ++ [r]) ++ rest = l :: (cs ++ r :: rest) := by
  rw [List.append_assoc, List.cons_append, List.singleton_append]

theorem read_quote (fuel : Nat) (s : String) (rest : List Char) :
    read (fuel + 1) (quote s ++ rest) = some (.text (some s), rest) := by
  rw [quote, enclosed_append, read, skipBlanks_cons (by decide)]
  simp only [Literal.readText_quote, Option.map_some]

/-- An array that does not close at once has its elements behind the bracket. -/
theorem read_array {c : Char} (visible : isBlank c = false) (opens : c ≠ ']') (fuel : Nat) (cs : List Char) :
    read (fuel + 1) ('[' :: c :: cs) = (readItems fuel (c :: cs)).map fun read => (.array read.1, read.2) := by
  rw [read, skipBlanks_cons (by decide)]
  simp only [skipBlanks_cons visible]
  split
  · rename_i same
    exact absurd (List.cons.inj same).1 opens
  · rfl

theorem read_object (fuel : Nat) (cs : List Char) :
    read (fuel + 1) ('\x7b' :: '"' :: cs) =
      (readMembers fuel ('"' :: cs)).map fun read => (.object read.1, read.2) := by
  rw [read, skipBlanks_cons (by decide)]
  simp only [skipBlanks_cons (show isBlank '"' = false by decide)]
  rfl

/-- The last element stands in front of the bracket. -/
theorem readItems_last {fuel : Nat} {cs rest : List Char} {t : Tree} (first : read fuel cs = some (t, ']' :: rest)) :
    readItems (fuel + 1) cs = some ([t], rest) := by
  rw [readItems, first]
  simp only [skipBlanks_cons (show isBlank ']' = false by decide)]

/-- Any other one in front of a comma. -/
theorem readItems_more {fuel : Nat} {cs rest : List Char} {t : Tree} (first : read fuel cs = some (t, ',' :: rest)) :
    readItems (fuel + 1) cs = (readItems fuel rest).map fun read => (t :: read.1, read.2) := by
  rw [readItems, first]
  simp only [skipBlanks_cons (show isBlank ',' = false by decide)]

theorem readMembers_last {fuel : Nat} {k : String} {cs rest : List Char} {t : Tree}
    (first : read fuel cs = some (t, '\x7d' :: rest)) :
    readMembers (fuel + 1) (quote k ++ ':' :: cs) = some ([(some k, t)], rest) := by
  rw [quote, enclosed_append, readMembers, skipBlanks_cons (by decide)]
  simp only [Literal.readText_quote, skipBlanks_cons (show isBlank ':' = false by decide), first,
    skipBlanks_cons (show isBlank '\x7d' = false by decide)]

theorem readMembers_more {fuel : Nat} {k : String} {cs rest : List Char} {t : Tree}
    (first : read fuel cs = some (t, ',' :: rest)) :
    readMembers (fuel + 1) (quote k ++ ':' :: cs) =
      (readMembers fuel rest).map fun read => ((some k, t) :: read.1, read.2) := by
  rw [quote, enclosed_append, readMembers, skipBlanks_cons (by decide)]
  simp only [Literal.readText_quote, skipBlanks_cons (show isBlank ':' = false by decide), first,
    skipBlanks_cons (show isBlank ',' = false by decide)]

theorem ends_cons {c : Char} (h : c = ',' ∨ c = ']' ∨ c = '\x7d') (rest : List Char) : Ends (c :: rest) := by
  intro c' hc'
  cases hc'
  exact h

mutual

/-- **The text of a value is split into its tree**, with two steps for each character. -/
theorem read_print : ∀ (v : Json), v.Numbers Number.Exact → ∀ (fuel : Nat) (rest : List Char),
    2 * v.print.length ≤ fuel → Ends rest → read fuel (v.print ++ rest) = some (ofValue v, rest)
  | v, integers, 0, _, enough, _ => by
    obtain ⟨c, cs, same, -⟩ := exists_print integers
    rw [same, List.length_cons] at enough
    omega
  | .null, _, fuel + 1, rest, _, _ => by
    rw [print, ofValue]
    rfl
  | .bool true, _, fuel + 1, rest, _, _ => by
    rw [print, ofValue]
    rfl
  | .bool false, _, fuel + 1, rest, _, _ => by
    rw [print, ofValue]
    rfl
  | .number n, integers, fuel + 1, rest, _, ends => by
    have integer : n.Exact := numbers_number_iff.mp integers
    obtain ⟨c, cs, same, begins⟩ := exists_print_number integer
    have back := Literal.readNumber_print integer ends
    rw [same] at back
    rw [print, ofValue, same, List.cons_append, read_number begins, ← List.cons_append, back]
    rfl
  | .text s, _, fuel + 1, rest, _, _ => by
    rw [print, ofValue, read_quote]
  | .array [], _, fuel + 1, rest, _, _ => by
    rw [print, printItems, ofValue, ofValues]
    rfl
  | .array (v :: vs), integers, fuel + 1, rest, enough, _ => by
    have all := numbers_array_iff.mp integers
    rw [print, List.length_append, List.length_cons, List.length_singleton] at enough
    have items := readItems_print v vs all fuel rest (by omega)
    obtain ⟨c, cs, same, visible, opens⟩ := exists_print (all v List.mem_cons_self)
    obtain ⟨cs', begins⟩ : ∃ cs', printItems (v :: vs) ++ ']' :: rest = c :: cs' := by
      cases vs with
      | nil => exact ⟨_, by rw [printItems, same]; rfl⟩
      | cons w vs => exact ⟨_, by rw [printItems, same]; rfl⟩
    rw [begins] at items
    rw [print, ofValue, enclosed_append, begins, read_array visible opens, items]
    rfl
  | .object [], _, fuel + 1, rest, _, _ => by
    rw [print, printMembers, ofValue, ofMembers]
    rfl
  | .object (m :: ms), integers, fuel + 1, rest, enough, _ => by
    have all := numbers_object_iff.mp integers
    rw [print, List.length_append, List.length_cons, List.length_singleton] at enough
    have members := readMembers_print m ms all fuel rest (by omega)
    obtain ⟨cs', begins⟩ : ∃ cs', printMembers (m :: ms) ++ '\x7d' :: rest = '"' :: cs' := by
      obtain ⟨k, v⟩ := m
      cases ms with
      | nil => exact ⟨_, by rw [printMembers, quote]; rfl⟩
      | cons m' ms => exact ⟨_, by rw [printMembers, quote]; rfl⟩
    rw [begins] at members
    rw [print, ofValue, enclosed_append, begins, read_object, members]
    rfl

theorem readItems_print : ∀ (v : Json) (vs : List Json), (∀ w ∈ v :: vs, w.Numbers Number.Exact) →
    ∀ (fuel : Nat) (rest : List Char), 2 * (printItems (v :: vs)).length + 1 ≤ fuel →
      readItems fuel (printItems (v :: vs) ++ ']' :: rest) = some (ofValues (v :: vs), rest)
  | _, _, _, 0, _, enough => absurd enough (Nat.not_succ_le_zero _)
  | v, [], all, fuel + 1, rest, enough => by
    rw [printItems] at enough ⊢
    have first := read_print v (all v List.mem_cons_self) fuel (']' :: rest) (by omega) (ends_cons (by simp) rest)
    rw [readItems_last first, ofValues, ofValues]
  | v, w :: vs, all, fuel + 1, rest, enough => by
    rw [printItems, List.length_append, List.length_cons] at enough
    have later := readItems_print w vs (fun u hu => all u (List.mem_cons_of_mem v hu)) fuel rest (by omega)
    have first := read_print v (all v List.mem_cons_self) fuel (',' :: (printItems (w :: vs) ++ ']' :: rest))
      (by omega) (ends_cons (by simp) _)
    rw [printItems, List.append_assoc, List.cons_append, readItems_more first, later, ofValues]
    rfl

theorem readMembers_print : ∀ (m : String × Json) (ms : List (String × Json)),
    (∀ m' ∈ m :: ms, m'.2.Numbers Number.Exact) → ∀ (fuel : Nat) (rest : List Char),
      2 * (printMembers (m :: ms)).length + 1 ≤ fuel →
        readMembers fuel (printMembers (m :: ms) ++ '\x7d' :: rest) = some (ofMembers (m :: ms), rest)
  | _, _, _, 0, _, enough => absurd enough (Nat.not_succ_le_zero _)
  | (k, v), [], all, fuel + 1, rest, enough => by
    rw [printMembers, List.length_append, List.length_cons] at enough
    have first := read_print v (all (k, v) List.mem_cons_self) fuel ('\x7d' :: rest) (by omega)
      (ends_cons (by simp) rest)
    rw [printMembers, List.append_assoc, List.cons_append, readMembers_last first, ofMembers, ofMembers]
  | (k, v), m :: ms, all, fuel + 1, rest, enough => by
    rw [printMembers, List.length_append, List.length_cons, List.length_append, List.length_cons] at enough
    have later := readMembers_print m ms (fun u hu => all u (List.mem_cons_of_mem (k, v) hu)) fuel rest (by omega)
    have first := read_print v (all (k, v) List.mem_cons_self) fuel (',' :: (printMembers (m :: ms) ++ '\x7d' :: rest))
      (by omega) (ends_cons (by simp) _)
    rw [printMembers, List.append_assoc, List.cons_append, List.append_assoc, List.cons_append, readMembers_more first,
      later, ofMembers]
    rfl

end

/-- **The tree of a value is read back from its text.** -/
theorem ofText?_render {v : Json} (integers : v.Numbers Number.Exact) : ofText? v.render = some (ofValue v) := by
  have split := read_print v integers (2 * v.print.length + 2) [] (Nat.le_add_right _ 2) nofun
  rw [List.append_nil] at split
  rw [ofText?, render, String.toList_ofList, ofChars?, split]
  rfl

/-- What a value is read as from its text is what it is read as from its tree. -/
theorem readText?_render {α : Type} (reader : Reader α) {v : Json} (integers : v.Numbers Number.Exact) :
    readText? reader v.render = reader maxDepth (ofValue v) := by
  rw [readText?, ofText?_render integers, Option.bind_some]

/-! ### The numbers of a text -/

mutual

theorem sized_of_read : ∀ (fuel : Nat) {cs rest : List Char} {t : Tree}, read fuel cs = some (t, rest) →
    t.Numbers Number.Sized
  | 0, _, _, _, h => by cases h
  | fuel + 1, cs, rest, t, h => by
    rw [read] at h
    -- The three words, a string, an array, an object, and a number for everything else.
    split at h
    · cases h
      exact .null
    · cases h
      exact .bool
    · cases h
      exact .bool
    · obtain ⟨⟨s, rest'⟩, -, same⟩ := Option.map_eq_some_iff.mp h
      cases same
      exact .text
    · split at h
      · cases h
        exact .array nofun
      · obtain ⟨⟨ts, rest'⟩, items, same⟩ := Option.map_eq_some_iff.mp h
        cases same
        exact .array (sized_of_readItems fuel items)
    · split at h
      · cases h
        exact .object nofun
      · obtain ⟨⟨ms, rest'⟩, members, same⟩ := Option.map_eq_some_iff.mp h
        cases same
        exact .object (sized_of_readMembers fuel members)
    · obtain ⟨⟨n, rest'⟩, number, same⟩ := Option.map_eq_some_iff.mp h
      cases same
      refine .number fun k hk => ?_
      cases hk
      exact Literal.sized_of_readNumber number

theorem sized_of_readItems : ∀ (fuel : Nat) {cs rest : List Char} {ts : List Tree},
    readItems fuel cs = some (ts, rest) → ∀ t ∈ ts, t.Numbers Number.Sized
  | 0, _, _, _, h => by cases h
  | fuel + 1, cs, rest, ts, h => by
    rw [readItems] at h
    split at h
    · cases h
    · rename_i t rest' first
      have sized := sized_of_read fuel first
      split at h
      · obtain ⟨⟨ts', rest''⟩, later, same⟩ := Option.map_eq_some_iff.mp h
        cases same
        exact List.forall_mem_cons.mpr ⟨sized, sized_of_readItems fuel later⟩
      · cases h
        exact List.forall_mem_singleton.mpr sized
      · cases h

theorem sized_of_readMembers : ∀ (fuel : Nat) {cs rest : List Char} {ms : List (Option String × Tree)},
    readMembers fuel cs = some (ms, rest) → ∀ m ∈ ms, m.2.Numbers Number.Sized
  | 0, _, _, _, h => by cases h
  | fuel + 1, cs, rest, ms, h => by
    rw [readMembers] at h
    split at h
    · split at h
      · cases h
      · split at h
        · split at h
          · cases h
          · rename_i t rest' first
            have sized := sized_of_read fuel first
            split at h
            · obtain ⟨⟨ms', rest''⟩, later, same⟩ := Option.map_eq_some_iff.mp h
              cases same
              exact List.forall_mem_cons.mpr ⟨sized, sized_of_readMembers fuel later⟩
            · cases h
              exact List.forall_mem_singleton.mpr sized
            · cases h
        · cases h
    · cases h

end

/-- **An integer that a text gives has 64 bits.** -/
theorem sized_of_ofText? {s : String} {t : Tree} (h : ofText? s = some t) : t.Numbers Number.Sized := by
  rw [ofText?, ofChars?] at h
  split at h
  · rename_i t' rest split
    split_ifs at h with nothing
    cases h
    exact sized_of_read _ split
  · cases h

end Tree
end Json
end OracleRelay
