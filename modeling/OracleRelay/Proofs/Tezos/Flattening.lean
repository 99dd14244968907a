/-
# Flat and nested pairs

The rows of a type need not be as long as those of its value. The two line up (`LinesUp`) where the rows that meet are
of one length, at once or after the last argument of the shorter one, its only pair, has been lifted. What lines up
gives what nested pairs give. What does not line up gives no values at all as long as no leaf is a map of two entries
or more (`extract_spelt`); with such a map it may give wrong ones (`flattening_loses`).

Key definitions: `Micheline.LinesUp`, `Micheline.Thin`.
Key theorems: `Micheline.members_of_linesUp`, `Micheline.width_le_of_members`, `Micheline.linesUp_of_members`,
`Micheline.extract_spelt`.
-/
import OracleRelay.Proofs.Tezos.Walk

namespace OracleRelay
namespace Micheline

open PairTree

/-! ### Spellings that line up -/

/-- A type and a value line up: where rows meet they are of one length, or become so when the only pair of the
shorter one, its last argument, is lifted. -/
inductive LinesUp : Micheline → Micheline → Prop where
  | leaf {head : Head} {args : List Micheline} {source : Json} {value : Micheline} :
    head.prim ≠ "pair" → LinesUp (.node head args source) value
  | level {head head' : Head} {types values : List Micheline} {source source' : Json} :
    List.Forall₂ LinesUp types values → LinesUp (.node head types source) (.node head' values source')
  | liftType {head head' inner : Head} {front types values : List Micheline} {source source' source'' : Json} :
    (∀ t ∈ front, t.Plain) → isPair inner.prim = true → List.Forall₂ LinesUp (front ++ types) values →
    LinesUp (.node head (front ++ [.node inner types source]) source') (.node head' values source'')
  | liftValue {head head' inner : Head} {front types values : List Micheline} {source source' source'' : Json} :
    (∀ v ∈ front, v.Plain) → isPair inner.prim = true → List.Forall₂ LinesUp types (front ++ values) →
    LinesUp (.node head types source') (.node head' (front ++ [.node inner values source]) source'')

/-- Rows that line up give the values of their tree, if expressions of smaller trees do. Each argument of a row takes a
leaf at least, so that `N` need only bound what one of them can take. -/
theorem membersOfArgs_of_forall₂ {N : Nat}
    (ih : ∀ t : PairTree Field, t.width < N → ∀ type value, SpeltType t type → SpeltValue t value →
      LinesUp type value → members type value = t.named)
    (n k : Nat) {types values : List Micheline} (level : List.Forall₂ LinesUp types values) :
    ∀ {t : PairTree Field}, t.width + 1 < N + types.length → TypeRow t types → ValueRow t values →
      membersOfArgs n k types values = t.named := by
  induction level with
  | nil => exact fun _ h => absurd rfl h.ne_nil
  | @cons type value types values first rest ihRow =>
    intro t lt typed valued
    rw [List.length_cons] at lt
    by_cases more : types = []
    · subst more
      cases rest
      rw [membersOfArgs, ih t (by simpa using lt) type value typed.single valued.single first]
      cases t.named <;> simp [membersOfArgs, Except.map]
    · have more' : values ≠ [] := fun h => by
        subst h
        cases rest
        exact more rfl
      obtain ⟨l, r, rfl, typeL, typeR⟩ := typed.uncons more
      obtain ⟨l', r', same, valueL, valueR⟩ := valued.uncons more'
      cases same
      have left := l.width_pos
      have right := typeR.length_le_width
      rw [width_pair] at lt
      have givesFirst : members type value = l.named := ih l (by omega) type value typeL valueL first
      have givesRest : membersOfArgs n k types values = r.named := ihRow (by omega) typeR valueR
      rw [membersOfArgs, givesFirst, givesRest]
      cases h : l.named <;> simp [PairTree.named, h]

/-- Spellings that line up give the values of the leaves from left to right. -/
theorem members_of_linesUp : ∀ (N : Nat) (t : PairTree Field), t.width < N → ∀ type value,
    SpeltType t type → SpeltValue t value → LinesUp type value → members type value = t.named
  | 0, _, lt, _, _, _, _, _ => absurd lt (by omega)
  | N + 1, .leaf f, _, type, value, typed, valued, _ => by
    cases typed with
    | leaf h =>
      cases valued with
      | leaf h' =>
        obtain ⟨args, source, rfl⟩ := h
        obtain rfl := h'
        rw [PairTree.named, Field.named, ← members_leaf f.plain f.typed args source, Option.getD_some]
  | N + 1, .pair l r, lt, type, value, typed, valued, lines => by
    -- The induction is on the leaves: a lifted argument is no argument of the pair that it is walked for.
    have below : ∀ t : PairTree Field, t.width < (PairTree.pair l r).width → ∀ type value, SpeltType t type →
        SpeltValue t value → LinesUp type value → members type value = t.named :=
      fun t less => members_of_linesUp N t (by omega)
    obtain ⟨head, types, source, rfl, prim, typed, two⟩ := typed.as_node
    obtain ⟨head', values, source', rfl, _, valued, two'⟩ := valued.as_node
    rw [members_pair prim]
    cases lines with
    | leaf other => exact absurd prim other
    | level level =>
      have same := level.length_eq
      rw [if_neg (by omega), if_neg (by omega)]
      exact membersOfArgs_of_forall₂ below _ _ level (by omega) typed valued
    | liftType plain inner level =>
      obtain ⟨_, last⟩ := typed.getLast
      have inside := (SpeltType.opens last inner).2
      have same := level.length_eq
      simp only [List.length_append] at same
      rw [if_pos (by simp only [List.length_append, List.length_singleton]; omega), spread_front plain inner]
      exact membersOfArgs_of_forall₂ below _ _ level (by simp only [List.length_append]; omega)
        (typed.lift fun t h => (SpeltType.opens h inner).1) valued
    | liftValue plain inner level =>
      obtain ⟨_, last⟩ := valued.getLast
      have inside := (SpeltValue.opens last inner).2
      have same := level.length_eq
      simp only [List.length_append] at same
      rw [if_neg (by simp only [List.length_append, List.length_singleton]; omega),
        if_pos (by simp only [List.length_append, List.length_singleton]; omega), spread_front plain inner]
      exact membersOfArgs_of_forall₂ below _ _ level (by omega) typed
        (valued.lift fun t h => (SpeltValue.opens h inner).1)

/-- Nested pairs line up. -/
theorem LinesUp.of_nested : ∀ {t : PairTree Field} {type value : Micheline}, NestedType t type →
    NestedValue t value → LinesUp type value
  | .leaf f, _, _, ⟨_, _, same⟩, _ => by
    subst same
    have pair := f.not_isPair
    exact .leaf fun prim => by simp [isPair, prim] at pair
  | .pair _ _, _, _, ⟨_, _, left, right, _, _, same, _⟩, ⟨_, _, left', right', _, _, same', _⟩ => by
    subst same same'
    exact .level (.cons (of_nested left left') (.cons (of_nested right right') .nil))

/-! ### Spellings that do not line up -/

/-- Leaf values of at most one argument: all scalars, and maps of one entry or none. -/
def Thin (fields : List Field) : Prop := ∀ f ∈ fields, f.value.args.length < 2

/-- Types that are given their values take no more leaves than these have, and each value left over is one leaf
less. -/
theorem widths_le_of_membersOfArgs {N : Nat}
    (ih : ∀ t t' : PairTree Field, t.width < N → Thin t'.leaves → ∀ type value ms, SpeltType t type →
      SpeltValue t' value → members type value = .ok ms → t.width ≤ t'.width)
    {n k : Nat} {ts : List (PairTree Field)} {types : List Micheline}
    (typed : List.Forall₂ SpeltType ts types) (less : ∀ t ∈ ts, t.width < N) :
    ∀ {ts' : List (PairTree Field)} {values : List Micheline} {ms : List (String × Json)},
      List.Forall₂ SpeltValue ts' values → Thin (ts'.flatMap leaves) → membersOfArgs n k types values = .ok ms →
      widths ts + values.length ≤ widths ts' + types.length := by
  induction typed with
  | nil =>
    intro ts' values ms valued _ _
    have := length_le_widths ts'
    have := valued.length_eq
    simp only [widths_nil, List.length_nil]
    omega
  | @cons t type ts types first rest ihRow =>
    intro ts' values ms valued thin ok
    cases valued with
    | nil => simp [membersOfArgs] at ok
    | @cons t' value ts' values first' rest' =>
      obtain ⟨⟨_, okFirst⟩, ⟨_, okRest⟩⟩ := membersOfArgs_cons_ok ok
      have left := ih t t' (less t (by simp)) (fun f hf => thin f (by simp [hf])) _ _ _ first first' okFirst
      have right := ihRow (fun t ht => less t (by simp [ht])) rest'
        (fun f hf => thin f (by rw [List.flatMap_cons]; exact List.mem_append_right _ hf)) okRest
      simp only [widths_cons, List.length_cons]
      omega

/-- Where a pair of types and one of values give something, it is rows of their leaves that do. -/
theorem rows_of_members {l r : PairTree Field} {t' : PairTree Field} {head head' : Head} {types values : List Micheline}
    {source source' : Json} {ms : List (String × Json)} (prim : head.prim = "pair")
    (typed : TypeRow (.pair l r) types) (two : 2 ≤ types.length) (valued : ValueRow t' values)
    (ok : members (.node head types source) (.node head' values source') = .ok ms) :
    ∃ n k types values, ∃ ts ts' : List (PairTree Field), List.Forall₂ SpeltType ts types ∧
      List.Forall₂ SpeltValue ts' values ∧ ts.flatMap leaves = (PairTree.pair l r).leaves ∧
      ts'.flatMap leaves = t'.leaves ∧ 2 ≤ types.length ∧ membersOfArgs n k types values = .ok ms := by
  obtain ⟨ts, typedAll, leavesT⟩ := typed.forest
  obtain ⟨ts', valuedAll, leavesV⟩ := valued.forest
  rw [members_pair prim] at ok
  split at ok
  · obtain ⟨flat, us, lifted, spelt, same, longer⟩ := spread_forest SpeltType.plain_or_pair typedAll
    rw [lifted] at ok
    exact ⟨_, _, flat, values, us, ts', spelt, valuedAll, same.trans leavesT, leavesV, by omega, ok⟩
  · split at ok
    · obtain ⟨flat, us, lifted, spelt, same, _⟩ := spread_forest SpeltValue.plain_or_pair valuedAll
      rw [lifted] at ok
      exact ⟨_, _, types, flat, ts, us, typedAll, spelt, leavesT, same.trans leavesV, two, ok⟩
    · exact ⟨_, _, types, values, ts, ts', typedAll, valuedAll, leavesT, leavesV, two, ok⟩

/-- A type never takes a value with fewer leaves, even one that is not its own. -/
theorem width_le_of_members : ∀ (N : Nat) (t t' : PairTree Field), t.width < N → Thin t'.leaves →
    ∀ type value ms, SpeltType t type → SpeltValue t' value → members type value = .ok ms → t.width ≤ t'.width
  | 0, _, _, lt, _, _, _, _, _, _, _ => absurd lt (by omega)
  | N + 1, .leaf _, t', _, _, _, _, _, _, _, _ => t'.width_pos
  | N + 1, .pair l r, .leaf f, _, thin, type, value, ms, typed, valued, ok => by
    obtain ⟨head, types, source, rfl, prim, row, two⟩ := typed.as_node
    cases valued with
    | leaf h =>
      have few := thin f (by simp [leaves])
      have elements := f.elements
      have plain := f.plain
      rw [← show value = f.value from h] at few elements plain
      cases value with
      | unreadable _ => exact plain.elim
      | node head' values source' =>
        -- A leaf has less than two elements and none of them is lifted, so the two types are one too many.
        simp only [args] at few elements
        rw [members_pair prim, if_neg (by omega), if_pos (by omega), spread_plain elements] at ok
        have := length_le_of_membersOfArgs ok
        omega
  | N + 1, .pair l r, .pair l' r', lt, thin, type, value, ms, typed, valued, ok => by
    obtain ⟨head, types, source, rfl, prim, row, two⟩ := typed.as_node
    obtain ⟨head', values, source', rfl, _, row', _⟩ := valued.as_node
    obtain ⟨n, k, types, values, ts, ts', typed, valued, same, same', two, ok⟩ :=
      rows_of_members prim row two row' ok
    have all : widths ts = (PairTree.pair l r).width := by rw [widths, same, width]
    have all' : widths ts' = (PairTree.pair l' r').width := by rw [widths, same', width]
    have smaller : ∀ t ∈ ts, t.width < N := fun t ht => by
      have := width_lt_of_mem ht
      rw [typed.length_eq] at this
      omega
    have count := widths_le_of_membersOfArgs (width_le_of_members N) typed smaller valued (same' ▸ thin) ok
    have := length_le_of_membersOfArgs ok
    omega

theorem widths_le {ts ts' : List (PairTree Field)} {n k : Nat} {types values : List Micheline}
    {ms : List (String × Json)} (typed : List.Forall₂ SpeltType ts types) (valued : List.Forall₂ SpeltValue ts' values)
    (thin : Thin (ts'.flatMap leaves)) (ok : membersOfArgs n k types values = .ok ms) :
    widths ts + values.length ≤ widths ts' + types.length :=
  widths_le_of_membersOfArgs (width_le_of_members (widths ts + 1)) typed
    (fun t ht => by
      have := width_lt_of_mem ht
      have := List.length_pos_of_mem ht
      omega) valued thin ok

/-- Rows of one tree that give something are of one length. -/
theorem Row.length_eq {t : PairTree Field} {n k : Nat} {types values : List Micheline} {ms : List (String × Json)}
    (typed : TypeRow t types) (valued : ValueRow t values) (thin : Thin t.leaves)
    (ok : membersOfArgs n k types values = .ok ms) : types.length = values.length := by
  obtain ⟨ts, typed, same⟩ := typed.forest
  obtain ⟨ts', valued, same'⟩ := valued.forest
  have count := widths_le typed valued (same' ▸ thin) ok
  rw [widths, widths, same, same'] at count
  have := length_le_of_membersOfArgs ok
  omega

theorem Thin.left {l r : PairTree Field} (h : Thin (PairTree.pair l r).leaves) : Thin l.leaves :=
  fun f hf => h f (by simp [leaves, hf])

theorem Thin.right {l r : PairTree Field} (h : Thin (PairTree.pair l r).leaves) : Thin r.leaves :=
  fun f hf => h f (by simp [leaves, hf])

/-- If a shorter row of types gives something after it was spread, then the last of them is the only pair. A pair
before it would get a value that has all of its leaves for its first argument, and too few would be left for the
rest. -/
theorem last_type_lifted {n k : Nat} {types : List Micheline} : ∀ {t : PairTree Field} {values flat : List Micheline}
    {ms : List (String × Json)}, TypeRow t types → ValueRow t values → Thin t.leaves →
    types.length < values.length → spread types = .ok flat → membersOfArgs n k flat values = .ok ms →
    ∃ front inner args source, types = front ++ [.node inner args source] ∧ (∀ e ∈ front, e.Plain) ∧
      isPair inner.prim = true := by
  induction types with
  | nil => exact fun h => absurd rfl h.ne_nil
  | cons type types ih =>
    intro t values flat ms typed valued thin shorter lifted ok
    rw [List.length_cons] at shorter
    by_cases more : types = []
    · subst more
      obtain plain | ⟨inner, args, source, rfl, pair, _⟩ := SpeltType.plain_or_pair _ _ typed.single
      · rw [plain.spread] at lifted
        cases lifted
        have := typed.length_eq valued thin ok
        simp only [List.length_cons] at this
        omega
      · exact ⟨[], inner, args, source, rfl, by simp, pair⟩
    · obtain ⟨value, values, rfl⟩ := List.exists_cons_of_length_pos (l := values) (by omega)
      rw [List.length_cons] at shorter
      have := List.length_pos_iff.mpr more
      obtain ⟨l, r, rfl, typeL, typeR⟩ := typed.uncons more
      obtain ⟨_, _, tree, valueL, valueR⟩ := valued.uncons (List.ne_nil_of_length_pos (by omega))
      cases tree
      obtain ⟨ts, typesR, sameR⟩ := typeR.forest
      obtain ⟨flat', us, lifted', spelt, same, _⟩ := spread_forest SpeltType.plain_or_pair typesR
      obtain plain | ⟨inner, args, source, rfl, pair, _⟩ := SpeltType.plain_or_pair _ _ typeL
      · rw [plain.spread, lifted'] at lifted
        cases lifted
        obtain ⟨_, _, rest⟩ := membersOfArgs_cons_ok ok
        obtain ⟨front, inner, args, source, rfl, plain', pair⟩ :=
          ih typeR valueR thin.right (by omega) lifted' rest
        exact ⟨type :: front, inner, args, source, rfl, List.forall_mem_cons.mpr ⟨plain, plain'⟩, pair⟩
      · rw [spread_pair pair, lifted'] at lifted
        cases lifted
        -- The first of the lifted types takes the value of them all.
        obtain ⟨row, two⟩ := SpeltType.opens typeL pair
        obtain ⟨ts', valuesR, sameR'⟩ := valueR.forest
        obtain ⟨us', typesL, _⟩ := row.forest
        cases typesL with
        | nil => simp at two
        | @cons _ _ us' args _ typesL =>
          obtain ⟨_, _, rest⟩ := membersOfArgs_cons_ok ok
          rw [List.append_eq] at rest
          have count := widths_le (List.rel_append typesL spelt) valuesR (sameR' ▸ thin.right) rest
          have wide : widths us = widths ts' := by rw [widths, widths, same, sameR, sameR']
          have := length_le_of_membersOfArgs rest
          have := length_le_widths us'
          have := typesL.length_eq
          simp only [widths_append, List.length_cons] at count two
          omega

/-- If a shorter row of values gives something after it was spread, then the last of them is the only named pair. A
named pair before it would leave its type with the leaves of its first argument alone. -/
theorem last_value_lifted {n k : Nat} {values : List Micheline} : ∀ {t : PairTree Field} {types flat : List Micheline}
    {ms : List (String × Json)}, TypeRow t types → ValueRow t values → Thin t.leaves →
    values.length < types.length → spread values = .ok flat → membersOfArgs n k types flat = .ok ms →
    ∃ front inner args source, values = front ++ [.node inner args source] ∧ (∀ e ∈ front, e.Plain) ∧
      isPair inner.prim = true := by
  induction values with
  | nil => exact fun _ h => absurd rfl h.ne_nil
  | cons value values ih =>
    intro t types flat ms typed valued thin shorter lifted ok
    rw [List.length_cons] at shorter
    by_cases more : values = []
    · subst more
      obtain plain | ⟨inner, args, source, rfl, pair, _⟩ := SpeltValue.plain_or_pair _ _ valued.single
      · rw [plain.spread] at lifted
        cases lifted
        have := typed.length_eq valued thin ok
        simp only [List.length_cons] at this
        omega
      · exact ⟨[], inner, args, source, rfl, by simp, pair⟩
    · obtain ⟨type, types, rfl⟩ := List.exists_cons_of_length_pos (l := types) (by omega)
      rw [List.length_cons] at shorter
      have := List.length_pos_iff.mpr more
      obtain ⟨l, r, rfl, valueL, valueR⟩ := valued.uncons more
      obtain ⟨_, _, tree, typeL, typeR⟩ := typed.uncons (List.ne_nil_of_length_pos (by omega))
      cases tree
      obtain ⟨ts, valuesR, _⟩ := valueR.forest
      obtain ⟨flat', _, lifted', _⟩ := spread_forest SpeltValue.plain_or_pair valuesR
      obtain plain | ⟨inner, args, source, rfl, pair, _⟩ := SpeltValue.plain_or_pair _ _ valueL
      · rw [plain.spread, lifted'] at lifted
        cases lifted
        obtain ⟨_, _, rest⟩ := membersOfArgs_cons_ok ok
        obtain ⟨front, inner, args, source, rfl, plain', pair⟩ :=
          ih typeR valueR thin.right (by omega) lifted' rest
        exact ⟨value :: front, inner, args, source, rfl, List.forall_mem_cons.mpr ⟨plain, plain'⟩, pair⟩
      · rw [spread_pair pair, lifted'] at lifted
        cases lifted
        -- The type of all the lifted values takes the first of them.
        obtain ⟨row, two⟩ := SpeltValue.opens valueL pair
        obtain ⟨us, valuesL, sameL⟩ := row.forest
        cases valuesL with
        | nil => simp at two
        | @cons u _ us args first rest =>
          obtain ⟨⟨_, okFirst⟩, _⟩ := membersOfArgs_cons_ok ok
          have thinU : Thin u.leaves := fun f hf => thin.left f (by rw [← sameL]; simp [hf])
          have narrow := width_le_of_members (l.width + 1) l u (by omega) thinU _ _ _ typeL first okFirst
          have whole : u.width + widths us = l.width := by rw [← widths_cons, widths, sameL, width]
          have := length_le_widths us
          have := rest.length_eq
          simp only [List.length_cons] at two
          omega

/-- Rows of one tree and one length that give something line up, if expressions of smaller trees do. -/
theorem forall₂_of_membersOfArgs {N : Nat}
    (ih : ∀ t : PairTree Field, t.width < N → Thin t.leaves → ∀ type value ms, SpeltType t type →
      SpeltValue t value → members type value = .ok ms → LinesUp type value)
    {n k : Nat} {types : List Micheline} : ∀ {t : PairTree Field} {values : List Micheline}
    {ms : List (String × Json)}, t.width + 1 < N + types.length → TypeRow t types → ValueRow t values →
    Thin t.leaves → types.length = values.length → membersOfArgs n k types values = .ok ms →
    List.Forall₂ LinesUp types values := by
  induction types with
  | nil => exact fun _ h => absurd rfl h.ne_nil
  | cons type types ihRow =>
    intro t values ms lt typed valued thin level ok
    obtain ⟨value, values, rfl⟩ := List.exists_cons_of_length_pos (l := values) (by simp [← level])
    simp only [List.length_cons] at lt level
    obtain ⟨⟨_, okFirst⟩, ⟨_, okRest⟩⟩ := membersOfArgs_cons_ok ok
    by_cases more : types = []
    · subst more
      obtain rfl : values = [] := List.eq_nil_of_length_eq_zero (by simpa using level.symm)
      exact .cons (ih t (by simpa using lt) thin _ _ _ typed.single valued.single okFirst) .nil
    · have := List.length_pos_iff.mpr more
      obtain ⟨l, r, rfl, typeL, typeR⟩ := typed.uncons more
      obtain ⟨_, _, tree, valueL, valueR⟩ := valued.uncons (List.ne_nil_of_length_pos (by omega))
      cases tree
      have left := l.width_pos
      have right := typeR.length_le_width
      rw [width_pair] at lt
      exact .cons (ih l (by omega) thin.left _ _ _ typeL valueL okFirst)
        (ihRow (by omega) typeR valueR thin.right (by omega) okRest)

/-- Spellings that give something line up, unless a leaf is a map of two entries or more. -/
theorem linesUp_of_members : ∀ (N : Nat) (t : PairTree Field), t.width < N → Thin t.leaves →
    ∀ type value ms, SpeltType t type → SpeltValue t value → members type value = .ok ms → LinesUp type value
  | 0, _, lt, _, _, _, _, _, _, _ => absurd lt (by omega)
  | N + 1, .leaf f, _, _, type, value, ms, typed, _, _ => by
    cases typed with
    | leaf h =>
      obtain ⟨args, source, rfl⟩ := h
      have pair := f.not_isPair
      exact .leaf fun prim => by simp [isPair, prim] at pair
  | N + 1, .pair l r, lt, thin, type, value, ms, typed, valued, ok => by
    have below : ∀ t : PairTree Field, t.width < (PairTree.pair l r).width → Thin t.leaves → ∀ type value ms,
        SpeltType t type → SpeltValue t value → members type value = .ok ms → LinesUp type value :=
      fun t less => linesUp_of_members N t (by omega)
    obtain ⟨head, types, source, rfl, prim, typed, two⟩ := typed.as_node
    obtain ⟨head', values, source', rfl, _, valued, two'⟩ := valued.as_node
    rw [members_pair prim] at ok
    split at ok
    case isTrue shorter =>
      obtain ⟨ts, typedAll, _⟩ := typed.forest
      obtain ⟨flat, _, lifted, _⟩ := spread_forest SpeltType.plain_or_pair typedAll
      rw [lifted] at ok
      obtain ⟨front, inner, args, source, rfl, plain, pair⟩ :=
        last_type_lifted typed valued thin shorter lifted ok
      cases (spread_front plain pair args source).symm.trans lifted
      have typed' := typed.lift fun t h => (SpeltType.opens h pair).1
      have level := typed'.length_eq valued thin ok
      exact .liftType plain pair (forall₂_of_membersOfArgs below (by omega) typed' valued thin level ok)
    case isFalse =>
      split at ok
      case isTrue shorter =>
        obtain ⟨ts, valuedAll, _⟩ := valued.forest
        obtain ⟨flat, _, lifted, _⟩ := spread_forest SpeltValue.plain_or_pair valuedAll
        rw [lifted] at ok
        obtain ⟨front, inner, args, source, rfl, plain, pair⟩ :=
          last_value_lifted typed valued thin shorter lifted ok
        cases (spread_front plain pair args source).symm.trans lifted
        have valued' := valued.lift fun t h => (SpeltValue.opens h pair).1
        have level := typed.length_eq valued' thin ok
        exact .liftValue plain pair (forall₂_of_membersOfArgs below (by omega) typed valued' thin level ok)
      case isFalse =>
        exact .level (forall₂_of_membersOfArgs below (by omega) typed valued thin (by omega) ok)

/-! ### What flattening keeps, and what it loses -/

/-- Four strings in nested pairs. -/
def fourTexts : PairTree Field :=
  .pair (.leaf (.text "a" "x")) (.pair (.leaf (.text "b" "y")) (.pair (.leaf (.text "c" "z")) (.leaf (.text "d" "w"))))

/-- The types of the four strings in one row. -/
def fourTypes : Micheline :=
  applied "pair" [(Field.text "a" "x").type, (Field.text "b" "y").type, (Field.text "c" "z").type,
    (Field.text "d" "w").type]

/-- What the four strings are. -/
def fourNamed : Json := .object [("a", .text "x"), ("b", .text "y"), ("c", .text "z"), ("d", .text "w")]

theorem fourTypes_spelt : SpeltType fourTexts fourTypes :=
  Spelt.pair (.leaf ⟨[], _, rfl⟩) (.cons (.leaf ⟨[], _, rfl⟩) (.cons (.leaf ⟨[], _, rfl⟩) (.last (.leaf ⟨[], _, rfl⟩))))
    ⟨_, _, rfl, rfl⟩

/-- The four strings with the pairs on the right in one row of their own. -/
def fourValues : Micheline :=
  applied "Pair" [literal "x", applied "Pair" [literal "y", literal "z", literal "w"]]

theorem fourValues_spelt : SpeltValue fourTexts fourValues :=
  Spelt.pair (.leaf rfl) (.last (Spelt.pair (.leaf rfl) (.cons (.leaf rfl) (.last (.leaf rfl)))
    (.inl ⟨_, _, rfl, rfl⟩))) (.inl ⟨_, _, rfl, rfl⟩)

/-- Five strings and a map, with a pair on the left. -/
def sixFields : PairTree Field :=
  .pair (.pair (.leaf (.text "a" "u")) (.leaf (.text "b" "v")))
    (.pair (.leaf (.text "c" "w")) (.pair (.leaf (.text "d" "x"))
      (.pair (.leaf (.map "e" [("k", "y"), ("l", "z")])) (.leaf (.text "f" "t")))))

/-- Their values in a row of five. -/
def sixValues : Micheline :=
  applied "Pair" [applied "Pair" [literal "u", literal "v"], literal "w", literal "x",
    (Field.map "e" [("k", "y"), ("l", "z")]).value, literal "t"]

/-- How the pairs of a type and of its value are written makes no difference where the two line up. Where they do not,
nothing is extracted, unless a leaf is a map of two entries or more. -/
theorem extract_spelt {t : PairTree Field} {type₀ value₀ type value : Micheline} {m : Json}
    (nestedType : NestedType t type₀) (nestedValue : NestedValue t value₀) (gives : extract type₀ value₀ = .ok m)
    (typed : SpeltType t type) (valued : SpeltValue t value) :
    (LinesUp type value → extract type value = .ok m) ∧
      (Thin t.leaves → ¬ LinesUp type value → ∃ fault, extract type value = .error fault) := by
  have nested := members_of_linesUp (t.width + 1) t (by omega) _ _ (nestedType.spelt id) (nestedValue.spelt .inl)
    (.of_nested nestedType nestedValue)
  constructor
  · intro lines
    rw [extract, members_of_linesUp (t.width + 1) t (by omega) _ _ typed valued lines, ← nested]
    exact gives
  · intro thin lines
    cases ok : members type value with
    | error fault => exact ⟨fault, by rw [extract, ok]; rfl⟩
    | ok ms => exact absurd (linesUp_of_members (t.width + 1) t (by omega) thin _ _ ms typed valued ok) lines

/-- One level of pairs is lifted, and two are refused. -/
theorem extract_spelt_fourTexts :
    extract fourTypes fourValues = .ok fourNamed ∧ ∃ fault, extract fourTypes fourTexts.value = .error fault := by
  have lines : LinesUp fourTypes fourValues :=
    @LinesUp.liftValue _ _ _ [literal "x"] _ _ _ _ _ (by simp [Plain, literal, isPair]) rfl
      (.cons (.leaf (by decide)) (.cons (.leaf (by decide)) (.cons (.leaf (by decide))
        (.cons (.leaf (by decide)) .nil))))
  have gives : extract fourTexts.type fourTexts.value = .ok fourNamed := by cbv
  have refused : extract fourTypes fourTexts.value ≠ .ok fourNamed := by
    intro same
    rw [show extract fourTypes fourTexts.value = .error (.arityMismatch 4 3) by cbv] at same
    cases same
  have nested : SpeltValue fourTexts fourTexts.value := fourTexts.nested_value.spelt .inl
  have thin : Thin fourTexts.leaves := by simp [Thin, fourTexts, leaves, Field.text, literal, args]
  exact ⟨(extract_spelt fourTexts.nested_type fourTexts.nested_value gives fourTypes_spelt fourValues_spelt).1 lines,
    (extract_spelt fourTexts.nested_type fourTexts.nested_value gives fourTypes_spelt nested).2
      thin fun lines => refused
        ((extract_spelt fourTexts.nested_type fourTexts.nested_value gives fourTypes_spelt nested).1 lines)⟩

/-- Flat types meet values whose pairs are nested deeper than once, or bare, and nothing is extracted. Nested types
meet values in a row next to a map of two entries, and the strings come under wrong names: `b` is `w` and not `v`. -/
theorem flattening_loses :
    (SpeltType fourTexts fourTypes ∧ extract fourTexts.type fourTexts.value = .ok fourNamed ∧
      (SpeltValue fourTexts fourTexts.value ∧ extract fourTypes fourTexts.value = .error (.arityMismatch 4 3)) ∧
      (SpeltValue fourTexts (applied "Pair" [literal "x", bare [literal "y", literal "z", literal "w"]]) ∧
        extract fourTypes (applied "Pair" [literal "x", bare [literal "y", literal "z", literal "w"]]) =
          .error (.arityMismatch 4 2))) ∧
    SpeltType sixFields sixFields.type ∧ SpeltValue sixFields sixValues ∧
      extract sixFields.type sixFields.value = .ok (.object [("a", .text "u"), ("b", .text "v"), ("c", .text "w"),
        ("d", .text "x"), ("e", .object [("k", .text "y"), ("l", .text "z")]), ("f", .text "t")]) ∧
      extract sixFields.type sixValues = .ok (.object [("a", .text "u"), ("b", .text "w"), ("c", .text "x"),
        ("d", .text "k"), ("e", .object []), ("f", .text "z")]) := by
  refine ⟨⟨fourTypes_spelt, by cbv, ⟨fourTexts.nested_value.spelt .inl, by cbv⟩, ?_, by cbv⟩,
    sixFields.nested_type.spelt id, ?_, by cbv, by cbv⟩
  · exact Spelt.pair (.leaf rfl) (.last (Spelt.pair (.leaf rfl) (.cons (.leaf rfl) (.last (.leaf rfl)))
      (.inr ⟨_, rfl⟩)))
      (.inl ⟨_, _, rfl, rfl⟩)
  · exact Spelt.pair (Spelt.pair (.leaf rfl) (.last (.leaf rfl)) (.inl ⟨_, _, rfl, rfl⟩))
      (.cons (.leaf rfl) (.cons (.leaf rfl) (.cons (.leaf rfl) (.last (.leaf rfl))))) (.inl ⟨_, _, rfl, rfl⟩)

end Micheline
end OracleRelay
