/-
# The walk over rows of pairs

What a pair of types and a pair of values give, in one equation: their rows are walked side by side after the pairs of
the shorter row were lifted (`members_pair`). Lifting keeps the leaves of a row (`spread_forest`), and the walk never
takes more values than there are (`length_le_of_membersOfArgs`).

Key theorems: `Micheline.membersOfSpread_eq`, `Micheline.members_leaf`, `Micheline.members_pair`,
`Micheline.spread_front`, `Micheline.spread_forest`.
-/
import OracleRelay.Proofs.Tezos.Spelling

namespace OracleRelay
namespace Micheline

open PairTree

/-! ### Lifting pairs -/

theorem Plain.spread {e : Micheline} (h : e.Plain) (es : List Micheline) :
    spread (e :: es) = (spread es).map (e :: ·) := by
  cases e with
  | unreadable _ => exact h.elim
  | node head args source =>
    rw [Micheline.spread]
    simp [show isPair head.prim = false from h]

theorem spread_plain : ∀ {es : List Micheline}, (∀ e ∈ es, e.Plain) → spread es = .ok es
  | [], _ => rfl
  | e :: es, plain => by
    rw [(plain e (by simp)).spread, spread_plain fun e he => plain e (by simp [he])]
    rfl

theorem spread_pair {head : Head} (h : isPair head.prim = true) (args es : List Micheline) (source : Json) :
    spread (.node head args source :: es) = (spread es).map (args ++ ·) := by
  rw [spread]
  simp [h]

/-- Only the last argument is lifted where no other one is a pair. -/
theorem spread_front {front : List Micheline} (plain : ∀ e ∈ front, e.Plain) {head : Head}
    (h : isPair head.prim = true) (args : List Micheline) (source : Json) :
    spread (front ++ [.node head args source]) = .ok (front ++ args) := by
  induction front with
  | nil => simp [spread_pair h, spread, Except.map]
  | cons e front ih =>
    rw [List.cons_append, (plain e (by simp)).spread, ih fun e he => plain e (by simp [he])]
    rfl

/-- The trees of a row after its pairs were spread: the same leaves, in arguments as many or more. -/
theorem spread_forest {α : Type} {leaf : α → Micheline → Prop} {node : List Micheline → Micheline → Prop}
    (opens : ∀ t e, Spelt leaf node t e → e.Plain ∨ ∃ head args source, e = .node head args source ∧
      isPair head.prim = true ∧ Row leaf node t args) {ts : List (PairTree α)} {es : List Micheline}
    (spelt : List.Forall₂ (Spelt leaf node) ts es) :
    ∃ flat ts', spread es = .ok flat ∧ List.Forall₂ (Spelt leaf node) ts' flat ∧
      ts'.flatMap leaves = ts.flatMap leaves ∧ es.length ≤ flat.length := by
  induction spelt with
  | nil => exact ⟨[], [], rfl, .nil, rfl, Nat.le_refl _⟩
  | @cons t e ts es first _ ih =>
    obtain ⟨flat, ts', lifted, spelt, same, longer⟩ := ih
    obtain plain | ⟨head, args, source, rfl, pair, row⟩ := opens t e first
    · exact ⟨e :: flat, t :: ts', by rw [plain.spread, lifted]; rfl, .cons first spelt, by simp [same],
        by simpa using longer⟩
    · obtain ⟨inner, speltInner, sameInner⟩ := row.forest
      have := List.length_pos_iff.mpr row.ne_nil
      refine ⟨args ++ flat, inner ++ ts', by rw [spread_pair pair, lifted]; rfl,
        List.rel_append speltInner spelt, by simp [same, sameInner], ?_⟩
      simp only [List.length_cons, List.length_append]
      omega

/-! ### Types and values side by side -/

theorem membersOfArgs_append (n k : Nat) (ts ts' : List Micheline) : ∀ vs : List Micheline,
    membersOfArgs n k (ts ++ ts') vs =
      match membersOfArgs n k ts vs with
      | .error e => .error e
      | .ok ms => (membersOfArgs n k ts' (vs.drop ts.length)).map (ms ++ ·) := by
  induction ts with
  | nil =>
    intro vs
    simp only [List.nil_append, membersOfArgs, List.length_nil, List.drop_zero]
    cases membersOfArgs n k ts' vs <;> simp [Except.map]
  | cons t ts ih =>
    intro vs
    cases vs with
    | nil => simp [membersOfArgs]
    | cons v vs =>
      simp only [List.cons_append, membersOfArgs, ih vs, List.length_cons, List.drop_succ_cons]
      cases members t v with
      | error e => rfl
      | ok ms =>
        cases membersOfArgs n k ts vs with
        | error e => rfl
        | ok ms' => cases membersOfArgs n k ts' (vs.drop ts.length) <;> simp [Except.map]

/-- Types whose pairs stand for their arguments are walked as the types with the pairs lifted. -/
theorem membersOfSpread_eq (n k : Nat) : ∀ (ts flat : List Micheline), spread ts = .ok flat →
    ∀ vs, membersOfSpread n k ts vs = membersOfArgs n k flat vs
  | [], flat, h, vs => by
    cases h
    simp [membersOfSpread, membersOfArgs]
  | .unreadable _ :: _, flat, h, vs => by simp [spread] at h
  | .node head args source :: ts, flat, h, vs => by
    rw [spread] at h
    cases rest : spread ts with
    | error e => simp [rest, Except.map] at h
    | ok flat' =>
      have ih := membersOfSpread_eq n k ts flat' rest
      rw [rest] at h
      by_cases pair : isPair head.prim = true
      · simp only [Except.map, pair, ↓reduceIte, Except.ok.injEq] at h
        subst h
        simp only [membersOfSpread, pair, ↓reduceIte, membersOfArgs_append]
        cases membersOfArgs n k args vs with
        | error e => rfl
        | ok ms => simp only [ih]
      · simp only [Except.map, pair, Bool.false_eq_true, ↓reduceIte, Except.ok.injEq] at h
        subst h
        cases vs with
        | nil => simp [membersOfSpread, membersOfArgs, pair]
        | cons v vs => simp [membersOfSpread, membersOfArgs, pair, ih]

/-- A leaf of a type is read on its own. -/
theorem members_leaf {head : Head} {value : Micheline} (plain : value.Plain)
    (typed : head.prim ∈ scalarTypes ∨ head.prim = "map") (args : List Micheline) (source : Json) :
    some (members (.node head args source) value) = leaf? head value := by
  cases value with
  | unreadable _ => exact plain.elim
  | node head' values source' =>
    rw [members]
    cases h : leaf? head (.node head' values source') with
    | some r => rfl
    | none =>
      rcases typed with scalar | map
      · simp [leaf?, scalar] at h
      · simp [leaf?, map, scalarTypes] at h

/-- What a pair of types and a node of values give: their arguments side by side, after the shorter row was
spread. -/
theorem members_pair {head head' : Head} (pair : head.prim = "pair") (ts vs : List Micheline) (source source' : Json) :
    members (.node head ts source) (.node head' vs source') =
      if ts.length < vs.length then
        (spread ts).bind fun flat => membersOfArgs flat.length vs.length flat vs
      else if vs.length < ts.length then
        (spread vs).bind fun flat => membersOfArgs ts.length flat.length ts flat
      else membersOfArgs ts.length vs.length ts vs := by
  have none : leaf? head (.node head' vs source') = none := by simp [leaf?, pair, scalarTypes]
  rw [members, none]
  simp only [pair, ↓reduceIte]
  split
  · cases h : spread ts with
    | error e => rfl
    | ok flat => simp only [Except.bind, membersOfSpread_eq _ _ ts flat h]
  · split
    · cases spread vs <;> rfl
    · rfl

theorem membersOfArgs_cons_ok {n k : Nat} {t v : Micheline} {ts vs : List Micheline} {ms : List (String × Json)}
    (h : membersOfArgs n k (t :: ts) (v :: vs) = .ok ms) :
    (∃ ms, members t v = .ok ms) ∧ ∃ ms, membersOfArgs n k ts vs = .ok ms := by
  rw [membersOfArgs] at h
  cases first : members t v with
  | error e => simp [first] at h
  | ok ms' =>
    cases rest : membersOfArgs n k ts vs with
    | error e => simp [first, rest, Except.map] at h
    | ok ms'' => exact ⟨⟨ms', rfl⟩, ⟨ms'', rfl⟩⟩

/-- A row of types is never longer than the values that it was given. -/
theorem length_le_of_membersOfArgs {n k : Nat} : ∀ {ts vs : List Micheline} {ms : List (String × Json)},
    membersOfArgs n k ts vs = .ok ms → ts.length ≤ vs.length
  | [], _, _, _ => by simp
  | _ :: _, [], _, h => by simp [membersOfArgs] at h
  | _ :: _, _ :: _, _, h => by
    obtain ⟨_, _, rest⟩ := membersOfArgs_cons_ok h
    simpa using length_le_of_membersOfArgs rest

end Micheline
end OracleRelay
