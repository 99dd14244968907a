/-
# The leaves of a type and the parts of a value

A type is made of pairs down to its leaves, which are scalars and maps. Lifting pairs to the row around them keeps the
leaves and their order (`FieldType.spread`), so whatever value the type is walked with, each leaf has one part of the
value laid beside it (`Laid`) and gives one named value, that of its part (`laid_of_members`), under the name of its one
annotation (`Reads.annots`).

Key definitions: `Micheline.FieldType`, `Micheline.Legible`, `Micheline.StorageType`, `Micheline.typeLeaves`,
`Micheline.Laid`, `Micheline.Reads`.
Key theorems: `Micheline.FieldType.spread`, `Micheline.laid_of_members`, `Micheline.Reads.annots`,
`Micheline.Laid.unique`.
-/
import OracleRelay.Proofs.Tezos.Walk

namespace OracleRelay
namespace Micheline

/-! ### Types of fields and of storages -/

/-- Pairs of any number of types over scalars and maps. What the arguments of these are does not matter. -/
inductive FieldType : Micheline → Prop where
  | leaf {head : Head} {args : List Micheline} {source : Json} : head.prim ∈ scalarTypes ∨ head.prim = "map" →
    FieldType (.node head args source)
  | pair {head : Head} {args : List Micheline} {source : Json} : head.prim = "pair" →
    (∀ a ∈ args, FieldType a) → FieldType (.node head args source)

/-- An expression that can be read in all its parts. -/
inductive Legible : Micheline → Prop where
  | node {head : Head} {args : List Micheline} {source : Json} : (∀ a ∈ args, Legible a) → Legible (.node head args source)

/-- Pairs over scalars and maps that can be read in all their parts. -/
inductive StorageType : Micheline → Prop where
  | leaf {head : Head} {args : List Micheline} {source : Json} : head.prim ∈ scalarTypes ∨ head.prim = "map" →
    (∀ a ∈ args, Legible a) → StorageType (.node head args source)
  | pair {head : Head} {args : List Micheline} {source : Json} : head.prim = "pair" →
    (∀ a ∈ args, StorageType a) → StorageType (.node head args source)

mutual

/-- The leaves of a type from left to right: what is under its pairs and is no pair. -/
def typeLeaves : Micheline → List Micheline
  | .unreadable _ => []
  | .node head args source => if head.prim = "pair" then rowLeaves args else [.node head args source]

/-- The leaves of the types in a row. -/
def rowLeaves : List Micheline → List Micheline
  | [] => []
  | type :: types => typeLeaves type ++ rowLeaves types

end

theorem rowLeaves_append : ∀ ts ts' : List Micheline, rowLeaves (ts ++ ts') = rowLeaves ts ++ rowLeaves ts'
  | [], _ => rfl
  | t :: ts, ts' => by
    rw [List.cons_append, rowLeaves, rowLeaves, rowLeaves_append ts ts', List.append_assoc]

theorem typeLeaves_pair {head : Head} (pair : head.prim = "pair") (args : List Micheline) (source : Json) :
    typeLeaves (.node head args source) = rowLeaves args := by
  rw [typeLeaves, if_pos pair]

theorem typeLeaves_leaf {head : Head} (leaf : head.prim ∈ scalarTypes ∨ head.prim = "map") (args : List Micheline)
    (source : Json) : typeLeaves (.node head args source) = [.node head args source] := by
  have other : head.prim ≠ "pair" := by
    intro pair
    rw [pair] at leaf
    revert leaf
    decide
  rw [typeLeaves, if_neg other]

theorem StorageType.legible {e : Micheline} (h : StorageType e) : Legible e := by
  induction h with
  | leaf _ args => exact .node args
  | pair _ _ ih => exact .node ih

theorem StorageType.fieldType {e : Micheline} (h : StorageType e) : FieldType e := by
  induction h with
  | leaf leaf _ => exact .leaf leaf
  | pair pair _ ih => exact .pair pair ih

/-- A type that is a pair in the eyes of the walk is a pair of types. -/
theorem FieldType.of_isPair {head : Head} {args : List Micheline} {source : Json}
    (h : FieldType (.node head args source)) (pair : isPair head.prim = true) :
    head.prim = "pair" ∧ ∀ a ∈ args, FieldType a := by
  cases h with
  | leaf leaf =>
    have scalars : ∀ prim ∈ scalarTypes, isPair prim = false := by decide
    rcases leaf with scalar | map
    · simp [scalars _ scalar] at pair
    · simp [map, isPair] at pair
  | pair prim all => exact ⟨prim, all⟩

/-- **Lifting keeps the leaves of a row.** Each type of the lifted row was in the row, or in a pair of it. -/
theorem FieldType.spread : ∀ {ts : List Micheline}, (∀ t ∈ ts, FieldType t) →
    ∃ flat, Micheline.spread ts = .ok flat ∧ rowLeaves flat = rowLeaves ts ∧
      ∀ t ∈ flat, FieldType t ∧ sizeOf t < sizeOf ts
  | [], _ => ⟨[], rfl, rfl, by simp⟩
  | .unreadable _ :: _, all => nomatch all _ List.mem_cons_self
  | .node head args source :: ts, all => by
    obtain ⟨flat, lifted, same, typed⟩ := FieldType.spread fun t ht => all t (List.mem_cons_of_mem _ ht)
    have first : FieldType (.node head args source) := all _ List.mem_cons_self
    have later : ∀ t ∈ flat, FieldType t ∧ sizeOf t < sizeOf (Micheline.node head args source :: ts) := by
      intro t ht
      obtain ⟨type, less⟩ := typed t ht
      exact ⟨type, by simp only [List.cons.sizeOf_spec]; omega⟩
    by_cases pair : isPair head.prim = true
    · obtain ⟨prim, inside⟩ := first.of_isPair pair
      refine ⟨args ++ flat, by rw [spread_pair pair, lifted]; rfl, ?_, fun t ht => ?_⟩
      · rw [rowLeaves_append, rowLeaves, typeLeaves_pair prim, same]
      · rcases List.mem_append.mp ht with inner | outer
        · refine ⟨inside t inner, ?_⟩
          have less := List.sizeOf_lt_of_mem inner
          simp only [List.cons.sizeOf_spec, Micheline.node.sizeOf_spec]
          omega
        · exact later t outer
    · have plain : Plain (.node head args source) := by simpa [Plain] using pair
      refine ⟨.node head args source :: flat, by rw [plain.spread, lifted]; rfl, ?_, fun t ht => ?_⟩
      · rw [rowLeaves, rowLeaves, same]
      · rcases List.mem_cons.mp ht with rfl | outer
        · exact ⟨first, by simp only [List.cons.sizeOf_spec]; omega⟩
        · exact later t outer

/-! ### Parts laid beside leaves -/

/-- A row of types and one of values, after the pairs of the shorter one were lifted. -/
def level (ts vs : List Micheline) : Except MichelineFault (List Micheline × List Micheline) :=
  if ts.length < vs.length then (Micheline.spread ts).map (·, vs)
  else if vs.length < ts.length then (Micheline.spread vs).map (ts, ·)
  else .ok (ts, vs)

mutual

/-- The leaves of a type with the parts of a value that lie beside them. -/
inductive Laid : Micheline → Micheline → List (Micheline × Micheline) → Prop where
  | leaf {head : Head} {args : List Micheline} {source : Json} {value : Micheline} : head.prim ≠ "pair" →
    Laid (.node head args source) value [(.node head args source, value)]
  | pair {head head' : Head} {ts vs ts' vs' : List Micheline} {source source' : Json}
    {parts : List (Micheline × Micheline)} : head.prim = "pair" → level ts vs = .ok (ts', vs') →
    LaidRow ts' vs' parts → Laid (.node head ts source) (.node head' vs source') parts

/-- The same for types and values side by side. Values without a type are left over. -/
inductive LaidRow : List Micheline → List Micheline → List (Micheline × Micheline) → Prop where
  | nil {vs : List Micheline} : LaidRow [] vs []
  | cons {t v : Micheline} {ts vs : List Micheline} {parts parts' : List (Micheline × Micheline)} :
    Laid t v parts → LaidRow ts vs parts' → LaidRow (t :: ts) (v :: vs) (parts ++ parts')

end

/-- The annotations of an expression. -/
def annots : Micheline → List String
  | .node head _ _ => head.annots
  | .unreadable _ => []

/-- A leaf gives one named value for its part. -/
def Reads (p : Micheline × Micheline) (m : String × Json) : Prop :=
  ∃ head args source, p.1 = .node head args source ∧ leaf? head p.2 = some (.ok [m])

theorem members_pair_level {head head' : Head} (pair : head.prim = "pair") (ts vs : List Micheline)
    (source source' : Json) : members (.node head ts source) (.node head' vs source') =
      (level ts vs).bind fun rows => membersOfArgs rows.1.length rows.2.length rows.1 rows.2 := by
  rw [members_pair pair, level]
  split_ifs
  · cases Micheline.spread ts <;> rfl
  · cases Micheline.spread vs <;> rfl
  · rfl

theorem leaf?_ok {head : Head} {value : Micheline} {ms : List (String × Json)} (h : leaf? head value = some (.ok ms)) :
    ∃ name v, annotation head.annots = .ok name ∧ ms = [(name, v)] ∧
      (head.prim ∈ scalarTypes → value.value = .ok v) := by
  unfold leaf? at h
  split at h
  · rename_i scalar
    cases named : annotation head.annots with
    | error e => simp [named] at h
    | ok name =>
      cases read : value.value with
      | error e => simp [named, read, Except.map] at h
      | ok v =>
        simp only [named, read, Except.map, Option.some.injEq, Except.ok.injEq] at h
        exact ⟨name, v, rfl, h.symm, fun _ => rfl⟩
  · rename_i scalar
    split at h
    · cases named : annotation head.annots with
      | error e => simp [named] at h
      | ok name =>
        cases read : value.args.mapM entry with
        | error e => simp [named, read, Except.map] at h
        | ok entries =>
          simp only [named, read, Except.map, Option.some.injEq, Except.ok.injEq] at h
          exact ⟨name, _, rfl, h.symm, fun there => absurd there scalar⟩
    · cases h

theorem annotation_eq_ok_iff {annots : List String} {name : String} :
    annotation annots = .ok name ↔ annots = ["%" ++ name] := by
  have marked : ∀ annot : String, annot = "%" ++ name ↔ annot.toList = '%' :: name.toList := by
    intro annot
    rw [← String.toList_inj, String.toList_append]
    rfl
  match annots with
  | [] =>
    unfold annotation
    simp
  | [annot] =>
    rw [List.cons.injEq, and_iff_left rfl, marked, annotation]
    split
    · rename_i rest spelt
      rw [spelt, Except.ok.injEq, List.cons.injEq, and_iff_right rfl, ← String.toList_inj, String.toList_ofList]
    · rename_i other
      simp only [reduceCtorEq, false_iff]
      exact other name.toList
  | _ :: _ :: _ =>
    unfold annotation
    simp

/-- A leaf that gives a named value has the annotation of the name and no other. -/
theorem Reads.annots {p : Micheline × Micheline} {m : String × Json} (h : Reads p m) : p.1.annots = ["%" ++ m.1] := by
  obtain ⟨head, args, source, same, read⟩ := h
  obtain ⟨name, v, named, single, -⟩ := leaf?_ok read
  cases single
  rw [same]
  exact annotation_eq_ok_iff.mp named

theorem laidRow_of_membersOfArgs {n k : Nat} : ∀ {ts : List Micheline},
    (∀ t ∈ ts, ∀ value ms, members t value = .ok ms →
      ∃ parts, Laid t value parts ∧ parts.map (·.1) = typeLeaves t ∧ List.Forall₂ Reads parts ms) →
    ∀ {vs : List Micheline} {ms : List (String × Json)}, membersOfArgs n k ts vs = .ok ms →
      ∃ parts, LaidRow ts vs parts ∧ parts.map (·.1) = rowLeaves ts ∧ List.Forall₂ Reads parts ms
  | [], _, vs, ms, h => by
    rw [membersOfArgs] at h
    cases h
    exact ⟨[], .nil, rfl, .nil⟩
  | t :: ts, ih, [], ms, h => by simp [membersOfArgs] at h
  | t :: ts, ih, v :: vs, ms, h => by
    rw [membersOfArgs] at h
    cases first : members t v with
    | error e => simp [first] at h
    | ok ms₁ =>
      cases rest : membersOfArgs n k ts vs with
      | error e => simp [first, rest, Except.map] at h
      | ok ms₂ =>
        simp only [first, rest, Except.map, Except.ok.injEq] at h
        obtain ⟨parts₁, laid₁, same₁, reads₁⟩ := ih t List.mem_cons_self v ms₁ first
        obtain ⟨parts₂, laid₂, same₂, reads₂⟩ :=
          laidRow_of_membersOfArgs (fun t ht => ih t (List.mem_cons_of_mem _ ht)) rest
        refine ⟨parts₁ ++ parts₂, .cons laid₁ laid₂, ?_, ?_⟩
        · rw [List.map_append, same₁, same₂, rowLeaves]
        · rw [← h]
          exact List.rel_append reads₁ reads₂

/-- Evening rows changes neither the leaves of the types nor that they are types. -/
theorem level_types {ts vs ts' vs' : List Micheline} (typed : ∀ t ∈ ts, FieldType t)
    (leveled : level ts vs = .ok (ts', vs')) : rowLeaves ts' = rowLeaves ts ∧
      ∀ t ∈ ts', FieldType t ∧ sizeOf t < sizeOf ts := by
  have inside : ∀ t ∈ ts, FieldType t ∧ sizeOf t < sizeOf ts := fun t ht =>
    ⟨typed t ht, List.sizeOf_lt_of_mem ht⟩
  unfold level at leveled
  split_ifs at leveled with shorter longer
  · obtain ⟨flat, lifted, same, all⟩ := FieldType.spread typed
    rw [lifted] at leveled
    cases leveled
    exact ⟨same, all⟩
  · cases lifted : Micheline.spread vs with
    | error e => simp [lifted, Except.map] at leveled
    | ok flat =>
      rw [lifted] at leveled
      cases leveled
      exact ⟨rfl, inside⟩
  · cases leveled
    exact ⟨rfl, inside⟩

/-- **Each leaf has a part of the value laid beside it, and gives one named value for it.** -/
theorem laid_of_members : ∀ (N : Nat) (type : Micheline), sizeOf type < N → FieldType type → ∀ value ms,
    members type value = .ok ms →
      ∃ parts, Laid type value parts ∧ parts.map (·.1) = typeLeaves type ∧ List.Forall₂ Reads parts ms
  | 0, _, less, _, _, _, _ => absurd less (Nat.not_lt_zero _)
  | _ + 1, _, _, _, .unreadable _, _, h => by simp [members] at h
  | N + 1, .node head ts source, less, typed, .node head' vs source', ms, h => by
    cases typed with
    | leaf leaf =>
      have other : head.prim ≠ "pair" := by
        intro pair
        rw [pair] at leaf
        revert leaf
        decide
      have read : leaf? head (.node head' vs source') = some (.ok ms) := by
        rw [members] at h
        cases there : leaf? head (.node head' vs source') with
        | some r =>
          rw [there] at h
          exact congrArg some h
        | none =>
          rw [there] at h
          simp [other] at h
      obtain ⟨name, v, -, rfl, -⟩ := leaf?_ok read
      refine ⟨_, .leaf other, ?_, .cons ⟨head, ts, source, rfl, read⟩ .nil⟩
      rw [typeLeaves_leaf leaf]
      rfl
    | pair pair typed =>
      rw [members_pair_level pair] at h
      cases leveled : level ts vs with
      | error e => simp [leveled, Except.bind] at h
      | ok rows =>
        obtain ⟨ts', vs'⟩ := rows
        rw [leveled] at h
        obtain ⟨same, inside⟩ := level_types typed leveled
        have below : ∀ t ∈ ts', ∀ value ms, members t value = .ok ms →
            ∃ parts, Laid t value parts ∧ parts.map (·.1) = typeLeaves t ∧ List.Forall₂ Reads parts ms := by
          intro t ht
          obtain ⟨type, smaller⟩ := inside t ht
          refine laid_of_members N t ?_ type
          simp only [Micheline.node.sizeOf_spec] at less
          omega
        obtain ⟨parts, laid, leaves, reads⟩ := laidRow_of_membersOfArgs below h
        exact ⟨parts, .pair pair leveled laid, by rw [leaves, same, typeLeaves_pair pair], reads⟩

theorem FieldType.exists_laid {type value : Micheline} (h : FieldType type) {ms : List (String × Json)}
    (read : members type value = .ok ms) :
    ∃ parts, Laid type value parts ∧ parts.map (·.1) = typeLeaves type ∧ List.Forall₂ Reads parts ms :=
  laid_of_members (sizeOf type + 1) type (Nat.lt_succ_self _) h value ms read

theorem extract_eq_ok_iff {type value : Micheline} {values : Json} :
    extract type value = .ok values ↔ ∃ ms, members type value = .ok ms ∧ Json.ofMembers ms = values := by
  rw [extract]
  cases members type value <;> simp [Except.map]

mutual

/-- Which part lies beside a leaf is settled. -/
theorem Laid.unique : ∀ {type value : Micheline} {parts parts' : List (Micheline × Micheline)},
    Laid type value parts → Laid type value parts' → parts = parts'
  | _, _, _, _, .leaf other, h' => by
    cases h' with
    | leaf _ => rfl
    | pair pair _ _ => exact absurd pair other
  | _, _, _, _, .pair pair leveled row, h' => by
    cases h' with
    | leaf other => exact absurd pair other
    | pair _ leveled' row' =>
      have same := leveled.symm.trans leveled'
      injection same with same
      injection same with types values
      subst types values
      exact row.unique row'

theorem LaidRow.unique : ∀ {ts vs : List Micheline} {parts parts' : List (Micheline × Micheline)},
    LaidRow ts vs parts → LaidRow ts vs parts' → parts = parts'
  | _, _, _, _, .nil, h' => by
    cases h'
    rfl
  | _, _, _, _, .cons first rest, h' => by
    cases h' with
    | cons first' rest' => rw [first.unique first', rest.unique rest']

end

end Micheline
end OracleRelay
