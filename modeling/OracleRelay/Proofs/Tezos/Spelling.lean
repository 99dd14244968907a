/-
# Spellings of pairs

A tree of pairs has many spellings: each pair is written as a row of arguments, and a pair that ends a row may have
its own arguments in the place of itself (`Spelt`, `Row`). A tree of fields, each a leaf of a type with its value, is
spelled twice, as a type and as a value, and nothing says that the two spellings agree. A row spells trees with the
leaves of its pair, whatever they are (`Row.forest`).

Key definitions: `Micheline.PairTree`, `Micheline.Spelt`, `Micheline.Row`, `Micheline.Nested`, `Micheline.Field`,
`Micheline.SpeltType`, `Micheline.SpeltValue`.
Key theorems: `Micheline.Row.lift`, `Micheline.Row.forest`, `Micheline.Nested.spelt`.
-/
import Mathlib.Data.List.Forall2
import OracleRelay.Tezos.Micheline

namespace OracleRelay
namespace Micheline

/-! ### Trees of pairs and their spellings -/

/-- A tree of pairs. -/
inductive PairTree (α : Type) where
  | leaf (a : α)
  | pair (left right : PairTree α)

namespace PairTree

variable {α : Type}

/-- The leaves of a tree from left to right. -/
def leaves : PairTree α → List α
  | .leaf a => [a]
  | .pair l r => l.leaves ++ r.leaves

/-- The number of leaves. -/
def width (t : PairTree α) : Nat := t.leaves.length

@[simp] theorem width_leaf (a : α) : (PairTree.leaf a).width = 1 := rfl

@[simp] theorem width_pair (l r : PairTree α) : (PairTree.pair l r).width = l.width + r.width := by
  simp [width, leaves]

theorem width_pos : ∀ t : PairTree α, 0 < t.width
  | .leaf _ => by simp
  | .pair l r => by
    have := width_pos l
    simp only [width_pair]
    omega

/-- The leaves of several trees in all. -/
def widths (ts : List (PairTree α)) : Nat := (ts.flatMap leaves).length

@[simp] theorem widths_nil : widths ([] : List (PairTree α)) = 0 := rfl

@[simp] theorem widths_cons (t : PairTree α) (ts : List (PairTree α)) : widths (t :: ts) = t.width + widths ts := by
  simp [widths, width]

@[simp] theorem widths_append (ts ts' : List (PairTree α)) : widths (ts ++ ts') = widths ts + widths ts' := by
  simp [widths]

theorem length_le_widths : ∀ ts : List (PairTree α), ts.length ≤ widths ts
  | [] => by simp
  | t :: ts => by
    have := width_pos t
    have := length_le_widths ts
    simp only [List.length_cons, widths_cons]
    omega

/-- Each of several trees leaves at least a leaf to the others. -/
theorem width_lt_of_mem {t : PairTree α} {ts : List (PairTree α)} (h : t ∈ ts) :
    t.width + ts.length ≤ widths ts + 1 := by
  obtain ⟨before, after, rfl⟩ := List.append_of_mem h
  have := length_le_widths before
  have := length_le_widths after
  simp only [List.length_append, List.length_cons, widths_append, widths_cons]
  omega

end PairTree

open PairTree

section Spellings

variable {α : Type} (leaf : α → Micheline → Prop) (node : List Micheline → Micheline → Prop)

mutual

/-- The tree is written as one expression: a leaf as such, a pair as a node of two arguments or more. -/
inductive Spelt : PairTree α → Micheline → Prop where
  | leaf {a : α} {e : Micheline} : leaf a e → Spelt (.leaf a) e
  | pair {l r : PairTree α} {e whole : Micheline} {es : List Micheline} :
    Spelt l e → Row r es → node (e :: es) whole → Spelt (.pair l r) whole

/-- The tree is written as the last arguments of a row: as one argument, or a pair as its left part and as many
arguments as its right part takes. -/
inductive Row : PairTree α → List Micheline → Prop where
  | last {t : PairTree α} {e : Micheline} : Spelt t e → Row t [e]
  | cons {l r : PairTree α} {e : Micheline} {es : List Micheline} : Spelt l e → Row r es → Row (.pair l r) (e :: es)

end

/-- The tree is written with a node of two arguments for each of its pairs. -/
def Nested : PairTree α → Micheline → Prop
  | .leaf a, e => leaf a e
  | .pair l r, whole => ∃ e e', Nested l e ∧ Nested r e' ∧ node [e, e'] whole

end Spellings

section Rows

variable {α : Type} {leaf : α → Micheline → Prop} {node : List Micheline → Micheline → Prop}

theorem Row.ne_nil {t : PairTree α} {es : List Micheline} (h : Row leaf node t es) : es ≠ [] := by
  cases h <;> simp

/-- A row of more than one argument is that of a pair. -/
theorem Row.uncons {t : PairTree α} {e : Micheline} {es : List Micheline} (h : Row leaf node t (e :: es))
    (more : es ≠ []) : ∃ l r, t = .pair l r ∧ Spelt leaf node l e ∧ Row leaf node r es := by
  cases h with
  | last _ => exact absurd rfl more
  | cons first rest => exact ⟨_, _, rfl, first, rest⟩

theorem Row.single {t : PairTree α} {e : Micheline} (h : Row leaf node t [e]) : Spelt leaf node t e := by
  cases h with
  | last h => exact h
  | cons _ rest => exact absurd rfl rest.ne_nil

/-- A last argument may be written as a row itself. -/
theorem Row.lift {t : PairTree α} {front inner : List Micheline} {whole : Micheline}
    (opens : ∀ t, Spelt leaf node t whole → Row leaf node t inner) (h : Row leaf node t (front ++ [whole])) :
    Row leaf node t (front ++ inner) := by
  induction front generalizing t with
  | nil => exact opens t h.single
  | cons e front ih =>
    obtain ⟨l, r, rfl, first, rest⟩ := h.uncons (by simp)
    exact .cons first (ih rest)

/-- The arguments of a pair are two or more. -/
theorem Row.two_le {r : PairTree α} {e : Micheline} {es : List Micheline} (h : Row leaf node r es) :
    2 ≤ (e :: es).length := by
  have := List.length_pos_iff.mpr h.ne_nil
  simp only [List.length_cons]
  omega

theorem Row.getLast {t : PairTree α} {front : List Micheline} {e : Micheline} (h : Row leaf node t (front ++ [e])) :
    ∃ t, Spelt leaf node t e := by
  induction front generalizing t with
  | nil => exact ⟨t, h.single⟩
  | cons _ front ih =>
    obtain ⟨l, r, rfl, _, rest⟩ := h.uncons (by simp)
    exact ih rest

/-- The arguments of a row spell trees with the leaves of the whole. -/
theorem Row.forest {es : List Micheline} : ∀ {t : PairTree α}, Row leaf node t es →
    ∃ ts, List.Forall₂ (Spelt leaf node) ts es ∧ ts.flatMap leaves = t.leaves := by
  induction es with
  | nil => exact fun h => absurd rfl h.ne_nil
  | cons e es ih =>
    intro t h
    cases h with
    | last first => exact ⟨[t], .cons first .nil, by simp⟩
    | cons first rest =>
      obtain ⟨ts, spelt, same⟩ := ih rest
      exact ⟨_ :: ts, .cons first spelt, by simp [same, leaves]⟩

theorem Row.length_le_width {t : PairTree α} {es : List Micheline} (h : Row leaf node t es) :
    es.length ≤ t.width := by
  obtain ⟨ts, spelt, same⟩ := h.forest
  rw [← spelt.length_eq, width, ← same]
  exact length_le_widths ts

/-- Nested pairs are one of the spellings. -/
theorem Nested.spelt {node' : List Micheline → Micheline → Prop}
    (weaken : ∀ {es whole}, node es whole → node' es whole) :
    ∀ {t : PairTree α} {e : Micheline}, Nested leaf node t e → Spelt leaf node' t e
  | .leaf _, _, h => .leaf h
  | .pair _ _, _, ⟨_, _, left, right, whole⟩ =>
    .pair (left.spelt weaken) (.last (right.spelt weaken)) (weaken whole)

end Rows

/-! ### Types and values -/

/-- An expression that can be read and is no pair. -/
def Plain : Micheline → Prop
  | .node head _ _ => isPair head.prim = false
  | .unreadable _ => False

/-- A leaf of a type with its value: a scalar or a map. The value is no pair, and neither are its elements. -/
structure Field where
  head : Head
  value : Micheline
  typed : head.prim ∈ scalarTypes ∨ head.prim = "map"
  plain : value.Plain
  elements : ∀ a ∈ value.args, a.Plain

/-- The expression is the type of the leaf. -/
def Field.TypeIs (f : Field) (e : Micheline) : Prop := ∃ args source, e = .node f.head args source

/-- The expression is the value of the leaf. -/
def Field.ValueIs (f : Field) (e : Micheline) : Prop := e = f.value

/-- The named value of a leaf. -/
def Field.named (f : Field) : Except MichelineFault (List (String × Json)) :=
  (leaf? f.head f.value).getD (.ok [])

/-- The named values of a tree from left to right. -/
def PairTree.named : PairTree Field → Except MichelineFault (List (String × Json))
  | .leaf f => f.named
  | .pair l r =>
    match l.named with
    | .error e => .error e
    | .ok ms => r.named.map (ms ++ ·)

/-- A pair of types. -/
def TypeNode (args : List Micheline) (e : Micheline) : Prop :=
  ∃ head source, e = .node head args source ∧ head.prim = "pair"

/-- A pair of values that says so. -/
def NamedNode (args : List Micheline) (e : Micheline) : Prop :=
  ∃ head source, e = .node head args source ∧ head.prim = "Pair"

/-- A pair of values, named or as a bare list. -/
def ValueNode (args : List Micheline) (e : Micheline) : Prop :=
  NamedNode args e ∨ ∃ source, e = .node {} args source

/-- The expression is the types of the tree in nested pairs. -/
abbrev NestedType : PairTree Field → Micheline → Prop := Nested Field.TypeIs TypeNode

/-- The expression is the values of the tree in nested pairs. -/
abbrev NestedValue : PairTree Field → Micheline → Prop := Nested Field.ValueIs NamedNode

/-- The expression spells the types of the tree. -/
abbrev SpeltType : PairTree Field → Micheline → Prop := Spelt Field.TypeIs TypeNode

/-- The expression spells the values of the tree. -/
abbrev SpeltValue : PairTree Field → Micheline → Prop := Spelt Field.ValueIs ValueNode

/-- The arguments spell the types of the tree. -/
abbrev TypeRow : PairTree Field → List Micheline → Prop := Row Field.TypeIs TypeNode

/-- The arguments spell the values of the tree. -/
abbrev ValueRow : PairTree Field → List Micheline → Prop := Row Field.ValueIs ValueNode

theorem Field.not_isPair (f : Field) : isPair f.head.prim = false := by
  have scalars : ∀ prim ∈ scalarTypes, isPair prim = false := by decide
  rcases f.typed with scalar | map
  · exact scalars _ scalar
  · simp [map, isPair]

theorem SpeltType.opens {t : PairTree Field} {head : Head} {args : List Micheline} {source : Json}
    (h : SpeltType t (.node head args source)) (pair : isPair head.prim = true) :
    TypeRow t args ∧ 2 ≤ args.length := by
  cases h with
  | @leaf f _ h =>
    obtain ⟨_, _, same⟩ := h
    cases same
    simp [f.not_isPair] at pair
  | pair first rest h =>
    obtain ⟨_, _, same, _⟩ := h
    cases same
    exact ⟨.cons first rest, rest.two_le⟩

theorem SpeltValue.opens {t : PairTree Field} {head : Head} {args : List Micheline} {source : Json}
    (h : SpeltValue t (.node head args source)) (pair : isPair head.prim = true) :
    ValueRow t args ∧ 2 ≤ args.length := by
  cases h with
  | @leaf f _ h =>
    have plain := f.plain
    rw [← show Micheline.node head args source = f.value from h] at plain
    simp [show isPair head.prim = false from plain] at pair
  | pair first rest h =>
    obtain ⟨_, _, same, _⟩ | ⟨_, same⟩ := h <;> cases same
    · exact ⟨.cons first rest, rest.two_le⟩
    · exact ⟨.cons first rest, rest.two_le⟩

theorem SpeltType.as_node {l r : PairTree Field} {e : Micheline} (h : SpeltType (.pair l r) e) :
    ∃ head args source, e = .node head args source ∧ head.prim = "pair" ∧
      TypeRow (.pair l r) args ∧ 2 ≤ args.length := by
  cases h with
  | pair first rest h =>
    obtain ⟨head, source, same, prim⟩ := h
    exact ⟨head, _, source, same, prim, .cons first rest, rest.two_le⟩

theorem SpeltValue.as_node {l r : PairTree Field} {e : Micheline} (h : SpeltValue (.pair l r) e) :
    ∃ head args source, e = .node head args source ∧ (isPair head.prim = true ∨ head = {}) ∧
      ValueRow (.pair l r) args ∧ 2 ≤ args.length := by
  cases h with
  | pair first rest h =>
    obtain ⟨head, source, same, prim⟩ | ⟨source, same⟩ := h
    · exact ⟨head, _, source, same, .inl (by simp [isPair, prim]), .cons first rest, rest.two_le⟩
    · exact ⟨{}, _, source, same, .inr rfl, .cons first rest, rest.two_le⟩

theorem SpeltType.plain_or_pair (t : PairTree Field) (e : Micheline) (h : SpeltType t e) :
    e.Plain ∨ ∃ head args source, e = .node head args source ∧ isPair head.prim = true ∧ TypeRow t args := by
  cases t with
  | leaf f =>
    cases h with
    | leaf h =>
      obtain ⟨args, source, rfl⟩ := h
      exact .inl f.not_isPair
  | pair l r =>
    obtain ⟨head, args, source, rfl, prim, row, _⟩ := h.as_node
    exact .inr ⟨head, args, source, rfl, by simp [isPair, prim], row⟩

theorem SpeltValue.plain_or_pair (t : PairTree Field) (e : Micheline) (h : SpeltValue t e) :
    e.Plain ∨ ∃ head args source, e = .node head args source ∧ isPair head.prim = true ∧ ValueRow t args := by
  cases t with
  | leaf f =>
    cases h with
    | leaf h =>
      obtain rfl := h
      exact .inl f.plain
  | pair l r =>
    obtain ⟨head, args, source, rfl, pair | rfl, row, _⟩ := h.as_node
    · exact .inr ⟨head, args, source, rfl, pair, row⟩
    · exact .inl rfl

/-! ### Expressions as nodes write them -/

/-- A string as nodes write it. -/
def literal (text : String) : Micheline := .node { string := text } [] (.object [("string", .text text)])

/-- A primitive with arguments as nodes write it. -/
def applied (prim : String) (args : List Micheline) : Micheline :=
  .node { prim } args (.object [("prim", .text prim), ("args", .array (args.map source))])

/-- A list as nodes write it. -/
def bare (args : List Micheline) : Micheline := .node {} args (.array (args.map source))

/-- A string leaf. -/
def Field.text (name text : String) : Field where
  head := { prim := "string", annots := ["%" ++ name] }
  value := literal text
  typed := .inl (by simp [scalarTypes])
  plain := rfl
  elements := by simp [literal, args]

/-- A map leaf with strings for keys and values. -/
def Field.map (name : String) (entries : List (String × String)) : Field where
  head := { prim := "map", annots := ["%" ++ name] }
  value := bare (entries.map fun (k, v) => applied "Elt" [literal k, literal v])
  typed := .inr rfl
  plain := rfl
  elements := by
    simp only [bare, args, List.mem_map]
    rintro _ ⟨_, _, rfl⟩
    rfl

/-- The type of a leaf as nodes write it. -/
def Field.type (f : Field) : Micheline :=
  .node f.head [] (.object [("prim", .text f.head.prim), ("annots", Json.texts f.head.annots)])

/-- The types of a tree in nested pairs. -/
def PairTree.type : PairTree Field → Micheline
  | .leaf f => f.type
  | .pair l r => applied "pair" [l.type, r.type]

/-- The values of a tree in nested pairs. -/
def PairTree.value : PairTree Field → Micheline
  | .leaf f => f.value
  | .pair l r => applied "Pair" [l.value, r.value]

theorem PairTree.nested_type : ∀ t : PairTree Field, NestedType t t.type
  | .leaf _ => ⟨[], _, rfl⟩
  | .pair l r => ⟨l.type, r.type, l.nested_type, r.nested_type, _, _, rfl, rfl⟩

theorem PairTree.nested_value : ∀ t : PairTree Field, NestedValue t t.value
  | .leaf _ => rfl
  | .pair l r => ⟨l.value, r.value, l.nested_value, r.nested_value, _, _, rfl, rfl⟩

end Micheline
end OracleRelay
