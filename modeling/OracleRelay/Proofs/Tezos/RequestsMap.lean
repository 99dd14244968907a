/-
# Two searches for the big map of requests

The id of the big map of requests is read beside the leaf of the storage type that is annotated for it, and the type of
its values is that of the first part in depth with the annotation. The id is that of the part which the walk lays beside
the leaf, and this part is the leaf's own where type and value line up. The other search also looks at pairs and into
the types of keys and values, so it finds the leaf only if nothing under the annotation comes before it
(`requests_map_found`); otherwise requests are read by another type, or none is found (`requests_map_mistaken`).

Key definitions: `Micheline.subterms`, `Micheline.Bears`, `Tezos.RequestsLeaf`.
Key theorems: `Micheline.find_eq`, `Micheline.typeLeaves_of_spelt`, `Tezos.RequestsLeaf.exists_part`,
`Tezos.requestType_eq`, `Tezos.requests_map_found`.
-/
import OracleRelay.Proofs.Json.Members
import OracleRelay.Proofs.Tezos.Flattening
import OracleRelay.Proofs.Tezos.Leaves
import OracleRelay.Tezos.Operation

namespace OracleRelay
namespace Micheline

/-! ### The search in depth -/

/-- The expression has the annotation as its first. -/
def Bears (annot : String) (e : Micheline) : Prop := e.annots.head? = some annot

instance (annot : String) (e : Micheline) : Decidable (Bears annot e) := inferInstanceAs (Decidable (_ = _))

mutual

/-- An expression and all that is in it, in depth. -/
def subterms : Micheline → List Micheline
  | .unreadable _ => []
  | .node head args source => .node head args source :: rowSubterms args

/-- All that is in the expressions of a row, one after the other. -/
def rowSubterms : List Micheline → List Micheline
  | [] => []
  | e :: es => subterms e ++ rowSubterms es

end

/-- The first of some expressions that has the annotation. -/
def firstOf (annot : String) (es : List Micheline) : Except MichelineFault Micheline :=
  match es.find? (Bears annot ·) with
  | some found => .ok found
  | none => .error (.notAnnotated annot)

theorem Legible.args {head : Head} {args : List Micheline} {source : Json} (h : Legible (.node head args source)) :
    ∀ a ∈ args, Legible a := by
  cases h with
  | node all => exact all

mutual

/-- **The search finds the first part in depth that has the annotation.** -/
theorem find_eq (annot : String) : ∀ e : Micheline, Legible e → find annot e = firstOf annot (subterms e)
  | .unreadable _, h => nomatch h
  | .node head args source, h => by
    have inside : findIn annot args = firstOf annot (rowSubterms args) := findIn_eq annot args h.args
    rw [find, subterms, firstOf, List.find?_cons]
    by_cases here : head.annots.head? = some annot
    · have bears : decide (Bears annot (.node head args source)) = true := decide_eq_true here
      rw [if_pos here, bears]
    · have bears : decide (Bears annot (.node head args source)) = false := decide_eq_false here
      rw [if_neg here, bears, inside]
      rfl

theorem findIn_eq (annot : String) : ∀ es : List Micheline, (∀ e ∈ es, Legible e) →
    findIn annot es = firstOf annot (rowSubterms es)
  | [], _ => rfl
  | .unreadable _ :: _, all => nomatch all _ List.mem_cons_self
  | .node head args source :: es, all => by
    have first := find_eq annot (.node head args source) (all _ List.mem_cons_self)
    have rest := findIn_eq annot es fun e he => all e (List.mem_cons_of_mem _ he)
    rw [findIn, first, rest, rowSubterms, firstOf, firstOf, firstOf, List.find?_append]
    · cases List.find? (Bears annot ·) (subterms (.node head args source)) <;> rfl
    · exact fun _ other => nomatch other

end

mutual

theorem mem_subterms_of_typeLeaves {leaf : Micheline} : ∀ {e : Micheline}, leaf ∈ typeLeaves e → leaf ∈ subterms e
  | .unreadable _, h => by simp [typeLeaves] at h
  | .node head args source, h => by
    rw [typeLeaves] at h
    rw [subterms]
    split_ifs at h with pair
    · exact List.mem_cons_of_mem _ (mem_rowSubterms_of_rowLeaves h)
    · rw [List.mem_singleton.mp h]
      exact List.mem_cons_self

theorem mem_rowSubterms_of_rowLeaves {leaf : Micheline} : ∀ {es : List Micheline}, leaf ∈ rowLeaves es →
    leaf ∈ rowSubterms es
  | [], h => by simp [rowLeaves] at h
  | e :: es, h => by
    rw [rowLeaves] at h
    rw [rowSubterms]
    rcases List.mem_append.mp h with first | rest
    · exact List.mem_append_left _ (mem_subterms_of_typeLeaves first)
    · exact List.mem_append_right _ (mem_rowSubterms_of_rowLeaves rest)

end

mutual

theorem legible_of_mem_subterms : ∀ {e part : Micheline}, Legible e → part ∈ subterms e → Legible part
  | .unreadable _, _, h, _ => nomatch h
  | .node head args source, part, h, there => by
    rw [subterms] at there
    rcases List.mem_cons.mp there with rfl | inside
    · exact h
    · exact legible_of_mem_rowSubterms h.args inside

theorem legible_of_mem_rowSubterms : ∀ {es : List Micheline} {part : Micheline}, (∀ e ∈ es, Legible e) →
    part ∈ rowSubterms es → Legible part
  | [], _, _, there => by simp [rowSubterms] at there
  | e :: es, part, all, there => by
    rw [rowSubterms] at there
    rcases List.mem_append.mp there with first | rest
    · exact legible_of_mem_subterms (all e List.mem_cons_self) first
    · exact legible_of_mem_rowSubterms (fun e he => all e (List.mem_cons_of_mem _ he)) rest

end

theorem argument_eq_ok_iff {e arg : Micheline} (h : Legible e) (i : Nat) :
    argument e i = .ok arg ↔ e.args[i]? = some arg := by
  unfold argument
  cases there : e.args[i]? with
  | none => simp
  | some a =>
    have mem : a ∈ e.args := List.mem_of_getElem? there
    cases e with
    | unreadable _ => simp [args] at mem
    | node head args source =>
      cases h.args a mem
      simp

/-! ### Leaves and what they give -/

theorem Reads.annotated_iff {p : Micheline × Micheline} {m : String × Json} (h : Reads p m) (name : String) :
    "%" ++ name ∈ p.1.annots ↔ m.1 = name := by
  rw [h.annots, List.mem_singleton, ← String.toList_inj, String.toList_append, String.toList_append,
    List.append_cancel_left_eq, String.toList_inj, eq_comm]

/-- What a scalar gives is the value of its part. -/
theorem Reads.value {head : Head} {args : List Micheline} {source : Json} {part : Micheline} {m : String × Json}
    (h : Reads (.node head args source, part) m) (scalar : head.prim ∈ scalarTypes) : part.value = .ok m.2 := by
  obtain ⟨head', args', source', same, read⟩ := h
  cases same
  obtain ⟨name, v, -, single, of_scalar⟩ := leaf?_ok read
  cases single
  exact of_scalar scalar

/-- Of leaves with their parts, those under a name give what is given under this name. -/
theorem reads_filter {parts : List (Micheline × Micheline)} {ms : List (String × Json)}
    (reads : List.Forall₂ Reads parts ms) (name : String) :
    List.Forall₂ Reads (parts.filter fun p => "%" ++ name ∈ p.1.annots) (ms.filter (·.1 = name)) := by
  refine List.rel_filter (fun p m read => ?_) reads
  simpa using read.annotated_iff name

mutual

/-- The leaves of a type are those of the tree that it spells. -/
theorem typeLeaves_of_spelt : ∀ {t : PairTree Field} {e : Micheline}, SpeltType t e →
    List.Forall₂ Field.TypeIs t.leaves (typeLeaves e)
  | .leaf f, _, .leaf h => by
    obtain ⟨args, source, rfl⟩ := id h
    rw [typeLeaves_leaf f.typed]
    exact .cons h .nil
  | .pair l r, _, .pair first rest h => by
    obtain ⟨head, source, rfl, prim⟩ := h
    rw [typeLeaves_pair prim, rowLeaves, PairTree.leaves]
    exact List.rel_append (typeLeaves_of_spelt first) (rowLeaves_of_row rest)

theorem rowLeaves_of_row : ∀ {t : PairTree Field} {es : List Micheline}, TypeRow t es →
    List.Forall₂ Field.TypeIs t.leaves (rowLeaves es)
  | _, _, .last first => by
    rw [rowLeaves, rowLeaves, List.append_nil]
    exact typeLeaves_of_spelt first
  | _, _, .cons first rest => by
    rw [rowLeaves, PairTree.leaves]
    exact List.rel_append (typeLeaves_of_spelt first) (rowLeaves_of_row rest)

end

/-- The type of a field, as nodes write it, and its value. -/
def Field.part (f : Field) : Micheline × Micheline := (f.type, f.value)

theorem Field.reads_of_named {f : Field} {ms : List (String × Json)} (h : f.named = .ok ms) :
    ∃ m, ms = [m] ∧ Reads f.part m := by
  have some_read : ∃ r, leaf? f.head f.value = some r := by
    unfold leaf?
    by_cases scalar : f.head.prim ∈ scalarTypes
    · exact ⟨_, if_pos scalar⟩
    · have map : f.head.prim = "map" := f.typed.resolve_left scalar
      exact ⟨_, by rw [if_neg scalar, if_pos map]⟩
  obtain ⟨r, read⟩ := some_read
  rw [Field.named, read, Option.getD_some] at h
  subst h
  obtain ⟨name, v, -, rfl, -⟩ := leaf?_ok read
  exact ⟨_, rfl, _, _, _, rfl, read⟩

/-- A tree that gives named values gives one for each leaf. -/
theorem reads_of_named : ∀ {t : PairTree Field} {ms : List (String × Json)}, t.named = .ok ms →
    List.Forall₂ Reads (t.leaves.map Field.part) ms
  | .leaf f, ms, h => by
    obtain ⟨m, rfl, read⟩ := f.reads_of_named h
    exact .cons read .nil
  | .pair l r, ms, h => by
    rw [PairTree.named] at h
    cases left : l.named with
    | error e => simp [left] at h
    | ok ms₁ =>
      cases right : r.named with
      | error e => simp [left, right, Except.map] at h
      | ok ms₂ =>
        simp only [left, right, Except.map, Except.ok.injEq] at h
        rw [← h, PairTree.leaves, List.map_append]
        exact List.rel_append (reads_of_named left) (reads_of_named right)

/-! ### Types as nodes write them -/

/-- A type under an annotation. -/
def leafType (prim name : String) (params : List Micheline) : Micheline :=
  .node { prim, annots := ["%" ++ name] } params
    (.object [("prim", .text prim), ("args", .array (params.map source)), ("annots", Json.texts ["%" ++ name])])

/-- A number. -/
def number (n : String) : Micheline := .node { int := n } [] (.object [("int", .text n)])

theorem plain_of_mem_args_number (n : String) : ∀ a ∈ (number n).args, a.Plain := by
  simp [number, args]

theorem legible_applied {prim : String} {ts : List Micheline} (all : ∀ t ∈ ts, Legible t) : Legible (applied prim ts) :=
  .node all

theorem legible_leafType {prim name : String} {params : List Micheline} (all : ∀ t ∈ params, Legible t) :
    Legible (leafType prim name params) :=
  .node all

theorem storageType_pair {left right : Micheline} (first : StorageType left) (second : StorageType right) :
    StorageType (applied "pair" [left, right]) := by
  refine .pair rfl ?_
  simp only [List.forall_mem_cons]
  exact ⟨first, second, by simp⟩

theorem storageType_leafType {prim name : String} {params : List Micheline}
    (leaf : prim ∈ scalarTypes ∨ prim = "map") (all : ∀ t ∈ params, Legible t) :
    StorageType (leafType prim name params) :=
  .leaf leaf all

end Micheline

namespace Tezos

open Micheline

/-! ### The big map of requests -/

/-- The expression is annotated for requests. -/
def ForRequests (e : Micheline) : Prop := requestsAnnotation ∈ e.annots

instance (e : Micheline) : Decidable (ForRequests e) := inferInstanceAs (Decidable (_ ∈ _))

/-- The type of a storage has one leaf that is annotated for requests, a big map with a type of keys and this type of
values. -/
structure RequestsLeaf (type leaf layout : Micheline) : Prop where
  typed : StorageType type
  alone : (typeLeaves type).filter (ForRequests ·) = [leaf]
  bigMap : ∃ head key source, leaf = .node head [key, layout] source ∧ head.prim = "big_map"

variable {type leaf layout value : Micheline}

theorem RequestsLeaf.mem_typeLeaves (h : RequestsLeaf type leaf layout) :
    leaf ∈ typeLeaves type ∧ ForRequests leaf := by
  have there : leaf ∈ (typeLeaves type).filter (ForRequests ·) := by
    rw [h.alone]
    exact List.mem_cons_self
  simpa using List.mem_filter.mp there

/-- Among the leaves with their parts there is one that is annotated for requests. -/
theorem RequestsLeaf.part (h : RequestsLeaf type leaf layout) {parts : List (Micheline × Micheline)}
    (leaves : parts.map (·.1) = typeLeaves type) :
    ∃ part, parts.filter (ForRequests ·.1) = [(leaf, part)] := by
  have alone := h.alone
  rw [← leaves, List.filter_map] at alone
  obtain ⟨p, found, rfl⟩ := List.map_eq_singleton_iff.mp alone
  exact ⟨p.2, found⟩

/-- A big map gives the value of its part. -/
theorem RequestsLeaf.value_of_reads (h : RequestsLeaf type leaf layout) {part : Micheline} {m : String × Json}
    (read : Reads (leaf, part) m) : part.value = .ok m.2 := by
  obtain ⟨head, key, source, rfl, prim⟩ := h.bigMap
  exact read.value (by rw [prim]; decide)

/-- **The leaf has a part of the value laid beside it, and is the only one that gives a value under its name.** -/
theorem RequestsLeaf.exists_part (h : RequestsLeaf type leaf layout) {ms : List (String × Json)}
    (read : members type value = .ok ms) :
    ∃ parts part id, Laid type value parts ∧ parts.filter (ForRequests ·.1) = [(leaf, part)] ∧
      ms.filter (·.1 = "requests") = [("requests", id)] ∧ Reads (leaf, part) ("requests", id) := by
  obtain ⟨parts, laid, leaves, reads⟩ := h.typed.fieldType.exists_laid read
  obtain ⟨part, found⟩ := h.part leaves
  have one : List.Forall₂ Reads (parts.filter (ForRequests ·.1)) (ms.filter (·.1 = "requests")) :=
    reads_filter reads "requests"
  obtain ⟨m, given⟩ := List.length_eq_one_iff.mp (one.length_eq.symm.trans (congrArg List.length found))
  obtain ⟨name, id⟩ := m
  obtain rfl : name = "requests" := by
    have there : (name, id) ∈ ms.filter (·.1 = "requests") := by
      rw [given]
      exact List.mem_cons_self
    simpa using (List.mem_filter.mp there).2
  rw [found, given] at one
  obtain _ | ⟨gives, -⟩ := one
  exact ⟨parts, part, id, laid, found, given, gives⟩

/-- A value that is the only one under its name is the id. -/
theorem requestsBigMap_of_members {ms : List (String × Json)} {id : Json} (read : members type value = .ok ms)
    (given : ms.filter (·.1 = "requests") = [("requests", id)]) :
    requestsBigMap type value = .ok id.plainText := by
  have gives : extract type value = .ok (.ofMembers ms) := extract_eq_ok_iff.mpr ⟨ms, read, rfl⟩
  have found : (Json.ofMembers ms).get? "requests" = some id := Json.get?_ofMembers_of_single given
  rw [requestsBigMap, gives]
  simp only [found]

/-- In a tree that type and value spell, and that gives what is extracted, the id is that of the tree. -/
theorem own_of_named (h : RequestsLeaf type leaf layout) {ms : List (String × Json)} {id : Json}
    (given : ms.filter (·.1 = "requests") = [("requests", id)]) {t : PairTree Field} (spelt : SpeltType t type)
    (named : t.named = .ok ms) {f : Field} (there : f ∈ t.leaves) (asked : ForRequests f.type) :
    f.value.value = .ok id := by
  have reads : List.Forall₂ Reads ((t.leaves.map Field.part).filter (ForRequests ·.1))
      (ms.filter (·.1 = "requests")) := reads_filter (reads_of_named named) "requests"
  have types : List.Forall₂ Field.TypeIs (t.leaves.filter (ForRequests ·.type))
      ((typeLeaves type).filter (ForRequests ·)) := by
    refine List.rel_filter (fun f e is => ?_) (typeLeaves_of_spelt spelt)
    obtain ⟨args, source, rfl⟩ := is
    rfl
  -- Type and tree have the one leaf that is annotated for requests, so the field is that leaf.
  rw [h.alone] at types
  obtain ⟨only, alone⟩ := List.length_eq_one_iff.mp types.length_eq
  have mem : f ∈ t.leaves.filter (ForRequests ·.type) :=
    List.mem_filter.mpr ⟨there, decide_eq_true asked⟩
  rw [alone] at mem types
  obtain rfl := List.mem_singleton.mp mem
  have prim : f.head.prim = "big_map" := by
    obtain _ | ⟨⟨args, source, same⟩, -⟩ := types
    obtain ⟨head, key, source', bigMap, prim⟩ := h.bigMap
    cases bigMap.symm.trans same
    exact prim
  have single : (t.leaves.map Field.part).filter (ForRequests ·.1) = [f.part] := by
    rw [List.filter_map]
    exact congrArg (List.map Field.part) alone
  rw [given, single] at reads
  obtain _ | ⟨read, -⟩ := reads
  exact Reads.value read (by rw [prim]; decide)

/-- The type of the values is taken from the first part in depth with the annotation. -/
theorem requestType_eq (h : RequestsLeaf type leaf layout) (bears : Bears requestsAnnotation leaf) :
    ∃ found, (subterms type).find? (Bears requestsAnnotation ·) = some found ∧ Legible found ∧
      requestType type = found.argument 1 := by
  have there : leaf ∈ subterms type := mem_subterms_of_typeLeaves h.mem_typeLeaves.1
  have some_found : ((subterms type).find? (Bears requestsAnnotation ·)).isSome :=
    List.find?_isSome.mpr ⟨leaf, there, decide_eq_true bears⟩
  obtain ⟨found, first⟩ := Option.isSome_iff_exists.mp some_found
  have legible : Legible found := legible_of_mem_subterms h.typed.legible (List.mem_of_find?_eq_some first)
  have search : type.find requestsAnnotation = .ok found := by
    rw [find_eq _ _ h.typed.legible, firstOf, first]
  refine ⟨found, first, legible, ?_⟩
  rw [requestType, search]

/-- The id of the big map of requests is that of the part laid beside its leaf, which is the part of the leaf where type
and value line up, and where no leaf is a map of two entries or more. The type of its values is found exactly if the
first part in depth with the annotation has the same, as when it is the only one. -/
theorem requests_map_found (h : RequestsLeaf type leaf layout) {values : Json}
    (gives : extract type value = .ok values) :
    (∃ parts part id, Laid type value parts ∧ (∀ parts', Laid type value parts' → parts' = parts) ∧
      parts.filter (ForRequests ·.1) = [(leaf, part)] ∧ part.value = .ok id ∧
      requestsBigMap type value = .ok id.plainText ∧
      ∀ t, SpeltType t type → SpeltValue t value → LinesUp type value ∨ Thin t.leaves →
        ∀ f ∈ t.leaves, ForRequests f.type → f.value.value = .ok id) ∧
    ∃ found, (subterms type).find? (Bears requestsAnnotation ·) = some found ∧
      requestType type = found.argument 1 ∧
      (requestType type = .ok layout ↔ found.args[1]? = some layout) ∧
      ((∀ e ∈ subterms type, Bears requestsAnnotation e → e = leaf) → requestType type = .ok layout) := by
  obtain ⟨ms, read, -⟩ := extract_eq_ok_iff.mp gives
  obtain ⟨parts, part, id, laid, asked, given, part_reads⟩ := h.exists_part read
  have bears : Bears requestsAnnotation leaf := congrArg List.head? part_reads.annots
  obtain ⟨found, first, legible, type_found⟩ := requestType_eq h bears
  have same_type : requestType type = .ok layout ↔ found.args[1]? = some layout := by
    rw [type_found]
    exact argument_eq_ok_iff legible 1
  refine ⟨⟨parts, part, id, laid, fun parts' laid' => laid'.unique laid, asked, h.value_of_reads part_reads,
    requestsBigMap_of_members read given, ?_⟩, found, first, type_found, same_type, fun alone => same_type.mpr ?_⟩
  · intro t spelt valued lines f there asked
    have lines : LinesUp type value := by
      rcases lines with lines | thin
      · exact lines
      · exact linesUp_of_members (t.width + 1) t (Nat.lt_succ_self _) thin type value ms spelt valued read
    have named : t.named = .ok ms := by
      rw [← members_of_linesUp (t.width + 1) t (Nat.lt_succ_self _) type value spelt valued lines, read]
    exact own_of_named h given spelt named there asked
  · have bears_found : Bears requestsAnnotation found := by simpa using List.find?_some first
    have is_leaf : found = leaf := alone found (List.mem_of_find?_eq_some first) bears_found
    obtain ⟨head, key, source, rfl, -⟩ := h.bigMap
    rw [is_leaf]
    rfl

/-! ### Storages with a big map of requests -/

/-- The type of the id of a job, as requests hold it. -/
def jobIdType : Micheline := leafType "string" "jobId" []

/-- The type of the big map of requests. -/
def requestsMapType : Micheline := leafType "big_map" "requests" [Micheline.applied "nat" [], jobIdType]

/-- The big map of requests with its id. -/
def requestsField (id : String) : Field where
  head := { prim := "big_map", annots := ["%requests"] }
  value := number id
  typed := .inl (by decide)
  plain := rfl
  elements := plain_of_mem_args_number id

theorem storageType_requestsMapType : StorageType requestsMapType := by
  refine storageType_leafType (.inl (by decide)) ?_
  simp only [List.forall_mem_cons]
  exact ⟨legible_applied (by simp), legible_leafType (by simp), by simp⟩

theorem storageType_text (name : String) : StorageType (leafType "string" name []) :=
  storageType_leafType (.inl (by decide)) (by simp)

/-- A storage of a name and the big map of requests. -/
def adminType : Micheline := Micheline.applied "pair" [leafType "string" "admin" [], requestsMapType]

/-- The two leaves. -/
def adminFields : PairTree Field := .pair (.leaf (.text "admin" "tz1")) (.leaf (requestsField "17"))

theorem requestsLeaf_adminType : RequestsLeaf adminType requestsMapType jobIdType where
  typed := storageType_pair (storageType_text "admin") storageType_requestsMapType
  alone := by cbv
  bigMap := ⟨_, _, _, rfl, rfl⟩

/-- The big map is found where the annotation is nowhere else. -/
theorem requests_map_found_admin : RequestsLeaf adminType requestsMapType jobIdType ∧
    extract adminType adminFields.value = .ok (.object [("admin", .text "tz1"), ("requests", .int 17)]) ∧
    requestsBigMap adminType adminFields.value = .ok "17" ∧ requestType adminType = .ok jobIdType := by
  have gives : extract adminType adminFields.value =
      .ok (.object [("admin", .text "tz1"), ("requests", .int 17)]) := rfl
  obtain ⟨⟨parts, part, id, -, -, -, -, id_found, own⟩, found, -, -, -, alone⟩ :=
    requests_map_found requestsLeaf_adminType gives
  have nested : NestedType adminFields adminType := ⟨_, _, ⟨_, _, rfl⟩, ⟨_, _, rfl⟩, _, _, rfl, rfl⟩
  have lines : LinesUp adminType adminFields.value := .of_nested nested adminFields.nested_value
  have id_is : id = .int 17 := by
    have read : (number "17").value = .ok id := own adminFields (nested.spelt fun h => h)
      (adminFields.nested_value.spelt .inl) (.inl lines) (requestsField "17") (by simp [adminFields, PairTree.leaves])
      (by decide)
    exact Except.ok.inj (read.symm.trans rfl)
  have text : (Json.int 17).plainText = "17" := by decide +kernel
  refine ⟨requestsLeaf_adminType, gives, ?_, alone ?_⟩
  · rw [id_found, id_is, text]
  · intro e there bears
    have only : (subterms adminType).filter (Bears requestsAnnotation ·) = [requestsMapType] := by cbv
    have is_map : e ∈ [requestsMapType] := by
      rw [← only]
      exact List.mem_filter.mpr ⟨there, decide_eq_true bears⟩
    exact List.mem_singleton.mp is_map

/-- A storage of a map of clients, whose values are of this type, and the big map of requests. -/
def clientsType (item : Micheline) : Micheline :=
  Micheline.applied "pair" [leafType "map" "clients" [Micheline.applied "address" [], item], requestsMapType]

/-- No clients. -/
def clientsValue : Micheline := Micheline.applied "Pair" [bare [], number "17"]

/-- The requests of a client by their names. -/
def clientRequestsType : Micheline :=
  leafType "map" "requests" [Micheline.applied "string" [], Micheline.applied "int" []]

/-- How many requests a client has made. -/
def requestCountType : Micheline := leafType "nat" "requests" []

/-- A storage of a name and a pair of the big map of requests and a number, the pair under the annotation too. -/
def countedType : Micheline :=
  Micheline.applied "pair" [leafType "pair" "requests" [requestsMapType, leafType "nat" "count" []],
    leafType "string" "admin" []]

/-- A storage of that type. -/
def countedValue : Micheline :=
  Micheline.applied "Pair" [Micheline.applied "Pair" [number "17", number "3"], literal "tz1"]

/-- Four strings, the big map of requests on the left and a map. -/
def shiftedFields : PairTree Field :=
  .pair (.pair (.leaf (.text "a" "u")) (.leaf (requestsField "17")))
    (.pair (.leaf (.text "c" "w")) (.pair (.leaf (.text "d" "x"))
      (.pair (.leaf (.map "e" [("k", "y"), ("l", "z")])) (.leaf (.text "f" "t")))))

/-- Their types in nested pairs. -/
def shiftedType : Micheline :=
  Micheline.applied "pair" [Micheline.applied "pair" [leafType "string" "a" [], requestsMapType],
    Micheline.applied "pair" [leafType "string" "c" [], Micheline.applied "pair" [leafType "string" "d" [],
      Micheline.applied "pair" [leafType "map" "e" [Micheline.applied "string" [], Micheline.applied "string" []],
        leafType "string" "f" []]]]]

/-- Their values in a row of five. -/
def shiftedValue : Micheline :=
  Micheline.applied "Pair" [Micheline.applied "Pair" [literal "u", number "17"], literal "w", literal "x",
    (Field.map "e" [("k", "y"), ("l", "z")]).value, literal "t"]

theorem requestsLeaf_clientsType {item : Micheline} (legible : Legible item) :
    RequestsLeaf (clientsType item) requestsMapType jobIdType where
  typed := by
    refine storageType_pair (storageType_leafType (.inr rfl) ?_) storageType_requestsMapType
    simp only [List.forall_mem_cons]
    exact ⟨legible_applied (by simp), legible, by simp⟩
  alone := by cbv
  bigMap := ⟨_, _, _, rfl, rfl⟩

theorem requestsLeaf_countedType : RequestsLeaf countedType requestsMapType jobIdType where
  typed := by
    have count : StorageType (leafType "nat" "count" []) := storageType_leafType (.inl (by decide)) (by simp)
    refine storageType_pair (.pair rfl ?_) (storageType_text "admin")
    simp only [List.forall_mem_cons]
    exact ⟨storageType_requestsMapType, count, by simp⟩
  alone := by cbv
  bigMap := ⟨_, _, _, rfl, rfl⟩

theorem requestsLeaf_shiftedType : RequestsLeaf shiftedType requestsMapType jobIdType where
  typed := by
    have map : StorageType (leafType "map" "e" [Micheline.applied "string" [], Micheline.applied "string" []]) :=
      storageType_leafType (.inr rfl) (by simp [legible_applied])
    exact storageType_pair (storageType_pair (storageType_text "a") storageType_requestsMapType)
      (storageType_pair (storageType_text "c") (storageType_pair (storageType_text "d")
        (storageType_pair map (storageType_text "f"))))
  alone := by cbv
  bigMap := ⟨_, _, _, rfl, rfl⟩

/-- Under a part that comes first and has the annotation too, requests are read by another type or by none. Next to a
map of two entries and before a row, the id is that of another part. -/
theorem requests_map_mistaken :
    (RequestsLeaf (clientsType clientRequestsType) requestsMapType jobIdType ∧
      (∃ values, extract (clientsType clientRequestsType) clientsValue = .ok values) ∧
      requestType (clientsType clientRequestsType) = .ok (Micheline.applied "int" [])) ∧
    (RequestsLeaf (clientsType requestCountType) requestsMapType jobIdType ∧
      (∃ values, extract (clientsType requestCountType) clientsValue = .ok values) ∧
      requestType (clientsType requestCountType) = .error (.arityMismatch 2 0)) ∧
    (RequestsLeaf countedType requestsMapType jobIdType ∧
      (∃ values, extract countedType countedValue = .ok values) ∧
      requestType countedType = .ok (leafType "nat" "count" [])) ∧
    RequestsLeaf shiftedType requestsMapType jobIdType ∧ SpeltType shiftedFields shiftedType ∧
      SpeltValue shiftedFields shiftedValue ∧ requestsField "17" ∈ shiftedFields.leaves ∧
      (∃ values, extract shiftedType shiftedValue = .ok values) ∧
      requestsBigMap shiftedType shiftedValue = .ok "w" := by
  refine ⟨⟨requestsLeaf_clientsType ?_, ⟨_, rfl⟩, by cbv⟩, ⟨requestsLeaf_clientsType ?_, ⟨_, rfl⟩, by cbv⟩,
    ⟨requestsLeaf_countedType, ⟨_, rfl⟩, by cbv⟩, requestsLeaf_shiftedType, ?_, ?_, ?_, ⟨_, rfl⟩, by cbv⟩
  · exact legible_leafType (by simp [legible_applied])
  · exact legible_leafType (by simp)
  · have nested : NestedType shiftedFields shiftedType :=
      ⟨_, _, ⟨_, _, ⟨_, _, rfl⟩, ⟨_, _, rfl⟩, _, _, rfl, rfl⟩, ⟨_, _, ⟨_, _, rfl⟩, ⟨_, _, ⟨_, _, rfl⟩,
        ⟨_, _, ⟨_, _, rfl⟩, ⟨_, _, rfl⟩, _, _, rfl, rfl⟩, _, _, rfl, rfl⟩, _, _, rfl, rfl⟩, _, _, rfl, rfl⟩
    exact nested.spelt fun h => h
  · exact Spelt.pair (Spelt.pair (.leaf rfl) (.last (.leaf rfl)) (.inl ⟨_, _, rfl, rfl⟩))
      (.cons (.leaf rfl) (.cons (.leaf rfl) (.cons (.leaf rfl) (.last (.leaf rfl))))) (.inl ⟨_, _, rfl, rfl⟩)
  · simp [shiftedFields, PairTree.leaves]

end Tezos
end OracleRelay
