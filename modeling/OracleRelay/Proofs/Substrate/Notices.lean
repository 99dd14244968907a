/-
# Requests in the notices of changed storage

A notice is a list of changes, and what one of them carries does not depend on the others: the records that are stored
under the key of the events, if they are there and can be read (`carried`). A record has under each name of its layout
a value of the form that the layout gives the name (`field?_of_layout`), so the registry of the oracle pallet gives every
request record all fields that a request is made of (`exists_request`). Hence a notice gives one request for each
record that asks one of the accounts for the job (`requests_exact`).

Key definitions: `Substrate.Stores`, `Substrate.carried`, `Substrate.Asked`, `Substrate.Answers`.
Key theorems: `Substrate.layout_of_decodeEvents`, `Substrate.exists_request`, `Substrate.StorageChanges.read_toJson`,
`Substrate.requestsIn_eq`, `Substrate.requests_exact`.
-/
import OracleRelay.Proofs.Request.Fields
import OracleRelay.Proofs.Text.Hex
import OracleRelay.Substrate.Request

namespace OracleRelay
namespace Substrate

/-! ### Records and their layouts -/

/-- The form of a value. -/
def FieldValue.kind : FieldValue → FieldKind
  | .account _ => .account
  | .u8 _ => .u8
  | .u32 _ => .u32
  | .u64 _ => .u64
  | .u128 _ => .u128
  | .bytes _ => .bytes
  | .vecBytes _ => .vecBytes
  | .bool _ => .bool

/-- The layout that a record has. -/
def EventRecord.layout (r : EventRecord) : EventLayout :=
  ⟨r.pallet, r.variant, r.fields.map fun field => (field.1, field.2.kind)⟩

theorem kind_of_read {kind : FieldKind} {bs rest : List UInt8} {v : FieldValue} (h : kind.read bs = some (v, rest)) :
    v.kind = kind := by
  cases kind <;>
  · simp only [FieldKind.read, Option.map_eq_some_iff, Prod.mk.injEq] at h
    obtain ⟨_, _, rfl, _⟩ := h
    rfl

theorem kinds_of_readFields : ∀ {fields : List (String × FieldKind)} {bs rest : List UInt8}
    {values : List (String × FieldValue)}, readFields fields bs = some (values, rest) →
      values.map (fun field => (field.1, field.2.kind)) = fields
  | [], _, _, _, h => by
    cases h
    rfl
  | (name, kind) :: fields, bs, rest, values, h => by
    rw [readFields] at h
    cases first : kind.read bs with
    | none => simp [first] at h
    | some read =>
      obtain ⟨v, left⟩ := read
      simp only [first, Option.map_eq_some_iff, Prod.mk.injEq] at h
      obtain ⟨⟨values', rest'⟩, more, rfl, rfl⟩ := h
      rw [List.map_cons, kinds_of_readFields more, kind_of_read first]

theorem layout_of_read {layout : EventLayout} {phase : Phase} {bs rest : List UInt8} {r : EventRecord}
    (h : layout.read phase bs = some (r, rest)) : r.layout = layout := by
  unfold EventLayout.read at h
  cases read : readFields layout.fields bs with
  | none => simp [read] at h
  | some fields =>
    obtain ⟨values, left⟩ := fields
    simp only [read, Option.map_eq_some_iff, Prod.mk.injEq] at h
    obtain ⟨_, _, rfl, _⟩ := h
    rw [EventRecord.layout, kinds_of_readFields read]

/-- **Every record that is read has a layout of the registry.** -/
theorem layout_of_readRecords {registry : EventRegistry} : ∀ {n : Nat} {bs : List UInt8} {records : List EventRecord},
    readRecords registry n bs = .ok records →
      ∀ r ∈ records, ∃ pallet variant, registry.find? pallet variant = some r.layout
  | 0, _, _, h, r, hr => by
    cases h
    cases hr
  | n + 1, bs, records, h, r, hr => by
    unfold readRecords at h
    split at h
    · cases h
    · rename_i phase pallet variant rest _
      split at h
      · cases h
        cases hr
      · rename_i layout registered
        split at h
        · cases h
        · rename_i record left read
          cases more : readRecords registry n left with
          | error e => simp [more, Except.map] at h
          | ok records' =>
            rw [more] at h
            cases h
            rcases List.mem_cons.mp hr with rfl | later
            · exact ⟨pallet, variant, by rw [registered, layout_of_read read]⟩
            · exact layout_of_readRecords more r later
    · cases h

theorem layout_of_decodeEvents {registry : EventRegistry} {bs : List UInt8} {records : List EventRecord}
    (h : decodeEvents registry bs = .ok records) {r : EventRecord} (hr : r ∈ records) :
    ∃ pallet variant, registry.find? pallet variant = some r.layout := by
  unfold decodeEvents at h
  split at h
  · cases h
  · exact layout_of_readRecords h r hr

/-- Under a name stands a value of the form that the layout gives the name. -/
theorem field?_of_layout {r : EventRecord} {name : String} {kind : FieldKind}
    (h : r.layout.fields.lookup name = some kind) : ∃ v, r.field? name = some v ∧ v.kind = kind := by
  rw [EventRecord.layout] at h
  rw [EventRecord.field?]
  generalize r.fields = fields at h
  induction fields with
  | nil => cases h
  | cons field fields ih =>
    obtain ⟨name', v⟩ := field
    rw [List.map_cons, List.lookup_cons] at h
    rw [List.lookup_cons]
    cases same : name == name' with
    | true =>
      rw [same] at h
      exact ⟨v, rfl, Option.some.inj h⟩
    | false =>
      rw [same] at h
      exact ih h

/-! ### The registry of the oracle pallet -/

/-- The layout of a request. -/
def requestLayout : EventLayout :=
  ⟨"Chainlink", "OracleRequest",
    [("oracle", .account), ("spec_index", .bytes), ("request_id", .u64), ("requester", .account),
     ("data_version", .u64), ("bytes", .vecBytes), ("callback", .bytes), ("payment", .u128)]⟩

/-- The layout is that of a request, if it has the names of one. -/
def EventLayout.Agrees (l : EventLayout) : Prop :=
  l.pallet = requestLayout.pallet → l.variant = requestLayout.variant → l = requestLayout

instance (l : EventLayout) : Decidable l.Agrees := inferInstanceAs (Decidable (_ → _ → _))

theorem mem_putLayout {key : UInt8 × UInt8} {layout : EventLayout} {entry : (UInt8 × UInt8) × EventLayout} :
    ∀ {layouts : List ((UInt8 × UInt8) × EventLayout)}, entry ∈ EventRegistry.putLayout key layout layouts →
      entry.2 = layout ∨ entry ∈ layouts
  | [], h => by
    obtain rfl := List.mem_singleton.mp h
    exact .inl rfl
  | (k, l) :: layouts, h => by
    rw [EventRegistry.putLayout] at h
    split_ifs at h with same
    · rcases List.mem_cons.mp h with rfl | later
      · exact .inl rfl
      · exact .inr (List.mem_cons_of_mem _ later)
    · rcases List.mem_cons.mp h with rfl | later
      · exact .inr List.mem_cons_self
      · exact (mem_putLayout later).imp_right (List.mem_cons_of_mem _)

/-- What holds of all layouts of a registry and of one more holds after this one was registered. -/
theorem forall_register (holds : EventLayout → Prop) {registry : EventRegistry}
    (all : ∀ entry ∈ registry.layouts, holds entry.2) {pallet variant : UInt8} {layout : EventLayout}
    (new : holds layout) : ∀ entry ∈ (registry.register pallet variant layout).layouts, holds entry.2 := by
  intro entry there
  rcases mem_putLayout there with same | old
  · rw [same]
    exact new
  · exact all entry old

/-- No other event of the registry has the names of a request, whatever the number of the oracle pallet. -/
theorem agrees_of_registered {oracles pallet variant : UInt8} {layout : EventLayout}
    (registered : (EventRegistry.runlog oracles).find? pallet variant = some layout) : layout.Agrees := by
  have all : ∀ entry ∈ (EventRegistry.runlog oracles).layouts, entry.2.Agrees := by
    unfold EventRegistry.runlog
    iterate 8
      refine forall_register EventLayout.Agrees ?_ ?new
      case new => decide
    simp
  obtain ⟨before, after, split, _⟩ := List.lookup_eq_some_iff.mp registered
  have there : ((pallet, variant), layout) ∈ (EventRegistry.runlog oracles).layouts := by
    rw [split]
    exact List.mem_append_right _ List.mem_cons_self
  exact all _ there

/-- **A request record that was read has all that a request is made of.** -/
theorem exists_request {oracles : UInt8} {bs : List UInt8} {records : List EventRecord}
    (decoded : decodeEvents (.runlog oracles) bs = .ok records) {r : EventRecord} (hr : r ∈ records)
    (is : r.is "Chainlink" "OracleRequest" = true) :
    ∃ oracle spec id params callback payment,
      r.field? "oracle" = some (.account oracle) ∧ r.field? "spec_index" = some (.bytes spec) ∧
      r.field? "request_id" = some (.u64 id) ∧ r.field? "bytes" = some (.vecBytes params) ∧
      r.field? "callback" = some (.bytes callback) ∧ r.field? "payment" = some (.u128 payment) ∧
      OracleRequest.ofRecord? r = some ⟨oracle, Utf8.toStringLossy spec, id, params.map Utf8.toStringLossy,
        Utf8.toStringLossy callback, payment⟩ := by
  obtain ⟨pallet, variant, registered⟩ := layout_of_decodeEvents decoded hr
  have names : r.pallet = "Chainlink" ∧ r.variant = "OracleRequest" := by
    simpa only [EventRecord.is, Bool.and_eq_true, decide_eq_true_eq] using is
  have layout : r.layout = requestLayout := agrees_of_registered registered names.1 names.2
  have field : ∀ {name : String} {kind : FieldKind}, requestLayout.fields.lookup name = some kind →
      ∃ v, r.field? name = some v ∧ v.kind = kind := fun h => field?_of_layout (by rw [layout]; exact h)
  obtain ⟨oracle, there₁, kind⟩ := field (show requestLayout.fields.lookup "oracle" = some .account from rfl)
  cases oracle <;> cases kind
  obtain ⟨spec, there₂, kind⟩ := field (show requestLayout.fields.lookup "spec_index" = some .bytes from rfl)
  cases spec <;> cases kind
  obtain ⟨id, there₃, kind⟩ := field (show requestLayout.fields.lookup "request_id" = some .u64 from rfl)
  cases id <;> cases kind
  obtain ⟨params, there₄, kind⟩ := field (show requestLayout.fields.lookup "bytes" = some .vecBytes from rfl)
  cases params <;> cases kind
  obtain ⟨callback, there₅, kind⟩ := field (show requestLayout.fields.lookup "callback" = some .bytes from rfl)
  cases callback <;> cases kind
  obtain ⟨payment, there₆, kind⟩ := field (show requestLayout.fields.lookup "payment" = some .u128 from rfl)
  cases payment <;> cases kind
  refine ⟨_, _, _, _, _, _, there₁, there₂, there₃, there₄, there₅, there₆, ?_⟩
  simp only [OracleRequest.ofRecord?, is, ↓reduceIte, there₁, there₂, there₃, there₄, there₅, there₆]

/-! ### What a change carries -/

/-- A change stores octets under the key of the events, which may be in any letter case: it has a value, and this
spells the octets in hexadecimal, behind the mark or without it. -/
def Stores (change : String × Option String) (bs : List UInt8) : Prop :=
  change.1.toList.map Char.toLower = eventsKey.toList.map Char.toLower ∧
    ∃ data, change.2 = some data ∧ (Hex.stripMark data).toList.map Char.toLower = Hex.encode bs

/-- The octets that a change stores under the key of the events. -/
def stored? (change : String × Option String) : Option (List UInt8) :=
  if StorageChanges.sameKey change.1 eventsKey then
    change.2.bind fun data => (Hex.decode (Hex.stripMark data)).toOption
  else none

/-- The records that a change carries: none, unless it stores octets that are events. -/
def carried (registry : EventRegistry) (change : String × Option String) : List EventRecord :=
  ((stored? change).bind fun bs => (decodeEvents registry bs).toOption).getD []

theorem toOption_eq_some_iff {ε α : Type} {r : Except ε α} {x : α} : r.toOption = some x ↔ r = .ok x := by
  cases r <;> simp [Except.toOption]

theorem stored?_eq_some_iff {change : String × Option String} {bs : List UInt8} :
    stored? change = some bs ↔ Stores change bs := by
  unfold stored? Stores
  rw [StorageChanges.sameKey]
  by_cases key : change.1.toList.map Char.toLower = eventsKey.toList.map Char.toLower
  · simp only [key, decide_true, ↓reduceIte, Option.bind_eq_some_iff, toOption_eq_some_iff, Hex.decode_eq_ok_iff,
      true_and]
  · simp [key]

/-- What a change carries that stores events. -/
theorem carried_of_stores {registry : EventRegistry} {change : String × Option String} {bs : List UInt8}
    {records : List EventRecord} (stores : Stores change bs) (decoded : decodeEvents registry bs = .ok records) :
    carried registry change = records := by
  rw [carried, stored?_eq_some_iff.mpr stores, Option.bind_some, decoded]
  rfl

/-- Any other change carries nothing. -/
theorem carried_of_silent {registry : EventRegistry} {change : String × Option String}
    (silent : ∀ bs records, Stores change bs → decodeEvents registry bs ≠ .ok records) :
    carried registry change = [] := by
  unfold carried
  cases stored : stored? change with
  | none => rfl
  | some bs =>
    cases decoded : decodeEvents registry bs with
    | error e => simp [decoded, Except.toOption]
    | ok records => exact absurd decoded (silent bs records (stored?_eq_some_iff.mp stored))

theorem decoded_of_mem_carried {registry : EventRegistry} {change : String × Option String} {r : EventRecord}
    (h : r ∈ carried registry change) : ∃ bs records, decodeEvents registry bs = .ok records ∧ r ∈ records := by
  unfold carried at h
  cases stored : stored? change with
  | none => simp [stored] at h
  | some bs =>
    cases decoded : decodeEvents registry bs with
    | error e => simp [stored, decoded, Except.toOption] at h
    | ok records => exact ⟨bs, records, decoded, by simpa [stored, decoded, Except.toOption] using h⟩

/-- The request that a record is to a watch. -/
def Watch.requestOf? (w : Watch) (r : EventRecord) : Option JobRequest :=
  ((OracleRequest.ofRecord? r).filter fun q => w.jobId = q.specIndex && w.accounts.contains q.oracle).map fun q =>
    ⟨q.specIndex, q.fields⟩

theorem Watch.requestOf?_of_read (w : Watch) {r : EventRecord} {q : OracleRequest}
    (read : OracleRequest.ofRecord? r = some q) : w.requestOf? r =
      if w.jobId = q.specIndex ∧ q.oracle ∈ w.accounts then some ⟨q.specIndex, q.fields⟩ else none := by
  simp [requestOf?, read, Option.filter_some, apply_ite]

theorem Watch.requestOf?_of_unread (w : Watch) {r : EventRecord} (unread : OracleRequest.ofRecord? r = none) :
    w.requestOf? r = none := by
  simp [requestOf?, unread]

theorem Watch.requestsInValue_eq (w : Watch) (bs : List UInt8) : w.requestsInValue bs =
    ((decodeEvents w.registry bs).toOption.getD []).filterMap w.requestOf? := by
  unfold requestsInValue
  cases decodeEvents w.registry bs with
  | error e => rfl
  | ok records =>
    refine List.filterMap_congr fun r _ => ?_
    cases read : OracleRequest.ofRecord? r with
    | none => rw [w.requestOf?_of_unread read]
    | some q => rw [w.requestOf?_of_read read]

/-- **The requests in a notice are those in what its changes carry**, one change after the other. -/
theorem requestsIn_eq (w : Watch) {notice : Json} {s : StorageChanges}
    (reads : Json.readValue? StorageChanges.reader notice = some s) :
    w.requestsIn notice = (s.changes.flatMap (carried w.registry)).filterMap w.requestOf? := by
  have values : s.valuesOf eventsKey = s.changes.filterMap stored? := rfl
  rw [Watch.requestsIn, reads, List.filterMap_flatMap]
  simp only [values]
  induction s.changes with
  | nil => rfl
  | cons change changes ih =>
    rw [List.filterMap_cons, List.flatMap_cons]
    cases stored : stored? change with
    | none => simpa [carried, stored] using ih
    | some bs => simpa [carried, stored, Watch.requestsInValue_eq] using ih

/-! ### Notices as nodes write them -/

/-- A change as nodes write it. -/
def changeJson (change : String × Option String) : Json :=
  .array [.text change.1, match change.2 with | some data => .text data | none => .null]

/-- A notice as nodes write it. -/
def StorageChanges.toJson (s : StorageChanges) : Json :=
  .object [("block", .text s.block), ("changes", .array (s.changes.map changeJson))]

theorem changeReader_changeJson (depth : Nat) (change : String × Option String) :
    StorageChanges.changeReader (depth + 1) (Json.Tree.ofValue (changeJson change)) = some change := by
  obtain ⟨key, _ | data⟩ := change <;> rfl

theorem mapM_changeReader (depth : Nat) : ∀ changes : List (String × Option String),
    (Json.Tree.ofValues (changes.map changeJson)).mapM (StorageChanges.changeReader (depth + 1)) = some changes
  | [] => rfl
  | change :: changes => by
    rw [List.map_cons, Json.Tree.ofValues, List.mapM_cons, changeReader_changeJson, mapM_changeReader depth changes]
    rfl

/-- **A notice is read back.** -/
theorem StorageChanges.read_toJson (s : StorageChanges) : Json.readValue? StorageChanges.reader s.toJson = some s := by
  have fields : Json.Record.read? ["block", "changes"] (Json.maxDepth + 1) (Json.Tree.ofValue s.toJson) =
      some ⟨Json.maxDepth, [("block", .given (.text (some s.block))),
        ("changes", .given (.array (Json.Tree.ofValues (s.changes.map changeJson))))]⟩ := rfl
  have changes : Json.Tree.list? changeReader Json.maxDepth
      (.array (Json.Tree.ofValues (s.changes.map changeJson))) = some s.changes :=
    mapM_changeReader _ s.changes
  rw [Json.readValue?, reader, fields]
  simp only [Option.bind_eq_bind, Option.bind_some, Json.Record.required, Json.Record.withDefault, Json.Record.slot,
    List.lookup_cons]
  simp [Json.Tree.string?, changes]

/-! ### The requests in a notice -/

/-- The job that a record names. -/
def EventRecord.job? (r : EventRecord) : Option String :=
  match r.field? "spec_index" with
  | some (.bytes spec) => some (Utf8.toStringLossy spec)
  | _ => none

/-- The oracle that a record names. -/
def EventRecord.oracle? (r : EventRecord) : Option (List UInt8) :=
  match r.field? "oracle" with
  | some (.account id) => some id
  | _ => none

/-- A record that asks one of the accounts for the job. -/
def Asked (jobId : String) (accounts : List (List UInt8)) (r : EventRecord) : Prop :=
  r.is "Chainlink" "OracleRequest" = true ∧ r.job? = some jobId ∧ ∃ id ∈ accounts, r.oracle? = some id

instance (jobId : String) (accounts : List (List UInt8)) (r : EventRecord) : Decidable (Asked jobId accounts r) :=
  inferInstanceAs (Decidable (_ ∧ _ ∧ ∃ id ∈ accounts, _))

/-- The names of the fields that hold what the event says. -/
def eventNames : List String := ["payment", "request_id", "function", "request_type"]

/-- What the event says stands under the names for it, and under all others what the strings of the requester give;
their names come first. -/
structure Answers (r : EventRecord) (request : JobRequest) : Prop where
  job : r.job? = some request.jobId
  payment : ∃ n, r.field? "payment" = some (.u128 n) ∧
    request.fields.get? "payment" = some (.text (Numeral.decimal n))
  requestId : ∃ n, r.field? "request_id" = some (.u64 n) ∧
    request.fields.get? "request_id" = some (.text (Numeral.decimal n))
  callback : ∃ bs, r.field? "callback" = some (.bytes bs) ∧
    request.fields.get? "function" = some (.text (Utf8.toStringLossy bs))
  type : request.fields.get? "request_type" = some (.text "runlog")
  others : ∃ bss, r.field? "bytes" = some (.vecBytes bss) ∧
    (∀ key ∉ eventNames, request.fields.get? key = (pairFields (bss.map Utf8.toStringLossy)).get? key) ∧
    request.fields.keys = (pairFields (bss.map Utf8.toStringLossy)).keys ++
      eventNames.filter (· ∉ (pairFields (bss.map Utf8.toStringLossy)).keys)

/-- What the event says, under the names for it. -/
def OracleRequest.said (q : OracleRequest) : List (String × Json) :=
  [("payment", .text (Numeral.decimal q.payment)), ("request_id", .text (Numeral.decimal q.requestId)),
    ("function", .text q.callback), ("request_type", .text "runlog")]

theorem OracleRequest.names_said (q : OracleRequest) : q.said.map (·.1) = eventNames := rfl

theorem OracleRequest.get?_fields {q : OracleRequest} {name : String} {v : Json} (h : (name, v) ∈ q.said) :
    q.fields.get? name = some v := by
  have distinct : (q.said.map (·.1)).Nodup := by
    rw [q.names_said]
    decide
  exact Fields.get?_merge (pairFields q.params) distinct h

theorem OracleRequest.get?_fields_of_other {q : OracleRequest} {name : String} (h : name ∉ eventNames) :
    q.fields.get? name = (pairFields q.params).get? name :=
  Fields.get?_merge_of_not_mem (pairFields q.params) (show name ∉ q.said.map (·.1) from h)

theorem OracleRequest.keys_fields (q : OracleRequest) : q.fields.keys =
    (pairFields q.params).keys ++ eventNames.filter (· ∉ (pairFields q.params).keys) := by
  have distinct : (q.said.map (·.1)).Nodup := by
    rw [q.names_said]
    decide
  exact Fields.keys_merge (pairFields q.params) distinct

/-- A request record gives a request exactly if it asks one of the accounts for the job. -/
theorem requestOf?_cases (jobId : String) (accounts : List (List UInt8)) {oracles : UInt8} {bs : List UInt8}
    {records : List EventRecord} (decoded : decodeEvents (.runlog oracles) bs = .ok records) {r : EventRecord}
    (hr : r ∈ records) :
    (Asked jobId accounts r ∧ ∃ request, Watch.requestOf? ⟨jobId, accounts, .runlog oracles⟩ r = some request ∧
        Answers r request) ∨
      (¬ Asked jobId accounts r ∧ Watch.requestOf? ⟨jobId, accounts, .runlog oracles⟩ r = none) := by
  by_cases is : r.is "Chainlink" "OracleRequest" = true
  · obtain ⟨oracle, spec, id, params, callback, payment, hasOracle, hasSpec, hasId, hasParams, hasCallback,
      hasPayment, read⟩ := exists_request decoded hr is
    have job : r.job? = some (Utf8.toStringLossy spec) := by simp only [EventRecord.job?, hasSpec]
    have account : r.oracle? = some oracle := by simp only [EventRecord.oracle?, hasOracle]
    have asked : Asked jobId accounts r ↔ jobId = Utf8.toStringLossy spec ∧ oracle ∈ accounts := by
      simp [Asked, is, job, account, eq_comm]
    rw [asked, Watch.requestOf?_of_read _ read]
    by_cases meant : jobId = Utf8.toStringLossy spec ∧ oracle ∈ accounts
    · refine .inl ⟨meant, _, if_pos meant, ?_⟩
      exact {
        job
        payment := ⟨payment, hasPayment, OracleRequest.get?_fields (by simp [OracleRequest.said])⟩
        requestId := ⟨id, hasId, OracleRequest.get?_fields (by simp [OracleRequest.said])⟩
        callback := ⟨callback, hasCallback, OracleRequest.get?_fields (by simp [OracleRequest.said])⟩
        type := OracleRequest.get?_fields (by simp [OracleRequest.said])
        others := ⟨params, hasParams, fun _ => OracleRequest.get?_fields_of_other, OracleRequest.keys_fields _⟩ }
    · exact .inr ⟨meant, if_neg meant⟩
  · have unread : OracleRequest.ofRecord? r = none := by rw [OracleRequest.ofRecord?, if_neg is]
    exact .inr ⟨fun asked => is asked.1, Watch.requestOf?_of_unread _ unread⟩

/-- Of records that were read, those that ask one of the accounts for the job give a request each, and the others give
none. -/
theorem answers_filterMap {jobId : String} {accounts : List (List UInt8)} {oracles : UInt8} :
    ∀ {records : List EventRecord},
      (∀ r ∈ records, ∃ bs all, decodeEvents (.runlog oracles) bs = .ok all ∧ r ∈ all) →
      List.Forall₂ Answers (records.filter fun r => Asked jobId accounts r)
        (records.filterMap (Watch.requestOf? ⟨jobId, accounts, .runlog oracles⟩))
  | [], _ => .nil
  | r :: records, read => by
    have rest : List.Forall₂ Answers (records.filter fun r => Asked jobId accounts r)
        (records.filterMap (Watch.requestOf? ⟨jobId, accounts, .runlog oracles⟩)) :=
      answers_filterMap fun r hr => read r (List.mem_cons_of_mem _ hr)
    obtain ⟨bs, all, decoded, there⟩ := read r List.mem_cons_self
    obtain ⟨asked, request, given, answers⟩ | ⟨unasked, silent⟩ := requestOf?_cases jobId accounts decoded there
    · rw [List.filter_cons_of_pos (by simpa using asked), List.filterMap_cons_some given]
      exact .cons answers rest
    · rw [List.filter_cons_of_neg (by simpa using unasked), List.filterMap_cons_none silent]
      exact rest

/-- **A notice gives a request for each record that asks one of the accounts for the job**, in the order of the changes
and of the records in them, and no other. A change carries the records of the events that it stores under their key,
and nothing if it stores none or they cannot be read; then it may as well not be in the notice. Every request record
that is read has all fields that a request is made of, whatever the number of the oracle pallet. -/
theorem requests_exact (jobId : String) (accounts : List (List UInt8)) (oracles : UInt8) :
    (∀ notice s, Json.readValue? StorageChanges.reader notice = some s →
      List.Forall₂ Answers ((s.changes.flatMap (carried (.runlog oracles))).filter fun r => Asked jobId accounts r)
        (Watch.requestsIn ⟨jobId, accounts, .runlog oracles⟩ notice)) ∧
    (∀ s : StorageChanges, Json.readValue? StorageChanges.reader s.toJson = some s) ∧
    (∀ notice, Json.readValue? StorageChanges.reader notice = none →
      Watch.requestsIn ⟨jobId, accounts, .runlog oracles⟩ notice = []) ∧
    (∀ change bs records, Stores change bs → decodeEvents (.runlog oracles) bs = .ok records →
      carried (.runlog oracles) change = records) ∧
    (∀ bs records, decodeEvents (.runlog oracles) bs = .ok records →
      ∀ r ∈ records, r.is "Chainlink" "OracleRequest" = true → ∃ q, OracleRequest.ofRecord? r = some q) ∧
    ∀ block before change after,
      (∀ bs records, Stores change bs → decodeEvents (.runlog oracles) bs ≠ .ok records) →
        carried (.runlog oracles) change = [] ∧
          Watch.requestsIn ⟨jobId, accounts, .runlog oracles⟩
              (StorageChanges.toJson ⟨block, before ++ change :: after⟩) =
            Watch.requestsIn ⟨jobId, accounts, .runlog oracles⟩ (StorageChanges.toJson ⟨block, before ++ after⟩) := by
  refine ⟨fun notice s reads => ?_, StorageChanges.read_toJson, fun notice unread => ?_,
    fun change bs records => carried_of_stores, fun bs records decoded r hr is => ?_,
    fun block before change after silent => ?_⟩
  · rw [requestsIn_eq _ reads]
    refine answers_filterMap fun r hr => ?_
    obtain ⟨change, -, there⟩ := List.mem_flatMap.mp hr
    exact decoded_of_mem_carried there
  · rw [Watch.requestsIn, unread]
  · obtain ⟨_, _, _, _, _, _, -, -, -, -, -, -, read⟩ := exists_request decoded hr is
    exact ⟨_, read⟩
  · have nothing : carried (.runlog oracles) change = [] := carried_of_silent silent
    refine ⟨nothing, ?_⟩
    rw [requestsIn_eq _ (StorageChanges.read_toJson _), requestsIn_eq _ (StorageChanges.read_toJson _)]
    simp [nothing]

end Substrate
end OracleRelay
