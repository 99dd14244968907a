/-
# The stored events of a block are read back

An event is stored as its phase, the numbers of its pallet and variant, its fields in the order of the layout that
is registered for these numbers, and its topics (`StoredEvent.write`). What was stored is read back whole, whatever
follows it; a strict part of it is malformed and never gives some of the events; and an event without a layout ends
the reading with the events before it (`records_exact`).

Key definitions: `Substrate.FieldValue.write`, `Substrate.FieldKind.Fits`, `Substrate.EventLayout.Fits`,
`Substrate.StoredEvent`, `Substrate.writeEvents`.
Key theorems: `Substrate.spells_field`, `Substrate.spells_layout`, `Substrate.readRecords_events`,
`Substrate.readRecords_part`, `Substrate.records_exact`.
-/
import OracleRelay.Proofs.Substrate.Scale
import OracleRelay.Substrate.Events

namespace OracleRelay
namespace Substrate

open Scale

/-! ### Fields -/

/-- The octets of a field. -/
def FieldValue.write : FieldValue → List UInt8
  | .account id => id
  | .u8 n => Octets.ofNatLittle 1 n
  | .u32 n => Octets.ofNatLittle 4 n
  | .u64 n => Octets.ofNatLittle 8 n
  | .u128 n => Octets.ofNatLittle 16 n
  | .bytes bs => writeBytes bs
  | .vecBytes bss => writeVector writeBytes bss
  | .bool b => [if b then 1 else 0]

/-- The values that a field of a form can have. -/
def FieldKind.Fits : FieldKind → FieldValue → Prop
  | .account, .account id => id.length = wordLength
  | .u8, .u8 n => n < 256 ^ 1
  | .u32, .u32 n => n < 256 ^ 4
  | .u64, .u64 n => n < 256 ^ 8
  | .u128, .u128 n => n < 256 ^ 16
  | .bytes, .bytes bs => bs.length < compactBound
  | .vecBytes, .vecBytes bss => bss.length < compactBound ∧ ∀ bs ∈ bss, bs.length < compactBound
  | .bool, .bool _ => True
  | _, _ => False

theorem steady_field (kind : FieldKind) : Steady kind.read := by
  cases kind with
  | account => exact (steady_octets wordLength).map _
  | u8 => exact (steady_number 1).map _
  | u32 => exact (steady_number 4).map _
  | u64 => exact (steady_number 8).map _
  | u128 => exact (steady_number 16).map _
  | bytes => exact steady_bytes.map _
  | vecBytes => exact (steady_vector steady_bytes).map _
  | bool => exact steady_boolean.map _

theorem writeBytes_ne_nil (bs : List UInt8) : writeBytes bs ≠ [] := by
  simp [writeBytes, writeCompact_ne_nil]

theorem spells_field {kind : FieldKind} {v : FieldValue} (h : kind.Fits v) : Spells kind.read v.write v := by
  cases kind <;> cases v <;> try exact h.elim
  case account id => exact (spells_octets h).map _
  case u8 n => exact (spells_number h).map _
  case u32 n => exact (spells_number h).map _
  case u64 n => exact (spells_number h).map _
  case u128 n => exact (spells_number h).map _
  case bytes bs => exact (spells_bytes h).map _
  case vecBytes bss =>
    refine (spells_vector (fun bs hbs => spells_bytes (h.2 bs hbs)) ?_ h.1).map _
    exact fun bs _ => writeBytes_ne_nil bs
  case bool b => exact (spells_boolean b).map _

theorem steady_fields (fields : List (String × FieldKind)) : Steady (readFields fields) := by
  induction fields with
  | nil =>
    intro bs x rest more h
    cases h
    rfl
  | cons field fields ih =>
    obtain ⟨name, kind⟩ := field
    intro bs vs rest more h
    unfold readFields at h ⊢
    cases hread : kind.read bs with
    | none => simp [hread] at h
    | some read =>
      obtain ⟨v, left⟩ := read
      simp only [hread] at h
      simp only [steady_field kind bs v left more hread]
      exact (ih.map ((name, v) :: ·)) left vs rest more h

/-- The octets of some fields. -/
def writeFields (fields : List (String × FieldValue)) : List UInt8 := fields.flatMap fun field => field.2.write

/-- The fields have the names of a layout, and values of its forms. -/
def FieldsFit (fields : List (String × FieldKind)) (values : List (String × FieldValue)) : Prop :=
  List.Forall₂ (fun field value => value.1 = field.1 ∧ field.2.Fits value.2) fields values

theorem spells_fields {fields : List (String × FieldKind)} {values : List (String × FieldValue)}
    (h : FieldsFit fields values) : Spells (readFields fields) (writeFields values) values := by
  unfold FieldsFit at h
  induction h with
  | nil => exact fun rest => rfl
  | @cons field value fields values hfits _ ih =>
    obtain ⟨name, kind⟩ := field
    obtain ⟨name', v⟩ := value
    obtain ⟨rfl, hfits⟩ := hfits
    intro rest
    unfold readFields writeFields
    rw [List.flatMap_cons, List.append_assoc, spells_field hfits]
    simp only [← writeFields.eq_1, ih rest, Option.map_some]

/-! ### Events of a layout -/

/-- The record has the names of the layout, fields that fit it, and topics that can be counted. -/
structure EventLayout.Fits (layout : EventLayout) (record : EventRecord) : Prop where
  pallet : record.pallet = layout.pallet
  variant : record.variant = layout.variant
  fields : FieldsFit layout.fields record.fields
  topics : ∀ topic ∈ record.topics, topic.length = wordLength
  few : record.topics.length < compactBound

/-- The octets of an event after its phase and its numbers. -/
def EventRecord.writeBody (record : EventRecord) : List UInt8 :=
  writeFields record.fields ++ writeVector id record.topics

theorem steady_layout (layout : EventLayout) (phase : Phase) : Steady (layout.read phase) := by
  intro bs record rest more h
  unfold EventLayout.read at h ⊢
  cases hread : readFields layout.fields bs with
  | none => simp [hread] at h
  | some read =>
    obtain ⟨fields, left⟩ := read
    simp only [hread] at h
    simp only [steady_fields layout.fields bs fields left more hread]
    exact ((steady_vector (steady_octets wordLength)).map _) left record rest more h

theorem spells_layout {layout : EventLayout} {record : EventRecord} (h : layout.Fits record) :
    Spells (layout.read record.phase) record.writeBody record := by
  intro rest
  have htopics : Spells (vector (octets wordLength)) (writeVector id record.topics) record.topics := by
    refine spells_vector (fun topic htopic => spells_octets (h.topics topic htopic)) (fun topic htopic hnil => ?_) h.few
    have hlength := h.topics topic htopic
    rw [id] at hnil
    simp [hnil, wordLength] at hlength
  unfold EventLayout.read EventRecord.writeBody
  rw [List.append_assoc, spells_fields h.fields]
  simp only [htopics rest, Option.map_some, ← h.pallet, ← h.variant]

/-! ### Phases -/

/-- The octets of a phase. -/
def Phase.write : Phase → List UInt8
  | .applyExtrinsic n => 0 :: Octets.ofNatLittle 4 n
  | .finalization => [1]
  | .initialization => [2]

/-- The phase counts extrinsics with 32 bits. -/
def Phase.Fits : Phase → Prop
  | .applyExtrinsic n => n < 256 ^ 4
  | .finalization | .initialization => True

theorem Phase.read_write {phase : Phase} (h : phase.Fits) (rest : List UInt8) :
    Phase.read (phase.write ++ rest) = .ok (phase, rest) := by
  cases phase with
  | applyExtrinsic n =>
    unfold Phase.read Phase.write
    rw [List.cons_append]
    simp only [spells_number h rest, Option.map_some, need]
  | finalization => rfl
  | initialization => rfl

/-- A phase that is cut short is malformed. -/
theorem Phase.read_part {phase : Phase} (h : phase.Fits) {part : List UInt8} (hpart : part <+: phase.write)
    (hne : part ≠ phase.write) : Phase.read part = .error .malformed := by
  cases part with
  | nil => rfl
  | cons b part =>
    cases phase with
    | applyExtrinsic n =>
      obtain ⟨rfl, hindex⟩ := List.cons_prefix_cons.mp hpart
      have hcut : part ≠ Octets.ofNatLittle 4 n := fun heq => hne (congrArg (0 :: ·) heq)
      have hnone := (steady_number 4).eq_none (spells_number h) hindex hcut
      unfold Phase.read
      simp only [hnone, Option.map_none, need]
    | finalization =>
      obtain ⟨rfl, hnil⟩ := List.cons_prefix_cons.mp hpart
      exact absurd (congrArg (1 :: ·) (List.prefix_nil.mp hnil)) hne
    | initialization =>
      obtain ⟨rfl, hnil⟩ := List.cons_prefix_cons.mp hpart
      exact absurd (congrArg (2 :: ·) (List.prefix_nil.mp hnil)) hne

/-! ### Stored events -/

/-- An event with the numbers of its pallet and variant. -/
structure StoredEvent where
  pallet : UInt8
  variant : UInt8
  record : EventRecord
  deriving Repr

/-- A layout is registered for the numbers of the event, and the event fits it. -/
structure StoredEvent.Fits (registry : EventRegistry) (event : StoredEvent) : Prop where
  phase : event.record.phase.Fits
  layout : ∃ layout, registry.find? event.pallet event.variant = some layout ∧ layout.Fits event.record

/-- The octets of an event. -/
def StoredEvent.write (event : StoredEvent) : List UInt8 :=
  event.record.phase.write ++ event.pallet :: event.variant :: event.record.writeBody

/-- The octets of the events of a block. -/
def writeEvents (events : List StoredEvent) : List UInt8 := writeVector StoredEvent.write events

/-- The records of some events. -/
def recordsOf (events : List StoredEvent) : List EventRecord := events.map (·.record)

variable {registry : EventRegistry}

/-- An event in front is read, and reading goes on after it. -/
theorem readRecords_cons {event : StoredEvent} (h : event.Fits registry) (n : Nat) (rest : List UInt8) :
    readRecords registry (n + 1) (event.write ++ rest) =
      (readRecords registry n rest).map (event.record :: ·) := by
  obtain ⟨layout, hfind, hfits⟩ := h.layout
  unfold StoredEvent.write
  rw [readRecords, List.append_assoc, Phase.read_write h.phase]
  simp only [List.cons_append, hfind, spells_layout hfits rest]

/-- An event that is cut short is malformed. -/
theorem readRecords_cut {event : StoredEvent} (h : event.Fits registry) (n : Nat) {part : List UInt8}
    (hpart : part <+: event.write) (hne : part ≠ event.write) :
    readRecords registry (n + 1) part = .error .malformed := by
  obtain ⟨layout, hfind, hfits⟩ := h.layout
  unfold StoredEvent.write at hpart hne
  unfold readRecords
  rcases part_of_append hpart hne with ⟨hphase, hphase'⟩ | ⟨part, rfl, hpart, hne⟩
  · rw [Phase.read_part h.phase hphase hphase']
  · rw [Phase.read_write h.phase]
    -- the phase is whole, so the cut is before one of the two numbers or in what follows them
    rcases part with _ | ⟨pallet, _ | ⟨variant, body⟩⟩
    · rfl
    · rfl
    · obtain ⟨rfl, htail⟩ := List.cons_prefix_cons.mp hpart
      obtain ⟨rfl, hbody⟩ := List.cons_prefix_cons.mp htail
      have hcut : body ≠ event.record.writeBody := fun heq => hne (by rw [heq])
      have hnone := (steady_layout layout event.record.phase).eq_none (spells_layout hfits) hbody hcut
      simp only [hfind, hnone]

/-- Events in front are read, and reading goes on after them. -/
theorem readRecords_events {events : List StoredEvent} (h : ∀ event ∈ events, event.Fits registry) (n : Nat)
    (rest : List UInt8) : readRecords registry (events.length + n) (events.flatMap StoredEvent.write ++ rest) =
      (readRecords registry n rest).map (recordsOf events ++ ·) := by
  induction events with
  | nil =>
    rw [List.length_nil, Nat.zero_add, List.flatMap_nil, List.nil_append]
    cases readRecords registry n rest <;> rfl
  | cons event events ih =>
    obtain ⟨hevent, hevents⟩ := List.forall_mem_cons.mp h
    have hcount : (event :: events).length + n = events.length + n + 1 := by rw [List.length_cons]; omega
    rw [hcount, List.flatMap_cons, List.append_assoc, readRecords_cons hevent, ih hevents]
    cases readRecords registry n rest <;> rfl

/-- Events that are cut short are malformed. -/
theorem readRecords_part {events : List StoredEvent} (h : ∀ event ∈ events, event.Fits registry)
    {part : List UInt8} (hpart : part <+: events.flatMap StoredEvent.write)
    (hne : part ≠ events.flatMap StoredEvent.write) :
    readRecords registry events.length part = .error .malformed := by
  induction events generalizing part with
  | nil => exact absurd (List.prefix_nil.mp hpart) hne
  | cons event events ih =>
    obtain ⟨hevent, hevents⟩ := List.forall_mem_cons.mp h
    rw [List.flatMap_cons] at hpart hne
    rcases part_of_append hpart hne with ⟨hcut, hcut'⟩ | ⟨part, rfl, hpart, hne⟩
    · exact readRecords_cut hevent events.length hcut hcut'
    · rw [List.length_cons, readRecords_cons hevent, ih hevents hpart hne]
      rfl

/-- At an event without a layout reading stops. -/
theorem readRecords_unknown {phase : Phase} (h : phase.Fits) {pallet variant : UInt8}
    (unknown : registry.find? pallet variant = none) (n : Nat) (rest : List UInt8) :
    readRecords registry (n + 1) (phase.write ++ pallet :: variant :: rest) = .ok [] := by
  unfold readRecords
  rw [Phase.read_write h]
  simp only [unknown]

theorem decodeEvents_count {count : Nat} (h : count < compactBound) (rest : List UInt8) :
    decodeEvents registry (writeCompact count ++ rest) = readRecords registry count rest := by
  unfold decodeEvents
  rw [spells_compact h]

/-- **Stored events are read exactly.** Events of registered layouts are read back whole and in order, whatever
follows them. A strict part of what was stored is malformed. Where more events are announced and the next one has no
layout, reading stops with the events before it, whatever comes after its numbers. -/
theorem records_exact (registry : EventRegistry) (events : List StoredEvent)
    (fit : ∀ event ∈ events, event.Fits registry) (few : events.length < compactBound) :
    (∀ more, decodeEvents registry (writeEvents events ++ more) = .ok (recordsOf events)) ∧
      (∀ part, part <+: writeEvents events → part ≠ writeEvents events →
        decodeEvents registry part = .error .malformed) ∧
      ∀ (count : Nat) (phase : Phase) (pallet variant : UInt8) (more : List UInt8),
        events.length < count → count < compactBound → phase.Fits → registry.find? pallet variant = none →
          decodeEvents registry (writeCompact count ++ (events.flatMap StoredEvent.write ++
            (phase.write ++ pallet :: variant :: more))) = .ok (recordsOf events) := by
  refine ⟨fun more => ?_, fun part hpart hne => ?_,
    fun count phase pallet variant more hcount hbound hphase hnone => ?_⟩
  · have hread := readRecords_events fit 0 more
    rw [Nat.add_zero] at hread
    rw [writeEvents, writeVector, List.append_assoc, decodeEvents_count few, hread, readRecords]
    show Except.ok (recordsOf events ++ []) = _
    rw [List.append_nil]
  · rcases part_of_append hpart hne with ⟨hcut, hcut'⟩ | ⟨part, rfl, hpart, hne⟩
    · unfold decodeEvents
      rw [steady_compact.eq_none (spells_compact few) hcut hcut']
    · rw [decodeEvents_count few]
      exact readRecords_part fit hpart hne
  · obtain ⟨n, rfl⟩ := Nat.exists_eq_add_of_lt hcount
    rw [decodeEvents_count hbound, Nat.add_assoc, readRecords_events fit, readRecords_unknown hphase hnone]
    show Except.ok (recordsOf events ++ []) = _
    rw [List.append_nil]

/-- An event of the system, and one of the oracle pallet with a topic. -/
def twoEvents : List StoredEvent :=
  [⟨0, 0, ⟨.applyExtrinsic 1, "System", "ExtrinsicSuccess",
      [("weight", .u64 1000), ("class", .u8 0), ("pays_fee", .u8 1)], []⟩⟩,
    ⟨6, 1, ⟨.finalization, "Chainlink", "OracleRequest",
      [("oracle", .account (List.replicate 32 1)), ("spec_index", .bytes [106, 111, 98]), ("request_id", .u64 42),
       ("requester", .account (List.replicate 32 9)), ("data_version", .u64 1),
       ("bytes", .vecBytes [[103, 101, 116], [], [120]]), ("callback", .bytes []), ("payment", .u128 100)],
      [List.replicate 32 7]⟩⟩]

theorem fits_twoEvents : ∀ event ∈ twoEvents, event.Fits (.runlog 6) := by
  intro event hevent
  rcases List.mem_cons.mp hevent with rfl | hevent
  · refine ⟨(by decide : 1 < 256 ^ 4), _, rfl, rfl, rfl, ?_, by simp, by decide⟩
    simp [FieldsFit, FieldKind.Fits]
  · obtain rfl := List.mem_singleton.mp hevent
    refine ⟨trivial, _, rfl, rfl, rfl, ?_, by simp [wordLength], by decide⟩
    simp [FieldsFit, FieldKind.Fits, wordLength, compactBound]

theorem records_exact_twoEvents :
    ((∀ event ∈ twoEvents, event.Fits (.runlog 6)) ∧ twoEvents.length < compactBound) ∧
      decodeEvents (.runlog 6) (writeEvents twoEvents ++ [0xFF]) = .ok (recordsOf twoEvents) ∧
      decodeEvents (.runlog 6) ((writeEvents twoEvents).take 60) = .error .malformed ∧
      decodeEvents (.runlog 6) (writeCompact 3 ++ (twoEvents.flatMap StoredEvent.write ++
        (Phase.write .initialization ++ 5 :: 2 :: [0xDE, 0xAD]))) = .ok (recordsOf twoEvents) := by
  have few : twoEvents.length < compactBound := by decide
  obtain ⟨hwhole, hpart, hunknown⟩ := records_exact (.runlog 6) twoEvents fits_twoEvents few
  refine ⟨⟨fits_twoEvents, few⟩, hwhole [0xFF], ?_, ?_⟩
  · exact hpart _ (List.take_prefix 60 _) (by decide)
  · exact hunknown 3 .initialization 5 2 [0xDE, 0xAD] (by decide) (by decide) trivial rfl

end Substrate
end OracleRelay
