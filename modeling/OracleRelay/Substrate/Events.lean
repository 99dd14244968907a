/-
# Event records

The events of a block are stored as one sequence of records. A record does not tell how long its fields are; a
registry of layouts does, by the numbers of pallet and variant. At the first event without a layout reading stops,
with what was read up to there.

Key definitions: `FieldKind`, `FieldValue`, `EventLayout`, `EventRegistry`, `EventRegistry.runlog`, `EventRecord`,
`decodeEvents`.
-/
import OracleRelay.Substrate.Scale
import OracleRelay.Text.Numeral

namespace OracleRelay
namespace Substrate

/-- Why events cannot be read. -/
inductive ScaleFault where
  | malformed
  | unknownPhase (n : Nat)
  deriving DecidableEq, Repr

/-- The text of a fault. -/
def ScaleFault.message : ScaleFault → String
  | .malformed => "SCALE decode failed: malformed value"
  | .unknownPhase n => "unknown event phase " ++ Numeral.decimal n

/-- The form of a field. -/
inductive FieldKind where
  | account
  | u8
  | u32
  | u64
  | u128
  | bytes
  | vecBytes
  | bool
  deriving DecidableEq, Repr, Inhabited

/-- The names of the forms. -/
def FieldKind.names : List (String × FieldKind) :=
  [("account", .account), ("u8", .u8), ("u32", .u32), ("u64", .u64), ("u128", .u128), ("bytes", .bytes),
   ("vecbytes", .vecBytes), ("bool", .bool)]

/-- The value of a field. -/
inductive FieldValue where
  | account (id : List UInt8)
  | u8 (n : Nat)
  | u32 (n : Nat)
  | u64 (n : Nat)
  | u128 (n : Nat)
  | bytes (bs : List UInt8)
  | vecBytes (bss : List (List UInt8))
  | bool (b : Bool)
  deriving DecidableEq, Repr, Inhabited

/-- The octets of an account or topic. -/
def wordLength : Nat := 32

/-- Reads a field of a form. -/
def FieldKind.read : FieldKind → Scale.Reader FieldValue
  | .account, bs => (Scale.octets wordLength bs).map fun (x, rest) => (.account x, rest)
  | .u8, bs => (Scale.number 1 bs).map fun (x, rest) => (.u8 x, rest)
  | .u32, bs => (Scale.number 4 bs).map fun (x, rest) => (.u32 x, rest)
  | .u64, bs => (Scale.number 8 bs).map fun (x, rest) => (.u64 x, rest)
  | .u128, bs => (Scale.number 16 bs).map fun (x, rest) => (.u128 x, rest)
  | .bytes, bs => (Scale.bytes bs).map fun (x, rest) => (.bytes x, rest)
  | .vecBytes, bs => (Scale.vector Scale.bytes bs).map fun (x, rest) => (.vecBytes x, rest)
  | .bool, bs => (Scale.boolean bs).map fun (x, rest) => (.bool x, rest)

/-- The names of an event and of its fields, with their forms. -/
structure EventLayout where
  pallet : String
  variant : String
  fields : List (String × FieldKind)
  deriving DecidableEq, Repr, Inhabited

/-- Layouts by the numbers of pallet and variant. -/
structure EventRegistry where
  layouts : List ((UInt8 × UInt8) × EventLayout) := []
  deriving DecidableEq, Repr, Inhabited

namespace EventRegistry

/-- Puts a layout in place of the one with its numbers, or at the end. -/
def putLayout (key : UInt8 × UInt8) (layout : EventLayout) :
    List ((UInt8 × UInt8) × EventLayout) → List ((UInt8 × UInt8) × EventLayout)
  | [] => [(key, layout)]
  | (k, l) :: rest => if k = key then (key, layout) :: rest else (k, l) :: putLayout key layout rest

/-- Registers a layout. -/
def register (r : EventRegistry) (pallet variant : UInt8) (layout : EventLayout) : EventRegistry :=
  ⟨putLayout (pallet, variant) layout r.layouts⟩

/-- The layout of an event. -/
def find? (r : EventRegistry) (pallet variant : UInt8) : Option EventLayout :=
  r.layouts.lookup (pallet, variant)

/-- The number of layouts. -/
def size (r : EventRegistry) : Nat := r.layouts.length

/-- The layouts of the events that blocks with oracle requests hold, by the number of the oracle pallet. -/
def runlog (pallet : UInt8) : EventRegistry :=
  EventRegistry.mk []
    |>.register 0 0 ⟨"System", "ExtrinsicSuccess", [("weight", .u64), ("class", .u8), ("pays_fee", .u8)]⟩
    |>.register 0 2 ⟨"System", "CodeUpdated", []⟩
    |>.register 0 3 ⟨"System", "NewAccount", [("account", .account)]⟩
    |>.register 0 4 ⟨"System", "KilledAccount", [("account", .account)]⟩
    |>.register pallet 0 ⟨"Chainlink", "OracleRegistered", [("oracle", .account), ("spec_index", .bytes)]⟩
    |>.register pallet 1 ⟨"Chainlink", "OracleRequest",
        [("oracle", .account), ("spec_index", .bytes), ("request_id", .u64), ("requester", .account),
         ("data_version", .u64), ("bytes", .vecBytes), ("callback", .bytes), ("payment", .u128)]⟩
    |>.register pallet 2 ⟨"Chainlink", "OracleAnswer",
        [("oracle", .account), ("request_id", .u64), ("requester", .account), ("result", .bytes),
         ("payment", .u128)]⟩
    |>.register pallet 3 ⟨"Chainlink", "KillRequest", [("request_id", .u64)]⟩

end EventRegistry

/-- When in a block an event came. -/
inductive Phase where
  | applyExtrinsic (index : Nat)
  | finalization
  | initialization
  deriving DecidableEq, Repr, Inhabited

/-- An event with its fields by name. -/
structure EventRecord where
  phase : Phase
  pallet : String
  variant : String
  fields : List (String × FieldValue)
  topics : List (List UInt8)
  deriving DecidableEq, Repr, Inhabited

namespace EventRecord

/-- Whether the record is of this event. -/
def is (r : EventRecord) (pallet variant : String) : Bool := r.pallet = pallet && r.variant = variant

/-- The value of a field. -/
def field? (r : EventRecord) (name : String) : Option FieldValue := r.fields.lookup name

end EventRecord

/-- Takes what a reader gives, or finds the octets malformed. -/
def need {α : Type} : Option α → Except ScaleFault α
  | some x => .ok x
  | none => .error .malformed

/-- Reads a phase. -/
def Phase.read (bs : List UInt8) : Except ScaleFault (Phase × List UInt8) :=
  match bs with
  | [] => .error .malformed
  | 0 :: rest => need ((Scale.number 4 rest).map fun (n, rest) => (.applyExtrinsic n, rest))
  | 1 :: rest => .ok (.finalization, rest)
  | 2 :: rest => .ok (.initialization, rest)
  | b :: _ => .error (.unknownPhase b.toNat)

/-- Reads the fields of a layout. -/
def readFields : List (String × FieldKind) → Scale.Reader (List (String × FieldValue))
  | [], bs => some ([], bs)
  | (name, kind) :: more, bs =>
    match kind.read bs with
    | none => none
    | some (v, rest) => (readFields more rest).map fun (vs, rest) => ((name, v) :: vs, rest)

/-- Reads the fields and topics of an event of a layout. -/
def EventLayout.read (l : EventLayout) (phase : Phase) : Scale.Reader EventRecord := fun bs =>
  match readFields l.fields bs with
  | none => none
  | some (fields, rest) =>
    (Scale.vector (Scale.octets wordLength) rest).map fun (topics, rest) =>
      (⟨phase, l.pallet, l.variant, fields, topics⟩, rest)

/-- Reads so many records, fewer when an event without a layout comes. -/
def readRecords (registry : EventRegistry) : Nat → List UInt8 → Except ScaleFault (List EventRecord)
  | 0, _ => .ok []
  | n + 1, bs =>
    match Phase.read bs with
    | .error e => .error e
    | .ok (phase, pallet :: variant :: rest) =>
      match registry.find? pallet variant with
      | none => .ok []
      | some layout =>
        match layout.read phase rest with
        | none => .error .malformed
        | some (record, rest) => (readRecords registry n rest).map (record :: ·)
    | .ok _ => .error .malformed

/-- The records that the stored events of a block hold. -/
def decodeEvents (registry : EventRegistry) (bs : List UInt8) : Except ScaleFault (List EventRecord) :=
  match Scale.compact bs with
  | none => .error .malformed
  | some (count, rest) => readRecords registry count rest

end Substrate
end OracleRelay
