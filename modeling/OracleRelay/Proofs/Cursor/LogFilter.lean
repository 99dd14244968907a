/-
# The bounds that a query sends

The lower bound of a query stands in its argument under the name that the chain gives to it. Once the cursor is
a number, it is this number that the query sends, and queries without a block can always be built.

Whatever was set on a filter, the argument of a query names its contracts and topics, and besides them either
one block or both bounds (`LogFilter.argument_exact`): a block together with a bound is a conflict. A bound that
was left open is resolved by the mode of the query. A tag of the tip is not: it is sent as it is, where
`LogFilter.resolved` would have the start of the chain in a scan (`LogFilter.tip_tags_unresolved`).

Key definitions: `LogFilter.Setting`, `LogFilter.setAll`, `LogFilter.Holds`, `LogFilter.openBound`,
`LogFilter.resolved`.
Key theorems: `LogFilter.argument_of_numeric`, `LogFilter.lower_ne_resolved_iff`, `LogFilter.argument_exact`.
-/
import OracleRelay.Cursor.LogFilter
import OracleRelay.Proofs.Cursor.Position
import OracleRelay.Proofs.Json.Members

namespace OracleRelay
namespace LogFilter

theorem lower_of_numeric {f : LogFilter} {n : Nat} (h : Position.parse? f.range.bound = some n) (mode : QueryMode) :
    f.lower mode = f.range.bound := by
  simp [lower, Tracker.isUnset_of_parse? h]

/-- **A cursor at a number is sent as it is.** -/
theorem argument_of_numeric {f : LogFilter} {n : Nat} (hhash : f.blockHash = none)
    (h : Position.parse? f.range.bound = some n) (mode : QueryMode) :
    ∃ argument, f.argument mode = .ok argument ∧
      argument.get? f.range.kind.fromKey = some (.text f.range.bound) := by
  simp only [argument, bounds, hhash, lower_of_numeric h]
  refine ⟨_, rfl, ?_⟩
  rw [Json.get?_ofMembers]
  cases f.range.kind <;> simp [Json.lookup, RangeKind.fromKey, RangeKind.toKey]

/-! ### What is set on a filter -/

/-- What is done to a filter between its queries. -/
inductive Setting where
  | seed (bound : String)
  | observe (position : Nat)
  | ensureStarted
  | blockHash (hash : Option String)
  | upper (bound : String)
  deriving DecidableEq, Repr

/-- The filter after something was set. -/
def set (f : LogFilter) : Setting → LogFilter
  | .seed bound => { f with range := f.range.seed bound }
  | .observe position => { f with range := f.range.observe position }
  | .ensureStarted => { f with range := f.range.ensureStarted }
  | .blockHash hash => { f with blockHash := hash }
  | .upper bound => { f with upper := bound }

/-- The filter after all that was set, in order. -/
def setAll (f : LogFilter) (settings : List Setting) : LogFilter := settings.foldl set f

/-- A filter that names contracts and topics, and nothing else. -/
def naming (kind : RangeKind) (addresses : List String) (topics : List (List String)) : LogFilter :=
  { addresses, topics, range := { kind } }

/-- One filter names the same contracts and topics as another, and counts the same. -/
structure SameNames (f g : LogFilter) : Prop where
  addresses : f.addresses = g.addresses
  topics : f.topics = g.topics
  kind : f.range.kind = g.range.kind

theorem sameNames_set (f : LogFilter) (setting : Setting) : SameNames (f.set setting) f := by
  cases setting with
  | seed bound => exact ⟨rfl, rfl, rfl⟩
  | observe position => exact ⟨rfl, rfl, Tracker.kind_observe f.range position⟩
  | ensureStarted => exact ⟨rfl, rfl, Tracker.kind_ensureStarted f.range⟩
  | blockHash hash => exact ⟨rfl, rfl, rfl⟩
  | upper bound => exact ⟨rfl, rfl, rfl⟩

/-- No setting touches what a filter names. -/
theorem sameNames_setAll (f : LogFilter) (settings : List Setting) : SameNames (f.setAll settings) f := by
  induction settings generalizing f with
  | nil => exact ⟨rfl, rfl, rfl⟩
  | cons setting settings ih =>
    have hrest : SameNames (f.setAll (setting :: settings)) (f.set setting) := ih (f.set setting)
    have hfirst := sameNames_set f setting
    exact ⟨hrest.addresses.trans hfirst.addresses, hrest.topics.trans hfirst.topics, hrest.kind.trans hfirst.kind⟩

/-! ### Bounds -/

/-- What a bound that was left open stands for. -/
def openBound (kind : RangeKind) : QueryMode → String
  | .scan => kind.genesis
  | .tip => kind.latest

/-- The lower bound of a query in which the tags of the tip count as open, too. -/
def resolved (kind : RangeKind) (mode : QueryMode) (bound : String) : String :=
  if kind.isSentinel bound then openBound kind mode else bound

theorem lower_eq (f : LogFilter) (mode : QueryMode) :
    f.lower mode = if f.range.bound = "" then openBound f.range.kind mode else f.range.bound := by
  by_cases hopen : f.range.bound = ""
  · have hunset : f.range.isUnset = true := decide_eq_true hopen
    rw [if_pos hopen]
    unfold lower
    rw [if_pos hunset]
    cases mode <;> rfl
  · have hset : f.range.isUnset = false := decide_eq_false hopen
    simp [lower, hset, hopen]

/-- The tags of the tip. -/
theorem isSentinel_iff {kind : RangeKind} {bound : String} :
    kind.isSentinel bound = true ↔
      bound = "" ∨ bound = kind.latest ∨ kind = .epoch ∧ bound = "latest_mined" := by
  cases kind <;> simp [RangeKind.isSentinel, RangeKind.latest]

/-- A tag of the tip other than that of the kind itself stands for nothing, and in a scan none does. -/
theorem tag_ne_openBound_iff {kind : RangeKind} {bound : String} (htag : kind.isSentinel bound = true)
    (hset : bound ≠ "") (mode : QueryMode) : bound ≠ openBound kind mode ↔ mode = .scan ∨ bound = "latest_mined" := by
  rcases isSentinel_iff.mp htag with hempty | rfl | ⟨rfl, rfl⟩
  · exact absurd hempty hset
  · cases kind <;> cases mode <;> decide
  · cases mode <;> decide

/-- **What a query sends differs from the resolved bound at a tag of the tip only**: in a scan, and for the tag
`latest_mined` at any time. -/
theorem lower_ne_resolved_iff (f : LogFilter) (mode : QueryMode) :
    f.lower mode ≠ resolved f.range.kind mode f.range.bound ↔
      f.range.kind.isSentinel f.range.bound = true ∧ f.range.bound ≠ "" ∧
        (mode = .scan ∨ f.range.bound = "latest_mined") := by
  rw [lower_eq]
  by_cases htag : f.range.kind.isSentinel f.range.bound = true
  · by_cases hopen : f.range.bound = ""
    · rw [if_pos hopen, resolved, if_pos htag]
      simp [hopen]
    · rw [if_neg hopen, resolved, if_pos htag, tag_ne_openBound_iff htag hopen]
      simp [htag, hopen]
  · have hset : f.range.bound ≠ "" := fun hopen => htag (isSentinel_iff.mpr (.inl hopen))
    rw [if_neg hset, resolved, if_neg htag]
    simp [htag]

/-! ### Arguments -/

/-- An argument has these members under their names, and no others. -/
def Holds (argument : Json) (members : List (String × Json)) : Prop :=
  ∀ key v, argument.get? key = some v ↔ (key, v) ∈ members

/-- The members that name contracts and topics. -/
def named (addresses : List String) (topics : List (List String)) : List (String × Json) :=
  [("address", Json.texts addresses), ("topics", .array (topics.map Json.texts))]

theorem argument_eq (f : LogFilter) (mode : QueryMode) :
    f.argument mode = (f.bounds mode).map fun bounds => Json.ofMembers (named f.addresses f.topics ++ bounds) := rfl

theorem holds_ofMembers {members : List (String × Json)} (distinct : (members.map (·.1)).Nodup) :
    Holds (Json.ofMembers members) members := fun _ _ => Json.get?_ofMembers_eq_some_iff distinct

/-- The upper bound that a query sends. -/
def sentUpper (f : LogFilter) : String := if f.upper = "" then f.range.kind.latest else f.upper

/-- A block is asked for together with a bound. -/
def Conflicts (f : LogFilter) : Prop := f.blockHash ≠ none ∧ (f.range.bound ≠ "" ∨ f.upper ≠ "")

theorem bounds_of_block {f : LogFilter} {hash : String} (hhash : f.blockHash = some hash) (mode : QueryMode) :
    f.bounds mode = if f.range.bound ≠ "" ∨ f.upper ≠ "" then .error ⟨f.range.kind⟩
      else .ok [("blockHash", .text hash)] := by
  rw [bounds, hhash]
  refine if_congr ?_ rfl rfl
  simp [Tracker.isUnset]

theorem bounds_of_range {f : LogFilter} (hhash : f.blockHash = none) (mode : QueryMode) :
    f.bounds mode = .ok [(f.range.kind.fromKey, .text (f.lower mode)), (f.range.kind.toKey, .text f.sentUpper)] := by
  rw [bounds, hhash]
  rfl

/-- **A query cannot be built exactly when a block is asked for together with a bound.** -/
theorem argument_eq_error_iff (f : LogFilter) (mode : QueryMode) (conflict : Conflict) :
    f.argument mode = .error conflict ↔ conflict = ⟨f.range.kind⟩ ∧ f.Conflicts := by
  rw [argument_eq]
  cases hhash : f.blockHash with
  | none =>
    rw [bounds_of_range hhash]
    simp [Except.map, Conflicts, hhash]
  | some hash =>
    rw [bounds_of_block hhash]
    by_cases hbound : f.range.bound ≠ "" ∨ f.upper ≠ ""
    · have hconflict : f.Conflicts := ⟨by simp [hhash], hbound⟩
      rw [if_pos hbound]
      constructor
      · rintro ⟨⟩
        exact ⟨rfl, hconflict⟩
      · rintro ⟨rfl, -⟩
        rfl
    · have hfree : ¬ f.Conflicts := fun h => hbound h.2
      rw [if_neg hbound]
      simp [Except.map, hfree]

theorem argument_of_block {f : LogFilter} {hash : String} (hhash : f.blockHash = some hash)
    (fits : ¬ f.Conflicts) (mode : QueryMode) :
    ∃ argument, f.argument mode = .ok argument ∧
      Holds argument (named f.addresses f.topics ++ [("blockHash", .text hash)]) := by
  have hfree : ¬ (f.range.bound ≠ "" ∨ f.upper ≠ "") := fun hbound => fits ⟨by simp [hhash], hbound⟩
  refine ⟨_, ?_, holds_ofMembers ?_⟩
  · rw [argument_eq, bounds_of_block hhash, if_neg hfree]
    rfl
  · simp [named]

theorem argument_of_range {f : LogFilter} (hhash : f.blockHash = none) (mode : QueryMode) :
    ∃ argument, f.argument mode = .ok argument ∧
      Holds argument (named f.addresses f.topics ++
        [(f.range.kind.fromKey, .text (f.lower mode)), (f.range.kind.toKey, .text f.sentUpper)]) := by
  refine ⟨_, ?_, holds_ofMembers ?_⟩
  · rw [argument_eq, bounds_of_range hhash]
    rfl
  · cases f.range.kind <;> simp [named, RangeKind.fromKey, RangeKind.toKey]

/-- **The argument of a query, whatever was set before.** It cannot be built exactly when a block is asked for
together with a bound. Otherwise it names the contracts and topics as they were given, and besides them the
block, or both bounds and no block. A lower bound that was left open is resolved by the mode, and any other is
sent as it is, so what is sent differs from the resolved bound exactly at a tag of the tip that does not stand
for itself. -/
theorem argument_exact (kind : RangeKind) (addresses : List String) (topics : List (List String))
    (settings : List Setting) (mode : QueryMode) :
    let f := (naming kind addresses topics).setAll settings
    (∀ conflict, f.argument mode = .error conflict ↔
      conflict = ⟨kind⟩ ∧ f.blockHash ≠ none ∧ (f.range.bound ≠ "" ∨ f.upper ≠ "")) ∧
    (∀ hash, f.blockHash = some hash → f.range.bound = "" → f.upper = "" →
      ∃ argument, f.argument mode = .ok argument ∧
        Holds argument (named addresses topics ++ [("blockHash", .text hash)])) ∧
    (f.blockHash = none → ∃ argument lower, f.argument mode = .ok argument ∧
      Holds argument (named addresses topics ++
        [(kind.fromKey, .text lower), (kind.toKey, .text (if f.upper = "" then kind.latest else f.upper))]) ∧
      lower = (if f.range.bound = "" then openBound kind mode else f.range.bound) ∧
      (lower ≠ resolved kind mode f.range.bound ↔ kind.isSentinel f.range.bound = true ∧ f.range.bound ≠ "" ∧
        (mode = .scan ∨ f.range.bound = "latest_mined"))) := by
  intro f
  have same : SameNames f (naming kind addresses topics) := sameNames_setAll _ settings
  have haddresses : f.addresses = addresses := same.addresses
  have htopics : f.topics = topics := same.topics
  have hkind : f.range.kind = kind := same.kind
  refine ⟨fun conflict => ?_, fun hash hhash hbound hupper => ?_, fun hhash => ?_⟩
  · rw [argument_eq_error_iff, hkind]
    rfl
  · have fits : ¬ f.Conflicts := fun h => h.2.elim (· hbound) (· hupper)
    obtain ⟨argument, hok, holds⟩ := argument_of_block hhash fits mode
    rw [haddresses, htopics] at holds
    exact ⟨argument, hok, holds⟩
  · obtain ⟨argument, hok, holds⟩ := argument_of_range hhash mode
    have hlower := lower_eq f mode
    have hdiffers := lower_ne_resolved_iff f mode
    rw [sentUpper, haddresses, htopics, hkind] at holds
    rw [hkind] at hlower hdiffers
    exact ⟨argument, f.lower mode, hok, holds, hlower, hdiffers⟩

/-- A scan from the tag of the tip asks for nothing but the tip, where the resolved bound is the start of the
chain; and the tag `latest_mined` is sent as it is, where the resolved bound is the tag of the kind. -/
theorem tip_tags_unresolved :
    (∃ argument, ((naming .block [] []).setAll [.ensureStarted]).argument .scan = .ok argument ∧
      argument.get? "fromBlock" = some (.text "latest") ∧ resolved .block .scan "latest" = "0x0") ∧
    ∃ argument, ((naming .epoch [] []).setAll [.seed "latest_mined"]).argument .tip = .ok argument ∧
      argument.get? "fromEpoch" = some (.text "latest_mined") ∧ resolved .epoch .tip "latest_mined" = "latest_state" := by
  refine ⟨⟨_, rfl, rfl, by decide⟩, ⟨_, rfl, rfl, by decide⟩⟩

end LogFilter
end OracleRelay
