/-
# Which subscriptions can be served

An adapter cannot be made for a subscription at a valid endpoint for one of three reasons (`Plan.Misfit`): it lacks the
parameter that the chain asks for, the chain is not reached in the way in which the endpoint is connected to, or it
gives an account that is none. A check of a snapshot looks for the first reason only, and looks for it at the first
endpoint of the name, where the store has the last one (`Plan.accepted_misfit_iff`).

Key definitions: `Chain.Supports`, `Subscription.Names`, `Substrate.IsAccount`, `Plan.Misfit`.
Key theorems: `Snapshot.problems_eq_nil_iff`, `Substrate.accountOf_eq_ok_iff`, `Plan.make_of_misfit`,
`Plan.exists_misfit_or_plan`, `Plan.accepted_misfit_iff`.
-/
import Mathlib.Data.List.Nodup
import OracleRelay.Command.Basic
import OracleRelay.Proofs.Config.Store
import OracleRelay.Proofs.Text.Hex
import OracleRelay.Service.Plan

namespace OracleRelay

/-! ### Subscriptions and their parameters -/

/-- The parameter without which a subscription on a chain watches nothing. -/
def Chain.parameter? : Chain → Option String
  | .substrate => some "accountIds"
  | .tezos | .ontology => some "addresses"
  | _ => none

/-- A subscription gives the parameter that a chain asks for. -/
def Subscription.Names (s : Subscription) : Chain → Prop
  | .substrate => s.accountIds ≠ []
  | .tezos | .ontology => s.addresses ≠ []
  | _ => True

theorem Endpoint.validate_eq_ok_iff {e : Endpoint} :
    e.validate = .ok () ↔ Blank.isBlankText e.name = false ∧ ∃ connection, e.connection = .ok connection := by
  unfold validate
  by_cases hblank : Blank.isBlankText e.name = true
  · rw [if_pos hblank, hblank]
    simp
  · rw [if_neg hblank]
    cases e.connection <;> simp [Except.map, hblank]

/-- At a valid endpoint only the parameter can be missing. -/
theorem Subscription.validateFor_of_valid (s : Subscription) {e : Endpoint} (valid : e.validate = .ok ()) :
    (s.Names e.chain ∧ s.validateFor e = .ok ()) ∨ ∃ field, e.chain.parameter? = some field ∧ ¬ s.Names e.chain ∧
      s.validateFor e = .error (.missingParameter e.chain field) := by
  unfold validateFor
  rw [valid]
  cases e.chain with
  | substrate =>
    by_cases h : s.accountIds = []
    · exact .inr ⟨"accountIds", rfl, fun hnames => hnames h, by simp [h]⟩
    · exact .inl ⟨h, by simp [h]⟩
  | tezos | ontology =>
    by_cases h : s.addresses = []
    · exact .inr ⟨"addresses", rfl, fun hnames => hnames h, by simp [h]⟩
    · exact .inl ⟨h, by simp [h]⟩
  | _ => exact .inl ⟨trivial, rfl⟩

/-- A valid subscription is one that gives its parameter at a valid endpoint. -/
theorem Subscription.validateFor_eq_ok_iff {s : Subscription} {e : Endpoint} :
    s.validateFor e = .ok () ↔ e.validate = .ok () ∧ s.Names e.chain := by
  cases hvalid : e.validate with
  | error fault => simp [validateFor, hvalid]
  | ok _ =>
    rcases s.validateFor_of_valid hvalid with ⟨hnames, hok⟩ | ⟨field, -, hnames, herror⟩
    · simp [hok, hnames]
    · simp [herror, hnames]

/-! ### What a check accepts -/

theorem Endpoint.problem?_eq_none_iff {e : Endpoint} : e.problem? = none ↔ e.validate = .ok () := by
  unfold problem?
  cases e.validate <;> simp

theorem Subscription.problem?_eq_none_iff {endpoints : List Endpoint} {s : Subscription} :
    s.problem? endpoints = none ↔
      ∃ e, endpoints.find? (·.name = s.endpoint) = some e ∧ s.validateFor e = .ok () := by
  unfold problem?
  cases endpoints.find? (·.name = s.endpoint) with
  | none => simp
  | some e => cases h : s.validateFor e <;> simp [h]

/-- A snapshot has no problem if its endpoints are valid, and each subscription is valid for the first endpoint of the
name that it gives. -/
theorem Snapshot.problems_eq_nil_iff {snap : Snapshot} :
    snap.problems = [] ↔ (∀ e ∈ snap.endpoints, e.validate = .ok ()) ∧ ∀ s ∈ snap.subscriptions,
      ∃ e, snap.endpoints.find? (·.name = s.endpoint) = some e ∧ s.validateFor e = .ok () := by
  simp only [problems, List.append_eq_nil_iff, List.filterMap_eq_nil_iff, Endpoint.problem?_eq_none_iff,
    Subscription.problem?_eq_none_iff]

/-- The check goes well exactly if there is no problem. -/
theorem Command.checked_status {snap : Snapshot} : (Command.checked snap).status = 0 ↔ snap.problems = [] := by
  unfold checked
  cases snap.problems with
  | nil => simp
  | cons p ps => simp [Output.failed]

/-! ### Accounts -/

/-- A text is an account if it spells the octets of a word, behind the mark or without it. -/
def Substrate.IsAccount (id : String) : Prop :=
  ∃ bs : List UInt8, bs.length = wordLength ∧ (Hex.stripMark id).toList.map Char.toLower = Hex.encode bs

/-- An account is read as its octets. -/
theorem Substrate.accountOf_of_isAccount {id : String} (h : IsAccount id) : ∃ bs, accountOf id = .ok bs := by
  obtain ⟨bs, hlength, hspelt⟩ := h
  refine ⟨bs, ?_⟩
  simp only [accountOf, Hex.decode_eq_ok_iff.mpr hspelt, if_pos hlength]

/-- What is no account is refused by name. -/
theorem Substrate.accountOf_of_not_isAccount {id : String} (h : ¬ IsAccount id) :
    accountOf id = .error (.invalidParameter "accountIds" id) := by
  unfold accountOf
  cases hdecode : Hex.decode (Hex.stripMark id) with
  | error fault => rfl
  | ok bs =>
    have hlength : ¬ bs.length = wordLength := fun hlength => h ⟨bs, hlength, Hex.decode_eq_ok_iff.mp hdecode⟩
    simp only [if_neg hlength]

/-- Accounts are read if each is one; otherwise the first that is none is refused. -/
theorem Substrate.mapM_accountOf : ∀ ids : List String,
    ((∀ id ∈ ids, IsAccount id) ∧ ∃ accounts, ids.mapM accountOf = .ok accounts) ∨
      ∃ before id after, ids = before ++ id :: after ∧ (∀ x ∈ before, IsAccount x) ∧ ¬ IsAccount id
  | [] => .inl ⟨nofun, [], rfl⟩
  | id :: ids => by
    by_cases hid : IsAccount id
    · rcases mapM_accountOf ids with ⟨hall, accounts, hread⟩ | ⟨before, bad, after, rfl, hbefore, hbad⟩
      · obtain ⟨bs, hbs⟩ := accountOf_of_isAccount hid
        refine .inl ⟨List.forall_mem_cons.mpr ⟨hid, hall⟩, bs :: accounts, ?_⟩
        rw [List.mapM_cons, hbs, hread]
        rfl
      · exact .inr ⟨id :: before, bad, after, rfl, List.forall_mem_cons.mpr ⟨hid, hbefore⟩, hbad⟩
    · exact .inr ⟨[], id, ids, rfl, nofun, hid⟩

/-- The first text that is no account is what the reading of accounts fails with. -/
theorem Substrate.mapM_accountOf_of_not {id : String} (bad : ¬ IsAccount id) (after : List String) :
    ∀ {before : List String}, (∀ x ∈ before, IsAccount x) →
      (before ++ id :: after).mapM accountOf = .error (.invalidParameter "accountIds" id)
  | [], _ => by
    rw [List.nil_append, List.mapM_cons, accountOf_of_not_isAccount bad]
    rfl
  | x :: before, good => by
    obtain ⟨hx, hbefore⟩ := List.forall_mem_cons.mp good
    obtain ⟨bs, hbs⟩ := accountOf_of_isAccount hx
    rw [List.cons_append, List.mapM_cons, hbs, mapM_accountOf_of_not bad after hbefore]
    rfl

/-! ### Making adapters -/

/-- The ways in which nodes of a chain are reached. -/
def Chain.Supports : Chain → Connection → Prop
  | .substrate, connection => connection = .push
  | .tezos, connection | .ontology, connection => connection = .poll
  | _, _ => True

namespace Plan

/-- Why no adapter can be made for a subscription at a valid endpoint. -/
inductive Misfit (s : Subscription) (e : Endpoint) : ConfigFault → Prop where
  | missing {field : String} (asked : e.chain.parameter? = some field) (unnamed : ¬ s.Names e.chain) :
      Misfit s e (.missingParameter e.chain field)
  | unsupported {connection : Connection} (named : s.Names e.chain) (reached : e.connection = .ok connection)
      (refused : ¬ e.chain.Supports connection) : Misfit s e (.unsupportedConnection e.chain connection)
  /-- the first account that is none -/
  | account {before after : List String} {id : String} (watched : e.chain = .substrate)
      (reached : e.connection = .ok .push) (given : s.accountIds = before ++ id :: after)
      (good : ∀ x ∈ before, Substrate.IsAccount x) (bad : ¬ Substrate.IsAccount id) :
      Misfit s e (.invalidParameter "accountIds" id)

theorem makeEvm_ok (flavor : Evm.Flavor) (s : Subscription) (e : Endpoint) (connection : Connection) :
    ∃ plan, makeEvm flavor s e connection = .ok plan := by
  cases connection with
  | push => exact ⟨_, rfl⟩
  | poll => exact ⟨_, rfl⟩

/-- Where nothing is missing, the chain and the way to connect decide on the adapter. -/
theorem make_of_named (settings : SubstrateSettings) {s : Subscription} {e : Endpoint} {connection : Connection}
    (valid : e.validate = .ok ()) (named : s.Names e.chain) (reached : e.connection = .ok connection) :
    make settings s e = match Evm.Flavor.ofChain? e.chain with
      | some flavor => makeEvm flavor s e connection
      | none => makeOther settings s e.chain connection := by
  have hvalid : s.validateFor e = .ok () := Subscription.validateFor_eq_ok_iff.mpr ⟨valid, named⟩
  cases hflavor : Evm.Flavor.ofChain? e.chain <;> simp only [make, hvalid, reached, hflavor]

/-- A subscription that does not fit is refused for what is wrong with it. -/
theorem make_of_misfit (settings : SubstrateSettings) {s : Subscription} {e : Endpoint} {fault : ConfigFault}
    (valid : e.validate = .ok ()) (h : Misfit s e fault) : make settings s e = .error (.config fault) := by
  cases h with
  | @missing field asked unnamed =>
    rcases s.validateFor_of_valid valid with ⟨hnames, -⟩ | ⟨field', hasked, -, herror⟩
    · exact absurd hnames unnamed
    · have hfield : field' = field := Option.some.inj (hasked.symm.trans asked)
      simp only [make, herror, hfield]
  | @unsupported connection named reached refused =>
    rw [make_of_named settings valid named reached]
    cases hchain : e.chain with
    | substrate =>
      rw [hchain] at refused
      cases connection with
      | push => exact absurd rfl refused
      | poll => rfl
    | tezos | ontology =>
      rw [hchain] at refused
      cases connection with
      | push => rfl
      | poll => exact absurd rfl refused
    | _ =>
      rw [hchain] at refused
      exact absurd trivial refused
  | account watched reached given good bad =>
    have hnamed : s.Names e.chain := by
      rw [watched]
      change s.accountIds ≠ []
      rw [given]
      simp
    rw [make_of_named settings valid hnamed reached, watched]
    simp only [Evm.Flavor.ofChain?, makeOther, Substrate.Watch.ofAccounts, given,
      Substrate.mapM_accountOf_of_not bad _ good]
    rfl

/-- A subscription that fits has an adapter. -/
theorem exists_misfit_or_plan (settings : SubstrateSettings) (s : Subscription) {e : Endpoint}
    (valid : e.validate = .ok ()) : (∃ fault, Misfit s e fault) ∨ ∃ plan, make settings s e = .ok plan := by
  obtain ⟨-, connection, hreached⟩ := Endpoint.validate_eq_ok_iff.mp valid
  rcases s.validateFor_of_valid valid with ⟨hnamed, -⟩ | ⟨field, hasked, hunnamed, -⟩
  swap
  · exact .inl ⟨_, .missing hasked hunnamed⟩
  by_cases hsupports : e.chain.Supports connection
  swap
  · exact .inl ⟨_, .unsupported hnamed hreached hsupports⟩
  rw [make_of_named settings valid hnamed hreached]
  cases hchain : e.chain with
  | substrate =>
    rw [hchain] at hsupports
    obtain rfl : connection = .push := hsupports
    rcases Substrate.mapM_accountOf s.accountIds with ⟨-, accounts, hread⟩ | ⟨before, id, after, hgiven, hgood, hbad⟩
    · refine .inr ⟨.substratePush ⟨s.jobId, accounts, .runlog (.ofNat settings.pallet)⟩, ?_⟩
      simp only [Evm.Flavor.ofChain?, makeOther, Substrate.Watch.ofAccounts, hread]
      rfl
    · exact .inl ⟨_, .account hchain hreached hgiven hgood hbad⟩
  | tezos | ontology =>
    rw [hchain] at hsupports
    obtain rfl : connection = .poll := hsupports
    exact .inr ⟨_, rfl⟩
  | _ => exact .inr (makeEvm_ok _ s e connection)

/-- An adapter cannot be made for a fault of the configuration exactly if the subscription does not fit for it. -/
theorem make_eq_error_iff (settings : SubstrateSettings) {s : Subscription} {e : Endpoint} {fault : ConfigFault}
    (valid : e.validate = .ok ()) : make settings s e = .error (.config fault) ↔ Misfit s e fault := by
  refine ⟨fun herror => ?_, make_of_misfit settings valid⟩
  rcases exists_misfit_or_plan settings s valid with ⟨fault', hmisfit⟩ | ⟨plan, hplan⟩
  · have hsame := herror.symm.trans (make_of_misfit settings valid hmisfit)
    cases hsame
    exact hmisfit
  · exact absurd (herror.symm.trans hplan) nofun

/-! ### After a check -/

/-- **What a check leaves to find.** If a check accepts a snapshot, then for each of its subscriptions the store of the
snapshot has an endpoint of the name that it gives: the last one of that name. An adapter for the two cannot be made
for a fault of the configuration exactly if the subscription does not fit there, and otherwise it can. That the
parameter is missing is left to find only if the name of an endpoint is repeated. -/
theorem accepted_misfit_iff {snap : Snapshot} (accepted : (Command.checked snap).status = 0) :
    ∀ s ∈ snap.subscriptions, ∃ e, (Store.ofSnapshot snap).endpoint? s.endpoint = .ok e ∧
      snap.endpoints.reverse.find? (·.name = s.endpoint) = some e ∧
      (∀ settings fault, make settings s e = .error (.config fault) ↔ Misfit s e fault) ∧
      (∀ settings, (∀ fault, ¬ Misfit s e fault) → ∃ plan, make settings s e = .ok plan) ∧
      ((snap.endpoints.map (·.name)).Nodup → s.Names e.chain) := by
  obtain ⟨hvalid, hchecked⟩ := Snapshot.problems_eq_nil_iff.mp (Command.checked_status.mp accepted)
  intro s hs
  obtain ⟨first, hfirst, hfor⟩ := hchecked s hs
  have hmem : first ∈ snap.endpoints := List.mem_of_find?_eq_some hfirst
  have hname : first.name = s.endpoint := by simpa using List.find?_some hfirst
  obtain ⟨e, hlast⟩ : ∃ e, snap.endpoints.reverse.find? (·.name = s.endpoint) = some e := by
    rw [← Option.isSome_iff_exists, List.find?_isSome]
    exact ⟨first, List.mem_reverse.mpr hmem, by simpa using hname⟩
  have hmem' : e ∈ snap.endpoints := List.mem_reverse.mp (List.mem_of_find?_eq_some hlast)
  have hname' : e.name = s.endpoint := by simpa using List.find?_some hlast
  have hvalid' : e.validate = .ok () := hvalid e hmem'
  refine ⟨e, Store.endpoint?_ofSnapshot_eq_ok_iff.mpr hlast, hlast, fun settings fault => ?_, fun settings hfits => ?_,
    fun hnodup => ?_⟩
  · exact make_eq_error_iff settings hvalid'
  · rcases exists_misfit_or_plan settings s hvalid' with ⟨fault, hmisfit⟩ | hplan
    · exact absurd hmisfit (hfits fault)
    · exact hplan
  · have hsame : first = e := List.inj_on_of_nodup_map hnodup hmem hmem' (hname.trans hname'.symm)
    rw [← hsame]
    exact (Subscription.validateFor_eq_ok_iff.mp hfor).2

/-- A snapshot with a Tezos node that is to push, an account that is too short, and two endpoints of one name. -/
def misfitSnapshot : Snapshot where
  endpoints := [⟨"a", "ws://[::1]:1", .tezos, 5⟩, ⟨"b", "ws://[::1]:2", .substrate, 5⟩,
    ⟨"c", "http://[::1]:3", .ethereum, 5⟩, ⟨"c", "http://[::1]:4", .ontology, 5⟩]
  subscriptions := [⟨"one", "a", ["KT1"], []⟩, ⟨"two", "b", [], ["0x01"]⟩, ⟨"three", "c", [], []⟩]

theorem checked_misfitSnapshot : (Command.checked misfitSnapshot).status = 0 := by
  rw [Command.checked_status]
  rfl

theorem misfit_of_misfitSnapshot : ∀ s ∈ misfitSnapshot.subscriptions, ∀ e,
    misfitSnapshot.endpoints.reverse.find? (·.name = s.endpoint) = some e → ∃ fault, Misfit s e fault := by
  intro s hs e he
  simp only [misfitSnapshot, List.mem_cons, List.not_mem_nil, or_false] at hs
  rcases hs with rfl | rfl | rfl
  · cases he
    have hreached : Endpoint.connection ⟨"a", "ws://[::1]:1", .tezos, 5⟩ = .ok .push := rfl
    have hnamed : ["KT1"] ≠ [] := nofun
    exact ⟨_, .unsupported hnamed hreached nofun⟩
  · cases he
    have hshort : ¬ Substrate.IsAccount "0x01" := by
      rintro ⟨bs, hlength, hspelt⟩
      have hcount := congrArg List.length hspelt
      rw [Hex.length_encode, hlength] at hcount
      revert hcount
      decide
    have hgiven : ["0x01"] = [] ++ "0x01" :: [] := rfl
    exact ⟨_, .account rfl rfl hgiven nofun hshort⟩
  · cases he
    exact ⟨_, .missing rfl fun hnamed => hnamed rfl⟩

theorem accepted_misfit_iff_misfitSnapshot : (Command.checked misfitSnapshot).status = 0 ∧
    ∀ s ∈ misfitSnapshot.subscriptions, ∃ e fault, (Store.ofSnapshot misfitSnapshot).endpoint? s.endpoint = .ok e ∧
      make {} s e = .error (.config fault) := by
  refine ⟨checked_misfitSnapshot, fun s hs => ?_⟩
  obtain ⟨e, hfound, hlast, hmake, -, -⟩ := accepted_misfit_iff checked_misfitSnapshot s hs
  obtain ⟨fault, hmisfit⟩ := misfit_of_misfitSnapshot s hs e hlast
  exact ⟨e, fault, hfound, (hmake {} fault).mpr hmisfit⟩

/-- A check that accepts a snapshot does not find all faults of its configuration. -/
theorem accepted_unservable : ¬ ∀ (snap : Snapshot) (settings : SubstrateSettings), (Command.checked snap).status = 0 →
    ∀ s ∈ snap.subscriptions, ∃ e, (Store.ofSnapshot snap).endpoint? s.endpoint = .ok e ∧
      ∀ fault, make settings s e ≠ .error (.config fault) := by
  intro h
  have hmem : (⟨"one", "a", ["KT1"], []⟩ : Subscription) ∈ misfitSnapshot.subscriptions := List.mem_cons_self
  obtain ⟨e, hfound, hfits⟩ := h misfitSnapshot {} checked_misfitSnapshot _ hmem
  have hlast := Store.endpoint?_ofSnapshot_eq_ok_iff.mp hfound
  obtain ⟨fault, hmisfit⟩ := misfit_of_misfitSnapshot _ hmem e hlast
  obtain ⟨hvalid, -⟩ := Snapshot.problems_eq_nil_iff.mp (Command.checked_status.mp checked_misfitSnapshot)
  have he : e ∈ misfitSnapshot.endpoints := List.mem_reverse.mp (List.mem_of_find?_eq_some hlast)
  exact hfits fault (make_of_misfit {} (hvalid e he) hmisfit)

end Plan
end OracleRelay
