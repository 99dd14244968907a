/-
# Formats written and read again

What is read as a configuration, with fields left out, others among them, in any order or as an array, is written as an
object that is read as the same configuration (`Settings.lawful`, `Snapshot.lawful`). The names, the defaults and the
ranges of the fields are the same on both sides. Nothing in a configuration is a double, so its text is read back as it
was written; and so are requests and responses whose free values hold none (`formats_round_trip`).

Key theorems: `Backoff.lawful`, `DispatchSettings.lawful`, `SocketSettings.lawful`, `SubstrateSettings.lawful`,
`LogSettings.lawful`, `Settings.lawful`, `Endpoint.lawful`, `Subscription.lawful`, `Snapshot.lawful`,
`formats_round_trip`.
-/
import OracleRelay.Config.Settings
import OracleRelay.Config.Store
import OracleRelay.Proofs.Rpc.Messages

namespace OracleRelay

open Json Json.Record

/-! ### Parts of the settings -/

theorem Backoff.lawful : Lawful Backoff.reader Backoff.toJson 1 := by
  refine lawful_record (fun b => [("step", some (.nat b.step)), ("ramp_attempts", some (.nat b.rampAttempts)),
    ("ceiling", some (.nat b.ceiling))]) (by decide) (fun _ _ => rfl) (fun _ => ⟨rfl, rfl⟩) ?_
  intro r b sized read
  simp only [Option.bind_eq_bind, Option.bind_eq_some_iff] at read
  obtain ⟨_, step, _, ramp, _, ceiling, same⟩ := read
  cases same
  refine (keeps_nat (by decide) (by decide) sized step).bind ?_
  refine (keeps_nat (by decide) (by decide) sized ramp).bind ?_
  refine (keeps_nat (by decide) (by decide) sized ceiling).bind ?_
  exact keepsAll_pure _ _

theorem DispatchSettings.lawful : Lawful DispatchSettings.reader DispatchSettings.toJson 1 := by
  refine lawful_record (fun s => [("max_attempts", some (.nat s.maxAttempts)), ("retry_delay", some (.nat s.retryDelay)),
    ("request_timeout", some (.nat s.requestTimeout))]) (by decide) (fun _ _ => rfl) (fun _ => ⟨rfl, rfl⟩) ?_
  intro r s sized read
  simp only [Option.bind_eq_bind, Option.bind_eq_some_iff] at read
  obtain ⟨_, attempts, _, delay, _, timeout, same⟩ := read
  cases same
  refine (keeps_nat (by decide) (by decide) sized attempts).bind ?_
  refine (keeps_nat (by decide) (by decide) sized delay).bind ?_
  refine (keeps_nat (by decide) (by decide) sized timeout).bind ?_
  exact keepsAll_pure _ _

theorem SubstrateSettings.lawful : Lawful SubstrateSettings.reader SubstrateSettings.toJson 1 := by
  refine lawful_record (fun s => [("chainlink_pallet", some (.nat s.pallet))]) (by decide) (fun _ _ => rfl)
    (fun _ => ⟨rfl, rfl⟩) ?_
  intro r s sized read
  simp only [Option.bind_eq_bind, Option.bind_eq_some_iff] at read
  obtain ⟨_, pallet, same⟩ := read
  cases same
  exact (keeps_nat (by decide) (by decide) sized pallet).bind (keepsAll_pure _ _)

theorem SocketSettings.lawful : Lawful SocketSettings.reader SocketSettings.toJson 2 := by
  refine lawful_record (fun s => [("handshake_timeout", some (.nat s.handshakeTimeout)),
    ("ack_timeout", some (.nat s.ackTimeout)), ("backoff", some s.backoff.toJson), ("buffer", some (.nat s.buffer))])
    (by decide) (fun _ _ => rfl) (fun _ => ⟨rfl, rfl⟩) ?_
  intro r s sized read
  simp only [Option.bind_eq_bind, Option.bind_eq_some_iff] at read
  obtain ⟨_, handshake, _, ack, _, backoff, _, buffer, same⟩ := read
  cases same
  refine (keeps_nat (by decide) (by decide) sized handshake).bind ?_
  refine (keeps_nat (by decide) (by decide) sized ack).bind ?_
  refine (keeps_part Backoff.lawful (by decide) rfl sized backoff).bind ?_
  refine (keeps_nat (by decide) (by decide) sized buffer).bind ?_
  exact keepsAll_pure _ _

/-! ### Levels of the log -/

namespace LogSettings

/-- A level as a member of an object. -/
def member (level : String × String) : String × Json := (level.1, .text level.2)

theorem map_putLevel (key level : String) (ls : List (String × String)) :
    (putLevel key level ls).map member = insertMember key (.text level) (ls.map member) := by
  induction ls with
  | nil => rfl
  | cons l ls ih =>
    obtain ⟨k, w⟩ := l
    rw [putLevel, List.map_cons, member, insertMember]
    split_ifs with same less
    · rfl
    · rfl
    · rw [List.map_cons, ih]
      rfl

/-- The levels of some names. -/
def levelsOf (ls : List (String × String)) : List (String × String) := ls.foldl (fun acc (k, l) => putLevel k l acc) []

/-- Levels by name are kept as the members of an object are. -/
theorem map_levelsOf (ls : List (String × String)) : (levelsOf ls).map member = collected (ls.map member) := by
  induction ls using List.reverseRecOn with
  | nil => rfl
  | append_singleton ls l ih =>
    have last : levelsOf (ls ++ [l]) = putLevel l.1 l.2 (levelsOf ls) := by simp [levelsOf]
    rw [last, map_putLevel, ih, List.map_append, List.map_singleton]
    exact (collected_append_singleton _ _ _).symm

/-- Levels that are in the order of their names stay as they are. -/
theorem levelsOf_levelsOf (ls : List (String × String)) : levelsOf (levelsOf ls) = levelsOf ls := by
  have distinct : Function.Injective member := by
    rintro ⟨k, l⟩ ⟨k', l'⟩ same
    cases same
    rfl
  apply List.map_injective_iff.mpr distinct
  calc (levelsOf (levelsOf ls)).map member
    _ = collected ((levelsOf ls).map member) := map_levelsOf (levelsOf ls)
    _ = collected (collected (ls.map member)) := by rw [map_levelsOf]
    _ = collected (ls.map member) := (inKeyOrder_collected _).collected_eq
    _ = (levelsOf ls).map member := (map_levelsOf ls).symm

theorem mapM_level? : ∀ ls : List (String × String), (Tree.ofMembers (ls.map member)).mapM level? = some ls
  | [] => rfl
  | (k, l) :: ls => by
    have first : level? (some k, Tree.ofValue (.text l)) = some (k, l) := rfl
    rw [List.map_cons, member, Tree.ofMembers, List.mapM_cons, first, mapM_level? ls]
    rfl

theorem lawful_levels : Lawful levelsReader (fun ls => .object (ls.map member)) 1 := by
  intro depth t ls _ read
  unfold levelsReader at read
  split at read
  · split_ifs at read
    obtain ⟨given, -, rfl⟩ := Option.map_eq_some_iff.mp read
    constructor
    · intro d le
      rw [Tree.ofValue, levelsReader, if_neg (by omega), mapM_level?]
      exact congrArg some (levelsOf_levelsOf given)
    · refine .object fun m hm => ?_
      obtain ⟨l, -, rfl⟩ := List.mem_map.mp hm
      exact .text
  · cases read

theorem lawful : Lawful reader toJson 2 := by
  refine lawful_record (fun s => [("level", some (.text s.level)), ("components", some (.object (s.components.map member))),
    ("json", some (.bool s.json))]) (by decide) (fun _ _ => rfl) (fun _ => ⟨rfl, rfl⟩) ?_
  intro r s sized read
  simp only [Option.bind_eq_bind, Option.bind_eq_some_iff] at read
  obtain ⟨_, level, _, components, _, json, same⟩ := read
  cases same
  refine (keeps_withDefault (lawful_string 1) ⟨fun _ _ => rfl, .text⟩ sized level).bind ?_
  refine (keeps_part lawful_levels (by decide) rfl sized components).bind ?_
  refine (keeps_withDefault (lawful_bool 1) ⟨fun _ _ => rfl, .bool⟩ sized json).bind ?_
  exact keepsAll_pure _ _

end LogSettings

/-! ### The settings -/

theorem Settings.lawful : Lawful Settings.reader Settings.toJson 3 := by
  refine lawful_record (fun s => [("chainlink_url", some (.text s.nodeUrl)), ("access_key", some (.text s.accessKey)),
    ("secret", some (.text s.secret)), ("dispatch", some s.dispatch.toJson), ("event_buffer", some (.nat s.eventBuffer)),
    ("shutdown_grace", some (.nat s.shutdownGrace)), ("ws", some s.socket.toJson), ("substrate", some s.substrate.toJson),
    ("log", some s.log.toJson)]) (by decide) (fun _ _ => rfl) (fun _ => ⟨rfl, rfl⟩) ?_
  intro r s sized read
  simp only [Option.bind_eq_bind, Option.bind_eq_some_iff] at read
  obtain ⟨_, url, _, key, _, secret, _, dispatch, _, buffer, _, grace, _, socket, _, substrate, _, log, same⟩ := read
  cases same
  refine (keeps_required (lawful_string 2) sized url).bind ?_
  refine (keeps_required (lawful_string 2) sized key).bind ?_
  refine (keeps_required (lawful_string 2) sized secret).bind ?_
  refine (keeps_part DispatchSettings.lawful (by decide) rfl sized dispatch).bind ?_
  refine (keeps_nat (by decide) (by decide) sized buffer).bind ?_
  refine (keeps_nat (by decide) (by decide) sized grace).bind ?_
  refine (keeps_part SocketSettings.lawful (by decide) rfl sized socket).bind ?_
  refine (keeps_part SubstrateSettings.lawful (by decide) rfl sized substrate).bind ?_
  refine (keeps_part LogSettings.lawful (by decide) rfl sized log).bind ?_
  exact keepsAll_pure _ _

/-! ### Endpoints and subscriptions -/

theorem Chain.lookup_tag (c : Chain) : Chain.tags.lookup c.tag = some c := by
  cases c <;> rfl

theorem Endpoint.lawful : Lawful Endpoint.reader Endpoint.toJson 1 := by
  refine lawful_record (fun e => [("name", some (.text e.name)), ("url", some (.text e.url)),
    ("type", some (.text e.chain.tag)), ("refreshInterval", some (.nat e.refreshInterval))]) (by decide)
    (fun _ _ => rfl) (fun _ => ⟨rfl, rfl⟩) ?_
  intro r e sized read
  simp only [Option.bind_eq_bind, Option.bind_eq_some_iff] at read
  obtain ⟨_, name, _, url, _, chain, _, interval, same⟩ := read
  cases same
  refine (keeps_required (lawful_string 0) sized name).bind ?_
  refine (keeps_required (lawful_string 0) sized url).bind ?_
  refine (keeps_required (lawful_tag Chain.lookup_tag 0) sized chain).bind ?_
  refine (keeps_nat (by decide) (by decide) sized interval).bind ?_
  exact keepsAll_pure _ _

theorem Subscription.lawful : Lawful Subscription.reader Subscription.toJson 2 := by
  refine lawful_record (fun s => [("jobId", some (.text s.jobId)), ("endpoint", some (.text s.endpoint)),
    ("addresses", some (Json.texts s.addresses)), ("accountIds", some (Json.texts s.accountIds))]) (by decide)
    (fun _ _ => rfl) (fun _ => ⟨rfl, rfl⟩) ?_
  intro r s sized read
  simp only [Option.bind_eq_bind, Option.bind_eq_some_iff] at read
  obtain ⟨_, job, _, endpoint, _, addresses, _, accounts, same⟩ := read
  cases same
  refine (keeps_required (lawful_string 1) sized job).bind ?_
  refine (keeps_required (lawful_string 1) sized endpoint).bind ?_
  refine (keeps_list (lawful_string 0) (by decide) sized addresses).bind ?_
  refine (keeps_list (lawful_string 0) (by decide) sized accounts).bind ?_
  exact keepsAll_pure _ _

theorem Snapshot.lawful : Lawful Snapshot.reader Snapshot.toJson 4 := by
  refine lawful_record (fun s => [("endpoints", some (.array (s.endpoints.map (·.toJson)))),
    ("subscriptions", some (.array (s.subscriptions.map (·.toJson))))]) (by decide) (fun _ _ => rfl)
    (fun _ => ⟨rfl, rfl⟩) ?_
  intro r s sized read
  simp only [Option.bind_eq_bind, Option.bind_eq_some_iff] at read
  obtain ⟨_, endpoints, _, subscriptions, same⟩ := read
  cases same
  refine (keeps_list Endpoint.lawful (by decide) sized endpoints).bind ?_
  refine (keeps_list Subscription.lawful (by decide) sized subscriptions).bind ?_
  exact keepsAll_pure _ _

/-! ### Texts that are read again -/

theorem Backoff.whole (b : Backoff) : b.toJson.Numbers Number.Whole := by simp [Backoff.toJson]

theorem DispatchSettings.whole (s : DispatchSettings) : s.toJson.Numbers Number.Whole := by simp [DispatchSettings.toJson]

theorem SubstrateSettings.whole (s : SubstrateSettings) : s.toJson.Numbers Number.Whole := by
  simp [SubstrateSettings.toJson]

theorem SocketSettings.whole (s : SocketSettings) : s.toJson.Numbers Number.Whole := by
  simp [SocketSettings.toJson, Backoff.whole]

theorem LogSettings.whole (s : LogSettings) : s.toJson.Numbers Number.Whole := by
  have levels : (Json.object (s.components.map LogSettings.member)).Numbers Number.Whole := by
    refine .object fun m hm => ?_
    obtain ⟨l, -, rfl⟩ := List.mem_map.mp hm
    exact .text
  refine .object ?_
  simp only [List.forall_mem_cons]
  exact ⟨.text, levels, .bool, nofun⟩

theorem Settings.whole (s : Settings) : s.toJson.Numbers Number.Whole := by
  simp [Settings.toJson, DispatchSettings.whole, SocketSettings.whole, SubstrateSettings.whole, LogSettings.whole]

theorem Endpoint.whole (e : Endpoint) : e.toJson.Numbers Number.Whole := by simp [Endpoint.toJson]

theorem Subscription.whole (s : Subscription) : s.toJson.Numbers Number.Whole := by simp [Subscription.toJson, Json.texts]

theorem Snapshot.whole (s : Snapshot) : s.toJson.Numbers Number.Whole := by
  simp [Snapshot.toJson, Endpoint.whole, Subscription.whole]

/-- **Every format round-trips**: each kind of configuration, and requests and responses whose free values hold no
doubles. -/
theorem formats_round_trip :
    RoundTrips Snapshot.reader Snapshot.toJson (fun _ => True) ∧
    RoundTrips Subscription.reader Subscription.toJson (fun _ => True) ∧
    RoundTrips Endpoint.reader Endpoint.toJson (fun _ => True) ∧
    RoundTrips Settings.reader Settings.toJson (fun _ => True) ∧
    RoundTrips DispatchSettings.reader DispatchSettings.toJson (fun _ => True) ∧
    RoundTrips SocketSettings.reader SocketSettings.toJson (fun _ => True) ∧
    RoundTrips Backoff.reader Backoff.toJson (fun _ => True) ∧
    RoundTrips LogSettings.reader LogSettings.toJson (fun _ => True) ∧
    RoundTrips SubstrateSettings.reader SubstrateSettings.toJson (fun _ => True) ∧
    RoundTrips Rpc.Request.reader Rpc.Request.toJson Rpc.Request.Whole ∧
    RoundTrips Rpc.Response.reader Rpc.Response.toJson Rpc.Response.Whole := by
  refine ⟨?_, ?_, ?_, ?_, ?_, ?_, ?_, ?_, ?_, ?_, ?_⟩
  · exact Snapshot.lawful.roundTrips (by decide) fun x _ => x.whole
  · exact Subscription.lawful.roundTrips (by decide) fun x _ => x.whole
  · exact Endpoint.lawful.roundTrips (by decide) fun x _ => x.whole
  · exact Settings.lawful.roundTrips (by decide) fun x _ => x.whole
  · exact DispatchSettings.lawful.roundTrips (by decide) fun x _ => x.whole
  · exact SocketSettings.lawful.roundTrips (by decide) fun x _ => x.whole
  · exact Backoff.lawful.roundTrips (by decide) fun x _ => x.whole
  · exact LogSettings.lawful.roundTrips (by decide) fun x _ => x.whole
  · exact SubstrateSettings.lawful.roundTrips (by decide) fun x _ => x.whole
  · exact Rpc.Request.lawful.roundTrips (by decide) fun x free => Rpc.Request.whole_toJson free
  · exact Rpc.Response.lawful.roundTrips (by decide) fun x free => Rpc.Response.whole_toJson free

/-- Settings of which only what must be there is given, behind a field that is unknown. -/
def bareSettings : Json :=
  .object [("later", .array [.null]), ("secret", .text "s"), ("access_key", .text "k"), ("chainlink_url", .text "u")]

/-- A snapshot given by position, with one endpoint that is given so too and the name of its chain around nothing. -/
def listedSnapshot : Json := .array [.array [.array [.text "n", .text "ws://h", .object [("eth", .null)]]]]

/-- A response with an error that is none. -/
def voidResponse : Json := .object [("id", .nat 7), ("error", .null), ("jsonrpc", .text "2.0"), ("result", .array [.nat 1])]

theorem formats_round_trip_defaults :
    (∃ s, readText? Settings.reader bareSettings.render = some s ∧
      readText? Settings.reader s.toJson.render = some s ∧ s.socket.buffer = 64) ∧
    (∃ s, readText? Snapshot.reader listedSnapshot.render = some s ∧
      readText? Snapshot.reader s.toJson.render = some s ∧ s.endpoints = [⟨"n", "ws://h", .ethereum, 5⟩]) ∧
    ∃ r, readText? Rpc.Response.reader voidResponse.render = some r ∧
      readText? Rpc.Response.reader r.toJson.render = some r ∧ r.error.isNone := by
  obtain ⟨snapshot, -, -, settings, -, -, -, -, -, -, response⟩ := formats_round_trip
  have one : Number.Exact (.int 1) := ⟨⟨by decide, by decide⟩, trivial⟩
  have seven : Number.Exact (.int 7) := ⟨⟨by decide, by decide⟩, trivial⟩
  have bare : readText? Settings.reader bareSettings.render = some ⟨"u", "k", "s", {}, 64, 5, {}, {}, {}⟩ := by
    rw [Tree.readText?_render _ (by simp [bareSettings])]
    rfl
  have listed : readText? Snapshot.reader listedSnapshot.render = some ⟨[⟨"n", "ws://h", .ethereum, 5⟩], []⟩ := by
    rw [Tree.readText?_render _ (by simp [listedSnapshot])]
    rfl
  have void : readText? Rpc.Response.reader voidResponse.render =
      some ⟨"2.0", .number 7, some (.array [.nat 1]), none⟩ := by
    rw [Tree.readText?_render _ (by simp [voidResponse, nat, one, seven])]
    rfl
  have whole : Rpc.Response.Whole ⟨"2.0", .number 7, some (.array [.nat 1]), none⟩ := by simp [Rpc.Response.Whole]
  exact ⟨⟨_, bare, (settings _ _ bare trivial).1, rfl⟩, ⟨_, listed, (snapshot _ _ listed trivial).1, rfl⟩,
    ⟨_, void, (response _ _ void whole).1, rfl⟩⟩

end OracleRelay
