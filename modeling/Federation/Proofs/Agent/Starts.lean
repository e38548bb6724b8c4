import Federation.Agent
import Federation.Proofs.Store.Gardens
import Federation.Proofs.Users.Push

/-!
# Gardens that start again

One store may serve many starts, each with a configuration of its own, and keeps the gardens of all
of them. After each start no remote garden in it has the name of the garden that was started, or no
name at all, and the garden knows exactly the remote ones. So a push never comes back to the garden
that makes it.
-/

namespace Federation

-- ---------------------------------------------------------------------------
-- Configurations
-- ---------------------------------------------------------------------------

structure RemoteGardenSettings.Proper (own : String) (remote : RemoteGardenSettings) : Prop where
  named : remote.name ≠ ""
  other : remote.name ≠ own
  isRemote : remote.toGarden.isRemote = true

namespace RemoteGardenSettings

theorem proper_of_validate {remote : RemoteGardenSettings}
    (h : remote.validate own before = .ok ()) : remote.Proper own := by
  unfold validate at h
  split at h
  · cases h
  case isFalse accepted =>
    rw [not_or] at accepted
    split at h
    · cases h
    · split at h
      · cases h
      case isFalse kind =>
        refine ⟨fun unnamed => accepted.1 ?_, accepted.2, ?_⟩
        · rw [unnamed]
          decide
        · unfold toGarden Garden.isRemote
          cases hkind : remote.connectionType with
          | own => exact absurd hkind kind
          | stomp => rfl
          | http => rfl

theorem proper_of_validateAll {remotes : List RemoteGardenSettings}
    (h : validateAll own before remotes = .ok ()) : ∀ remote ∈ remotes, remote.Proper own := by
  induction remotes generalizing before with
  | nil => simp
  | cons remote rest ih =>
    obtain ⟨_, first, others⟩ := bind_ok h
    exact List.forall_mem_cons.mpr ⟨proper_of_validate first, ih others⟩

end RemoteGardenSettings

theorem GardenConfig.proper_of_validate {config : GardenConfig} (h : config.validate = .ok ()) :
    ∀ remote ∈ config.remoteGardens, remote.Proper config.garden.name := by
  unfold validate at h
  cases hblank : Text.isBlankText config.garden.name
  case true =>
    simp only [hblank, if_true] at h
    cases h
  case false =>
    simp only [hblank, Bool.false_eq_true, if_false] at h
    obtain ⟨_, -, h⟩ := bind_ok h
    obtain ⟨_, -, h⟩ := bind_ok h
    obtain ⟨_, -, h⟩ := bind_ok h
    obtain ⟨_, remotes, -⟩ := bind_ok h
    exact RemoteGardenSettings.proper_of_validateAll remotes

-- ---------------------------------------------------------------------------
-- The gardens that a start leaves
-- ---------------------------------------------------------------------------

namespace GardenConfig

structure Named (gardens : List Garden) : Prop where
  unique : (gardens.map Garden.name).Nodup
  named : ∀ garden ∈ gardens, garden.isRemote = true → garden.name ≠ ""

theorem Named.upsert {garden : Garden} (h : Named gardens)
    (named : garden.isRemote = true → garden.name ≠ "") :
    Named (upsertBy Garden.name garden gardens) where
  unique := nodup_upsertBy h.unique
  named other hmem := by
    rcases mem_upsertBy hmem with rfl | hmem
    · exact named
    · exact h.named other hmem

def withRemotes (remotes : List RemoteGardenSettings) (gardens : List Garden) : List Garden :=
  remotes.foldl (fun gardens remote => upsertBy Garden.name remote.toGarden gardens) gardens

def seeded (config : GardenConfig) (gardens : List Garden) : List Garden :=
  withRemotes config.remoteGardens (upsertBy Garden.name config.localGarden gardens)

section

variable {own : String} {remotes : List RemoteGardenSettings} {gardens : List Garden}
variable (proper : ∀ remote ∈ remotes, remote.Proper own)

include proper

theorem named_withRemotes (h : Named gardens) : Named (withRemotes remotes gardens) := by
  induction remotes generalizing gardens with
  | nil => exact h
  | cons remote rest ih =>
    obtain ⟨first, others⟩ := List.forall_mem_cons.mp proper
    exact ih others (h.upsert fun _ => first.named)

theorem find?_withRemotes :
    (withRemotes remotes gardens).find? (fun garden => garden.name = own) =
      gardens.find? fun garden => garden.name = own := by
  induction remotes generalizing gardens with
  | nil => rfl
  | cons remote rest ih =>
    obtain ⟨first, others⟩ := List.forall_mem_cons.mp proper
    have other : own ≠ remote.toGarden.name := fun same => first.other same.symm
    exact (ih others).trans (find?_upsertBy_of_ne other)

theorem exists_withRemotes_of_mem
    (h : ∃ garden ∈ gardens, garden.isRemote = true ∧ garden.name = name) :
    ∃ garden ∈ withRemotes remotes gardens, garden.isRemote = true ∧ garden.name = name := by
  induction remotes generalizing gardens with
  | nil => exact h
  | cons remote rest ih =>
    obtain ⟨first, others⟩ := List.forall_mem_cons.mp proper
    refine ih others ?_
    obtain ⟨garden, hmem, isRemote, same⟩ := h
    by_cases replaced : garden.name = remote.toGarden.name
    · exact ⟨_, mem_upsertBy_self, first.isRemote, replaced.symm.trans same⟩
    · exact ⟨garden, mem_upsertBy_of_ne hmem replaced, isRemote, same⟩

theorem exists_withRemotes (h : remote ∈ remotes) :
    ∃ garden ∈ withRemotes remotes gardens,
      garden.isRemote = true ∧ garden.name = remote.name := by
  induction remotes generalizing gardens with
  | nil => cases h
  | cons first rest ih =>
    obtain ⟨isProper, others⟩ := List.forall_mem_cons.mp proper
    rcases List.mem_cons.mp h with rfl | h
    · exact exists_withRemotes_of_mem others ⟨_, mem_upsertBy_self, isProper.isRemote, rfl⟩
    · exact ih others h

end

section

variable {config : GardenConfig} {gardens : List Garden}
variable (valid : config.validate = .ok ())

include valid

theorem named_seeded (h : Named gardens) : Named (config.seeded gardens) :=
  named_withRemotes (proper_of_validate valid) (h.upsert fun isRemote => Bool.noConfusion isRemote)

theorem name_ne_of_mem_seeded (h : Named gardens) {garden : Garden}
    (hmem : garden ∈ config.seeded gardens) (isRemote : garden.isRemote = true) :
    garden.name ≠ config.garden.name := by
  intro same
  have proper := proper_of_validate valid
  have found := find?_key (named_seeded valid h).unique hmem
  have own : (config.seeded gardens).find? (fun garden => garden.name = config.garden.name) =
      (upsertBy Garden.name config.localGarden gardens).find? fun garden =>
        garden.name = config.garden.name :=
    find?_withRemotes proper
  have here : config.garden.name = config.localGarden.name := rfl
  rw [same, own, here, find?_upsertBy_self] at found
  cases found
  cases isRemote

theorem name_ne_of_mem_remotesOf (h : Named gardens) {garden : Garden}
    (hmem : garden ∈ Store.remotesOf (config.seeded gardens)) :
    garden.name ≠ config.garden.name ∧ garden.name ≠ "" := by
  obtain ⟨row, hrow, isRemote, same⟩ := Store.mem_names_remotesOf.mp (List.mem_map_of_mem hmem)
  rw [← same]
  exact ⟨name_ne_of_mem_seeded valid h hrow isRemote,
    (named_seeded valid h).named row hrow isRemote⟩

end

end GardenConfig

-- ---------------------------------------------------------------------------
-- The gardens that a garden knows
-- ---------------------------------------------------------------------------

namespace Registry

def leadsTo (registry : Registry) (name : String) : Bool :=
  (registry.get? name).any fun entry => entry.link.isSome

def known (registry : Registry) (stored : List Garden) : Registry :=
  stored.foldl (fun registry garden =>
    if registry.contains garden.name then registry else registry.register garden none) registry

theorem get?_register (registry : Registry) (garden : Garden) (link : Option Link) (name : String) :
    (registry.register garden link).get? name =
      if name = garden.name then some ⟨garden, link⟩ else registry.get? name :=
  lookup_insertMember registry garden.name name _

theorem mem_names {registry : Registry} :
    name ∈ registry.names ↔ registry.contains name = true := by
  rw [names, contains, get?, List.lookup_isSome_iff, List.mem_map]
  simp only [beq_iff_eq, @eq_comm _ name]

theorem contains_known {registry : Registry} {stored : List Garden} :
    (registry.known stored).contains name = true ↔
      registry.contains name = true ∨ ∃ garden ∈ stored, garden.name = name := by
  induction stored generalizing registry with
  | nil => simp [known]
  | cons garden rest ih =>
    rw [known, List.foldl_cons, ← known, ih]
    simp only [List.mem_cons, exists_eq_or_imp, ← or_assoc]
    refine or_congr_left ?_
    cases hknown : registry.contains garden.name with
    | true =>
      rw [if_pos rfl]
      exact ⟨.inl, fun h => h.elim id fun same => same ▸ hknown⟩
    | false =>
      rw [if_neg Bool.false_ne_true, contains, get?_register]
      split
      case isTrue same => simp [same]
      case isFalse other => simp [contains, Ne.symm other]

theorem leadsTo_known (registry : Registry) (stored : List Garden) (name : String) :
    (registry.known stored).leadsTo name = registry.leadsTo name := by
  induction stored generalizing registry with
  | nil => rfl
  | cons garden rest ih =>
    rw [known, List.foldl_cons, ← known, ih]
    cases hknown : registry.contains garden.name with
    | true => rw [if_pos rfl]
    | false =>
      rw [if_neg Bool.false_ne_true, leadsTo, leadsTo, get?_register]
      split
      case isTrue same =>
        have absent : registry.get? name = none := by simpa [contains, same] using hknown
        rw [absent]
        rfl
      case isFalse other => rfl

theorem inOrder_known {registry : Registry} (h : InOrder registry) (stored : List Garden) :
    InOrder (registry.known stored) := by
  induction stored generalizing registry with
  | nil => exact h
  | cons garden rest ih =>
    rw [known, List.foldl_cons, ← known]
    refine ih ?_
    split
    · exact h
    · exact h.insertMember garden.name _

end Registry

namespace GardenConfig

section

variable (config : GardenConfig) (link : RemotePath → Link)

def registered (remotes : List RemoteGardenSettings) (registry : Registry) : Registry :=
  remotes.foldl (fun registry remote =>
    registry.register remote.toGarden (some (link (config.remotePath remote)))) registry

theorem any_get?_registered {p : RegistryEntry → Bool}
    (hp : ∀ garden link, p ⟨garden, some link⟩ = true) {remotes : List RemoteGardenSettings}
    {registry : Registry} :
    ((config.registered link remotes registry).get? name).any p = true ↔
      (registry.get? name).any p = true ∨ ∃ remote ∈ remotes, remote.name = name := by
  induction remotes generalizing registry with
  | nil => simp [registered]
  | cons remote rest ih =>
    rw [registered, List.foldl_cons, ← registered, ih, Registry.get?_register]
    simp only [List.mem_cons, exists_eq_or_imp, ← or_assoc]
    refine or_congr_left ?_
    have key : remote.toGarden.name = remote.name := rfl
    rw [key]
    split
    case isTrue same => simp [hp, same]
    case isFalse other => simp [Ne.symm other]

theorem inOrder_registered {registry : Registry} (h : InOrder registry)
    (remotes : List RemoteGardenSettings) :
    InOrder (config.registered link remotes registry) := by
  induction remotes generalizing registry with
  | nil => exact h
  | cons remote rest ih => exact ih (h.insertMember _ _)

def LinksBy (link : RemotePath → Link) (registry : Registry) : Prop :=
  ∀ name entry found, registry.get? name = some entry → entry.link = some found →
    ∃ path, found = link path

variable {link} in
theorem LinksBy.register {registry : Registry} (h : LinksBy link registry) {garden : Garden}
    {link? : Option Link} (hlink : ∀ found, link? = some found → ∃ path, found = link path) :
    LinksBy link (registry.register garden link?) := by
  intro name entry found hentry hfound
  rw [Registry.get?_register] at hentry
  split at hentry
  · cases hentry
    exact hlink found hfound
  · exact h name entry found hentry hfound

/-- The registry after a start: the configured gardens with their links, then the stored ones. -/
def registryOver (stored : List Garden) : Registry :=
  (config.registered link config.remoteGardens []).known stored

theorem linksBy_registryOver (stored : List Garden) :
    LinksBy link (config.registryOver link stored) := by
  have registered (remotes : List RemoteGardenSettings) {registry : Registry}
      (h : LinksBy link registry) : LinksBy link (config.registered link remotes registry) := by
    induction remotes generalizing registry with
    | nil => exact h
    | cons remote rest ih =>
      refine ih (h.register fun found same => ?_)
      cases same
      exact ⟨_, rfl⟩
  have known {registry : Registry} (h : LinksBy link registry) :
      LinksBy link (registry.known stored) := by
    induction stored generalizing registry with
    | nil => exact h
    | cons garden rest ih =>
      rw [Registry.known, List.foldl_cons, ← Registry.known]
      refine ih ?_
      split
      · exact h
      · exact h.register fun _ same => nomatch same
  exact known (registered _ fun _ _ _ none => nomatch none)

theorem leadsTo_registryOver (stored : List Garden) :
    (config.registryOver link stored).leadsTo name = true ↔
      ∃ remote ∈ config.remoteGardens, remote.name = name := by
  rw [registryOver, Registry.leadsTo_known, Registry.leadsTo,
    any_get?_registered config link fun _ _ => rfl]
  simp [Registry.get?]

theorem names_registryOver {config : GardenConfig} {gardens : List Garden}
    (unique : (gardens.map Garden.name).Nodup)
    (holds : ∀ remote ∈ config.remoteGardens,
      ∃ garden ∈ gardens, garden.isRemote = true ∧ garden.name = remote.name) :
    (config.registryOver link (Store.remotesOf gardens)).names =
      (Store.remotesOf gardens).map Garden.name := by
  have order : InOrder (config.registryOver link (Store.remotesOf gardens)) :=
    Registry.inOrder_known (inOrder_registered config link inOrder_nil _) _
  have mem (name : String) : name ∈ (config.registryOver link (Store.remotesOf gardens)).names ↔
      name ∈ (Store.remotesOf gardens).map Garden.name := by
    have configured : (config.registered link config.remoteGardens []).contains name = true ↔
        ∃ remote ∈ config.remoteGardens, remote.name = name := by
      have entries : (Registry.get? _ name).any (fun _ => true) = true ↔
          (Registry.get? [] name).any (fun _ => true) = true ∨
            ∃ remote ∈ config.remoteGardens, remote.name = name :=
        any_get?_registered config link fun _ _ => rfl
      simpa [Registry.contains, Registry.get?] using entries
    rw [Registry.mem_names, registryOver, Registry.contains_known, configured, List.mem_map]
    refine or_iff_right_of_imp ?_
    rintro ⟨remote, hmem, rfl⟩
    exact List.mem_map.mp (Store.mem_names_remotesOf.mpr (holds remote hmem))
  have ascending : (config.registryOver link (Store.remotesOf gardens)).names.Pairwise (· ≤ ·) :=
    order.imp fun less => String.not_lt.mp (String.lt_asymm less)
  have nodup : (config.registryOver link (Store.remotesOf gardens)).names.Nodup :=
    order.imp String.ne_of_lt
  have perm := (List.perm_ext_iff_of_nodup nodup (Store.nodup_names_remotesOf unique)).mpr mem
  exact perm.eq_of_pairwise (fun _ _ _ _ => String.le_antisymm) ascending
    (Store.pairwise_names_remotesOf gardens)

end

-- ---------------------------------------------------------------------------
-- Starting
-- ---------------------------------------------------------------------------

section

variable {node : Node} {gardens : List Garden}

theorem run_putRemotes (h : node.store.KeepsGardens gardens) (remotes : List RemoteGardenSettings) :
    ∃ store, (remotes.forM fun remote => Action.change (·.putGarden remote.toGarden)).run node =
        (.ok (), { node with store }) ∧ store.KeepsGardens (withRemotes remotes gardens) := by
  induction remotes generalizing node gardens with
  | nil => exact ⟨node.store, rfl, h⟩
  | cons remote rest ih =>
    obtain ⟨middle, put, kept⟩ := h.putGarden remote.toGarden
    obtain ⟨store, others, keptAll⟩ := @ih { node with store := middle } _ kept
    refine ⟨store, ?_, keptAll⟩
    rw [List.forM_eq_forM] at others ⊢
    rw [List.forM_cons, Action.run_bind, Action.run_change, put]
    exact others

theorem run_start {config : GardenConfig} (valid : config.validate = .ok ())
    (h : node.store.KeepsGardens gardens) (link : RemotePath → Link) :
    ∃ store, (config.start link).run node = (.ok (), {
        node with
        store
        name := config.garden.name
        handlers := .userSync :: Jobs.kinds
        registry := config.registryOver link (Store.remotesOf (config.seeded gardens)) }) ∧
      store.KeepsGardens (config.seeded gardens) := by
  obtain ⟨own, put, keptOwn⟩ := h.putGarden config.localGarden
  obtain ⟨store, putAll, kept⟩ :=
    @run_putRemotes { node with store := own } _ keptOwn config.remoteGardens
  refine ⟨store, ?_, kept⟩
  rw [start, valid]
  simp only [Action.run_bind, Action.run_change, put, seedRegistry, putAll, Action.run_query]
  rw [kept.remoteGardens]
  rfl

end

end GardenConfig

namespace Agent

/-- The agent of a new process, on a store that was there before. -/
def onStore (agent : Agent) (store : Store) : Agent :=
  { agent with node := { agent.node with store } }

def startAll (store : Store) (agents : List Agent) : Store :=
  agents.foldl (fun store agent => (agent.onStore store).start.2.node.store) store

open GardenConfig (Named seeded)

theorem start_of_valid {agent : Agent} {gardens : List Garden} (unstarted : agent.connection = none)
    (valid : agent.config.validate = .ok ()) (h : agent.node.store.KeepsGardens gardens) :
    let connection := Connection.ofSettings agent.config.garden.name agent.config.transport
    let link := fun path : RemotePath => path.link connection fun _ _ _ => .lost
    ∃ after, agent.start = (.ok agent.config.garden.name, after) ∧
      after.node.name = agent.config.garden.name ∧
      after.node.registry =
        agent.config.registryOver link (Store.remotesOf (agent.config.seeded gardens)) ∧
      after.node.store.KeepsGardens (agent.config.seeded gardens) := by
  intro connection link
  obtain ⟨store, ran, kept⟩ := GardenConfig.run_start valid h link
  have started : agent.start = (.ok agent.config.garden.name, { agent with
      node := ((agent.config.start link).run agent.node).2, connection := some connection }) := by
    rw [start, unstarted]
    simp only [Option.isSome_none, Bool.false_eq_true, if_false]
    rw [ran]
  rw [ran] at started
  exact ⟨_, started, rfl, rfl, kept⟩

theorem start_of_invalid {agent : Agent} {failure : Failure}
    (invalid : agent.config.validate = .error failure) :
    agent.start.2.node = agent.node := by
  rw [start]
  split
  · rfl
  · simp only [GardenConfig.start, invalid]
    rfl

theorem named_startAll {store : Store} {gardens : List Garden} (h : store.KeepsGardens gardens)
    (named : Named gardens) (agents : List Agent) :
    ∃ gardens, (startAll store agents).KeepsGardens gardens ∧ Named gardens := by
  induction agents generalizing store gardens with
  | nil => exact ⟨gardens, h, named⟩
  | cons agent rest ih =>
    have next : ∃ gardens, (agent.onStore store).start.2.node.store.KeepsGardens gardens ∧
        Named gardens := by
      cases valid : agent.config.validate with
      | error failure =>
        rw [@start_of_invalid (agent.onStore store) _ valid]
        exact ⟨gardens, h, named⟩
      | ok _ =>
        cases started : agent.connection with
        | some connection =>
          refine ⟨gardens, ?_, named⟩
          have refused : (agent.onStore store).start.2 = agent.onStore store := by
            rw [start, onStore, started]
            rfl
          rw [refused]
          exact h
        | none =>
          obtain ⟨after, ran, -, -, kept⟩ :=
            @start_of_valid (agent.onStore store) _ started valid h
          rw [ran]
          exact ⟨_, kept, GardenConfig.named_seeded valid named⟩
    obtain ⟨gardens, kept, named⟩ := next
    exact ih kept named

-- ---------------------------------------------------------------------------
-- Pushing
-- ---------------------------------------------------------------------------

/-- The garden at any time after its start: users come and go, and links go up and down. -/
structure Serves (agent : Agent) (node : Node) : Prop where
  name : node.name = agent.node.name
  remoteGardens : node.store.remoteGardens = agent.node.store.remoteGardens
  names : node.registry.names = agent.node.registry.names
  leadsTo : ∀ name, node.registry.leadsTo name = agent.node.registry.leadsTo name
  paths : ∀ name entry link, node.registry.get? name = some entry → entry.link = some link →
    ∃ path connection ending, link = RemotePath.link path connection ending

/-- An attempt to send to a known remote garden is published or finds that the garden cannot be
reached, and is neither handled here nor refused. -/
theorem run_attempt {node : Node} {garden : Garden}
    (paths : ∀ name entry link, node.registry.get? name = some entry → entry.link = some link →
      ∃ path connection ending, link = RemotePath.link path connection ending)
    (known : garden.name ∈ node.registry.names) (hn : garden.name ≠ "")
    (ho : garden.name ≠ node.name) (handle : OperationKind → Operation → Action Response)
    (users : List User) :
    ∃ answer after, (Action.routeBy handle (Users.syncOperation users garden)).run node =
        (answer, after) ∧
      (answer = .ok .ack ∨ ∃ failure, answer = .error failure ∧
        failure.kind = .remoteUnreachable) := by
  have kind := Users.syncOperation_kind? users garden
  have target := Users.syncOperation_target? users hn
  have isKnown : (node.registry.get? garden.name).isSome = true := Registry.mem_names.mp known
  obtain ⟨entry, hentry⟩ := Option.isSome_iff_exists.mp isKnown
  rw [Action.run_routeBy]
  cases hlink : Registry.liveLink? entry with
  | none =>
    rw [Node.decide_unconnected kind target ho hentry hlink]
    exact ⟨_, _, rfl, .inr ⟨_, rfl, rfl⟩⟩
  | some link =>
    obtain ⟨path, connection, ending, rfl⟩ :=
      paths _ _ _ hentry (Option.filter_eq_some_iff.mp hlink).1
    have decided : node.decide (Users.syncOperation users garden) =
        .ok (.publish garden.name (path.link connection ending)
          (Users.syncOperation users garden)) := by
      rw [Node.decide_away kind target ho hentry hlink, Users.syncOperation_withoutWaitTimeout]
      rfl
    rw [decided]
    simp only [Action.run_bind, Action.run_get, Action.publish, Action.run_emit, RemotePath.link]
    cases hsent : path.publish connection (Users.syncOperation users garden) with
    | ok _ => exact ⟨_, _, rfl, .inl rfl⟩
    | error failure =>
      refine ⟨_, _, rfl, .inr ⟨failure, rfl, ?_⟩⟩
      rw [RemotePath.publish] at hsent
      cases hwritten : connection.send path.destination
          ⟨path.publishHeaders, (Users.syncOperation users garden).encode⟩ with
      | ok _ => simp [hwritten] at hsent
      | error cause =>
        rw [hwritten] at hsent
        cases hsent
        rfl

/-- After each start, whatever was started before it, the store lists no remote garden with the name
of the garden or without one, and the garden knows just these, with links to just those it is
configured with. So a push handles nothing here and makes one attempt for each of them. -/
theorem start_never_pushes_to_itself (earlier : List Agent) (agent : Agent)
    (unstarted : agent.connection = none) (valid : agent.config.validate = .ok ()) :
    ∃ after gardens,
      (agent.onStore (startAll {} earlier)).start = (.ok agent.config.garden.name, after) ∧
      after.node.store.remoteGardens = .ok gardens ∧
      (∀ garden ∈ gardens, garden.name ≠ agent.config.garden.name ∧ garden.name ≠ "") ∧
      (gardens.map Garden.name).Nodup ∧
      after.node.registry.names = gardens.map Garden.name ∧
      (∀ name, after.node.registry.leadsTo name = true ↔
        ∃ remote ∈ agent.config.remoteGardens, remote.name = name) ∧
      after.Serves after.node ∧ ∀ node, after.Serves node → ∀ handle,
        ((Users.push (Action.routeBy handle)).run node = match node.store.users with
          | .ok users => (.ok (), gardens.foldl (Node.attempted users) node)
          | .error e => (.error (.ofStore e), node)) ∧
        ∀ users, ∀ garden ∈ gardens, ∃ answer after,
          (Action.routeBy handle (Users.syncOperation users garden)).run node = (answer, after) ∧
            (answer = .ok .ack ∨ ∃ failure, answer = .error failure ∧
              failure.kind = .remoteUnreachable) := by
  have empty : Store.KeepsGardens {} [] := ⟨rfl, rfl⟩
  obtain ⟨gardens, kept, named⟩ := named_startAll empty ⟨List.nodup_nil, by simp⟩ earlier
  obtain ⟨after, ran, name, registry, stored⟩ :=
    @start_of_valid (agent.onStore (startAll {} earlier)) _ unstarted valid kept
  have proper := GardenConfig.proper_of_validate valid
  have unique := (GardenConfig.named_seeded valid named).unique
  have own {garden : Garden} (hmem : garden ∈ Store.remotesOf (agent.config.seeded gardens)) :=
    GardenConfig.name_ne_of_mem_remotesOf valid named hmem
  have names : after.node.registry.names =
      (Store.remotesOf (agent.config.seeded gardens)).map Garden.name := by
    rw [registry]
    exact GardenConfig.names_registryOver _ unique fun remote hmem =>
      GardenConfig.exists_withRemotes proper hmem
  refine ⟨after, _, ran, stored.remoteGardens, fun _ => own, Store.nodup_names_remotesOf unique,
    names, fun name => ?_, ⟨rfl, rfl, rfl, fun _ => rfl, ?_⟩,
    fun node serves handle => ⟨?_, fun users garden hmem => ?_⟩⟩
  · rw [registry]
    exact GardenConfig.leadsTo_registryOver agent.config _ _
  · intro other entry found hentry hfound
    rw [registry] at hentry
    obtain ⟨path, rfl⟩ :=
      GardenConfig.linksBy_registryOver agent.config _ _ other entry found hentry hfound
    exact ⟨path, _, _, rfl⟩
  · have remotes := serves.remoteGardens.trans stored.remoteGardens
    refine Users.run_push_routeBy handle remotes fun others same garden hmem => ?_
    obtain rfl := Except.ok.inj (remotes.symm.trans same)
    rw [serves.name, name]
    exact (own hmem).symm
  · have known : garden.name ∈ node.registry.names := by
      rw [serves.names, names]
      exact List.mem_map_of_mem hmem
    refine run_attempt serves.paths known (own hmem).2 ?_ handle users
    rw [serves.name, name]
    exact (own hmem).1

/-- A garden and the one it reported to change places: each is started in turn on one store. -/
def childAgent : Agent where
  config := {
    garden := { name := "child" }
    broker := { endpoints := ["ws://localhost:61614"], replyDestination := some "child.replies" }
    remoteGardens := [{ name := "parent" }] }
  node := { name := "", supply := ⟨fun _ => "", fun _ text => text, fun _ => default⟩ }

def parentAgent : Agent where
  config := {
    garden := { name := "parent" }
    broker := { endpoints := ["ws://localhost:61614"], replyDestination := some "parent.replies" }
    remoteGardens := [{ name := "child" }] }
  node := childAgent.node

theorem start_never_pushes_to_itself_parent :
    parentAgent.config.validate = .ok () ∧
      ∃ after, (parentAgent.onStore (startAll {} [childAgent])).start = (.ok "parent", after) ∧
        after.node.registry.names = ["child"] ∧ after.Serves after.node ∧
        ∀ handle, (Users.push (Action.routeBy handle)).run after.node =
          (.ok (), Node.attempted [] after.node ⟨"child", some .stomp, []⟩) := by
  have valid : parentAgent.config.validate = .ok () := by with_unfolding_all rfl
  obtain ⟨after, gardens, ran, stored, -, -, names, -, serves, pushes⟩ :=
    start_never_pushes_to_itself [childAgent] parentAgent rfl valid
  have listed :
      (parentAgent.onStore (startAll {} [childAgent])).start.2.node.store.remoteGardens.toOption =
        some [⟨"child", some .stomp, []⟩] := by decide +kernel
  have nobody :
      (parentAgent.onStore (startAll {} [childAgent])).start.2.node.store.users.toOption =
        some [] := by decide +kernel
  rw [ran] at listed nobody
  rw [stored] at listed
  obtain rfl := Option.some.inj listed
  refine ⟨valid, after, ran, names, serves, fun handle => ?_⟩
  rw [(pushes after.node serves handle).1]
  cases husers : after.node.store.users with
  | error e => simp [husers, Except.toOption] at nobody
  | ok users =>
    rw [husers] at nobody
    obtain rfl := Option.some.inj nobody
    rfl

end Agent

end Federation
