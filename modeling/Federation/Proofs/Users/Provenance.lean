import Federation.Proofs.Users.Echo

/-!
# Where users come from

Whatever gardens push to each other, in whatever order pushes arrive, get lost or come twice, a
garden holds nothing that no garden held before: no user, no password and no role. And a role that
was not there before is one that the garden may see, according to what another garden knows of it.

Nothing is asked of the stores or of the registries; a table that cannot be read only stops a push.
-/

namespace Federation

-- ---------------------------------------------------------------------------
-- What a garden holds
-- ---------------------------------------------------------------------------

/-- The user of a row. Roles that cannot be read are none. -/
def UserRow.described (row : UserRow) : User where
  username := row.username
  password := row.password
  roleAssignments := (RoleAssignment.ofColumn row.roleAssignments).toOption.getD []

theorem UserRow.described_of_toUser {row : UserRow} (h : row.toUser = .ok user) :
    row.described = user := by
  unfold toUser at h
  cases hread : RoleAssignment.ofColumn row.roleAssignments with
  | error e => simp [hread, bind, Except.bind] at h
  | ok assignments =>
    simp only [hread, bind, Except.bind, Except.ok.injEq] at h
    subst h
    simp [described, hread, Except.toOption]

theorem UserRow.described_ofUser (user : User) : (UserRow.ofUser user).described = user :=
  described_of_toUser (toUser_ofUser user)

namespace Node

/-- The users in the store, those that a query would refuse to read included. -/
def held (node : Node) : List User := node.store.userRows.map UserRow.described

def Grants (node : Node) (username : String) (assignment : RoleAssignment) : Prop :=
  ∃ user ∈ node.held, user.username = username ∧ assignment ∈ user.roleAssignments

/-- The garden of that name is one of this garden's remote gardens, as one that may see the
assignment. -/
def Shows (node : Node) (name : String) (assignment : RoleAssignment) : Prop :=
  ∃ remotes, node.store.remoteGardens = .ok remotes ∧
    ∃ garden ∈ remotes, garden.name = name ∧ assignment.domain.isRelevantTo garden = true

theorem mem_held_of_users {node : Node} (h : node.store.users = .ok users) (hmem : user ∈ users) :
    user ∈ node.held := by
  obtain ⟨row, hrow, huser⟩ := Store.users_ok h hmem
  exact List.mem_map.mpr ⟨row, hrow, UserRow.described_of_toUser huser⟩

theorem mem_held_of_user? {node : Node} (h : node.store.user? username = .ok (some user)) :
    user ∈ node.held ∧ user.username = username := by
  obtain ⟨row, hrow, huser, hname⟩ := Store.user?_ok h
  refine ⟨List.mem_map.mpr ⟨row, hrow, UserRow.described_of_toUser huser⟩, ?_⟩
  rw [UserRow.username_toUser huser, hname]

theorem mem_held_of_shownUser {node : Node} (h : node.store.shownUser username = some user) :
    user ∈ node.held := by
  have asked : node.store.user? username = .ok (some user) := by
    unfold Store.shownUser at h
    cases found : node.store.user? username with
    | error e =>
      rw [found] at h
      cases h
    | ok held =>
      rw [found] at h
      exact congrArg Except.ok h
  exact (mem_held_of_user? asked).1

end Node

-- ---------------------------------------------------------------------------
-- Users that are traced
-- ---------------------------------------------------------------------------

/-- All there is to a user at the garden of that name comes from `gardens`. -/
structure Traced (gardens : List Node) (name : String) (user : User) : Prop where
  known : ∃ first ∈ gardens, ∃ old ∈ first.held, old.username = user.username
  password : ∀ password, user.password = some password →
    ∃ first ∈ gardens, ∃ old ∈ first.held,
      old.username = user.username ∧ old.password = some password
  granted : ∀ assignment ∈ user.roleAssignments,
    ∃ first ∈ gardens, first.Grants user.username assignment
  /-- What the garden did not grant itself is what somebody may show it. -/
  shown : ∀ assignment ∈ user.roleAssignments,
    (∃ first ∈ gardens, first.name = name ∧ first.Grants user.username assignment) ∨
      ∃ sender ∈ gardens, sender.Shows name assignment

namespace Traced

variable {gardens : List Node} {name : String}

theorem of_mem {node : Node} (h : node ∈ gardens) (held : user ∈ node.held) :
    Traced gardens node.name user where
  known := ⟨node, h, user, held, rfl⟩
  password _ same := ⟨node, h, user, held, rfl, same⟩
  granted _ granted := ⟨node, h, user, held, rfl, granted⟩
  shown _ granted := .inl ⟨node, h, rfl, user, held, rfl, granted⟩

theorem filteredFor (h : Traced gardens name user) (garden : Garden) :
    Traced gardens name (user.filteredFor garden) where
  known := h.known
  password := h.password
  granted assignment hmem := h.granted assignment (List.mem_filter.mp hmem).1
  shown assignment hmem := h.shown assignment (List.mem_filter.mp hmem).1

theorem filteredFor_shown (h : Traced gardens name user) {garden : Garden}
    (hsender : sender ∈ gardens) (hremotes : sender.store.remoteGardens = .ok remotes)
    (hgarden : garden ∈ remotes) : Traced gardens garden.name (user.filteredFor garden) where
  known := h.known
  password := h.password
  granted assignment hmem := h.granted assignment (List.mem_filter.mp hmem).1
  shown assignment hmem := by
    obtain ⟨-, relevant⟩ := List.mem_filter.mp hmem
    exact .inr ⟨sender, hsender, remotes, hremotes, garden, hgarden, rfl, relevant⟩

theorem bare (h : Traced gardens name user) : Traced gardens name { username := user.username } where
  known := h.known
  password password same := by cases same
  granted assignment hmem := by cases hmem
  shown assignment hmem := by cases hmem

/-- What an import makes of a user is traced when both are: the user and what came in. -/
theorem merge (old : Traced gardens name user) (new : Traced gardens name incoming)
    (same : user.username = incoming.username) :
    Traced gardens name
      ⟨user.username, incoming.password.or user.password, incoming.roleAssignments⟩ where
  known := old.known
  password password given := by
    rw [Option.or_eq_some_iff] at given
    rcases given with given | ⟨-, given⟩
    · rw [same]
      exact new.password password given
    · exact old.password password given
  granted assignment hmem := by
    rw [same]
    exact new.granted assignment hmem
  shown assignment hmem := by
    rw [same]
    exact new.shown assignment hmem

end Traced

-- ---------------------------------------------------------------------------
-- Gardens that keep to it
-- ---------------------------------------------------------------------------

def Carries (gardens : List Node) (name : String) (operation : Operation) : Prop :=
  ∃ users garden, operation = Users.syncOperation users garden ∧ garden.name = name ∧ name ≠ "" ∧
    ∀ user ∈ users, Traced gardens name (user.filteredFor garden)

def Effect.Traced (gardens : List Node) : Effect → Prop
  | .publish name operation => Carries gardens name operation
  | _ => True

structure Node.Traced (gardens : List Node) (node : Node) : Prop where
  origin : ∃ first ∈ gardens, first.name = node.name ∧
    first.store.remoteGardens = node.store.remoteGardens
  held : ∀ user ∈ node.held, Federation.Traced gardens node.name user

theorem Node.traced_of_mem {gardens : List Node} {node : Node} (h : node ∈ gardens) :
    node.Traced gardens where
  origin := ⟨node, h, rfl, rfl⟩
  held _ held := .of_mem h held

/-- What a garden is in the middle of an action that it began as `before`. -/
def Node.Goes (gardens : List Node) (before node : Node) : Prop :=
  before.Follows (Effect.Traced gardens) node ∧ node.Traced gardens

theorem Node.Traced.goes {gardens : List Node} {node : Node} (h : node.Traced gardens) :
    node.Goes gardens node := ⟨.refl node, h⟩

theorem Node.Goes.held {gardens : List Node} {before node : Node} (h : before.Goes gardens node)
    (held : user ∈ node.held) : Federation.Traced gardens before.name user := by
  have traced := h.2.held user held
  rwa [h.1.name] at traced

theorem Node.Goes.follows {gardens : List Node} {before node after : Node}
    (h : before.Goes gardens node) (follows : node.Follows (Effect.Traced gardens) after)
    (same : after.store = node.store) : before.Goes gardens after := by
  refine ⟨h.1.trans follows, ?_, ?_⟩
  · rw [same, follows.name]
    exact h.2.origin
  · unfold Node.held
    rw [same, follows.name]
    exact h.2.held

theorem Node.Goes.withStore {gardens : List Node} {before node : Node}
    (h : before.Goes gardens node) {store : Store}
    (remotes : store.remoteGardens = node.store.remoteGardens)
    (rows : ∀ row ∈ store.userRows, row ∈ node.store.userRows ∨
      Federation.Traced gardens before.name row.described) :
    before.Goes gardens { node with store } := by
  obtain ⟨⟨name, handlers, registry, sink, effects⟩, ⟨origin, held⟩⟩ := h
  refine ⟨⟨name, handlers, registry, sink, effects⟩, ?_, ?_⟩
  · change ∃ first ∈ gardens, first.name = node.name ∧
      first.store.remoteGardens = store.remoteGardens
    rw [remotes]
    exact origin
  · intro user huser
    obtain ⟨row, hrow, rfl⟩ := List.mem_map.mp huser
    rcases rows row hrow with old | new
    · exact held row.described (List.mem_map_of_mem old)
    · rw [← name] at new
      exact new

namespace Action

open Users

variable {gardens : List Node} {before : Node}

theorem keeps_quiet {action : Action α} (does : action.Does (Effect.Traced gardens))
    (same : ∀ node, (action.run node).2.store = node.store) :
    action.Keeps (before.Goes gardens) fun _ => True := by
  intro node hnode
  exact ⟨hnode.follows (does node) (same node), fun _ _ => trivial⟩

theorem keeps_log (line : String) : (log line).Keeps (before.Goes gardens) fun _ => True :=
  keeps_quiet (does_log line) fun _ => rfl

theorem keeps_publish (link : Link) (carried : Carries gardens name operation) :
    (publish name link operation).Keeps (before.Goes gardens) fun _ => True := by
  refine keeps_quiet (does_publish link carried) fun node => ?_
  simp only [publish, run_bind, run_get, run_emit]
  split <;> rfl

-- ---------------------------------------------------------------------------
-- Imports
-- ---------------------------------------------------------------------------

theorem keeps_putUser (traced : Traced gardens before.name user) :
    (change fun store => store.putUser user).Keeps (before.Goes gardens) fun _ => True := by
  refine keeps_change fun node hnode store stored => ?_
  rw [Store.putUser_ok stored]
  apply hnode.withStore (Store.remoteGardens_withUser node.store user)
  intro row hrow
  rcases Store.mem_userRows_withUser hrow with rfl | hrow
  · rw [UserRow.described_ofUser]
    exact .inr traced
  · exact .inl hrow

theorem keeps_saved (traced : Traced gardens before.name user) : (do
    change fun store => store.putUser user
    let now ← fresh Supply.now
    announce (.userUpdated (← get).name user.toSynced now)
    pure user : Action User).Keeps (before.Goes gardens) fun _ => True := by
  refine keeps_bind (keeps_putUser traced) fun _ _ => ?_
  refine keeps_bind (keeps_quiet (does_fresh _) fun _ => rfl) fun _ _ => ?_
  refine keeps_bind keeps_get fun _ _ => ?_
  refine keeps_bind (keeps_quiet (does_announce _) fun _ => rfl) fun _ _ => ?_
  exact keeps_pure trivial

theorem keeps_update {hashed : Option String} {assignments : List RoleAssignment}
    (traced : Traced gardens before.name
      ⟨user.username, hashed.or user.password, assignments⟩) :
    (update user { roleAssignments := some assignments } hashed).Keeps (before.Goes gardens)
      fun _ => True := by
  cases hashed with
  | none =>
    refine keeps_bind (q := fun given => given = user.password) (keeps_pure rfl) ?_
    rintro _ rfl
    exact keeps_saved traced
  | some credential =>
    refine keeps_bind (q := fun given => given = some credential) (keeps_pure rfl) ?_
    rintro _ rfl
    exact keeps_saved traced

theorem keeps_importRecord (traced : Traced gardens before.name incoming) :
    (importRecord incoming.toSyncedWithCredential.toDocument.toJson).Keeps (before.Goes gardens)
      fun _ => True := by
  refine keeps_bind (q := fun synced => synced = incoming.toSyncedWithCredential) ?_ ?_
  · refine keeps_ofExcept fun synced read => ?_
    rw [SyncedUser.ofJson_toJson] at read
    cases read
    rfl
  rintro _ rfl
  refine keeps_bind (q := fun _ => True) (keeps_ofExcept fun _ _ => trivial) fun _ _ => ?_
  refine keeps_bind (q := fun found => ∀ user, found = some user →
    Traced gardens before.name user ∧ user.username = incoming.username) ?_ ?_
  · refine keeps_query fun node hnode found asked user same => ?_
    subst same
    obtain ⟨held, hname⟩ := Node.mem_held_of_user? asked
    exact ⟨hnode.held held, hname⟩
  intro found here
  cases found with
  | some user =>
    obtain ⟨old, same⟩ := here user rfl
    exact keeps_discard (keeps_update (old.merge traced same))
  | none =>
    dsimp only
    split
    · exact keeps_pure trivial
    · -- A new user is stored without roles first, so each of the two statements has to be right.
      refine keeps_bind (keeps_putUser traced.bare) fun _ _ => ?_
      exact keeps_discard (keeps_update (traced.bare.merge traced rfl))

-- ---------------------------------------------------------------------------
-- Pushes
-- ---------------------------------------------------------------------------

/-- A push that may be routed at the garden of that name: what would be taken in here is traced
here, and what goes away is traced there. -/
structure Routable (gardens : List Node) (name : String) (users : List User) (garden : Garden) :
    Prop where
  here : garden.name = "" ∨ garden.name = name →
    ∀ user ∈ users, Traced gardens name (user.filteredFor garden)
  away : garden.name ≠ "" → ∀ user ∈ users, Traced gardens garden.name (user.filteredFor garden)

variable {route : Operation → Action Response}
variable (hr : ∀ users garden, Routable gardens before.name users garden →
  (route (syncOperation users garden)).Keeps (before.Goes gardens) fun _ => True)

include hr

theorem keeps_push : (push route).Keeps (before.Goes gardens) fun _ => True := by
  refine keeps_bind (q := fun users => ∀ user ∈ users, Traced gardens before.name user) ?_ ?_
  · exact keeps_query fun node hnode users asked user hmem =>
      hnode.held (Node.mem_held_of_users asked hmem)
  intro users traced
  refine keeps_bind (q := fun remotes => ∃ sender ∈ gardens,
    sender.store.remoteGardens = .ok remotes) ?_ ?_
  · refine keeps_query fun node hnode remotes asked => ?_
    obtain ⟨first, hmem, -, same⟩ := hnode.2.origin
    exact ⟨first, hmem, same.trans asked⟩
  rintro remotes ⟨sender, hsender, hremotes⟩
  refine keeps_forM fun garden hgarden => ?_
  refine keeps_settle (keeps_discard (hr users garden ⟨?_, ?_⟩)) fun _ => keeps_log _
  · intro _ user huser
    exact (traced user huser).filteredFor garden
  · intro _ user huser
    exact (traced user huser).filteredFor_shown hsender hremotes hgarden

theorem keeps_sync {garden : Garden}
    (traced : ∀ user ∈ users, Traced gardens before.name (user.filteredFor garden)) :
    (sync route (recordsFor users garden)).Keeps (before.Goes gardens) fun _ => True := by
  refine keeps_bind (keeps_forM fun record hrecord => ?_) fun _ _ => keeps_push hr
  obtain ⟨user, huser, rfl⟩ := List.mem_map.mp hrecord
  exact keeps_settle (keeps_importRecord (traced user huser)) fun _ => keeps_log _

omit hr

/-- Wherever a push is routed, whoever gets it may have it. -/
theorem keeps_routeWithin (depth : Nat) (routable : Routable gardens before.name users garden) :
    (routeWithin depth (syncOperation users garden)).Keeps (before.Goes gardens)
      fun _ => True := by
  -- A push that comes back to its own garden is handled one level further down.
  induction depth generalizing users garden with
  | zero => exact keeps_throw _
  | succ depth ih =>
    intro node hnode
    rw [routeWithin, run_routeBy]
    cases hdecide : node.decide (syncOperation users garden) with
    | error failure => exact keeps_throw failure node hnode
    | ok way =>
      cases way with
      | handle kind =>
        obtain ⟨hkind, isHere⟩ := Node.decide_handle hdecide
        cases hkind
        rw [hnode.1.name] at isHere
        have traced := routable.here (isLocalTo_syncOperation isHere)
        have synced := keeps_sync (fun _ _ => ih) traced
        simp only [Action.handle, Users.handle, recordsOf_syncOperation]
        exact keeps_bind synced (fun _ _ => keeps_pure trivial) node hnode
      | publish target link sent =>
        obtain ⟨htarget, -, rfl⟩ := Node.decide_publish hdecide
        rw [syncOperation_withoutWaitTimeout] at htarget ⊢
        obtain ⟨named, hname⟩ := name_of_target? htarget
        have carried : Carries gardens target (syncOperation users garden) := by
          subst hname
          exact ⟨users, garden, rfl, rfl, named, routable.away named⟩
        exact keeps_bind (keeps_publish link carried) (fun _ _ => keeps_pure trivial) node hnode
      | request target link sent wait =>
        -- A push waits for no reply.
        obtain ⟨expects, -⟩ := Node.decide_request hdecide
        cases expects

-- ---------------------------------------------------------------------------
-- Events
-- ---------------------------------------------------------------------------

theorem keeps_handleEvent (event : GardenEvent) :
    (handleEvent event).Keeps (before.Goes gardens) fun _ => True := by
  refine keeps_bind keeps_get fun node _ => ?_
  split
  · exact keeps_pure trivial
  refine keeps_settle (keeps_change fun node hnode store stored => ?_) fun _ => keeps_log _
  obtain ⟨rows, remotes⟩ := Store.putShadow_ok stored
  apply hnode.withStore remotes
  intro row hrow
  rw [rows] at hrow
  exact .inl hrow

end Action

-- ---------------------------------------------------------------------------
-- Runs
-- ---------------------------------------------------------------------------

namespace UserTraffic

open Federation.Action Users

variable {gardens : List Node} {traffic : UserTraffic}

structure Traced (gardens : List Node) (traffic : UserTraffic) : Prop where
  nodes : ∀ node ∈ traffic.gardens, node.Traced gardens
  flights : ∀ flight ∈ traffic.flights, Carries gardens flight.1 flight.2

theorem traced_start (gardens : List Node) : Traced gardens ⟨gardens, []⟩ where
  nodes _ hmem := Node.traced_of_mem hmem
  flights _ hmem := by cases hmem

theorem Traced.act (h : Traced gardens traffic) {action : Action α}
    (keeps : ∀ node : Node, node.name = name →
      action.Keeps (node.Goes gardens) fun _ => True)
    (ran : traffic.act name action = some after) : Traced gardens after := by
  unfold UserTraffic.act at ran
  obtain ⟨node, found, ran⟩ := Option.bind_eq_some_iff.mp ran
  cases ran
  have hnode : node.Traced gardens := h.nodes node (List.mem_of_find?_eq_some found)
  obtain ⟨⟨follows, traced⟩, -⟩ := keeps node (name_garden? found) node hnode.goes
  refine ⟨fun other hmem => ?_, fun flight hmem => ?_⟩
  · obtain ⟨old, hold, rfl⟩ := List.mem_map.mp hmem
    split
    · exact traced
    · exact h.nodes old hold
  · rcases List.mem_append.mp hmem with hmem | hmem
    · exact h.flights flight hmem
    · obtain ⟨effect, heffect, published⟩ := List.mem_filterMap.mp hmem
      obtain ⟨more, hmore, all⟩ := follows.effects
      change effect ∈ (action.run node).2.effects.drop node.effects.length at heffect
      rw [hmore, List.drop_left] at heffect
      have carried := all effect heffect
      cases effect <;> cases published
      exact carried

theorem Traced.step (h : Traced gardens traffic) {turn : UserTrafficStep}
    (ran : traffic.step turn = some after) : Traced gardens after := by
  cases turn with
  | push name =>
    refine h.act (fun node _ => ?_) ran
    exact keeps_push fun _ _ => keeps_routeWithin maxDepth
  | handle name event => exact h.act (fun _ _ => keeps_handleEvent event) ran
  | drop index =>
    cases ran
    exact ⟨h.nodes, fun flight hmem => h.flights flight (List.mem_of_mem_eraseIdx hmem)⟩
  | duplicate index =>
    obtain ⟨flight, found, ran⟩ := Option.bind_eq_some_iff.mp ran
    cases ran
    have known : flight ∈ traffic.flights := List.mem_of_getElem? found
    refine ⟨h.nodes, fun other hmem => ?_⟩
    rcases List.mem_append.mp hmem with hmem | hmem
    · exact h.flights other hmem
    · rw [List.mem_singleton.mp hmem]
      exact h.flights flight known
  | deliver index =>
    obtain ⟨⟨name, operation⟩, found, ran⟩ := Option.bind_eq_some_iff.mp ran
    obtain ⟨users, garden, rfl, rfl, named, traced⟩ :=
      h.flights _ (List.mem_of_getElem? found)
    have landed : Traced gardens { traffic with flights := traffic.flights.eraseIdx index } :=
      ⟨h.nodes, fun flight hmem => h.flights flight (List.mem_of_mem_eraseIdx hmem)⟩
    refine landed.act (fun node own => ?_) ran
    rw [syncOperation_withoutWaitTimeout]
    apply keeps_routeWithin maxDepth ⟨fun _ => ?_, fun _ => traced⟩
    rw [own]
    exact traced

theorem Traced.run (h : Traced gardens traffic) {steps : List UserTrafficStep}
    (ran : traffic.run steps = some after) : Traced gardens after := by
  induction steps generalizing traffic with
  | nil =>
    cases ran
    exact h
  | cons first rest ih =>
    unfold UserTraffic.run at ran
    rw [List.foldlM_cons] at ran
    obtain ⟨middle, hfirst, hrest⟩ := Option.bind_eq_some_iff.mp ran
    exact ih (h.step hfirst) hrest

/-- In every state that gardens come to by pushing to each other, all that a garden holds is
traced. -/
theorem run_traced (ran : run ⟨gardens, []⟩ steps = some after) (garden : node ∈ after.gardens)
    (held : user ∈ node.held) : Federation.Traced gardens node.name user :=
  (((traced_start gardens).run ran).nodes node garden).held user held

theorem exists_passed :
    ∃ after node, run ⟨[homeNode, nextNode], []⟩ [.push "home", .deliver 0] = some after ∧
      node ∈ after.gardens ∧ node.name = "next" ∧ keeper.filteredFor nextDoor ∈ node.held := by
  let traffic : UserTraffic := ⟨[homeNode, nextNode], []⟩
  have hhome : traffic.garden? "home" = some homeNode := rfl
  obtain ⟨pushed, users, hu, kept, first⟩ := step_push hhome syncs_homeNode
  have hpushed : pushed.name = "home" := kept.name
  let sent := traffic.became "home" pushed (homeNode.sends users [nextDoor])
  have hnext : sent.garden? nextDoor.name = some nextNode := by
    rw [garden?_became hpushed, if_neg (by decide)]
    rfl
  have flight : sent.flights[0]? = some (nextDoor.name, syncOperation users nextDoor) := rfl
  obtain ⟨node, held, -, imported, second⟩ := step_deliver flight hnext syncs_nextNode
  have hnode : node.name = nextDoor.name := imported.name
  let after := (sent.without 0).became nextDoor.name node (nextNode.sends held [home])
  refine ⟨after, node, ?_, ?_, hnode, ?_⟩
  · simp only [run, List.foldlM_cons, List.foldlM_nil]
    rw [first]
    change (sent.step (.deliver 0)).bind _ = _
    rw [second]
    rfl
  · have found : after.garden? nextDoor.name = some node := by
      rw [garden?_became hnode, if_pos rfl]
      exact congrArg (Option.map _) hnext
    exact List.mem_of_find?_eq_some found
  · have here : homeNode.store.shownUser "keeper" = some keeper :=
      Node.shownUser_linkedTo syncs_homeNode.readable "keeper"
    have nobody : nextNode.store.shownUser "keeper" = none :=
      Node.shownUser_linkedTo syncs_nextNode.readable "keeper"
    apply Node.mem_held_of_shownUser
    rw [imported.shown_of_push syncs_homeNode.readable hu, here, nobody]
    rfl

theorem run_traced_keeper :
    ∃ after node, run ⟨[homeNode, nextNode], []⟩ [.push "home", .deliver 0] = some after ∧
      node ∈ after.gardens ∧ node.name = "next" ∧ keeper.filteredFor nextDoor ∈ node.held ∧
      Federation.Traced [homeNode, nextNode] node.name (keeper.filteredFor nextDoor) := by
  obtain ⟨after, node, ran, garden, name, held⟩ := exists_passed
  exact ⟨after, node, ran, garden, name, held, run_traced ran garden held⟩

end UserTraffic

end Federation
