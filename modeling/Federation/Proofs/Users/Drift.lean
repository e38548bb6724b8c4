import Federation.Forwarding
import Federation.Proofs.Store.Shadows
import Federation.Proofs.Users.Echo
import Federation.Proofs.Wire.Exchange

/-!
# What a garden knows after a push

A garden pushes its users to another one, which announces those that it stores. When the
announcements have come back, these users are found to be in sync. Of a user that the other garden
passed over nothing comes back, and what was known of it before is all that is known.
-/

namespace Federation

-- ---------------------------------------------------------------------------
-- Events that come in
-- ---------------------------------------------------------------------------

def GardenEvent.shadow (event : GardenEvent) : Shadow where
  garden := event.payload.update.garden
  username := event.user.username
  roleAssignments := event.user.roleAssignments
  updatedAt := event.payload.update.timestamp

structure Message.Carries (message : Message) (event : GardenEvent) : Prop where
  modelClass : message.modelClass? = some ModelClass.event
  body : message.body = event.encode

theorem Headers.ofEvent_eq (garden : String) :
    ofEvent garden = [(gardenName, garden), (modelClass, ModelClass.event)] :=
  reply_eq ModelClass.event garden []

namespace Forwarding

def arriving? (garden destination : String) (event : GardenEvent) : Option Message :=
  (forward garden (some destination) event).bind fun (destination, message) =>
    (Connection.sendFrame destination message).relayed?

theorem exists_arriving {event : GardenEvent} (own : event.garden = garden)
    (destination : String) :
    ∃ message, arriving? garden destination event = some message ∧ message.Carries event := by
  have whole : '\x00' ∉ (Message.mk (Headers.ofEvent garden) event.encode).body.toList :=
    Document.not_mem_text _
  have unstated : (Message.mk (Headers.ofEvent garden) event.encode).header?
      Frame.contentLength = none := by
    rw [Headers.ofEvent_eq]
    rfl
  obtain ⟨message, relayed, arrived⟩ := Connection.exists_arrived destination whole unstated
  refine ⟨message, ?_, (arrived.headers _ (by decide) (by decide)).trans ?_, arrived.body⟩
  · rw [arriving?, forward, if_pos own, Option.map_some, Option.bind_some]
    exact relayed
  · rw [Headers.ofEvent_eq]
    rfl

theorem carries_arriving {events : List GardenEvent}
    (own : ∀ event ∈ events, event.garden = garden) (destination : String) :
    List.Forall₂ Message.Carries (events.filterMap (arriving? garden destination)) events := by
  induction events with
  | nil => exact .nil
  | cons event rest ih =>
    obtain ⟨mine, others⟩ := List.forall_mem_cons.mp own
    obtain ⟨message, arrived, carries⟩ := exists_arriving mine destination
    rw [List.filterMap_cons_some arrived]
    exact .cons carries (ih others)

end Forwarding

namespace Listener

variable {node : Node} {tables : Tables}

theorem run_onMessage_event (opened : node.store = ⟨some tables, true⟩)
    (h : message.Carries event) (valid : event.Valid) (foreign : event.garden ≠ node.name)
    (route : Operation → Action Response) :
    (onMessage route message).run node =
      (.ok (), { node with store := ⟨some (tables.withShadow event.shadow), true⟩ }) := by
  have absorbed : (Users.absorb event).run node =
      (.ok (), { node with store := ⟨some (tables.withShadow event.shadow), true⟩ }) := by
    obtain ⟨garden, time, ⟨update⟩⟩ := event
    rw [Users.absorb, Action.run_change, opened, Store.putShadow_open]
    rfl
  rw [onMessage, if_pos h.modelClass, h.body, onEvent, valid.decode_encode]
  simp only [Users.handleEvent, Action.run_bind, Action.run_get, if_neg foreign, Action.settle_log,
    absorbed]

theorem run_events (opened : node.store = ⟨some tables, true⟩)
    (h : List.Forall₂ Message.Carries messages events) (valid : ∀ event ∈ events, event.Valid)
    (foreign : ∀ event ∈ events, event.garden ≠ node.name)
    (route : Operation → Action Response) :
    (run route messages).run node = (.ok (), { node with
      store := ⟨some (tables.withShadows (events.map GardenEvent.shadow)), true⟩ }) := by
  induction h generalizing node tables with
  | nil => rw [List.map_nil, Tables.withShadows, List.foldl_nil, ← opened]; rfl
  | cons first _ ih =>
    obtain ⟨valid, valids⟩ := List.forall_mem_cons.mp valid
    obtain ⟨foreign, foreigns⟩ := List.forall_mem_cons.mp foreign
    rw [run, Action.run_forM_cons (run_onMessage_event opened first valid foreign route)]
    exact ih rfl valids foreigns

end Listener

-- ---------------------------------------------------------------------------
-- What is announced
-- ---------------------------------------------------------------------------

/-- Whether a garden that has `theirs` under the name of a user stores the user when it is pushed
there. -/
def User.lands (user : User) (there : Garden) (theirs : Option User) : Bool :=
  (validateUsername user.username).isOk &&
    (theirs.isSome || !(user.filteredFor there).roleAssignments.isEmpty)

namespace Users

/-- A garden tells of a user that is pushed to it what it was pushed, if it stores the user. -/
theorem told_recordsFor (garden : Garden) {users : List User}
    (names : (users.map User.username).Nodup)
    (found : users.find? (fun user => user.username = username) = some user)
    (same : ∀ other, held = some other → other.username = user.username) :
    told held (saidOf username (recordsFor users garden)) =
      if user.lands garden held then [(user.filteredFor garden).toSynced] else [] := by
  rw [saidOf_recordsFor garden names, found]
  by_cases valid : (validateUsername user.username).isOk
  · cases held with
    | none =>
      by_cases empty : (user.filteredFor garden).roleAssignments = [] <;>
        simp [User.lands, valid, told, taken, User.toSyncedWithCredential, User.toSynced, empty]
    | some other =>
      simp [User.lands, valid, told, taken, User.toSyncedWithCredential, User.toSynced,
        same other rfl, User.filteredFor]
  · simp [User.lands, valid, told]

theorem run_isSynced (user : User) (garden : Garden) (node : Node) :
    ((isSynced user garden).run node).1 =
      match node.store.shadow? garden.name user.username with
      | .error e => .error (.ofStore e)
      | .ok none => .ok false
      | .ok (some shadow) =>
        .ok (shadow.roleAssignments == (user.filteredFor garden).roleAssignments) := by
  rw [isSynced, Action.run_bind, Action.run_query]
  rcases node.store.shadow? garden.name user.username with e | _ | shadow <;> rfl

theorem News.garden (h : News records before events) :
    ∀ event ∈ events, event.garden = before.name := by
  intro event hevent
  obtain ⟨user, n, rfl⟩ := h.own event hevent
  rfl

theorem News.valid (h : News records before events) (clock : ∀ n, (before.supply.now n).Valid) :
    ∀ event ∈ events, event.Valid := by
  intro event hevent
  obtain ⟨user, n, rfl⟩ := h.own event hevent
  exact ⟨clock n, clock n⟩

theorem News.filter_shadows (h : News records before events) (username : String) :
    ((events.map GardenEvent.shadow).filter fun shadow =>
        shadow.key = (before.name, username)).map Shadow.roleAssignments =
      (Users.told (before.store.shownUser username) (saidOf username records)).map
        SyncedUser.roleAssignments := by
  have keyed : ∀ event ∈ events, decide (event.shadow.key = (before.name, username)) =
      decide (event.user.username = username) := by
    intro event hevent
    obtain ⟨user, n, rfl⟩ := h.own event hevent
    exact decide_eq_decide.mpr ⟨fun same => (Prod.mk.inj same).2, congrArg (Prod.mk before.name)⟩
  rw [← h.told, List.filter_map, List.filter_map, List.map_map, List.map_map]
  exact congrArg _ (List.filter_congr keyed)

theorem Imported.shadow? (h : Imported records before after) (garden username : String) :
    after.store.shadow? garden username = before.store.shadow? garden username := by
  rw [← Store.shadow?_withoutUsers, h.others, Store.shadow?_withoutUsers]

end Users

namespace UserTraffic

open Users

/-- A garden pushes its users; the other one takes them in, and the first one hears what it
announces meanwhile, through a destination of the broker. -/
def fullSync (destination : String) (a b : Node) : Option Node := do
  let sent ← step ⟨[a, b], []⟩ (.push a.name)
  let arrived ← sent.deliverTo b.name
  let sender ← arrived.garden? a.name
  let receiver ← arrived.garden? b.name
  let messages := (receiver.events.drop b.events.length).filterMap
    (Forwarding.arriving? b.name destination)
  some ((Listener.run Action.route messages).run sender).2

/-- What the first garden then has in its store: its own users, and a shadow for each event. -/
theorem exists_fullSync {a b : Node} (ha : a.Syncs remotesOfA) (hb : b.Syncs remotesOfB)
    (there : a.Knows remotesOfA toB) (hthere : toB.name = b.name)
    (clock : ∀ n, (b.supply.now n).Valid) (destination : String) :
    ∃ after sender tables users events, fullSync destination a b = some after ∧
      after.store = ⟨some (tables.withShadows (events.map GardenEvent.shadow)), true⟩ ∧
      sender.store = ⟨some tables, true⟩ ∧ Imported [] a sender ∧
      a.store.users = .ok users ∧ News (recordsFor users toB) b events := by
  obtain ⟨sender, receiver, users, held, index, hUsers, kept, -, atB, pushed, arrived, hA, hB⟩ :=
    exists_arrival ha hb there hthere
  obtain ⟨events, grown, news⟩ := atB.news
  obtain ⟨tables, opened⟩ := kept.readable.exists_tables
  have foreign : ∀ event ∈ events, event.garden ≠ sender.name := by
    intro event hevent
    rw [news.garden event hevent, kept.name, ← hthere]
    exact (ha.proper _ ha.remotes toB (List.mem_of_find?_eq_some there.found)).2
  have heard := Listener.run_events opened
    (Forwarding.carries_arriving news.garden destination) (news.valid clock) foreign Action.route
  let after : Node := { sender with
    store := ⟨some (tables.withShadows (events.map GardenEvent.shadow)), true⟩ }
  refine ⟨after, sender, tables, users, events, ?_, rfl, opened, kept, hUsers, news⟩
  simp only [fullSync, bind]
  rw [pushed, Option.bind_some, arrived, Option.bind_some, hA, Option.bind_some, hB,
    Option.bind_some, grown, List.drop_left, heard]

/-- After a full sync the users that landed are in sync, and of the others nothing new is known. -/
theorem fullSync_shown {a b : Node} (ha : a.Syncs remotesOfA) (hb : b.Syncs remotesOfB)
    (there : a.Knows remotesOfA toB) (hthere : toB.name = b.name)
    (clock : ∀ n, (b.supply.now n).Valid) (destination : String) :
    ∃ after, fullSync destination a b = some after ∧
      ∀ username user, a.store.shownUser username = some user →
        after.store.user? username = .ok (some user) ∧
        ((isSynced user toB).run after).1 =
          if user.lands toB (b.store.shownUser username) then .ok true
          else ((isSynced user toB).run a).1 := by
  obtain ⟨after, sender, tables, users, events, ran, stored, opened, kept, hUsers, news⟩ :=
    exists_fullSync ha hb there hthere clock destination
  refine ⟨after, ran, fun username user shown => ⟨?_, ?_⟩⟩
  · rw [stored, Store.user?_withShadows, ← opened, kept.readable.user?, kept.shown,
      List.foldl_nil, shown]
  · obtain ⟨names, found⟩ := ha.readable.find?_users hUsers
    have named : user.username = username := ha.readable.username_shownUser shown
    have same : ∀ other, b.store.shownUser username = some other →
        other.username = user.username := fun other hother =>
      (hb.readable.username_shownUser hother).trans named.symm
    have valid : ∀ shadow ∈ events.map GardenEvent.shadow, shadow.updatedAt.Valid := by
      rw [List.forall_mem_map]
      exact fun event hevent => (news.valid clock event hevent).update
    have told := news.filter_shadows username
    rw [told_recordsFor toB names ((found username).trans shown) same] at told
    rw [run_isSynced, run_isSynced, stored, hthere, named, Store.shadow?_withShadows valid]
    split at told
    case isTrue lands =>
      obtain ⟨shadow, alone, assignments⟩ := List.map_eq_singleton_iff.mp told
      rw [alone]
      simp [assignments, User.toSynced, lands]
    case isFalse passed =>
      rw [List.map_eq_nil_iff.mp told, if_neg passed, ← opened, ← kept.shadow?]
      rfl

/-- After a full sync a user is found to be in sync if the other garden held a user of its name or
was given an assignment; else as it was found before. -/
theorem fullSync_isSynced {a b : Node} (ha : a.Syncs remotesOfA) (hb : b.Syncs remotesOfB)
    (there : a.Knows remotesOfA toB) (hthere : toB.name = b.name)
    (clock : ∀ n, (b.supply.now n).Valid) (destination : String) :
    ∃ after, fullSync destination a b = some after ∧
      ∀ username user, a.store.user? username = .ok (some user) →
        after.store.user? username = .ok (some user) ∧
        ∃ theirs, b.store.user? username = .ok theirs ∧
          ((isSynced user toB).run after).1 =
            if user.lands toB theirs then .ok true else ((isSynced user toB).run a).1 := by
  obtain ⟨after, ran, shown⟩ := fullSync_shown ha hb there hthere clock destination
  refine ⟨after, ran, fun username user huser => ?_⟩
  rw [ha.readable.user?, Except.ok.injEq] at huser
  obtain ⟨kept, answer⟩ := shown username user huser
  exact ⟨kept, _, hb.readable.user? username, answer⟩

def loneNode : Node where
  name := "next"
  handlers := [.userSync]
  supply := ⟨fun _ => "next", fun _ plain => plain, fun _ => ⟨⟨2024, 1, 1⟩, 0, 0, 0, 0⟩⟩

theorem remoteGardens_loneNode : loneNode.store.remoteGardens = .ok [] := by
  rw [loneNode, Store.remoteGardens, Store.query_open]
  simp [Store.byName, pure, Except.pure]

theorem syncs_loneNode : loneNode.Syncs [] where
  readable := ⟨rfl, rfl, nofun, .nil⟩
  remotes := remoteGardens_loneNode
  proper := by
    intro gardens hgardens
    obtain rfl : [] = gardens := Except.ok.inj (remoteGardens_loneNode.symm.trans hgardens)
    nofun
  handles := List.mem_singleton_self _

theorem valid_now_loneNode (n : Nat) : (loneNode.supply.now n).Valid :=
  show Instant.Valid ⟨⟨2024, 1, 1⟩, 0, 0, 0, 0⟩ from
    ⟨by decide, by decide, by decide, by decide, by decide⟩

theorem fullSync_isSynced_keeper :
    ∃ after, fullSync "events" homeNode loneNode = some after ∧
      ((isSynced keeper nextDoor).run after).1 = .ok true := by
  obtain ⟨after, ran, synced⟩ := fullSync_isSynced syncs_homeNode syncs_loneNode home_knows_next
    rfl valid_now_loneNode "events"
  obtain ⟨-, theirs, held, answer⟩ := synced "keeper" keeper user?_homeNode
  obtain rfl : none = theirs := Except.ok.inj held
  have lands : keeper.lands nextDoor none = true := by decide
  rw [if_pos lands] at answer
  exact ⟨after, ran, answer⟩

def guest : User := ⟨"guest", none, []⟩

def hostNode : Node := .linkedTo "home" nextDoor [guest]

theorem syncs_hostNode : hostNode.Syncs [nextDoor] :=
  Node.syncs_linkedTo rfl rfl (by decide) (by decide) (by simp)

theorem user?_hostNode : hostNode.store.user? "guest" = .ok (some guest) := by
  rw [syncs_hostNode.readable.user?, hostNode, Node.shownUser_linkedTo syncs_hostNode.readable]
  rfl

/-- The other garden makes no user without assignments, so it has nothing to tell of this one. -/
theorem fullSync_passes_over :
    ∃ after, fullSync "events" hostNode loneNode = some after ∧
      after.store.user? "guest" = .ok (some guest) ∧
      ((isSynced guest nextDoor).run after).1 = .ok false := by
  have known : hostNode.Knows [nextDoor] nextDoor := ⟨rfl, rfl⟩
  obtain ⟨after, ran, shown⟩ := fullSync_shown syncs_hostNode syncs_loneNode known rfl
    valid_now_loneNode "events"
  have held := user?_hostNode
  rw [syncs_hostNode.readable.user?, Except.ok.injEq] at held
  obtain ⟨kept, answer⟩ := shown "guest" guest held
  have nobody : loneNode.store.shownUser "guest" = none := rfl
  have passed : ¬ guest.lands nextDoor none = true := by decide
  have unseen : hostNode.store.shadow? nextDoor.name guest.username = .ok none := by
    rw [hostNode, Node.linkedTo, Store.shadow?_open]
    rfl
  rw [nobody, if_neg passed, run_isSynced _ _ hostNode, unseen] at answer
  exact ⟨after, ran, kept, answer⟩

end UserTraffic

end Federation
