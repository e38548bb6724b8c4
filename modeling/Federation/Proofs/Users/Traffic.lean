import Federation.Proofs.Store.Gardens
import Federation.Proofs.Users.Push
import Federation.Proofs.Wire.Operations
import Federation.Traffic.UserSync

/-!
# Pushes on their way

What a push and its arrival do to the gardens and to what is on its way between them. A garden that
takes a push in pushes on what it holds then.
-/

namespace Federation

namespace Users

theorem isPlain_syncOperation (users : List User) (garden : Garden) :
    (syncOperation users garden).IsPlain := by
  have args : (syncOperation users garden).args = [] := rfl
  have kwargs := kwargs_syncOperation users garden
  have records (record : Json) (h : record ∈ recordsFor users garden) :
      record.Sorted ∧ record.toDocument.Only Number.IsInteger ∧ record.toDocument.depth ≤ 5 := by
    obtain ⟨user, -, rfl⟩ := List.mem_map.mp h
    obtain ⟨only, depth⟩ := SyncedUser.plain_toDocument (p := Number.IsInteger)
      (user.filteredFor garden).toSyncedWithCredential
    exact ⟨Document.sorted_toJson _, Document.only_toJson only,
      Nat.le_trans (Document.depth_toJson _) depth⟩
  refine ⟨by simp [args], by simp [kwargs, InOrder], ?_, ?_, ?_⟩
  · rw [kwargs, List.forall_mem_singleton, Json.sorted_array]
    intro record h
    exact (records record h).1
  · rw [Operation.only_toDocument, kwargs, List.forall_mem_singleton, Json.toDocument_array,
      Document.only_array, List.forall_mem_map]
    exact ⟨by simp [args], fun record h => (records record h).2.1⟩
  · refine Nat.le_trans (Operation.depth_toDocument_le (n := 6) |>.mpr ?_) (by decide)
    rw [kwargs, List.forall_mem_singleton, Json.toDocument_array, Document.depth_array_le,
      List.forall_mem_map]
    exact ⟨by simp [args], fun record h => (records record h).2.2⟩

/-- So what arrives as text is what was on its way. -/
theorem decode_encode_syncOperation (users : List User) (garden : Garden) :
    Operation.decode (syncOperation users garden).encode = .ok (syncOperation users garden) := by
  have typed : (syncOperation users garden).operationType ≠ "" := by
    change OperationKind.userSync.name ≠ ""
    decide
  exact (isPlain_syncOperation users garden).isPortable.decode_encode typed

end Users

open Users

def Node.sends (node : Node) (users : List User) (remotes : List Garden) :
    List (String × Operation) :=
  (node.audience remotes).map fun garden => (garden.name, syncOperation users garden)

@[simp] theorem Node.filterMap_pushed (node : Node) (users : List User) (remotes : List Garden) :
    (node.pushed users remotes).filterMap Effect.published? = node.sends users remotes := by
  rw [pushed, sends, List.filterMap_map, ← List.filterMap_eq_map]
  rfl

structure Node.Syncs (node : Node) (remotes : List Garden) : Prop where
  readable : node.store.Readable
  remotes : node.store.remoteGardens = .ok remotes
  proper : node.ProperRemotes
  handles : .userSync ∈ node.handlers

theorem Users.Imported.syncs (h : Imported records before after) (hs : before.Syncs remotes) :
    after.Syncs remotes where
  readable := h.readable
  remotes := h.remoteGardens.trans hs.remotes
  proper := h.properRemotes hs.proper
  handles := h.handlers ▸ hs.handles

theorem Users.Imported.sends (h : Imported records before after) (users : List User)
    (remotes : List Garden) : after.sends users remotes = before.sends users remotes := by
  rw [Node.sends, h.audience, Node.sends]

namespace UserTraffic

def became (traffic : UserTraffic) (name : String) (node : Node)
    (more : List (String × Operation)) : UserTraffic :=
  { traffic.setGarden name node with flights := traffic.flights ++ more }

def without (traffic : UserTraffic) (index : Nat) : UserTraffic :=
  { traffic with flights := traffic.flights.eraseIdx index }

variable {traffic : UserTraffic} {node : Node} {remotes : List Garden}

theorem name_garden? (h : traffic.garden? name = some node) : node.name = name := by
  simpa using List.find?_some h

theorem garden?_became (hn : node.name = name) (more : List (String × Operation))
    (other : String) :
    (traffic.became name node more).garden? other =
      if other = name then (traffic.garden? name).map fun _ => node
      else traffic.garden? other := by
  obtain ⟨gardens, flights⟩ := traffic
  simp only [garden?, became, setGarden]
  induction gardens with
  | nil => simp
  | cons first rest ih =>
    rw [List.map_cons, List.find?_cons, List.find?_cons, List.find?_cons, ih]
    by_cases hfirst : first.name = name
    · by_cases ho : other = name
      · simp [hfirst, hn, ho]
      · simp [hfirst, hn, Ne.symm ho, ho]
    · by_cases ho : other = name
      · simp [hfirst, ho]
      · by_cases hother : first.name = other
        · simp [hother, ho]
        · simp [hfirst, hother, ho]

theorem act_eq (h : traffic.garden? name = some node) {action : Action α}
    (hrun : action.run node = (result, after)) (he : after.effects = node.effects ++ sent) :
    traffic.act name action =
      some (traffic.became name after (sent.filterMap Effect.published?)) := by
  simp [act, h, Node.act, hrun, he, became, setGarden]

theorem step_push (h : traffic.garden? name = some node) (hs : node.Syncs remotes) :
    ∃ after users, node.store.users = .ok users ∧ Imported [] node after ∧
      traffic.step (.push name) = some (traffic.became name after (node.sends users remotes)) := by
  obtain ⟨users, hu, -, -⟩ := hs.readable.users
  obtain ⟨logs, ran⟩ := run_push hu hs.remotes hs.proper 7
  refine ⟨_, users, hu,
    (Imported.nil hs.readable).noted (node.effects ++ node.pushed users remotes) logs, ?_⟩
  rw [← Node.filterMap_pushed]
  exact act_eq h ran rfl

theorem step_deliver (hf : traffic.flights[index]? = some (garden.name, syncOperation users garden))
    (h : traffic.garden? garden.name = some node) (hs : node.Syncs remotes) :
    ∃ after held, after.store.users = .ok held ∧ Imported (recordsFor users garden) node after ∧
      traffic.step (.deliver index) =
        some ((traffic.without index).became garden.name after (node.sends held remotes)) := by
  obtain ⟨after, held, ran, imported, hu, sent⟩ := run_route_syncOperation hs.readable hs.remotes
    hs.proper hs.handles users (name_garden? h).symm
  refine ⟨after, held, hu, imported, ?_⟩
  have landed : (traffic.without index).garden? garden.name = some node := h
  rw [← imported.sends, ← Node.filterMap_pushed, ← act_eq landed ran sent]
  simp only [step, hf]
  change (traffic.without index).act _ (Action.route (syncOperation users garden).withoutWaitTimeout) = _
  rw [syncOperation_withoutWaitTimeout]

end UserTraffic

-- ---------------------------------------------------------------------------
-- A pair of gardens
-- ---------------------------------------------------------------------------

def Node.linkedTo (name : String) (remote : Garden) (users : List User) : Node where
  name := name
  handlers := [.userSync]
  registry := [(remote.name, ⟨remote, some ⟨true, fun _ _ _ => .ok .ack, fun _ _ => .ok ()⟩⟩)]
  store := { tables := some { gardens := [.ofGarden remote], users := users.map .ofUser } }
  supply := ⟨fun _ => name, fun _ plain => plain, default⟩

theorem Node.syncs_linkedTo {name : String} {remote : Garden} (hkind : remote.connectionType = some .stomp)
    (hsorted : sortTexts remote.namespaces = remote.namespaces) (hname : remote.name ≠ "")
    (hother : remote.name ≠ name) {users : List User} (names : (users.map User.username).Nodup) :
    (Node.linkedTo name remote users).Syncs [remote] := by
  have remotes : (Node.linkedTo name remote users).store.remoteGardens = .ok [remote] := by
    have hremote : (GardenRow.ofGarden remote).isRemote = true := by
      simp [GardenRow.isRemote, GardenRow.ofGarden, hkind, ConnectionType.name]
    rw [linkedTo, Store.remoteGardens, Store.query_open]
    simp [hremote, Store.byName, GardenRow.toGarden_ofGarden, hsorted, bind, Except.bind, pure,
      Except.pure]
  refine ⟨⟨rfl, rfl, fun row hrow => ?_, ?_⟩, remotes, fun gardens hg garden hmem => ?_,
    List.mem_singleton_self _⟩
  · obtain ⟨user, -, rfl⟩ := List.mem_map.mp hrow
    exact ⟨user, UserRow.toUser_ofUser user⟩
  · simpa [linkedTo, Store.userRows, UserRow.ofUser, Function.comp_def] using names
  · obtain rfl : [remote] = gardens := Except.ok.inj (remotes.symm.trans hg)
    obtain rfl := List.mem_singleton.mp hmem
    exact ⟨hname, hother⟩

theorem Node.shownUser_linkedTo {name : String} {remote : Garden} {users : List User}
    (h : (Node.linkedTo name remote users).store.Readable) (username : String) :
    (Node.linkedTo name remote users).store.shownUser username =
      users.find? fun user => user.username = username := by
  refine (h.shownUser_row username).trans ?_
  rw [List.find?_map]
  change ((users.find? fun user => user.username = username).map UserRow.ofUser).bind _ = _
  cases users.find? fun user => user.username = username with
  | none => rfl
  | some user => simp [UserRow.toUser_ofUser, Except.toOption]

namespace UserTraffic

/-- The user's second role is for the first garden alone. -/
def keeper : User :=
  ⟨"keeper", none, [⟨⟨"reader", []⟩, .global⟩, ⟨⟨"writer", []⟩, .garden "home"⟩]⟩

def nextDoor : Garden := ⟨"next", some .stomp, []⟩

def home : Garden := ⟨"home", some .stomp, ["home"]⟩

def homeNode : Node := .linkedTo "home" nextDoor [keeper]

def nextNode : Node := .linkedTo "next" home []

theorem syncs_homeNode : homeNode.Syncs [nextDoor] :=
  Node.syncs_linkedTo rfl rfl (by decide) (by decide) (by simp)

theorem syncs_nextNode : nextNode.Syncs [home] :=
  Node.syncs_linkedTo rfl rfl (by decide) (by decide) (by simp)

theorem user?_homeNode : homeNode.store.user? "keeper" = .ok (some keeper) := by
  rw [syncs_homeNode.readable.user?, homeNode, Node.shownUser_linkedTo syncs_homeNode.readable]
  rfl

end UserTraffic

end Federation
