import Federation.Proofs.Users.Traffic

/-!
# What a push tells each garden

A push reads the users and the remote gardens, each in the order of their names, and then tells each
garden that can be reached about all the users, with the assignments that this garden may see. What
one garden is told does not depend on the others, nor on what comes of telling them. When a row
cannot be read nothing is sent.
-/

namespace Federation

-- ---------------------------------------------------------------------------
-- What is read
-- ---------------------------------------------------------------------------

namespace Tables

structure Keyed (tables : Tables) : Prop where
  users : (tables.users.map UserRow.username).Nodup
  gardens : (tables.gardens.map GardenRow.name).Nodup

structure Sendable (tables : Tables) : Prop where
  users : ∀ row ∈ tables.users, ∃ user, row.toUser = .ok user
  gardens : ∀ row ∈ tables.gardens, row.isRemote = true → ∃ garden, row.toGarden = .ok garden

structure Lists (tables : Tables) (held : List User) (remotes : List Garden) : Prop where
  users : ∀ user, user ∈ held ↔ ∃ row ∈ tables.users, row.toUser = .ok user
  usersInOrder : (held.map User.username).Pairwise (· < ·)
  gardens : ∀ garden, garden ∈ remotes ↔
    ∃ row ∈ tables.gardens, row.isRemote = true ∧ row.toGarden = .ok garden
  gardensInOrder : (remotes.map Garden.name).Pairwise (· < ·)

variable {tables : Tables}

theorem sendable_iff :
    tables.Sendable ↔ (∃ users, Store.users ⟨some tables, true⟩ = .ok users) ∧
      ∃ gardens, Store.remoteGardens ⟨some tables, true⟩ = .ok gardens := by
  simp only [Store.users, Store.remoteGardens, Store.query_open, Store.byName, exists_mapM,
    List.mem_mergeSort, List.mem_filter, and_imp]
  exact ⟨fun h => ⟨h.users, h.gardens⟩, fun h => ⟨h.1, h.2⟩⟩

theorem Keyed.lists (h : tables.Keyed)
    (users : Store.users ⟨some tables, true⟩ = .ok held)
    (gardens : Store.remoteGardens ⟨some tables, true⟩ = .ok remotes) :
    tables.Lists held remotes := by
  rw [Store.users, Store.query_open] at users
  rw [Store.remoteGardens, Store.query_open] at gardens
  have remote : ((tables.gardens.filter GardenRow.isRemote).map GardenRow.name).Nodup :=
    h.gardens.sublist (List.filter_sublist.map _)
  refine ⟨fun user => ?_, ?_, fun garden => ?_, ?_⟩
  · simp only [mem_mapM users, List.mem_mergeSort]
  · rw [map_mapM (fun _ _ => UserRow.username_toUser) users]
    exact pairwise_lt_mergeSort_key h.users
  · simp only [mem_mapM gardens, Store.byName, List.mem_mergeSort, List.mem_filter, and_assoc]
  · rw [map_mapM (fun _ _ => GardenRow.name_toGarden) gardens]
    exact pairwise_lt_mergeSort_key remote

end Tables

-- ---------------------------------------------------------------------------
-- What is sent
-- ---------------------------------------------------------------------------

def Effect.goesTo (name : String) : Effect → Bool
  | .request garden .. | .publish garden _ => garden == name
  | .send .. | .schedule _ => false

namespace Users

open Federation.Action

/-- The operation is a user sync for that garden. It has one record for each user, in their order,
which is read as the user with the password and the assignments that the garden may see. -/
structure Tells (users : List User) (garden : Garden) (operation : Operation) : Prop where
  kind : operation.kind? = some .userSync
  target : operation.targetGardenName = some garden.name
  args : operation.args = []
  records : ∃ records, operation.kwargs = [(usersKey, .array records)] ∧
    records.mapM SyncedUser.ofJson = .ok (users.map fun user => {
      username := user.username
      roleAssignments := user.roleAssignments.filter fun a => a.domain.isRelevantTo garden
      hashedPassword := user.password })

theorem tells_syncOperation (users : List User) (garden : Garden) :
    Tells users garden (syncOperation users garden) where
  kind := syncOperation_kind? users garden
  target := rfl
  args := rfl
  records := ⟨_, kwargs_syncOperation users garden,
    mapM_map_ok fun _ _ => SyncedUser.ofJson_toJson _⟩

variable {node : Node}

theorem filter_pushed (node : Node) (users : List User) {gardens : List Garden}
    (unique : (gardens.map Garden.name).Nodup) (h : garden ∈ gardens) :
    (node.pushed users gardens).filter (Effect.goesTo garden.name) =
      if node.reaches garden.name then [.publish garden.name (syncOperation users garden)]
      else [] := by
  have own : gardens.filter (fun other : Garden => other.name = garden.name) = [garden] := by
    rw [filter_key unique, find?_key unique h]
    rfl
  have swapped : (node.audience gardens).filter (fun other : Garden => other.name = garden.name) =
      [garden].filter fun other => node.reaches other.name := by
    rw [Node.audience, List.filter_comm, own]
  have same : (fun other : Garden => Effect.goesTo garden.name
      (.publish other.name (syncOperation users other))) = fun other : Garden => other.name = garden.name :=
    funext fun other => rfl
  rw [Node.pushed, List.filter_map, Function.comp_def, same, swapped]
  by_cases reached : node.reaches garden.name = true <;> simp [reached]

theorem run_push_unreadable (route : Operation → Action Response)
    (h : node.store = ⟨some tables, true⟩) (unreadable : ¬ tables.Sendable) :
    ∃ e, (push route).run node = (.error (.ofStore e), node) := by
  rw [Tables.sendable_iff, ← h] at unreadable
  rw [push, run_bind, run_query]
  cases hu : node.store.users with
  | error e => exact ⟨e, rfl⟩
  | ok users =>
    cases hg : node.store.remoteGardens with
    | error e => exact ⟨e, by simp [hg]⟩
    | ok gardens => exact absurd ⟨⟨users, hu⟩, gardens, hg⟩ unreadable

/-- When all can be read, each remote garden with a live link is told once, whatever becomes of the
others; else nothing is done. -/
theorem push_tells (handle : OperationKind → Operation → Action Response) {node : Node}
    {tables : Tables} (h : node.store = ⟨some tables, true⟩) (keyed : tables.Keyed)
    (proper : node.ProperRemotes) :
    (tables.Sendable → ∃ users gardens logs,
      node.store.users = .ok users ∧ node.store.remoteGardens = .ok gardens ∧
      tables.Lists users gardens ∧
      (push (routeBy handle)).run node = (.ok (), { node with
        effects := node.effects ++ node.pushed users gardens, logs }) ∧
      ∀ garden ∈ gardens, Tells users garden (syncOperation users garden) ∧
        (node.pushed users gardens).filter (Effect.goesTo garden.name) =
          if node.reaches garden.name then [.publish garden.name (syncOperation users garden)]
          else []) ∧
    (¬ tables.Sendable → ∃ e, (push (routeBy handle)).run node = (.error (.ofStore e), node)) := by
  refine ⟨fun sendable => ?_, run_push_unreadable _ h⟩
  obtain ⟨⟨users, hu⟩, gardens, hg⟩ := Tables.sendable_iff.mp sendable
  have lists := keyed.lists hu hg
  rw [← h] at hu hg
  obtain ⟨logs, sent⟩ := foldl_attempted_eq users node gardens
  refine ⟨users, gardens, logs, hu, hg, lists, ?_, fun garden hmem => ⟨?_, ?_⟩⟩
  · rw [run_push_routeBy handle hg proper, hu]
    exact congrArg (Prod.mk _) sent
  · exact tells_syncOperation users garden
  · exact filter_pushed node users (lists.gardensInOrder.imp fun lt => String.ne_of_lt lt) hmem

-- ---------------------------------------------------------------------------
-- A garden with one user, and the same garden with a spoilt row
-- ---------------------------------------------------------------------------

open UserTraffic

def keeperTables : Tables where
  gardens := [.ofGarden nextDoor]
  users := [.ofUser keeper]

theorem keyed_keeperTables : keeperTables.Keyed := ⟨by simp [keeperTables], by simp [keeperTables]⟩

def lostGarden : Garden := ⟨"lost", some .stomp, []⟩

/-- One of the two gardens cannot be reached, and the push comes to it first. -/
def halfLinkedTables : Tables :=
  { keeperTables with gardens := [.ofGarden lostGarden, .ofGarden nextDoor] }

def halfLinkedNode : Node := { homeNode with
  registry := ("lost", ⟨lostGarden, some { connected := false
                                           request := fun _ _ _ => .ok .ack
                                           publish := fun _ _ => .ok () }⟩) :: homeNode.registry
  store := ⟨some halfLinkedTables, true⟩ }

theorem keyed_halfLinkedTables : halfLinkedTables.Keyed :=
  ⟨keyed_keeperTables.users, by simp [halfLinkedTables, nextDoor, lostGarden, GardenRow.ofGarden]⟩

theorem remoteGardens_halfLinkedNode :
    halfLinkedNode.store.remoteGardens = .ok [lostGarden, nextDoor] := by
  have keeps : halfLinkedNode.store.KeepsGardens [lostGarden, nextDoor] := ⟨rfl, rfl⟩
  have remote : [lostGarden, nextDoor].filter Garden.isRemote = [lostGarden, nextDoor] := rfl
  rw [keeps.remoteGardens, Store.remotesOf, remote, List.mergeSort_of_pairwise (by decide)]
  rfl

theorem users_halfLinkedNode : halfLinkedNode.store.users = .ok [keeper] := by
  have opened : halfLinkedNode.store = ⟨some halfLinkedTables, true⟩ := rfl
  have rows : halfLinkedTables.users = [.ofUser keeper] := rfl
  rw [opened, Store.users, Store.query_open, rows, List.mergeSort_singleton, List.mapM_cons,
    UserRow.toUser_ofUser]
  rfl

theorem proper_halfLinkedNode : halfLinkedNode.ProperRemotes := by
  intro gardens read
  obtain rfl : [lostGarden, nextDoor] = gardens :=
    Except.ok.inj (remoteGardens_halfLinkedNode.symm.trans read)
  decide

theorem push_tells_keeper : halfLinkedNode.store = ⟨some halfLinkedTables, true⟩ ∧
    halfLinkedTables.Keyed ∧ halfLinkedNode.ProperRemotes ∧ halfLinkedTables.Sendable ∧
    halfLinkedTables.Lists [keeper] [lostGarden, nextDoor] ∧
    Tells [keeper] nextDoor (syncOperation [keeper] nextDoor) ∧
    ∃ logs, (push Action.route).run halfLinkedNode = (.ok (), { halfLinkedNode with
      effects := [.publish "next" (syncOperation [keeper] nextDoor)], logs }) := by
  have sendable : halfLinkedTables.Sendable :=
    Tables.sendable_iff.mpr ⟨⟨_, users_halfLinkedNode⟩, _, remoteGardens_halfLinkedNode⟩
  obtain ⟨users, gardens, logs, hu, hg, lists, ran, told⟩ :=
    (push_tells (Action.handle (routeWithin 7)) rfl keyed_halfLinkedTables
      proper_halfLinkedNode).1 sendable
  obtain rfl := Except.ok.inj (users_halfLinkedNode.symm.trans hu)
  obtain rfl := Except.ok.inj (remoteGardens_halfLinkedNode.symm.trans hg)
  exact ⟨rfl, keyed_halfLinkedTables, proper_halfLinkedNode, sendable, lists,
    (told nextDoor (by simp)).1, logs, ran⟩

/-- Nothing stands where the list of assignments should. -/
def spoiltTables : Tables :=
  { keeperTables with users := [{ UserRow.ofUser keeper with roleAssignments := "" }] }

def spoiltNode : Node := { homeNode with store := ⟨some spoiltTables, true⟩ }

theorem push_spoilt : spoiltNode.ProperRemotes ∧ spoiltTables.Keyed ∧
    spoiltNode.reaches nextDoor.name = true ∧
    ((push Action.route).run spoiltNode).1.isOk = false ∧
    ((push Action.route).run spoiltNode).2.effects = [] := by
  have unreadable : ¬ spoiltTables.Sendable := fun sendable => by
    obtain ⟨user, h⟩ := sendable.users _ (List.mem_singleton_self _)
    have nothing : Document.read "".toList = (.unreadable .endInValue, some .endInValue) := by
      simp [Document.read, Document.readValue, Document.skipGap, Document.stopped]
    rw [UserRow.toUser, RoleAssignment.ofColumn, Store.document, Decoder.ofText, nothing] at h
    cases h
  obtain ⟨e, ran⟩ : ∃ e, (push Action.route).run spoiltNode = (.error (.ofStore e), spoiltNode) :=
    run_push_unreadable Action.route rfl unreadable
  have remotes : spoiltNode.store.remoteGardens = .ok [nextDoor] := by
    refine Eq.trans ?_ syncs_homeNode.remotes
    change Store.remoteGardens ⟨some spoiltTables, true⟩ =
      Store.remoteGardens ⟨some keeperTables, true⟩
    simp only [Store.remoteGardens, Store.query_open, spoiltTables]
  refine ⟨fun gardens h => syncs_homeNode.proper gardens
    (syncs_homeNode.remotes.trans (remotes.symm.trans h)),
    ⟨by simp [spoiltTables], keyed_keeperTables.gardens⟩, rfl, ?_, ?_⟩
  · rw [ran]
    rfl
  · rw [ran]
    rfl

end Users

end Federation
