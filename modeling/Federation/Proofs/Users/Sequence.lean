import Federation.Proofs.Users.Again

/-!
# Records that are taken in one after the other

What an import leaves of each user is a fold over what its records say of that user, in their order,
whatever they say of others. Each record that is applied is announced, in the order of the list, and
then there is one push.
-/

namespace Federation.Users

open Federation.Action

-- ---------------------------------------------------------------------------
-- What is held of all users
-- ---------------------------------------------------------------------------

abbrev Holding := String → Except StoreError (Option User)

namespace Holding

def take (held : Holding) (synced : SyncedUser) : Holding := fun username =>
  if synced.username = username then (held username).map (taken synced) else held username

def stored (held : Holding) : List SyncedUser → List User
  | [] => []
  | synced :: rest =>
    ((held synced.username).map (taken synced)).toOption.join.toList ++
      (held.take synced).stored rest

theorem stored_append (held : Holding) (said more : List SyncedUser) :
    held.stored (said ++ more) = held.stored said ++ (said.foldl take held).stored more := by
  induction said generalizing held with
  | nil => rfl
  | cons synced rest ih => simp only [List.cons_append, stored, ih, List.append_assoc, List.foldl_cons]

theorem foldl_take (held : Holding) (said : List SyncedUser) (username : String) :
    said.foldl take held username = (held username).map fun user =>
      (said.filter fun synced => synced.username = username).foldl
        (fun user synced => taken synced user) user := by
  induction said generalizing held with
  | nil => cases h : held username <;> simp [h, Except.map]
  | cons synced rest ih =>
    rw [List.foldl_cons, ih, take]
    by_cases own : synced.username = username
    · rw [if_pos own, List.filter_cons_of_pos (by simpa using own)]
      cases held username <;> rfl
    · rw [if_neg own, List.filter_cons_of_neg (by simpa using own)]

end Holding

def announcements (node : Node) (users : List User) : List GardenEvent :=
  (users.zipIdx node.readings).map fun (user, n) =>
    .userUpdated node.name user.toSynced (node.supply.now n)

-- ---------------------------------------------------------------------------
-- One record after the other
-- ---------------------------------------------------------------------------

structure TookInTurn (said : List SyncedUser) (before after : Node) : Prop where
  name : after.name = before.name
  supply : after.supply = before.supply
  effects : after.effects = before.effects
  others : after.store.withoutUsers = before.store.withoutUsers
  opened : ∃ tables, after.store = ⟨some tables, true⟩
  users : after.store.user? = said.foldl Holding.take before.store.user?
  readings : after.readings = before.readings + (Holding.stored before.store.user? said).length
  events : after.events =
    before.events ++ announcements before (Holding.stored before.store.user? said)

theorem TookInTurn.nil {node : Node} (h : node.store = ⟨some tables, true⟩) :
    TookInTurn [] node node :=
  ⟨rfl, rfl, rfl, rfl, ⟨tables, h⟩, rfl, rfl, by simp [Holding.stored, announcements]⟩

theorem TookInTurn.append {said more : List SyncedUser} {a b c : Node}
    (first : TookInTurn said a b) (second : TookInTurn more b c) :
    TookInTurn (said ++ more) a c where
  name := second.name.trans first.name
  supply := second.supply.trans first.supply
  effects := second.effects.trans first.effects
  others := second.others.trans first.others
  opened := second.opened
  users := by rw [second.users, first.users, List.foldl_append]
  readings := by
    rw [second.readings, first.readings, first.users, Holding.stored_append, List.length_append,
      Nat.add_assoc]
  events := by
    rw [second.events, first.events, first.users, Holding.stored_append, List.append_assoc]
    simp only [announcements, List.zipIdx_append, List.map_append, first.name, first.supply,
      first.readings]

theorem TookInTurn.noted {said : List SyncedUser} {before after : Node}
    (h : TookInTurn said before after) (logs : List String) :
    TookInTurn said before { after with logs } :=
  ⟨h.name, h.supply, h.effects, h.others, h.opened, h.users, h.readings, h.events⟩

section

variable {node : Node} {tables : Tables}

theorem user?_takeRow (tables : Tables) (synced : SyncedUser) :
    (storeWith tables (takeRow tables.users synced)).user? =
      Holding.take (Store.user? ⟨some tables, true⟩) synced := by
  funext username
  rw [user?_open, find?_takeRow, Holding.take, user?_open]
  by_cases own : synced.username = username
  · rw [if_pos own, if_pos own]
    cases hfound : tables.users.find? fun row => row.username = username with
    | none =>
      simp only [rowTaken]
      cases hnew : taken synced none with
      | none => simp [Except.map, hnew]
      | some user => simp [UserRow.toUser_ofUser, Except.map, hnew]
    | some row =>
      cases hread : row.toUser with
      | error e => simp [rowTaken_unreadable hread, hread, Except.map]
      | ok user => simp [rowTaken_readable hread, hread, UserRow.toUser_ofUser, Except.map, taken]
  · rw [if_neg own, if_neg own]

theorem rowStored_eq_lookup (tables : Tables) (synced : SyncedUser) :
    rowStored synced (tables.users.find? fun row => row.username = synced.username) =
      ((Store.user? ⟨some tables, true⟩ synced.username).map (taken synced)).toOption.join := by
  rw [user?_open]
  cases tables.users.find? fun row => row.username = synced.username with
  | none => rfl
  | some row => cases hread : row.toUser <;> simp [rowStored, hread, Except.map, Except.toOption]

theorem tookInTurn_tookIn (h : node.store = ⟨some tables, true⟩) (synced : SyncedUser) :
    TookInTurn [synced] node (tookIn tables node synced) := by
  have users : (tookIn tables node synced).store.user? =
      [synced].foldl Holding.take node.store.user? := by
    rw [store_tookIn h, user?_takeRow, h]
    rfl
  have others : (tookIn tables node synced).store.withoutUsers = node.store.withoutUsers := by
    rw [store_tookIn h, h]
    rfl
  have alone : Holding.stored node.store.user? [synced] =
      (rowStored synced (tables.users.find? fun row => row.username = synced.username)).toList := by
    rw [rowStored_eq_lookup, h]
    simp [Holding.stored]
  have opened : ∃ tables', (tookIn tables node synced).store = ⟨some tables', true⟩ :=
    ⟨_, store_tookIn h synced⟩
  refine ⟨?_, supply_tookIn tables node synced, ?_, others, opened, users, ?_, ?_⟩
  all_goals
    try rw [alone]
    rw [tookIn]
    cases rowStored synced (tables.users.find? fun row => row.username = synced.username)
  all_goals simp [updated, announcements]

theorem tookInTurn_imports (h : node.store = ⟨some tables, true⟩) (records : List Json) :
    ∃ after, (records.forM tryImport).run node = (.ok (), after) ∧
      TookInTurn (records.filterMap accepted?) node after := by
  induction records generalizing node tables with
  | nil => exact ⟨node, rfl, .nil h⟩
  | cons record rest ih =>
    obtain ⟨logs, first⟩ := run_tryImport_eq h record
    have one : TookInTurn (accepted? record).toList node
        { (accepted? record).elim node (tookIn tables node) with logs } := by
      cases accepted? record with
      | none => exact (TookInTurn.nil h).noted logs
      | some synced => exact (tookInTurn_tookIn h synced).noted logs
    obtain ⟨middle, opened⟩ := one.opened
    obtain ⟨after, others, took⟩ := ih opened
    refine ⟨after, (run_forM_cons first rest).trans others, ?_⟩
    have both := one.append took
    cases hr : accepted? record with
    | none => simpa [hr] using both
    | some synced => simpa [hr] using both

end

-- ---------------------------------------------------------------------------
-- The import of a garden
-- ---------------------------------------------------------------------------

def imported (handle : OperationKind → Operation → Action Response) (records : List Json)
    (node : Node) : Node :=
  ((sync (routeBy handle) records).run node).2

section

variable {node : Node} {tables : Tables}

theorem run_sync_inTurn (handle : OperationKind → Operation → Action Response)
    (h : node.store = ⟨some tables, true⟩) (remotes : node.ProperRemotes) (records : List Json) :
    ∃ middle effects logs, TookInTurn (records.filterMap accepted?) node middle ∧
      (sync (routeBy handle) records).run node = (push (routeBy handle)).run middle ∧
      imported handle records node = { middle with effects, logs } := by
  obtain ⟨middle, ran, took⟩ := tookInTurn_imports h records
  have once : (sync (routeBy handle) records).run node = (push (routeBy handle)).run middle := by
    rw [sync, run_bind, ran]
  obtain ⟨effects, logs, same⟩ := push_keeps handle (properRemotes_imports remotes ran)
  exact ⟨middle, effects, logs, took, once, by rw [imported, once, same]⟩

theorem user?_imported (handle : OperationKind → Operation → Action Response)
    (h : node.store = ⟨some tables, true⟩) (remotes : node.ProperRemotes) (records : List Json)
    (username : String) :
    (imported handle records node).store.user? username =
      (node.store.user? username).map fun held =>
        (saidOf username records).foldl (fun held synced => taken synced held) held := by
  obtain ⟨middle, effects, logs, took, -, same⟩ := run_sync_inTurn handle h remotes records
  rw [same]
  exact (congrFun took.users username).trans (Holding.foldl_take ..)

end

/-- An import does to each user what the accepted records of that user say, one after the other, and
nothing to anyone else; it announces each record that applies, in order, and ends with one push. -/
theorem sync_inTurn (handle : OperationKind → Operation → Action Response) {node : Node}
    {tables : Tables} (h : node.store = ⟨some tables, true⟩) (remotes : node.ProperRemotes)
    (records : List Json) :
    let after := imported handle records node
    (∀ username, after.store.user? username = (node.store.user? username).map fun held =>
      (saidOf username records).foldl (fun held synced => taken synced held) held) ∧
    (∀ others, (∀ username, saidOf username others = saidOf username records) →
      (imported handle others node).store.user? = after.store.user?) ∧
    after.store.withoutUsers = node.store.withoutUsers ∧
    after.events = node.events ++
      announcements node (Holding.stored node.store.user? (records.filterMap accepted?)) ∧
    ∃ middle, middle.effects = node.effects ∧ middle.store = after.store ∧
      middle.events = after.events ∧
      (sync (routeBy handle) records).run node = (push (routeBy handle)).run middle := by
  intro after
  have users := user?_imported handle h remotes
  obtain ⟨middle, effects, logs, took, once, same⟩ := run_sync_inTurn handle h remotes records
  have same : after = { middle with effects, logs } := same
  refine ⟨users records, fun others alike => ?_, ?_, ?_, middle, took.effects, ?_, ?_, once⟩
  · funext username
    rw [users others, users records, alike]
  · rw [same]
    exact took.others
  · rw [same]
    exact took.events
  · rw [same]
  · rw [same]

theorem sync_inTurn_earlyRecords :
    UserTraffic.homeNode.ProperRemotes ∧
      let after := imported (Action.handle route) (.null :: earlyRecords) UserTraffic.homeNode
      after.store.user? "ada" = .ok (some ⟨"ada", none, [⟨⟨"reader", []⟩, .global⟩]⟩) ∧
        after.store.user? "keeper" = .ok (some UserTraffic.keeper) ∧
        after.events.map GardenEvent.user = [⟨"ada", [⟨⟨"reader", []⟩, .global⟩], none⟩] := by
  have opened : UserTraffic.homeNode.store = ⟨some {
      gardens := [.ofGarden UserTraffic.nextDoor]
      users := [.ofUser UserTraffic.keeper] }, true⟩ := rfl
  have proper := UserTraffic.syncs_homeNode.proper
  obtain ⟨users, -, -, events, -⟩ :=
    sync_inTurn (Action.handle route) opened proper (.null :: earlyRecords)
  have malformed : accepted? .null = none := by decide
  have said (username : String) : saidOf username (.null :: earlyRecords) =
      earlySaid.filter fun synced => synced.username = username := by
    rw [saidOf, List.filterMap_cons, malformed, accepted_earlyRecords]
  have unknown : UserTraffic.homeNode.store.user? "ada" = .ok none := rfl
  refine ⟨proper, ?_, ?_, ?_⟩
  · rw [users, said, unknown]
    rfl
  · rw [users, said, UserTraffic.user?_homeNode]
    rfl
  · rw [events, List.filterMap_cons, malformed, accepted_earlyRecords]
    simp only [Holding.stored, Holding.take, earlySaid, unknown]
    rfl

end Federation.Users
