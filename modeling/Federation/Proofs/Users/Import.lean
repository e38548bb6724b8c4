import Federation.Proofs.Users.Rows
import Federation.Proofs.Wire.Events

/-!
# What an import leaves

An import changes users and nothing else in the store, and announces the users that it has changed.
What it makes of one user is a fold over the records that it accepts for that name, in their order.
-/

namespace Federation

def GardenEvent.user (event : GardenEvent) : SyncedUser := event.payload.update.user

namespace Users

open Federation.Action

def takeIn (username : String) (held : Option User) (record : Json) : Option User :=
  match accepted? record with
  | none => held
  | some synced => if synced.username = username then taken synced held else held

theorem saidOf_append (username : String) (records more : List Json) :
    saidOf username (records ++ more) = saidOf username records ++ saidOf username more := by
  simp only [saidOf, List.filterMap_append, List.filter_append]

theorem foldl_takeIn (username : String) (held : Option User) (records : List Json) :
    records.foldl (takeIn username) held =
      (saidOf username records).foldl (fun held synced => taken synced held) held := by
  induction records generalizing held with
  | nil => rfl
  | cons record rest ih =>
    rw [List.foldl_cons, ih, takeIn]
    cases hr : accepted? record with
    | none => simp [saidOf, hr]
    | some synced => by_cases same : synced.username = username <;> simp [saidOf, hr, same]

def told : Option User → List SyncedUser → List SyncedUser
  | _, [] => []
  | held, synced :: rest =>
    ((taken synced held).map User.toSynced).toList ++ told (taken synced held) rest

theorem told_append (held : Option User) (saying more : List SyncedUser) :
    told held (saying ++ more) =
      told held saying ++ told (saying.foldl (fun held synced => taken synced held) held) more := by
  induction saying generalizing held with
  | nil => rfl
  | cons synced rest ih =>
    simp only [List.cons_append, told, ih, List.append_assoc, List.foldl_cons]

/-- The events of an import: about each user, what is told of it, in order, at times that the clock
of the garden gave. -/
structure News (records : List Json) (before : Node) (events : List GardenEvent) : Prop where
  own : ∀ event ∈ events, ∃ user n,
    event = .userUpdated before.name user (before.supply.now n)
  told (username : String) :
    (events.map GardenEvent.user).filter (fun user => user.username = username) =
      Users.told (before.store.shownUser username) (saidOf username records)

structure Imported (records : List Json) (before after : Node) : Prop where
  name : after.name = before.name
  handlers : after.handlers = before.handlers
  registry : after.registry = before.registry
  sink : after.sink = before.sink
  supply : after.supply = before.supply
  news : ∃ events, after.events = before.events ++ events ∧ News records before events
  others : after.store.withoutUsers = before.store.withoutUsers
  readable : after.store.Readable
  shown (username : String) :
    after.store.shownUser username =
      records.foldl (takeIn username) (before.store.shownUser username)

theorem Imported.nil {node : Node} (h : node.store.Readable) : Imported [] node node :=
  ⟨rfl, rfl, rfl, rfl, rfl, ⟨[], by simp, nofun, fun _ => rfl⟩, rfl, h, fun _ => rfl⟩

theorem Imported.append {records more : List Json} {a b c : Node} (first : Imported records a b)
    (second : Imported more b c) : Imported (records ++ more) a c where
  name := second.name.trans first.name
  handlers := second.handlers.trans first.handlers
  registry := second.registry.trans first.registry
  sink := second.sink.trans first.sink
  supply := second.supply.trans first.supply
  news := by
    obtain ⟨early, grown, news⟩ := first.news
    obtain ⟨late, grown', news'⟩ := second.news
    refine ⟨early ++ late, by rw [grown', grown, List.append_assoc], ?_, fun username => ?_⟩
    · rw [List.forall_mem_append]
      exact ⟨news.own, first.name ▸ first.supply ▸ news'.own⟩
    · rw [List.map_append, List.filter_append, news.told, news'.told, first.shown, foldl_takeIn,
        saidOf_append, told_append]
  others := second.others.trans first.others
  readable := second.readable
  shown username := by rw [second.shown, first.shown, List.foldl_append]

theorem Imported.noted {records : List Json} {before after : Node}
    (h : Imported records before after) (effects : History) (logs : List String) :
    Imported records before { after with effects, logs } :=
  ⟨h.name, h.handlers, h.registry, h.sink, h.supply, h.news, h.others, h.readable, h.shown⟩

-- ---------------------------------------------------------------------------
-- One record
-- ---------------------------------------------------------------------------

section

variable {node : Node} {tables : Tables} {row : Option UserRow}

def shownIn (row : Option UserRow) : Option User := row.bind fun row => row.toUser.toOption

theorem shownIn_ofUser (user : Option User) : shownIn (user.map .ofUser) = user := by
  cases user with
  | none => rfl
  | some user => simp [shownIn, UserRow.toUser_ofUser, Except.toOption]

theorem rowTaken_eq (readable : ∀ old ∈ row, ∃ user, old.toUser = .ok user) (synced : SyncedUser) :
    rowTaken synced row = (taken synced (shownIn row)).map .ofUser := by
  cases row with
  | none => rfl
  | some old =>
    obtain ⟨user, hread⟩ := readable old rfl
    simp [rowTaken, shownIn, hread, Except.toOption]

theorem rowStored_eq (readable : ∀ old ∈ row, ∃ user, old.toUser = .ok user)
    (synced : SyncedUser) : rowStored synced row = taken synced (shownIn row) := by
  cases row with
  | none => rfl
  | some old =>
    obtain ⟨user, hread⟩ := readable old rfl
    simp [rowStored, shownIn, hread, Except.toOption]

variable (h : Store.Readable ⟨some tables, true⟩)

include h

theorem readable_takeRow (synced : SyncedUser) :
    (storeWith tables (takeRow tables.users synced)).Readable := by
  have rows : ∀ row ∈ tables.users, ∃ user, row.toUser = .ok user := h.rows
  have found : ∀ old ∈ tables.users.find? fun row => row.username = synced.username,
      ∃ user, old.toUser = .ok user := fun old hold => rows old (List.mem_of_find?_eq_some hold)
  refine ⟨rfl, rfl, fun row hrow => ?_, nodup_takeRow h.names synced⟩
  have hrow : row ∈ takeRow tables.users synced := hrow
  obtain ⟨-, -, -, same⟩ | ⟨-, new, -, htaken, same⟩ := takeRow_cases tables.users synced
  · exact rows row (same ▸ hrow)
  · rcases mem_upsertBy (same ▸ hrow) with rfl | hrow
    · rw [rowTaken_eq found] at htaken
      obtain ⟨user, -, rfl⟩ := Option.map_eq_some_iff.mp htaken
      exact ⟨user, UserRow.toUser_ofUser user⟩
    · exact rows row hrow

theorem shownUser_takeRow (synced : SyncedUser) (username : String) :
    (storeWith tables (takeRow tables.users synced)).shownUser username =
      if synced.username = username then
        taken synced (Store.shownUser ⟨some tables, true⟩ username)
      else Store.shownUser ⟨some tables, true⟩ username := by
  have before : Store.shownUser ⟨some tables, true⟩ username =
      shownIn (tables.users.find? fun row => row.username = username) := h.shownUser_row username
  have after : (storeWith tables (takeRow tables.users synced)).shownUser username =
      shownIn ((takeRow tables.users synced).find? fun row => row.username = username) :=
    (readable_takeRow h synced).shownUser_row username
  have found : ∀ old ∈ tables.users.find? fun row => row.username = username,
      ∃ user, old.toUser = .ok user :=
    fun old hold => h.rows old (List.mem_of_find?_eq_some hold)
  rw [after, find?_takeRow, before]
  split
  case isTrue => rw [rowTaken_eq found, shownIn_ofUser]
  case isFalse => rfl

theorem tookIn_eq (opened : node.store = ⟨some tables, true⟩) (synced : SyncedUser) :
    tookIn tables node synced =
      (taken synced (node.store.shownUser synced.username)).elim node (updated tables node) := by
  have found : ∀ old ∈ tables.users.find? fun row => row.username = synced.username,
      ∃ user, old.toUser = .ok user :=
    fun old hold => h.rows old (List.mem_of_find?_eq_some hold)
  rw [tookIn, rowStored_eq found, opened, h.shownUser_row]
  rfl

theorem username_taken (opened : node.store = ⟨some tables, true⟩)
    (hu : taken synced (node.store.shownUser synced.username) = some user) :
    user.username = synced.username := by
  rw [opened] at hu
  cases held : Store.shownUser ⟨some tables, true⟩ synced.username with
  | none =>
    simp only [held, taken] at hu
    split at hu
    · cases hu
    · cases hu
      rfl
  | some old =>
    rw [held, taken, Option.some.injEq] at hu
    rw [← hu, ← h.username_shownUser held]

theorem news_tookIn (opened : node.store = ⟨some tables, true⟩)
    (hr : accepted? record = some synced) :
    ∃ events, (tookIn tables node synced).events = node.events ++ events ∧
      News [record] node events := by
  have told (username : String) :
      Users.told (node.store.shownUser username) (saidOf username [record]) =
        if synced.username = username then
          ((taken synced (node.store.shownUser synced.username)).map User.toSynced).toList
        else [] := by
    by_cases same : synced.username = username <;> simp [saidOf, hr, Users.told, same]
  rw [tookIn_eq h opened]
  cases stored : taken synced (node.store.shownUser synced.username) with
  | none => exact ⟨[], by simp, nofun, fun username => by rw [told, stored]; split <;> rfl⟩
  | some user =>
    refine ⟨_, rfl, ?_, fun username => ?_⟩
    · rw [List.forall_mem_singleton]
      exact ⟨_, _, rfl⟩
    · rw [told, stored, ← username_taken h opened stored]
      have about : GardenEvent.user (.userUpdated node.name user.toSynced
        (node.supply.now node.readings)) = user.toSynced := rfl
      rw [List.map_singleton, about]
      split
      case isTrue same => exact List.filter_cons_of_pos (decide_eq_true same)
      case isFalse other => exact List.filter_cons_of_neg (mt of_decide_eq_true other)

end

theorem run_tryImport {node : Node} (h : node.store.Readable) (record : Json) :
    ∃ after, (tryImport record).run node = (.ok (), after) ∧ after.effects = node.effects ∧
      Imported [record] node after := by
  obtain ⟨tables, opened⟩ := h.exists_tables
  obtain ⟨after, ran, follows, stored⟩ := run_tryImport_open opened record
  obtain ⟨logs, whole⟩ := run_tryImport_eq opened record
  have same := (Prod.mk.inj (ran.symm.trans whole)).2
  have supply : after.supply = node.supply := by
    rw [same]
    cases accepted? record with
    | none => rfl
    | some synced => exact supply_tookIn tables node synced
  have news : ∃ events, after.events = node.events ++ events ∧ News [record] node events := by
    rw [same]
    cases hr : accepted? record with
    | none => exact ⟨[], by simp, nofun, fun username => by simp [saidOf, hr, told]⟩
    | some synced => exact news_tookIn (opened ▸ h) opened hr
  refine ⟨after, ran, follows.silent, follows.name, follows.handlers, follows.registry,
    follows.sink, supply, news, ?_, ?_, fun username => ?_⟩
  · rw [stored, opened]
    rfl
  · rw [opened] at h
    rw [stored]
    cases accepted? record with
    | none => exact h
    | some synced => exact readable_takeRow h synced
  · rw [opened] at h
    rw [stored, opened, List.foldl_cons, List.foldl_nil, takeIn]
    cases accepted? record with
    | none => rfl
    | some synced => exact shownUser_takeRow h synced username

theorem run_imports {node : Node} (h : node.store.Readable) (records : List Json) :
    ∃ after, (records.forM tryImport).run node = (.ok (), after) ∧
      after.effects = node.effects ∧ Imported records node after := by
  induction records generalizing node with
  | nil => exact ⟨node, rfl, rfl, .nil h⟩
  | cons record rest ih =>
    obtain ⟨middle, first, silent, one⟩ := run_tryImport h record
    obtain ⟨after, second, silent', others⟩ := ih one.readable
    exact ⟨after, (run_forM_cons first rest).trans second, silent'.trans silent, one.append others⟩

end Users

end Federation
