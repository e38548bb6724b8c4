import Federation.Proofs.Store.Reading
import Federation.Store.Gardens
import Federation.Store.Shadows

/-!
# The users of a store

A readable store shows at most one user under each name, and lists the users that it shows. Storing
a user changes nothing but the row under its name.
-/

namespace Federation

-- ---------------------------------------------------------------------------
-- Rows
-- ---------------------------------------------------------------------------

theorem UserRow.toUser_ofUser (user : User) : (UserRow.ofUser user).toUser = .ok user := by
  simp [ofUser, toUser, RoleAssignment.ofColumn, Store.document, RoleAssignment.ofText_text,
    bind, Except.bind]

theorem UserRow.username_toUser {row : UserRow} (h : row.toUser = .ok user) :
    user.username = row.username := by
  unfold toUser at h
  cases ha : RoleAssignment.ofColumn row.roleAssignments with
  | error e => simp [ha, bind, Except.bind] at h
  | ok assignments =>
    simp only [ha, bind, Except.bind, Except.ok.injEq] at h
    rw [← h]

theorem UserRow.mapM_toUser {rows : List UserRow} (h : ∀ row ∈ rows, ∃ user, row.toUser = .ok user) :
    ∃ users, rows.mapM toUser = .ok users ∧
      users.map User.username = rows.map UserRow.username ∧
      ∀ user, user ∈ users ↔ ∃ row ∈ rows, row.toUser = .ok user := by
  obtain ⟨users, hread⟩ := exists_mapM.mpr h
  exact ⟨users, hread, map_mapM (fun _ _ => username_toUser) hread, fun _ => mem_mapM hread⟩

section Upsert

variable [DecidableEq κ] {key : α → κ} {row : α} {rows : List α}

theorem mem_upsertBy (h : r ∈ upsertBy key row rows) : r = row ∨ r ∈ rows := by
  induction rows with
  | nil => exact .inl (List.mem_singleton.mp h)
  | cons first rest ih =>
    rw [upsertBy] at h
    split at h
    · rcases List.mem_cons.mp h with rfl | h
      · exact .inl rfl
      · exact .inr (List.mem_cons_of_mem _ h)
    · rcases List.mem_cons.mp h with rfl | h
      · exact .inr (List.mem_cons_self ..)
      · exact (ih h).imp_right (List.mem_cons_of_mem _)

theorem upsertBy_upsertBy {before : α} (h : key before = key row) :
    upsertBy key row (upsertBy key before rows) = upsertBy key row rows := by
  induction rows with
  | nil => simp [upsertBy, h]
  | cons first rest ih =>
    by_cases same : key first = key row
    · simp [upsertBy, same, h]
    · simp [upsertBy, same, h, ih]

theorem nodup_upsertBy (h : (rows.map key).Nodup) : ((upsertBy key row rows).map key).Nodup := by
  induction rows with
  | nil => simp [upsertBy]
  | cons first rest ih =>
    obtain ⟨hfirst, hrest⟩ := List.nodup_cons.mp (by simpa only [List.map_cons] using h)
    rw [upsertBy]
    split
    case isTrue same => rw [List.map_cons, List.nodup_cons, ← same]; exact ⟨hfirst, hrest⟩
    case isFalse other =>
      rw [List.map_cons, List.nodup_cons]
      refine ⟨fun hmem => ?_, ih hrest⟩
      obtain ⟨r, hr, hkey⟩ := List.mem_map.mp hmem
      rcases mem_upsertBy hr with rfl | hr
      · exact other hkey.symm
      · exact hfirst (hkey ▸ List.mem_map_of_mem hr)

end Upsert

theorem find?_key [DecidableEq κ] {key : α → κ} {rows : List α} (h : (rows.map key).Nodup)
    (hr : r ∈ rows) : rows.find? (fun row => key row = key r) = some r := by
  induction rows with
  | nil => cases hr
  | cons first rest ih =>
    obtain ⟨hfirst, hrest⟩ := List.nodup_cons.mp (by simpa only [List.map_cons] using h)
    rcases List.mem_cons.mp hr with rfl | hr
    · simp
    · have other : key first ≠ key r := fun same => hfirst (same ▸ List.mem_map_of_mem hr)
      rw [List.find?_cons_of_neg (by simpa using other), ih hrest hr]

theorem filter_key [DecidableEq κ] {key : α → κ} {rows : List α} (h : (rows.map key).Nodup)
    (k : κ) :
    rows.filter (fun row => key row = k) = (rows.find? fun row => key row = k).toList := by
  induction rows with
  | nil => rfl
  | cons first rest ih =>
    obtain ⟨hfirst, hrest⟩ := List.nodup_cons.mp (by simpa only [List.map_cons] using h)
    by_cases same : key first = k
    · have alone : ∀ row ∈ rest, ¬ key row = k := fun row hrow again =>
        hfirst (same.trans again.symm ▸ List.mem_map_of_mem hrow)
      rw [List.filter_cons_of_pos (by simpa using same),
        List.find?_cons_of_pos (by simpa using same),
        List.filter_eq_nil_iff.mpr (by simpa using alone)]
      rfl
    · rw [List.filter_cons_of_neg (by simpa using same),
        List.find?_cons_of_neg (by simpa using same), ih hrest]

-- ---------------------------------------------------------------------------
-- What a store shows
-- ---------------------------------------------------------------------------

namespace Store

def userRows (store : Store) : List UserRow := (store.tables.map Tables.users).getD []

structure Readable (store : Store) : Prop where
  isOpen : store.isOpen = true
  migrated : store.tables.isSome = true
  rows : ∀ row ∈ store.userRows, ∃ user, row.toUser = .ok user
  names : (store.userRows.map UserRow.username).Nodup

def shownUser (store : Store) (username : String) : Option User :=
  (store.user? username).toOption.join

def withUser (store : Store) (user : User) : Store :=
  { store with
    tables := store.tables.map fun tables =>
      { tables with users := upsertBy UserRow.username (.ofUser user) tables.users } }

def withoutUsers (store : Store) : Store :=
  { store with tables := store.tables.map fun tables => { tables with users := [] } }

theorem statement_open (tables : Tables) (table : String)
    (run : Tables → Except StoreError (α × Tables)) :
    statement ⟨some tables, true⟩ table run =
      (run tables).map fun (value, tables) => (value, ⟨some tables, true⟩) := by
  simp only [statement, Bool.not_true, Bool.false_eq_true, if_false]
  cases run tables <;> rfl

theorem query_open (tables : Tables) (table : String) (run : Tables → Except StoreError α) :
    query ⟨some tables, true⟩ table run = run tables := by
  simp only [query, statement_open]
  cases run tables <;> rfl

theorem Readable.exists_tables {store : Store} (h : store.Readable) :
    ∃ tables, store = ⟨some tables, true⟩ := by
  obtain ⟨⟨tables⟩ | _, isOpen⟩ := store
  · cases h.migrated
  · exact ⟨_, congrArg _ h.isOpen⟩

theorem Readable.user?_row {tables : Tables} (h : Readable ⟨some tables, true⟩) (username : String) :
    Store.user? ⟨some tables, true⟩ username =
      .ok ((tables.users.find? fun row => row.username = username).bind fun row =>
        row.toUser.toOption) := by
  rw [Store.user?, query_open]
  cases hrow : tables.users.find? fun row => row.username = username with
  | none => rfl
  | some row =>
    obtain ⟨user, huser⟩ := h.rows row (List.mem_of_find?_eq_some hrow)
    rw [Option.mapM_some, Option.bind_some, huser]
    rfl

theorem Readable.user? {store : Store} (h : store.Readable) (username : String) :
    store.user? username = .ok (store.shownUser username) := by
  obtain ⟨tables, rfl⟩ := h.exists_tables
  rw [shownUser, h.user?_row]
  rfl

theorem Readable.shownUser_row {tables : Tables} (h : Readable ⟨some tables, true⟩)
    (username : String) :
    shownUser ⟨some tables, true⟩ username =
      (tables.users.find? fun row => row.username = username).bind fun row =>
        row.toUser.toOption := by
  rw [shownUser, h.user?_row]
  rfl

theorem Readable.shownUser_iff {tables : Tables} (h : Readable ⟨some tables, true⟩) {user : User} :
    shownUser ⟨some tables, true⟩ username = some user ↔
      ∃ row ∈ tables.users, row.toUser = .ok user ∧ user.username = username := by
  rw [h.shownUser_row, Option.bind_eq_some_iff]
  constructor
  · rintro ⟨row, hrow, hread⟩
    have hread : row.toUser = .ok user := by
      cases hr : row.toUser <;> simp_all [Except.toOption]
    refine ⟨row, List.mem_of_find?_eq_some hrow, hread, ?_⟩
    rw [UserRow.username_toUser hread]
    simpa using List.find?_some hrow
  · rintro ⟨row, hrow, hread, rfl⟩
    refine ⟨row, ?_, by rw [hread]; rfl⟩
    rw [UserRow.username_toUser hread]
    exact find?_key h.names hrow

theorem Readable.username_shownUser {store : Store} (h : store.Readable)
    (hu : store.shownUser username = some user) : user.username = username := by
  obtain ⟨tables, rfl⟩ := h.exists_tables
  obtain ⟨_, _, _, same⟩ := h.shownUser_iff.mp hu
  exact same

theorem Readable.users {store : Store} (h : store.Readable) :
    ∃ users, store.users = .ok users ∧ (users.map User.username).Nodup ∧
      ∀ user, user ∈ users ↔ store.shownUser user.username = some user := by
  obtain ⟨tables, rfl⟩ := h.exists_tables
  let sorted := tables.users.mergeSort fun a b => a.username ≤ b.username
  have perm : sorted.Perm tables.users := List.mergeSort_perm ..
  have rows : ∀ row ∈ sorted, ∃ user, row.toUser = .ok user := fun row hrow =>
    h.rows row (perm.mem_iff.mp hrow)
  obtain ⟨users, hread, names, mem⟩ := UserRow.mapM_toUser rows
  refine ⟨users, (query_open ..).trans hread, ?_, fun user => ?_⟩
  · rw [names]
    exact (perm.map _).nodup_iff.mpr h.names
  · rw [mem, h.shownUser_iff]
    simp [perm.mem_iff]

theorem Readable.find?_users {store : Store} (h : store.Readable) {held : List User}
    (hu : store.users = .ok held) :
    (held.map User.username).Nodup ∧
      ∀ username, held.find? (fun user => user.username = username) =
        store.shownUser username := by
  obtain ⟨same, hsame, names, mem⟩ := h.users
  obtain rfl : held = same := Except.ok.inj (hu.symm.trans hsame)
  refine ⟨names, fun username => ?_⟩
  cases hshown : store.shownUser username with
  | some user =>
    obtain rfl := h.username_shownUser hshown
    exact find?_key names ((mem user).mpr hshown)
  | none =>
    rw [List.find?_eq_none]
    intro user hmem same
    have shown := (mem user).mp hmem
    rw [of_decide_eq_true same, hshown] at shown
    cases shown

theorem withoutUsers_withUser (store : Store) (user : User) :
    (store.withUser user).withoutUsers = store.withoutUsers := by
  obtain ⟨_ | _, _⟩ := store <;> rfl

theorem remoteGardens_withoutUsers (store : Store) :
    store.withoutUsers.remoteGardens = store.remoteGardens := by
  obtain ⟨_ | tables, _ | _⟩ := store <;> try rfl
  simp only [withoutUsers, remoteGardens, Option.map_some, query_open]

theorem remoteGardens_withUser (store : Store) (user : User) :
    (store.withUser user).remoteGardens = store.remoteGardens := by
  rw [← remoteGardens_withoutUsers, withoutUsers_withUser, remoteGardens_withoutUsers]

theorem mem_userRows_withUser {store : Store} (h : row ∈ (store.withUser user).userRows) :
    row = .ofUser user ∨ row ∈ store.userRows := by
  obtain ⟨_ | tables, _⟩ := store
  · cases h
  · exact mem_upsertBy h

-- ---------------------------------------------------------------------------
-- Statements that succeed on any store
-- ---------------------------------------------------------------------------

theorem statement_ok {store after : Store}
    (h : store.statement table run = .ok (value, after)) :
    ∃ tables changed, store.tables = some tables ∧ run tables = .ok (value, changed) ∧
      after = { store with tables := some changed } := by
  unfold statement at h
  split at h
  · cases h
  · split at h
    · cases h
    · rename_i tables htables
      cases hrun : run tables with
      | error e => simp [hrun, bind, Except.bind] at h
      | ok result =>
        simp only [hrun, bind, Except.bind, Except.ok.injEq, Prod.mk.injEq] at h
        obtain ⟨rfl, rfl⟩ := h
        exact ⟨tables, result.2, htables, hrun, rfl⟩

theorem query_ok {store : Store} (h : store.query table run = .ok value) :
    ∃ tables, store.tables = some tables ∧ run tables = .ok value := by
  unfold query at h
  obtain ⟨⟨_, after⟩, ran, rfl⟩ := map_ok.mp h
  obtain ⟨tables, changed, htables, hrun, -⟩ := statement_ok ran
  refine ⟨tables, htables, ?_⟩
  cases hresult : run tables with
  | error e => simp [hresult, bind, Except.bind] at hrun
  | ok result =>
    simp only [hresult, bind, Except.bind, Except.ok.injEq, Prod.mk.injEq] at hrun
    rw [hrun.1]

theorem putUser_ok {store : Store} (h : store.putUser user = .ok after) :
    after = store.withUser user := by
  unfold Store.putUser at h
  obtain ⟨⟨_, _⟩, ran, rfl⟩ := map_ok.mp h
  obtain ⟨tables, changed, htables, hrun, rfl⟩ := statement_ok ran
  cases hrun
  simp [withUser, htables]

theorem putShadow_ok {store : Store} (h : store.putShadow shadow = .ok after) :
    after.userRows = store.userRows ∧ after.remoteGardens = store.remoteGardens := by
  unfold Store.putShadow at h
  obtain ⟨⟨_, _⟩, ran, rfl⟩ := map_ok.mp h
  obtain ⟨tables, changed, htables, hrun, rfl⟩ := statement_ok ran
  cases hrun
  obtain ⟨_, isOpen⟩ := store
  cases htables
  refine ⟨rfl, ?_⟩
  cases isOpen with
  | true => simp only [remoteGardens, query_open]
  | false => rfl

theorem users_ok {store : Store} {held : List User} (h : store.users = .ok held)
    (hmem : user ∈ held) :
    ∃ row ∈ store.userRows, row.toUser = .ok user := by
  obtain ⟨tables, htables, hread⟩ := query_ok h
  obtain ⟨row, hrow, huser⟩ := (mem_mapM hread).mp hmem
  rw [List.mem_mergeSort] at hrow
  refine ⟨row, ?_, huser⟩
  simpa [userRows, htables] using hrow

theorem user?_ok {store : Store} (h : store.user? username = .ok (some user)) :
    ∃ row ∈ store.userRows, row.toUser = .ok user ∧ row.username = username := by
  obtain ⟨tables, htables, hread⟩ := query_ok h
  cases hfound : tables.users.find? fun row => row.username = username with
  | none =>
    rw [hfound] at hread
    cases hread
  | some row =>
    rw [hfound] at hread
    obtain ⟨_, huser, same⟩ := map_ok.mp hread
    cases same
    refine ⟨row, ?_, huser, by simpa using List.find?_some hfound⟩
    simpa [userRows, htables] using List.mem_of_find?_eq_some hfound

end Store

end Federation
