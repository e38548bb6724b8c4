import Federation.Proofs.Users.Nesting
import Federation.Proofs.Users.Traffic
import Mathlib.Data.List.TakeWhile

/-!
# The same list imported again

A second import of one list can leave something else than the first. A record without assignments
does nothing about a user that is not there, so that a credential which it carries is passed over;
once a later record has created the user, the same record is taken in. What both runs do is a fold
over the rows that the users table has, whether or not they can be read.
-/

namespace Federation

section Upsert

variable [DecidableEq κ] {key : α → κ} {row : α} {rows others : List α}

theorem keys_upsertBy (key : α → κ) (row : α) (rows : List α) :
    (upsertBy key row rows).map key =
      if key row ∈ rows.map key then rows.map key else rows.map key ++ [key row] := by
  induction rows with
  | nil => rfl
  | cons first rest ih =>
    rw [upsertBy]
    by_cases same : key first = key row
    · simp [same]
    · have other : ¬ key row = key first := fun h => same h.symm
      simp only [if_neg same, List.map_cons, ih, List.mem_cons, other, false_or]
      split <;> rfl

theorem eq_of_find?_eq (keyed : (rows.map key).Nodup) (keys : others.map key = rows.map key)
    (same : ∀ k, others.find? (fun r => key r = k) = rows.find? (fun r => key r = k)) :
    others = rows := by
  induction rows generalizing others with
  | nil => exact List.map_eq_nil_iff.mp keys
  | cons row rest ih =>
    obtain ⟨first, others, rfl, first_key, keys⟩ := List.map_eq_cons_iff.mp keys
    obtain ⟨fresh, keyed⟩ := List.nodup_cons.mp keyed
    have heads : first = row := by simpa [first_key] using same (key row)
    have tails : others = rest := by
      refine ih keyed keys fun k => ?_
      by_cases own : key row = k
      · have absent : ∀ {table : List α}, table.map key = rest.map key →
            table.find? (fun r => key r = k) = none := by
          intro table htable
          refine List.find?_eq_none.mpr fun r hr found => fresh ?_
          rw [own, ← of_decide_eq_true found, ← htable]
          exact List.mem_map_of_mem hr
        rw [absent keys, absent rfl]
      · simpa [own, first_key] using same k
    rw [heads, tails]

end Upsert

theorem UserRow.ofUser_inj {user other : User} : ofUser user = ofUser other ↔ user = other := by
  refine ⟨fun same => ?_, congrArg _⟩
  have read := congrArg toUser same
  rw [toUser_ofUser, toUser_ofUser] at read
  exact Except.ok.inj read

namespace Users

open Federation.Action

-- ---------------------------------------------------------------------------
-- A list of records and one row
-- ---------------------------------------------------------------------------

def rowAfter (said : List SyncedUser) (row : Option UserRow) : Option UserRow :=
  said.foldl (fun row synced => rowTaken synced row) row

def credential (said : List SyncedUser) (held : Option String) : Option String :=
  said.foldl (fun held synced => synced.hashedPassword.or held) held

/-- The records of a new user carry a credential, but only before the first one with assignments:
before there is a user who could have it. -/
def givesTooEarly (said : List SyncedUser) : Bool :=
  let early := said.takeWhile fun synced => synced.roleAssignments.isEmpty
  let late := said.dropWhile fun synced => synced.roleAssignments.isEmpty
  !late.isEmpty && early.any (·.hashedPassword.isSome) && late.all (·.hashedPassword.isNone)

theorem rowAfter_append (said more : List SyncedUser) (row : Option UserRow) :
    rowAfter (said ++ more) row = rowAfter more (rowAfter said row) := List.foldl_append

theorem credential_append (said more : List SyncedUser) (held : Option String) :
    credential (said ++ more) held = credential more (credential said held) := List.foldl_append

theorem credential_eq (said : List SyncedUser) (held : Option String) :
    credential said held = (credential said none).or held := by
  induction said generalizing held with
  | nil => rfl
  | cons synced rest ih =>
    show credential rest (synced.hashedPassword.or held) =
      (credential rest (synced.hashedPassword.or none)).or held
    rw [ih, ih (synced.hashedPassword.or none), Option.or_none, Option.or_assoc]

theorem credential_eq_none_iff (said : List SyncedUser) :
    credential said none = none ↔ ∀ synced ∈ said, synced.hashedPassword = none := by
  induction said with
  | nil => simp [credential]
  | cons synced rest ih =>
    have first : credential (synced :: rest) none =
        (credential rest none).or synced.hashedPassword := by
      rw [← credential_eq, credential, List.foldl_cons, Option.or_none]
      rfl
    rw [first, Option.or_eq_none_iff, ih, List.forall_mem_cons, and_comm]

theorem rowAfter_unreadable {row : UserRow} (h : row.toUser = .error e) (said : List SyncedUser) :
    rowAfter said (some row) = some row := by
  induction said with
  | nil => rfl
  | cons synced rest ih => rw [rowAfter, List.foldl_cons, rowTaken_unreadable h]; exact ih

theorem rowAfter_readable {row : UserRow} (h : row.toUser = .ok user) {said : List SyncedUser}
    (some_said : said ≠ []) :
    rowAfter said (some row) =
      some (.ofUser ⟨user.username, credential said user.password,
        (said.getLast some_said).roleAssignments⟩) := by
  induction said generalizing row user with
  | nil => exact absurd rfl some_said
  | cons synced rest ih =>
    rw [rowAfter, List.foldl_cons, rowTaken_readable h]
    cases rest with
    | nil => rfl
    | cons next rest =>
      rw [List.getLast_cons (List.cons_ne_nil next rest)]
      exact ih (UserRow.toUser_ofUser _) (List.cons_ne_nil next rest)

/-- A user that the first record creates is as if it had been there without a credential. -/
theorem rowAfter_created {first : SyncedUser} (given : first.roleAssignments ≠ [])
    (rest : List SyncedUser) :
    rowAfter (first :: rest) none =
      some (.ofUser ⟨first.username, credential (first :: rest) none,
        ((first :: rest).getLast (List.cons_ne_nil first rest)).roleAssignments⟩) := by
  have there := UserRow.toUser_ofUser { username := first.username }
  have same : rowTaken first none = rowTaken first (some (.ofUser { username := first.username })) := by
    rw [rowTaken_none, if_neg given, rowTaken_readable there, Option.or_none]
  rw [← rowAfter_readable there, rowAfter, List.foldl_cons, same]
  rfl

theorem rowAfter_passed {early : List SyncedUser} (h : ∀ synced ∈ early, synced.roleAssignments = []) :
    rowAfter early none = none := by
  induction early with
  | nil => rfl
  | cons synced rest ih =>
    obtain ⟨none_given, others⟩ := List.forall_mem_cons.mp h
    rw [rowAfter, List.foldl_cons, rowTaken_none, if_pos none_given]
    exact ih others

/-- A new user is there from the first record with assignments on, if there is one. -/
theorem early_late (said : List SyncedUser) :
    (∀ synced ∈ said, synced.roleAssignments = []) ∨
      ∃ early first rest, said = early ++ first :: rest ∧
        (∀ synced ∈ early, synced.roleAssignments = []) ∧ first.roleAssignments ≠ [] := by
  induction said with
  | nil => exact .inl (List.forall_mem_nil _)
  | cons synced more ih =>
    by_cases given : synced.roleAssignments = []
    · refine ih.imp (fun others => List.forall_mem_cons.mpr ⟨given, others⟩) ?_
      rintro ⟨early, first, rest, rfl, passed, creates⟩
      exact ⟨synced :: early, first, rest, rfl, List.forall_mem_cons.mpr ⟨given, passed⟩, creates⟩
    · exact .inr ⟨[], synced, more, rfl, List.forall_mem_nil _, given⟩

theorem givesTooEarly_of_passed (h : ∀ synced ∈ said, synced.roleAssignments = []) :
    givesTooEarly said = false := by
  have none_late : (said.dropWhile fun synced => synced.roleAssignments.isEmpty) = [] :=
    List.dropWhile_eq_nil_iff.mpr fun synced hmem => List.isEmpty_iff.mpr (h synced hmem)
  simp [givesTooEarly, none_late]

theorem givesTooEarly_iff (passed : ∀ synced ∈ early, synced.roleAssignments = [])
    (creates : first.roleAssignments ≠ []) :
    givesTooEarly (early ++ first :: rest) = true ↔
      credential early none ≠ none ∧ credential (first :: rest) none = none := by
  have skipped : ∀ synced ∈ early, synced.roleAssignments.isEmpty = true :=
    fun synced hmem => List.isEmpty_iff.mpr (passed synced hmem)
  have early_part : (early ++ first :: rest).takeWhile
      (fun synced => synced.roleAssignments.isEmpty) = early := by
    rw [List.takeWhile_append_of_pos skipped, List.takeWhile_cons, if_neg (by simpa using creates),
      List.append_nil]
  have late_part : (early ++ first :: rest).dropWhile
      (fun synced => synced.roleAssignments.isEmpty) = first :: rest := by
    rw [List.dropWhile_append_of_pos skipped, List.dropWhile_cons, if_neg (by simpa using creates)]
  simp only [givesTooEarly, early_part, late_part, ne_eq, credential_eq_none_iff]
  simp [Option.isSome_iff_ne_none]

/-- The records for one name, taken in again: they find what they left, unless they found nothing the
first time and gave a credential too early. -/
theorem rowAfter_again (said : List SyncedUser) (row : Option UserRow) :
    rowAfter said (rowAfter said row) = rowAfter said row ↔
      row.isSome = true ∨ givesTooEarly said = false := by
  cases row with
  | some row =>
    refine ⟨fun _ => .inl rfl, fun _ => ?_⟩
    cases hread : row.toUser with
    | error e => rw [rowAfter_unreadable hread, rowAfter_unreadable hread]
    | ok user =>
      by_cases nothing : said = []
      · rw [nothing]
        rfl
      · rw [rowAfter_readable hread nothing, rowAfter_readable (UserRow.toUser_ofUser _) nothing]
        simp only
        rw [credential_eq said (credential said user.password), credential_eq said user.password,
          ← Option.or_assoc, Option.or_self]
  | none =>
    obtain passed | ⟨early, first, rest, rfl, passed, creates⟩ := early_late said
    · simp only [rowAfter_passed passed, givesTooEarly_of_passed passed, or_true]
    · have some_said : early ++ first :: rest ≠ [] := by simp
      have last : (early ++ first :: rest).getLast some_said =
          (first :: rest).getLast (List.cons_ne_nil first rest) := by
        rw [List.getLast_append_of_ne_nil]
      have once : rowAfter (early ++ first :: rest) none = rowAfter (first :: rest) none := by
        rw [rowAfter_append, rowAfter_passed passed]
      rw [once, rowAfter_created creates, rowAfter_readable (UserRow.toUser_ofUser _) some_said,
        last, Option.some_inj, UserRow.ofUser_inj, User.mk.injEq, ← Bool.not_eq_true,
        givesTooEarly_iff passed creates, credential_append, credential_eq early,
        credential_eq _ (Option.or ..)]
      cases credential (first :: rest) none <;> simp

-- ---------------------------------------------------------------------------
-- A list of records and the table
-- ---------------------------------------------------------------------------

theorem names_takeRow (rows : List UserRow) (synced : SyncedUser) :
    (takeRow rows synced).map UserRow.username =
      if synced.username ∈ rows.map UserRow.username ∨ synced.roleAssignments = [] then
        rows.map UserRow.username
      else rows.map UserRow.username ++ [synced.username] := by
  obtain ⟨-, none_given, -, same⟩ | ⟨known, row, named, -, same⟩ := takeRow_cases rows synced
  · rw [same, if_pos (.inr none_given)]
  · rw [same, keys_upsertBy, named]
    by_cases present : synced.username ∈ rows.map UserRow.username
    · rw [if_pos present, if_pos (.inl present)]
    · have given := known.resolve_left present
      rw [if_neg present, if_neg (not_or.mpr ⟨present, given⟩)]

theorem find?_foldl_takeRow (rows : List UserRow) (all : List SyncedUser) (username : String) :
    (all.foldl takeRow rows).find? (fun row => row.username = username) =
      rowAfter (all.filter fun synced => synced.username = username)
        (rows.find? fun row => row.username = username) := by
  induction all generalizing rows with
  | nil => rfl
  | cons synced rest ih =>
    rw [List.foldl_cons, ih, find?_takeRow, List.filter_cons]
    by_cases own : synced.username = username
    · simp only [own, if_true, decide_true]
      rfl
    · simp only [own, if_false, decide_false, Bool.false_eq_true]

theorem nodup_foldl_takeRow (keyed : (rows.map UserRow.username).Nodup) (all : List SyncedUser) :
    ((all.foldl takeRow rows).map UserRow.username).Nodup := by
  induction all generalizing rows with
  | nil => exact keyed
  | cons synced rest ih => exact ih (nodup_takeRow keyed synced)

theorem mem_names_foldl_takeRow {rows : List UserRow}
    (h : username ∈ rows.map UserRow.username) (all : List SyncedUser) :
    username ∈ (all.foldl takeRow rows).map UserRow.username := by
  induction all generalizing rows with
  | nil => exact h
  | cons synced rest ih =>
    refine ih ?_
    rw [names_takeRow]
    split
    · exact h
    · exact List.mem_append_left _ h

theorem settled_foldl_takeRow (rows : List UserRow) (all : List SyncedUser) :
    ∀ synced ∈ all, synced.username ∈ (all.foldl takeRow rows).map UserRow.username ∨
      synced.roleAssignments = [] := by
  induction all generalizing rows with
  | nil => exact List.forall_mem_nil _
  | cons synced rest ih =>
    refine List.forall_mem_cons.mpr ⟨?_, ih _⟩
    by_cases none_given : synced.roleAssignments = []
    · exact .inr none_given
    · refine .inl (mem_names_foldl_takeRow ?_ rest)
      rw [names_takeRow]
      split
      case isTrue known => exact known.resolve_right none_given
      case isFalse => exact List.mem_append_right _ (List.mem_singleton_self _)

theorem names_foldl_takeRow {all : List SyncedUser} {rows : List UserRow}
    (h : ∀ synced ∈ all, synced.username ∈ rows.map UserRow.username ∨ synced.roleAssignments = []) :
    (all.foldl takeRow rows).map UserRow.username = rows.map UserRow.username := by
  induction all generalizing rows with
  | nil => rfl
  | cons synced rest ih =>
    obtain ⟨first, others⟩ := List.forall_mem_cons.mp h
    have same : (takeRow rows synced).map UserRow.username = rows.map UserRow.username := by
      rw [names_takeRow, if_pos first]
    rw [List.foldl_cons, ih (same ▸ others), same]

theorem foldl_takeRow_again (keyed : (rows.map UserRow.username).Nodup) (records : List Json) :
    let all := records.filterMap accepted?
    all.foldl takeRow (all.foldl takeRow rows) = all.foldl takeRow rows ↔
      ∀ username, username ∈ rows.map UserRow.username ∨
        givesTooEarly (saidOf username records) = false := by
  intro all
  have one (username : String) :
      (all.foldl takeRow (all.foldl takeRow rows)).find? (fun row => row.username = username) =
          (all.foldl takeRow rows).find? (fun row => row.username = username) ↔
        username ∈ rows.map UserRow.username ∨ givesTooEarly (saidOf username records) = false := by
    rw [find?_foldl_takeRow, find?_foldl_takeRow, ← find?_isSome_iff]
    exact rowAfter_again _ _
  constructor
  · intro same username
    exact (one username).mp (congrArg _ same)
  · intro settled
    refine eq_of_find?_eq (nodup_foldl_takeRow keyed all)
      (names_foldl_takeRow (settled_foldl_takeRow rows all)) fun username => ?_
    exact (one username).mpr (settled username)

-- ---------------------------------------------------------------------------
-- The import of a garden
-- ---------------------------------------------------------------------------

section

variable {node : Node} {tables : Tables}

theorem run_imports_open (h : node.store = ⟨some tables, true⟩) (records : List Json) :
    ∃ after, (records.forM tryImport).run node = (.ok (), after) ∧
      after.store = storeWith tables ((records.filterMap accepted?).foldl takeRow tables.users) := by
  induction records generalizing node tables with
  | nil => exact ⟨node, rfl, h⟩
  | cons record rest ih =>
    obtain ⟨middle, first, -, taken_in⟩ := run_tryImport_open h record
    obtain ⟨after, others, stored⟩ := ih taken_in
    refine ⟨after, (run_forM_cons first rest).trans others, ?_⟩
    rw [stored, List.filterMap_cons]
    cases accepted? record <;> rfl

def synced (depth : Nat) (records : List Json) (node : Node) : Node :=
  ((sync (routeWithin (depth + 1)) records).run node).2

theorem store_synced (h : node.store = ⟨some tables, true⟩) (remotes : node.ProperRemotes)
    (depth : Nat) (records : List Json) :
    (synced depth records node).store =
        storeWith tables ((records.filterMap accepted?).foldl takeRow tables.users) ∧
      (synced depth records node).ProperRemotes := by
  obtain ⟨middle, ran, stored⟩ := run_imports_open h records
  have proper := properRemotes_imports remotes ran
  obtain ⟨effects, logs, same⟩ := push_keeps (Action.handle (routeWithin depth)) proper
  have after : synced depth records node = { middle with effects, logs } := by
    rw [synced, sync, run_bind, ran]
    exact same
  rw [after]
  exact ⟨stored, proper⟩

end

end Users

def Store.userTables (store : Store) : Option (List UserRow × List ShadowRow) :=
  store.tables.map fun tables => (tables.users, tables.shadows)

namespace Users

/-- Importing a list twice leaves the user tables as importing it once does, exactly if no user that
was not there yet is given a credential too early. Another import changes nothing any more. -/
theorem sync_again {node : Node} {tables : Tables} (h : node.store = ⟨some tables, true⟩)
    (keyed : (tables.users.map UserRow.username).Nodup) (remotes : node.ProperRemotes)
    (depth : Nat) (records : List Json) :
    let once := synced depth records node
    let twice := synced depth records once
    (twice.store.userTables = once.store.userTables ↔
      ∀ username, username ∈ tables.users.map UserRow.username ∨
        givesTooEarly (saidOf username records) = false) ∧
    (synced depth records twice).store.userTables = twice.store.userTables := by
  intro once twice
  let all := records.filterMap accepted?
  obtain ⟨stored, remotes⟩ := store_synced h remotes depth records
  obtain ⟨stored_again, remotes⟩ := store_synced stored remotes depth records
  obtain ⟨stored_still, -⟩ := store_synced stored_again remotes depth records
  have keyed_once := nodup_foldl_takeRow keyed all
  constructor
  · refine Iff.trans ?_ (foldl_takeRow_again keyed records)
    rw [stored_again, stored]
    simp [Store.userTables]
  · have settled : all.foldl takeRow (all.foldl takeRow (all.foldl takeRow tables.users)) =
        all.foldl takeRow (all.foldl takeRow tables.users) := by
      refine (foldl_takeRow_again keyed_once records).mpr fun username => ?_
      obtain passed | ⟨early, first, rest, said, -, creates⟩ :=
        early_late (saidOf username records)
      · exact .inr (givesTooEarly_of_passed passed)
      · have first_said : first ∈ saidOf username records := by simp [said]
        obtain ⟨accepted, named⟩ := List.mem_filter.mp first_said
        rw [← of_decide_eq_true named]
        exact .inl ((settled_foldl_takeRow tables.users all first accepted).resolve_right creates)
    rw [stored_still, stored_again]
    simpa [Store.userTables] using settled

def earlySaid : List SyncedUser :=
  [{ username := "ada", hashedPassword := some "credential" },
    { username := "ada", roleAssignments := [⟨⟨"reader", []⟩, .global⟩] }]

def earlyRecords : List Json := earlySaid.map fun synced => synced.toDocument.toJson

theorem accepted_earlyRecords : earlyRecords.filterMap accepted? = earlySaid := by
  have valid : (validateUsername "ada").isOk = true := by decide
  simp [earlyRecords, earlySaid, accepted?, SyncedUser.ofJson_toJson, Except.toOption,
    Option.filter, valid]

theorem saidOf_earlyRecords : saidOf "ada" earlyRecords = earlySaid := by
  rw [saidOf, accepted_earlyRecords]
  rfl

theorem sync_again_earlyRecords :
    let once := synced 7 earlyRecords UserTraffic.homeNode
    let twice := synced 7 earlyRecords once
    twice.store.userTables ≠ once.store.userTables ∧
      (synced 7 earlyRecords twice).store.userTables = twice.store.userTables := by
  have opened : UserTraffic.homeNode.store = ⟨some {
      gardens := [.ofGarden UserTraffic.nextDoor]
      users := [.ofUser UserTraffic.keeper] }, true⟩ := rfl
  obtain ⟨same_iff, settled⟩ := sync_again opened (by simp)
    UserTraffic.syncs_homeNode.proper 7 earlyRecords
  refine ⟨fun same => ?_, settled⟩
  rcases same_iff.mp same "ada" with present | timely
  · simp [UserTraffic.keeper, UserRow.ofUser] at present
  · rw [saidOf_earlyRecords] at timely
    cases timely

end Users

end Federation
