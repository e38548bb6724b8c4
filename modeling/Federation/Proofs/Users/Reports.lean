import Federation.Proofs.Users.Drift

/-!
# What gardens report of their users

An event names two gardens: the one that it comes from, which decides whether it counts, and the one
that the record belongs to, under which the shadow is kept. Of each garden and each name the last
event that counts is what is known, and nothing else moves. The two gardens are not held against
each other, so it takes an honest sender that a garden is only reported of by itself.
-/

namespace Federation

-- ---------------------------------------------------------------------------
-- Rows of one key
-- ---------------------------------------------------------------------------

theorem filter_upsertBy_of_false [DecidableEq κ] {key : α → κ} {row : α} {p : α → Bool}
    (others : ∀ r, key r = key row → p r = false) (rows : List α) :
    (upsertBy key row rows).filter p = rows.filter p := by
  induction rows with
  | nil => simp [upsertBy, others row rfl]
  | cons first rest ih =>
    by_cases same : key first = key row
    · simp [upsertBy, same, others first same, others row rfl]
    · simp [upsertBy, same, List.filter_cons, ih]

namespace Store

def shadowRows (store : Store) (garden username : String) : List ShadowRow :=
  ((store.tables.map Tables.shadows).getD []).filter fun row => row.key = (garden, username)

def withoutShadow (store : Store) (key : String × String) : Store :=
  { store with
    tables := store.tables.map fun tables =>
      { tables with shadows := tables.shadows.filter fun row => row.key ≠ key } }

variable {store after : Store} {shadow : Shadow}

theorem shadowRows_withoutShadow {garden username : String} (h : (garden, username) ≠ key) :
    (store.withoutShadow key).shadowRows garden username = store.shadowRows garden username := by
  obtain ⟨_ | tables, _⟩ := store
  · rfl
  · simp only [shadowRows, withoutShadow, Option.map_some, Option.getD_some, List.filter_filter]
    refine List.filter_congr fun row _ => ?_
    by_cases same : row.key = (garden, username) <;> simp [same, h]

theorem withoutShadow_putShadow (stored : store.putShadow shadow = .ok after) :
    after.withoutShadow shadow.key = store.withoutShadow shadow.key := by
  obtain ⟨_ | tables, _ | _⟩ := store
  case some.true =>
    rw [putShadow_open] at stored
    cases stored
    have others : ∀ row : ShadowRow, row.key = (ShadowRow.ofShadow shadow).key →
        decide (row.key ≠ shadow.key) = false := fun row same => by
      simpa [ShadowRow.key_ofShadow] using same
    simp only [withoutShadow, Option.map_some, Tables.withShadow, filter_upsertBy_of_false others]
  all_goals cases stored

end Store

-- ---------------------------------------------------------------------------
-- Events in turn
-- ---------------------------------------------------------------------------

namespace Users

def heard (node : Node) (event : GardenEvent) : Node := ((handleEvent event).run node).2

def hear (node : Node) (events : List GardenEvent) : Node := events.foldl heard node

variable {node : Node} {event : GardenEvent}

theorem heard_own (own : event.garden = node.name) : heard node event = node := by
  rw [heard, handleEvent, Action.run_bind, Action.run_get]
  simp only [if_pos own]
  rfl

theorem run_absorb (event : GardenEvent) (node : Node) :
    (absorb event).run node =
      match node.store.putShadow event.shadow with
      | .ok store => (.ok (), { node with store })
      | .error e => (.error (.ofStore e), node) := by
  obtain ⟨garden, time, ⟨update⟩⟩ := event
  exact Action.run_change _ node

theorem heard_foreign (foreign : event.garden ≠ node.name) :
    (∃ store, node.store.putShadow event.shadow = .ok store ∧
      heard node event = { node with store }) ∨
    ∃ e line, node.store.putShadow event.shadow = .error e ∧
      heard node event = { node with logs := node.logs ++ [line] } := by
  rw [heard, handleEvent, Action.run_bind, Action.run_get]
  simp only [if_neg foreign, Action.settle_log, run_absorb]
  cases stored : node.store.putShadow event.shadow with
  | ok store => exact .inl ⟨store, rfl, rfl⟩
  | error e => exact .inr ⟨e, _, rfl, rfl⟩

theorem run_handleEvent (event : GardenEvent) (node : Node) :
    (handleEvent event).run node = (.ok (), heard node event) := by
  refine Prod.ext ?_ rfl
  rw [handleEvent, Action.run_bind, Action.run_get]
  simp only
  split
  · rfl
  · rw [Action.settle_log]

theorem name_heard (node : Node) (event : GardenEvent) :
    (heard node event).name = node.name := by
  by_cases own : event.garden = node.name
  · rw [heard_own own]
  · rcases heard_foreign own with ⟨store, -, after⟩ | ⟨e, line, -, after⟩ <;> rw [after]

theorem withoutShadow_heard (node : Node) (event : GardenEvent) :
    (heard node event).store.withoutShadow event.shadow.key =
      node.store.withoutShadow event.shadow.key := by
  by_cases own : event.garden = node.name
  · rw [heard_own own]
  · rcases heard_foreign own with ⟨store, stored, after⟩ | ⟨e, line, -, after⟩ <;> rw [after]
    exact Store.withoutShadow_putShadow stored

theorem name_hear (node : Node) (events : List GardenEvent) :
    (hear node events).name = node.name := by
  induction events generalizing node with
  | nil => rfl
  | cons event rest ih => exact (ih (heard node event)).trans (name_heard node event)

/-- What is kept under a key stays as long as no event that counts has this key. -/
theorem shadowRows_hear {garden username : String} {events : List GardenEvent} (node : Node)
    (others : ∀ event ∈ events, event.garden ≠ node.name →
      event.shadow.key ≠ (garden, username)) :
    (hear node events).store.shadowRows garden username =
      node.store.shadowRows garden username := by
  induction events generalizing node with
  | nil => rfl
  | cons event rest ih =>
    obtain ⟨first, later⟩ := List.forall_mem_cons.mp others
    refine (ih (heard node event) fun event hmem => ?_).trans ?_
    · rw [name_heard]
      exact later event hmem
    · by_cases own : event.garden = node.name
      · rw [heard_own own]
      · have apart := Ne.symm (first own)
        rw [← Store.shadowRows_withoutShadow apart, withoutShadow_heard,
          Store.shadowRows_withoutShadow apart]

theorem hear_open {tables : Tables} (opened : node.store = ⟨some tables, true⟩)
    (events : List GardenEvent) :
    hear node events = { node with store := ⟨some (tables.withShadows
      ((events.filter fun event => event.garden ≠ node.name).map GardenEvent.shadow)), true⟩ } := by
  induction events generalizing node tables with
  | nil => exact congrArg (fun store => { node with store }) opened
  | cons event rest ih =>
    by_cases own : event.garden = node.name
    · rw [List.filter_cons_of_neg (by simpa using own)]
      have first : hear node (event :: rest) = hear (heard node event) rest := rfl
      rw [first, heard_own own, ih opened]
    · rw [List.filter_cons_of_pos (by simpa using own)]
      have stored := Store.putShadow_open tables event.shadow
      rw [← opened] at stored
      have first : heard node event =
          { node with store := ⟨some (tables.withShadow event.shadow), true⟩ } := by
        rcases heard_foreign own with ⟨store, kept, after⟩ | ⟨e, line, failed, -⟩
        · rw [after, Except.ok.inj (kept.symm.trans stored)]
        · rw [stored] at failed
          cases failed
      have later : hear node (event :: rest) = hear (heard node event) rest := rfl
      rw [later, first, ih rfl]
      rfl

/-- An event of the garden itself changes nothing, and any other one at most the shadow under the
garden and the name that its record gives. So what is kept of a garden stays as it is until another
garden than this one sends a record that names it. -/
theorem hear_confined (node : Node) (earlier : List GardenEvent) (event : GardenEvent) :
    let before := hear node earlier
    let after := hear node (earlier ++ [event])
    (event.garden = node.name → after = before) ∧
      after.store.withoutShadow event.shadow.key = before.store.withoutShadow event.shadow.key ∧
      ∀ garden, (∀ told ∈ earlier ++ [event], told.garden ≠ node.name →
          told.shadow.garden ≠ garden) →
        ∀ username, after.store.shadowRows garden username =
          node.store.shadowRows garden username := by
  intro before after
  have last : after = heard before event := List.foldl_concat ..
  refine ⟨fun own => ?_, ?_, fun garden unnamed username => ?_⟩
  · exact last.trans (heard_own (own.trans (name_hear node earlier).symm))
  · rw [last, withoutShadow_heard]
  · exact shadowRows_hear node fun told hmem foreign same =>
      unnamed told hmem foreign (congrArg Prod.fst same)

def atHour (hour : Nat) : Instant := ⟨⟨2024, 5, 1⟩, hour, 0, 0, 0⟩

theorem valid_atHour {hour : Nat} (h : hour < 24) : (atHour hour).Valid where
  date := show CivilDate.Valid ⟨2024, 5, 1⟩ by decide
  hour := h
  minute := Nat.succ_pos _
  second := Nat.succ_pos _
  nanos := .inl (Nat.succ_pos _)

def reader : SyncedUser := { username := "ada", roleAssignments := [⟨⟨"reader", []⟩, .global⟩] }

def parentNode : Node where
  name := "parent"
  supply := ⟨fun _ => "id", fun _ plain => plain, fun _ => atHour 12⟩

theorem hear_confined_honest :
    hear parentNode [.userUpdated "child" reader (atHour 12),
        .userUpdated "parent" reader (atHour 12)] =
        hear parentNode [.userUpdated "child" reader (atHour 12)] ∧
      (hear parentNode [.userUpdated "child" reader (atHour 12),
        .userUpdated "parent" reader (atHour 12)]).store.shadowRows "parent" "ada" = [] := by
  obtain ⟨own, -, kept⟩ := hear_confined parentNode [.userUpdated "child" reader (atHour 12)]
    (.userUpdated "parent" reader (atHour 12))
  exact ⟨own rfl, kept "parent" (by decide) "ada"⟩

/-- What one garden has to say of a user of another one. -/
def hearsay : GardenEvent := ⟨"child", atHour 12, .userUpdated ⟨"parent", reader, atHour 12⟩⟩

/-- A garden takes in what another one says of its own users. -/
theorem hear_hearsay :
    GardenEvent.decode hearsay.encode = .ok hearsay ∧ hearsay.garden = "child" ∧
      parentNode.name = "parent" ∧ parentNode.store.shadow? "parent" "ada" = .ok none ∧
      (hear parentNode [hearsay]).store.shadow? "parent" "ada" = .ok (some hearsay.shadow) := by
  have valid : hearsay.Valid := ⟨valid_atHour (by decide), valid_atHour (by decide)⟩
  have counts : [hearsay].filter (fun event => event.garden ≠ parentNode.name) = [hearsay] := by
    decide
  refine ⟨valid.decode_encode, rfl, rfl, rfl, ?_⟩
  rw [hear_open rfl, counts]
  exact Store.shadow?_withShadows (List.forall_mem_singleton.mpr valid.update) "parent" "ada"

-- ---------------------------------------------------------------------------
-- The last word
-- ---------------------------------------------------------------------------

inductive Visit where
  | event (event : GardenEvent)
  | reading (ask : Store → Except StoreError Unit)

namespace Visit

def act : Visit → Action Unit
  | .event event => handleEvent event
  | .reading ask => Action.settle (Action.query ask) fun _ => pure ()

def event? : Visit → Option GardenEvent
  | .event event => some event
  | .reading _ => none

theorem run_act (visit : Visit) (node : Node) :
    visit.act.run node = (.ok (), visit.event?.elim node (heard node)) := by
  cases visit with
  | event event => exact run_handleEvent event node
  | reading ask =>
    rw [act, Action.run_settle, Action.run_query]
    cases ask node.store <;> rfl

theorem run_all (visits : List Visit) (node : Node) :
    (visits.forM act).run node = (.ok (), hear node (visits.filterMap event?)) := by
  induction visits generalizing node with
  | nil => rfl
  | cons visit rest ih =>
    rw [Action.run_forM_cons (run_act visit node), ih]
    cases visit <;> rfl

end Visit

def tells (own : String) (key : String × String) (event : GardenEvent) : Bool :=
  event.garden ≠ own ∧ event.shadow.key = key

/-- Of the shadows that events leave, those under one key are left by the events that count. -/
theorem filter_shadows (own : String) (key : String × String) (events : List GardenEvent) :
    (((events.filter fun event => event.garden ≠ own).map GardenEvent.shadow).filter
        fun shadow => shadow.key = key) =
      (events.filter (tells own key)).map GardenEvent.shadow := by
  rw [List.filter_map, List.filter_filter]
  refine congrArg _ (List.filter_congr fun event _ => ?_)
  simp [tells, Bool.and_comm]

theorem run_isSynced_iff (user : User) (garden : Garden) (node : Node) :
    (isSynced user garden).run node = (.ok true, node) ↔
      ∃ shadow, node.store.shadow? garden.name user.username = .ok (some shadow) ∧
        shadow.roleAssignments = (user.filteredFor garden).roleAssignments := by
  rw [isSynced, Action.run_bind, Action.run_query]
  rcases node.store.shadow? garden.name user.username with e | _ | shadow
  · simp
  · simp
  · simp

/-- Whatever events come in, and whatever is read meanwhile, all that changes is which shadows are
kept, one under each key: the one that the last event that counts has left, or where none did what
was there before. A user is found to be in sync exactly if that shadow holds the assignments that
the user has for the garden. -/
theorem run_visits_last {tables : Tables} (opened : node.store = ⟨some tables, true⟩)
    (keyed : (tables.shadows.map ShadowRow.key).Nodup) (visits : List Visit)
    (times : ∀ event ∈ visits.filterMap Visit.event?, event.shadow.updatedAt.Valid) :
    ∃ rows, (rows.map ShadowRow.key).Nodup ∧
      let after : Node := { node with store := ⟨some { tables with shadows := rows }, true⟩ }
      (visits.forM Visit.act).run node = (.ok (), after) ∧
      (∀ garden username,
        match ((visits.filterMap Visit.event?).filter
            (tells node.name (garden, username))).getLast? with
        | some event => after.store.shadow? garden username = .ok (some event.shadow)
        | none => after.store.shadowRows garden username =
            node.store.shadowRows garden username) ∧
      ∀ user garden, (isSynced user garden).run after = (.ok true, after) ↔
        ∃ shadow, after.store.shadow? garden.name user.username = .ok (some shadow) ∧
          shadow.roleAssignments = (user.filteredFor garden).roleAssignments := by
  let events := visits.filterMap Visit.event?
  obtain ⟨rows, made, unique⟩ := Tables.exists_withShadows keyed
    ((events.filter fun event => event.garden ≠ node.name).map GardenEvent.shadow)
  have after : hear node events =
      { node with store := ⟨some { tables with shadows := rows }, true⟩ } := by
    rw [← made]
    exact hear_open opened events
  refine ⟨rows, unique, ?_, fun garden username => ?_, fun user garden => ?_⟩
  · rw [← after]
    exact Visit.run_all visits node
  · split
    case h_1 event last =>
      have valid : ∀ shadow ∈ (events.filter fun event => event.garden ≠ node.name).map
          GardenEvent.shadow, shadow.updatedAt.Valid :=
        List.forall_mem_map.mpr fun event hmem => times event (List.mem_of_mem_filter hmem)
      rw [← made, Store.shadow?_withShadows valid, filter_shadows, List.getLast?_map, last]
      rfl
    case h_2 none =>
      rw [List.getLast?_eq_none_iff, List.filter_eq_nil_iff] at none
      rw [← after]
      exact shadowRows_hear node fun event hmem foreign same =>
        none event hmem (by simp [tells, foreign, same])
  · exact run_isSynced_iff user garden _

def afternoon : List Visit :=
  [.event (.userUpdated "child" reader (atHour 12)),
    .reading fun store => discard (store.shadowsOf "child"),
    .event (.userUpdated "parent" reader (atHour 12)),
    .event (.userUpdated "child" { username := "ada" } (atHour 9))]

theorem run_visits_last_afternoon :
    ∃ after, (afternoon.forM Visit.act).run parentNode = (.ok (), after) ∧
      after.store.shadow? "child" "ada" =
        .ok (some ⟨"child", "ada", [], atHour 9⟩) ∧
      (isSynced ⟨"ada", none, [⟨⟨"reader", []⟩, .garden "home"⟩]⟩ ⟨"child", none, []⟩).run after =
        (.ok true, after) := by
  have times : ∀ event ∈ afternoon.filterMap Visit.event?, event.shadow.updatedAt.Valid := by
    intro event hmem
    have time : event.shadow.updatedAt = atHour 12 ∨ event.shadow.updatedAt = atHour 9 := by
      revert event
      decide
    rcases time with time | time <;> exact time ▸ valid_atHour (by decide)
  obtain ⟨rows, -, ran, last, synced⟩ := @run_visits_last parentNode {} rfl .nil afternoon times
  have told : ((afternoon.filterMap Visit.event?).filter
      (tells parentNode.name ("child", "ada"))).getLast? =
        some (.userUpdated "child" { username := "ada" } (atHour 9)) := by decide
  have found := last "child" "ada"
  rw [told] at found
  exact ⟨_, ran, found, (synced ..).mpr ⟨_, found, by decide⟩⟩

end Users

end Federation
