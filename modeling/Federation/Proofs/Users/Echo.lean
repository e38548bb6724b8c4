import Federation.Proofs.Users.Traffic

/-!
# What a push brings back

A garden pushes its users to another one, which imports them and pushes its own back. Nobody is lost
on the way, and nobody's password is, but the assignments that one of the two gardens may not see
are.
-/

namespace Federation

namespace Users

/-- What becomes of a user at `garden` when the user of another garden is pushed there. -/
def received (garden : Garden) (user : User) (held : Option User) : Option User :=
  if (validateUsername user.username).isOk then
    taken (user.filteredFor garden).toSyncedWithCredential held
  else held

theorem accepted?_recordOf (garden : Garden) (user : User) :
    accepted? (user.filteredFor garden).toSyncedWithCredential.toDocument.toJson =
      if (validateUsername user.username).isOk then
        some (user.filteredFor garden).toSyncedWithCredential
      else none := by
  rw [accepted?, SyncedUser.ofJson_toJson, Except.toOption]
  rfl

theorem saidOf_recordsFor (garden : Garden) {users : List User}
    (names : (users.map User.username).Nodup) (username : String) :
    saidOf username (recordsFor users garden) =
      match users.find? fun user => user.username = username with
      | some user =>
        if (validateUsername user.username).isOk then
          [(user.filteredFor garden).toSyncedWithCredential]
        else []
      | none => [] := by
  have picked : saidOf username (recordsFor users garden) =
      (users.filter fun user => user.username = username).filterMap fun user =>
        if (validateUsername user.username).isOk then
          some (user.filteredFor garden).toSyncedWithCredential
        else none := by
    rw [saidOf, recordsFor, List.filterMap_map, List.filter_filterMap, List.filterMap_filter]
    refine List.filterMap_congr fun user _ => ?_
    have named : (user.filteredFor garden).toSyncedWithCredential.username = user.username := rfl
    rw [Function.comp_apply, accepted?_recordOf]
    split <;> simp [Option.filter, named]
  rw [picked, filter_key names]
  cases users.find? fun user => user.username = username with
  | none => rfl
  | some user => by_cases valid : (validateUsername user.username).isOk <;> simp [valid]

theorem foldl_recordsFor (garden : Garden) {users : List User}
    (names : (users.map User.username).Nodup) (username : String) (held : Option User) :
    (recordsFor users garden).foldl (takeIn username) held =
      match users.find? fun user => user.username = username with
      | some user => received garden user held
      | none => held := by
  rw [foldl_takeIn, saidOf_recordsFor garden names]
  cases users.find? fun user => user.username = username with
  | none => rfl
  | some user =>
    simp only [received]
    split <;> rfl

theorem Imported.shown_of_push {sender : Store} (hs : sender.Readable)
    (hu : sender.users = .ok users) (h : Imported (recordsFor users garden) before after)
    (username : String) :
    after.store.shownUser username =
      match sender.shownUser username with
      | some user => received garden user (before.store.shownUser username)
      | none => before.store.shownUser username := by
  obtain ⟨names, found⟩ := hs.find?_users hu
  rw [h.shown, foldl_recordsFor garden names, found]

end Users

/-- What a user is after it was sent to a garden that had `theirs` under its name, and was sent back
from there; `there` and `back` are the gardens as the senders know them. -/
def User.echoed (user : User) (there back : Garden) (theirs : Option User) : User :=
  if (validateUsername user.username).isOk ∧
      (theirs.isSome ∨ (user.filteredFor there).roleAssignments ≠ []) then
    { user with
      password := user.password.or (theirs.bind User.password)
      roleAssignments := ((user.filteredFor there).filteredFor back).roleAssignments }
  else user

theorem User.echoed_eq (user : User) (there back : Garden) {theirs : Option User}
    (same : ∀ other, theirs = some other → other.username = user.username) :
    (match Users.received there user theirs with
      | some other => Users.received back other (some user)
      | none => some user) = some (user.echoed there back theirs) := by
  by_cases valid : (validateUsername user.username).isOk
  · cases theirs with
    | none =>
      by_cases hempty : (user.filteredFor there).roleAssignments = []
      · simp [Users.received, valid, Users.taken, toSyncedWithCredential, toSynced, hempty, echoed]
      · -- The other garden has made a user of what it got, and sends that back.
        have arrived : Users.received there user none = some (user.filteredFor there) := by
          simp [Users.received, valid, Users.taken, toSyncedWithCredential, toSynced, hempty]
        rw [arrived, echoed, if_pos ⟨valid, .inr hempty⟩]
        simp [Users.received, valid, Users.taken, toSyncedWithCredential, toSynced, filteredFor]
    | some other =>
      have arrived : Users.received there user (some other) =
          some ⟨other.username, user.password.or other.password,
            (user.filteredFor there).roleAssignments⟩ := by
        simp [Users.received, valid, Users.taken, toSyncedWithCredential, toSynced, filteredFor]
      have kept : (user.password.or other.password).or user.password =
          user.password.or other.password := by
        cases user.password <;> simp
      rw [arrived, echoed, if_pos ⟨valid, .inl rfl⟩]
      simp [Users.received, valid, Users.taken, toSyncedWithCredential, toSynced, same other rfl,
        filteredFor, kept]
  · cases theirs with
    | none => simp [Users.received, valid, echoed]
    | some other => simp [Users.received, valid, echoed, same other rfl]

namespace UserTraffic

def deliverTo (traffic : UserTraffic) (garden : String) : Option UserTraffic :=
  (traffic.flights.findIdx? fun flight => flight.1 = garden).bind fun index =>
    traffic.step (.deliver index)

/-- A garden pushes its users; the other one takes them in, and the first one takes in what comes
back. -/
def roundTrip (a b : Node) : Option UserTraffic := do
  let sent ← step ⟨[a, b], []⟩ (.push a.name)
  let arrived ← sent.deliverTo b.name
  arrived.deliverTo a.name

theorem deliverTo_sent {traffic : UserTraffic} {node : Node} {remotes : List Garden}
    (hf : traffic.flights.find? (fun flight => flight.1 = garden.name) =
      some (garden.name, Users.syncOperation users garden))
    (h : traffic.garden? garden.name = some node) (hs : node.Syncs remotes) :
    ∃ after held index, after.store.users = .ok held ∧
      Users.Imported (Users.recordsFor users garden) node after ∧
      traffic.deliverTo garden.name =
        some ((traffic.without index).became garden.name after (node.sends held remotes)) := by
  rw [List.find?_eq_bind_findIdx?_getElem?, Option.bind_eq_some_iff] at hf
  obtain ⟨index, hindex, hflight⟩ := hf
  obtain ⟨after, held, hheld, imported, ran⟩ := step_deliver hflight h hs
  refine ⟨after, held, index, hheld, imported, ?_⟩
  rw [deliverTo, hindex, Option.bind_some, ran]

theorem find?_became {traffic : UserTraffic} {name : String}
    (h : traffic.flights.find? (fun flight => flight.1 = name) = none) (index : Nat)
    (other : String) (node : Node) (more : List (String × Operation)) :
    ((traffic.without index).became other node more).flights.find?
        (fun flight => flight.1 = name) = more.find? fun flight => flight.1 = name := by
  have rest : (traffic.without index).flights.find? (fun flight => flight.1 = name) = none := by
    rw [List.find?_eq_none] at h ⊢
    exact fun flight hflight => h flight (List.mem_of_mem_eraseIdx hflight)
  show List.find? _ ((traffic.without index).flights ++ more) = _
  rw [List.find?_append, rest, Option.none_or]

end UserTraffic

structure Node.Knows (node : Node) (remotes : List Garden) (garden : Garden) : Prop where
  found : remotes.find? (fun other => other.name = garden.name) = some garden
  reached : node.reaches garden.name = true

theorem Node.Knows.find?_sends {node : Node} {remotes : List Garden}
    (h : node.Knows remotes garden) (users : List User) :
    (node.sends users remotes).find? (fun flight => flight.1 = garden.name) =
      some (garden.name, Users.syncOperation users garden) := by
  have heard : (node.audience remotes).find? (fun other => other.name = garden.name) =
      some garden := by
    rw [audience, List.find?_filter, ← h.found]
    congr 1
    funext other
    by_cases same : other.name = garden.name
    · simp [same, h.reached]
    · simp [same]
  rw [sends, List.find?_map]
  simp only [Function.comp_def]
  rw [heard, Option.map_some]

theorem Node.Syncs.find?_sends {node : Node} {remotes : List Garden}
    (h : node.Syncs remotes) (users : List User) :
    (node.sends users remotes).find? (fun flight => flight.1 = node.name) = none := by
  simp only [List.find?_eq_none, decide_eq_true_eq]
  intro flight hflight
  obtain ⟨garden, hgarden, rfl⟩ := List.mem_map.mp hflight
  exact (h.proper _ h.remotes garden (List.mem_filter.mp hgarden).1).2

namespace UserTraffic

/-- A push arrives: the garden that has pushed is as it was, the other one has taken the users in
and has pushed on what it then holds. -/
theorem exists_arrival {a b : Node} (ha : a.Syncs remotesOfA) (hb : b.Syncs remotesOfB)
    (there : a.Knows remotesOfA toB) (hthere : toB.name = b.name) :
    ∃ sender receiver users held index,
      a.store.users = .ok users ∧ Users.Imported [] a sender ∧
      receiver.store.users = .ok held ∧ Users.Imported (Users.recordsFor users toB) b receiver ∧
      let sent := became ⟨[a, b], []⟩ a.name sender (a.sends users remotesOfA)
      let arrived := (sent.without index).became b.name receiver (b.sends held remotesOfB)
      step ⟨[a, b], []⟩ (.push a.name) = some sent ∧ sent.deliverTo b.name = some arrived ∧
        arrived.garden? a.name = some sender ∧ arrived.garden? b.name = some receiver := by
  have hba : b.name ≠ a.name := by
    rw [← hthere]
    exact (ha.proper _ ha.remotes toB (List.mem_of_find?_eq_some there.found)).2
  let traffic : UserTraffic := ⟨[a, b], []⟩
  have hA : traffic.garden? a.name = some a := by simp [traffic, garden?]
  have hB : traffic.garden? b.name = some b := by simp [traffic, garden?, Ne.symm hba]
  obtain ⟨sender, users, hUsers, kept, pushed⟩ := step_push hA ha
  let sent := traffic.became a.name sender (a.sends users remotesOfA)
  have hA₁ : sent.garden? a.name = some sender := by
    rw [garden?_became kept.name, if_pos rfl, hA, Option.map_some]
  have hB₁ : sent.garden? b.name = some b := by
    rw [garden?_became kept.name, if_neg hba, hB]
  obtain ⟨receiver, held, index, hHeld, atB, arrived⟩ :=
    deliverTo_sent (there.find?_sends users) (hthere ▸ hB₁) hb
  rw [hthere] at arrived
  refine ⟨sender, receiver, users, held, index, hUsers, kept, hHeld, atB, pushed, arrived, ?_, ?_⟩
  · rw [garden?_became atB.name, if_neg hba.symm]
    exact hA₁
  · rw [garden?_became atB.name, if_pos rfl]
    exact congrArg (Option.map _) hB₁

/-- After a push and its echo the first garden holds its own users echoed, and what the other one
has sent of its own. -/
theorem roundTrip_shown {a b : Node} (ha : a.Syncs remotesOfA) (hb : b.Syncs remotesOfB)
    (there : a.Knows remotesOfA toB) (hthere : toB.name = b.name)
    (back : b.Knows remotesOfB toA) (hback : toA.name = a.name) :
    ∃ after node, roundTrip a b = some after ∧ after.garden? a.name = some node ∧
      node.store.Readable ∧ ∀ username, node.store.shownUser username =
        match a.store.shownUser username with
        | some user => some (user.echoed toB toA (b.store.shownUser username))
        | none => (b.store.shownUser username).bind fun theirs =>
          Users.received toA theirs none := by
  obtain ⟨a₁, b₁, usersOfA, usersOfB, i, hUsersOfA, kept, hUsersOfB, atB, pushed, arrived, hA₁,
    -⟩ := exists_arrival ha hb there hthere
  -- What is still on its way is not for the first garden, so the echo is what reaches it.
  let sent : UserTraffic := became ⟨[a, b], []⟩ a.name a₁ (a.sends usersOfA remotesOfA)
  let echo := (sent.without i).became b.name b₁ (b.sends usersOfB remotesOfB)
  have hecho : echo.flights.find? (fun flight => flight.1 = toA.name) =
      some (toA.name, Users.syncOperation usersOfB toA) := by
    refine (@find?_became sent toA.name ?_ ..).trans (back.find?_sends usersOfB)
    rw [hback]
    exact ha.find?_sends usersOfA
  obtain ⟨a₂, usersOfA', j, -, atA, returned⟩ :=
    deliverTo_sent hecho (hback ▸ hA₁) (kept.syncs ha)
  rw [hback] at returned
  let after := (echo.without j).became a.name a₂ (a₁.sends usersOfA' remotesOfA)
  refine ⟨after, a₂, ?_, ?_, atA.readable, fun username => ?_⟩
  · simp only [roundTrip, bind]
    rw [pushed, Option.bind_some, arrived, Option.bind_some]
    exact returned
  · rw [garden?_became (atA.name.trans kept.name), if_pos rfl]
    exact congrArg (Option.map _) hA₁
  · rw [atA.shown_of_push atB.readable hUsersOfB, atB.shown_of_push ha.readable hUsersOfA,
      kept.shown, List.foldl_nil]
    cases held : a.store.shownUser username with
    | none => cases b.store.shownUser username <;> rfl
    | some user =>
      refine user.echoed_eq toB toA fun other hother => ?_
      rw [hb.readable.username_shownUser hother, ha.readable.username_shownUser held]

/-- A push and its echo lose no user: each one that the first garden held is there, echoed. -/
theorem roundTrip_echoed {a b : Node} (ha : a.Syncs remotesOfA) (hb : b.Syncs remotesOfB)
    (there : a.Knows remotesOfA toB) (hthere : toB.name = b.name)
    (back : b.Knows remotesOfB toA) (hback : toA.name = a.name) :
    ∃ after node, roundTrip a b = some after ∧ after.garden? a.name = some node ∧
      ∀ username user, a.store.user? username = .ok (some user) →
        ∃ theirs, b.store.user? username = .ok theirs ∧
          node.store.user? username = .ok (some (user.echoed toB toA theirs)) := by
  obtain ⟨after, node, ran, found, readable, shown⟩ :=
    roundTrip_shown ha hb there hthere back hback
  refine ⟨after, node, ran, found, fun username user huser => ?_⟩
  have held : a.store.shownUser username = some user := by
    rw [ha.readable.user?] at huser
    exact Except.ok.inj huser
  refine ⟨b.store.shownUser username, hb.readable.user? username, ?_⟩
  rw [readable.user?, shown, held]

theorem home_knows_next : homeNode.Knows [nextDoor] nextDoor := ⟨rfl, rfl⟩

theorem next_knows_home : nextNode.Knows [home] home := ⟨rfl, rfl⟩

theorem roundTrip_echoed_keeper :
    ∃ after node, roundTrip homeNode nextNode = some after ∧
      after.garden? "home" = some node ∧
      ∃ theirs, nextNode.store.user? "keeper" = .ok theirs ∧
        node.store.user? "keeper" = .ok (some (keeper.echoed nextDoor home theirs)) := by
  obtain ⟨after, node, ran, found, kept⟩ := roundTrip_echoed syncs_homeNode syncs_nextNode
    home_knows_next rfl next_knows_home rfl
  exact ⟨after, node, ran, found, kept "keeper" keeper user?_homeNode⟩

/-- The garden next door gets one of the two assignments, and what it sends back takes the place of
both. -/
theorem roundTrip_forgets :
    homeNode.store.user? "keeper" = .ok (some keeper) ∧
      ∃ after node, roundTrip homeNode nextNode = some after ∧
        after.garden? "home" = some node ∧
        node.store.user? "keeper" = .ok (some ⟨"keeper", none, [⟨⟨"reader", []⟩, .global⟩]⟩) := by
  obtain ⟨after, node, ran, found, readable, shown⟩ := roundTrip_shown syncs_homeNode
    syncs_nextNode home_knows_next rfl next_knows_home rfl
  refine ⟨user?_homeNode, after, node, ran, found, ?_⟩
  have held := user?_homeNode
  rw [syncs_homeNode.readable.user?, Except.ok.injEq] at held
  have nobody : nextNode.store.shownUser "keeper" = none :=
    Node.shownUser_linkedTo syncs_nextNode.readable "keeper"
  rw [readable.user?, shown, held, nobody]
  rfl

end UserTraffic

end Federation
