import Federation.Proofs.Routing
import Federation.Proofs.Users.Import

/-!
# What a push sends

A push makes one attempt for each remote garden, in their order: it publishes one operation for each
that has a live link, and nothing else. Failures on the way end up in the log. A garden must not be
its own remote, or the push would come back to it.
-/

namespace Federation

namespace Node

def reaches (node : Node) (garden : String) : Bool :=
  ((node.registry.get? garden).bind Registry.liveLink?).isSome

def ProperRemotes (node : Node) : Prop :=
  ∀ gardens, node.store.remoteGardens = .ok gardens →
    ∀ garden ∈ gardens, garden.name ≠ "" ∧ garden.name ≠ node.name

def attempted (users : List User) (node : Node) (garden : Garden) : Node :=
  match (node.registry.get? garden.name).bind Registry.liveLink? with
  | none => { node with logs := node.logs ++ ["User sync not sent"] }
  | some link =>
    let operation := Users.syncOperation users garden
    let sent : Node := { node with effects := node.effects ++ [.publish garden.name operation] }
    match link.publish node.effects operation with
    | .ok () => sent
    | .error _ => { sent with logs := sent.logs ++ ["User sync not sent"] }

def audience (node : Node) (gardens : List Garden) : List Garden :=
  gardens.filter fun garden => node.reaches garden.name

def pushed (node : Node) (users : List User) (gardens : List Garden) : List Effect :=
  (node.audience gardens).map fun garden =>
    .publish garden.name (Users.syncOperation users garden)

end Node

namespace Users

open Federation.Action

variable {node : Node} {garden : Garden}

-- ---------------------------------------------------------------------------
-- The operation of a push
-- ---------------------------------------------------------------------------

@[simp] theorem syncOperation_kind? (users : List User) (garden : Garden) :
    (syncOperation users garden).kind? = some .userSync := rfl

theorem syncOperation_target? (users : List User) (h : garden.name ≠ "") :
    (syncOperation users garden).target? = some garden.name := by
  simp [syncOperation, Operation.target?, Operation.withKwarg, Operation.withTarget, h]

@[simp] theorem syncOperation_withoutWaitTimeout (users : List User) (garden : Garden) :
    (syncOperation users garden).withoutWaitTimeout = syncOperation users garden := by
  simp [syncOperation, Operation.withoutWaitTimeout, Operation.withKwarg, Operation.withTarget,
    Operation.ofKind, insertMember_nil, usersKey, Operation.waitTimeoutKey]

theorem name_of_target? (h : (syncOperation users garden).target? = some name) :
    name ≠ "" ∧ garden.name = name := by
  obtain ⟨same, named⟩ := Option.filter_eq_some_iff.mp h
  exact ⟨by simpa using named, Option.some.inj same⟩

theorem isLocalTo_syncOperation (h : (syncOperation users garden).isLocalTo name = true) :
    garden.name = "" ∨ garden.name = name := by
  by_cases unnamed : garden.name = ""
  · exact .inl unnamed
  · rw [Operation.isLocalTo, syncOperation_target? users unnamed] at h
    exact .inr (beq_iff_eq.mp h)

def recordsFor (users : List User) (garden : Garden) : List Json :=
  users.map fun user => (user.filteredFor garden).toSyncedWithCredential.toDocument.toJson

theorem kwargs_syncOperation (users : List User) (garden : Garden) :
    (syncOperation users garden).kwargs = [(usersKey, .array (recordsFor users garden))] := by
  simp [syncOperation, recordsFor, Operation.withKwarg, Operation.withTarget, Operation.ofKind,
    insertMember_nil, Function.comp_def]

@[simp] theorem recordsOf_syncOperation (users : List User) (garden : Garden) :
    recordsOf (syncOperation users garden) = some (recordsFor users garden) := by
  simp [recordsOf, Operation.kwarg?, kwargs_syncOperation, Json.array?]

-- ---------------------------------------------------------------------------
-- Sending
-- ---------------------------------------------------------------------------

theorem attempted_eq (users : List User) (node : Node) (garden : Garden) :
    ∃ logs, node.attempted users garden =
      { node with effects := node.effects ++ node.pushed users [garden], logs } := by
  rw [Node.attempted]
  cases hlink : (node.registry.get? garden.name).bind Registry.liveLink? with
  | none =>
    have unreached : node.pushed users [garden] = [] := by
      simp [Node.pushed, Node.audience, Node.reaches, hlink]
    rw [unreached, List.append_nil]
    exact ⟨_, rfl⟩
  | some link =>
    have reached : node.pushed users [garden] =
        [.publish garden.name (syncOperation users garden)] := by
      simp [Node.pushed, Node.audience, Node.reaches, hlink]
    rw [reached]
    dsimp only
    cases link.publish node.effects (syncOperation users garden) with
    | ok => exact ⟨_, rfl⟩
    | error failure => exact ⟨_, rfl⟩

theorem foldl_attempted_eq (users : List User) (node : Node) (gardens : List Garden) :
    ∃ logs, gardens.foldl (Node.attempted users) node =
      { node with effects := node.effects ++ node.pushed users gardens, logs } := by
  induction gardens generalizing node with
  | nil => exact ⟨node.logs, by simp [Node.pushed, Node.audience]⟩
  | cons garden rest ih =>
    obtain ⟨logs, first⟩ := attempted_eq users node garden
    obtain ⟨logs, others⟩ := ih (node.attempted users garden)
    refine ⟨logs, ?_⟩
    have both : node.pushed users (garden :: rest) =
        node.pushed users [garden] ++ (node.attempted users garden).pushed users rest := by
      rw [first]
      simp only [Node.pushed, ← List.map_append, Node.audience]
      rw [← List.singleton_append, List.filter_append]
      rfl
    rw [List.foldl_cons, others, both, ← List.append_assoc]
    simp only [first]

theorem run_pushTo (handle : OperationKind → Operation → Action Response) (users : List User)
    (hn : garden.name ≠ "") (ho : garden.name ≠ node.name) :
    (pushTo (routeBy handle) users garden).run node = (.ok (), node.attempted users garden) := by
  have kind := syncOperation_kind? users garden
  have target := syncOperation_target? users hn
  rw [pushTo, settle_log, run_discard, run_routeBy, Node.attempted]
  cases hlink : (node.registry.get? garden.name).bind Registry.liveLink? with
  | none =>
    obtain ⟨failure, decided⟩ := Node.decide_unlinked kind target ho hlink
    rw [decided]
    rfl
  | some link =>
    obtain ⟨entry, hentry, live⟩ := Option.bind_eq_some_iff.mp hlink
    have decided : node.decide (syncOperation users garden) =
        .ok (.publish garden.name link (syncOperation users garden)) := by
      rw [Node.decide_away kind target ho hentry live, syncOperation_withoutWaitTimeout]
      rfl
    rw [decided]
    simp only [run_bind, run_get, publish, run_emit]
    cases link.publish node.effects (syncOperation users garden) <;> rfl

theorem run_pushes (handle : OperationKind → Operation → Action Response) (users : List User)
    {gardens : List Garden} (h : ∀ garden ∈ gardens, garden.name ≠ "" ∧ garden.name ≠ node.name) :
    (gardens.forM (pushTo (routeBy handle) users)).run node =
      (.ok (), gardens.foldl (Node.attempted users) node) := by
  induction gardens generalizing node with
  | nil => rfl
  | cons garden rest ih =>
    obtain ⟨⟨hn, ho⟩, others⟩ := List.forall_mem_cons.mp h
    obtain ⟨logs, first⟩ := attempted_eq users node garden
    have name : (node.attempted users garden).name = node.name := by rw [first]
    rw [run_forM_cons (run_pushTo handle users hn ho)]
    exact ih (name ▸ others)

/-- However operations are handled here, a push is one attempt for each remote garden. -/
theorem run_push_routeBy (handle : OperationKind → Operation → Action Response)
    (hg : node.store.remoteGardens = .ok gardens) (h : node.ProperRemotes) :
    (push (routeBy handle)).run node =
      match node.store.users with
      | .ok users => (.ok (), gardens.foldl (Node.attempted users) node)
      | .error e => (.error (.ofStore e), node) := by
  rw [push, run_bind, run_query]
  cases node.store.users with
  | error e => rfl
  | ok users =>
    simp only [run_bind, run_query, hg]
    exact run_pushes handle users (h gardens hg)

theorem push_keeps (handle : OperationKind → Operation → Action Response) (h : node.ProperRemotes) :
    ∃ effects logs, ((push (routeBy handle)).run node).2 = { node with effects, logs } := by
  cases hg : node.store.remoteGardens with
  | error e =>
    rw [push, run_bind, run_query]
    cases node.store.users with
    | error _ => exact ⟨_, _, rfl⟩
    | ok users =>
      simp only [run_bind, run_query, hg]
      exact ⟨_, _, rfl⟩
  | ok gardens =>
    rw [run_push_routeBy handle hg h]
    cases node.store.users with
    | error e => exact ⟨_, _, rfl⟩
    | ok users =>
      obtain ⟨logs, sent⟩ := foldl_attempted_eq users node gardens
      exact ⟨_, logs, sent⟩

theorem run_push (hu : node.store.users = .ok users) (hg : node.store.remoteGardens = .ok gardens)
    (h : node.ProperRemotes) (depth : Nat) :
    ∃ logs, (push (routeWithin (depth + 1))).run node =
      (.ok (), { node with effects := node.effects ++ node.pushed users gardens, logs }) := by
  obtain ⟨logs, same⟩ := foldl_attempted_eq users node gardens
  have ran := run_push_routeBy (Action.handle (routeWithin depth)) hg h
  rw [hu] at ran
  exact ⟨logs, ran.trans (congrArg (Prod.mk _) same)⟩

-- ---------------------------------------------------------------------------
-- A push that arrives
-- ---------------------------------------------------------------------------

theorem Imported.remoteGardens (h : Imported records before after) :
    after.store.remoteGardens = before.store.remoteGardens := by
  rw [← Store.remoteGardens_withoutUsers, h.others, Store.remoteGardens_withoutUsers]

theorem Imported.properRemotes (h : Imported records before after) (hp : before.ProperRemotes) :
    after.ProperRemotes := by
  intro gardens hg garden hmem
  rw [h.name]
  exact hp gardens (h.remoteGardens ▸ hg) garden hmem

theorem Imported.audience (h : Imported records before after) (gardens : List Garden) :
    after.audience gardens = before.audience gardens := by
  simp only [Node.audience, Node.reaches, h.registry]

/-- The garden imports the records and then pushes what it has become. -/
theorem run_sync (h : node.store.Readable) (hg : node.store.remoteGardens = .ok gardens)
    (hp : node.ProperRemotes) (records : List Json) (depth : Nat) :
    ∃ after users, (sync (routeWithin (depth + 1)) records).run node = (.ok (), after) ∧
      Imported records node after ∧ after.store.users = .ok users ∧
      after.effects = node.effects ++ after.pushed users gardens := by
  obtain ⟨middle, taken, silent, imported⟩ := run_imports h records
  obtain ⟨users, hu, -, -⟩ := imported.readable.users
  obtain ⟨logs, sent⟩ := run_push hu (imported.remoteGardens.trans hg)
    (imported.properRemotes hp) depth
  refine ⟨_, users, ?_, imported.noted (middle.effects ++ middle.pushed users gardens) logs, hu, ?_⟩
  · rw [sync, run_bind, taken]
    exact sent
  · rw [silent]
    rfl

theorem run_route_syncOperation (h : node.store.Readable)
    (hg : node.store.remoteGardens = .ok gardens) (hp : node.ProperRemotes)
    (hh : .userSync ∈ node.handlers) (users : List User) (own : garden.name = node.name) :
    ∃ after held, (route (syncOperation users garden)).run node = (.ok .ack, after) ∧
      Imported (recordsFor users garden) node after ∧ after.store.users = .ok held ∧
      after.effects = node.effects ++ after.pushed held gardens := by
  obtain ⟨after, held, ran, result⟩ := run_sync h hg hp (recordsFor users garden) 6
  refine ⟨after, held, ?_, result⟩
  have here : (syncOperation users garden).isLocalTo node.name = true := by
    by_cases hn : garden.name = ""
    · simp [Operation.isLocalTo, syncOperation, Operation.target?, Operation.withKwarg,
        Operation.withTarget, Option.filter, hn]
    · simp [Operation.isLocalTo, syncOperation_target? users hn, own]
  have decided : node.decide (syncOperation users garden) = .ok (.handle .userSync) := by
    simp [Node.decide, here, hh]
  rw [route, maxDepth, routeWithin, run_routeBy, decided]
  simp only [Action.handle, handle, recordsOf_syncOperation, run_bind, ran, run_pure]

end Users

end Federation
