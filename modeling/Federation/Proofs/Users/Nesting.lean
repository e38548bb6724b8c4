import Federation.Proofs.Users.Push

/-!
# How deep operations nest

Handling one operation leads to another only through a push, and a push leaves the garden unless the
garden is its own remote. So nothing nests more than twice where no garden is, and the bound on the
depth is never reached.
-/

namespace Federation

namespace Users

open Federation.Action

-- ---------------------------------------------------------------------------
-- What taking users in leaves alone
-- ---------------------------------------------------------------------------

/-- An invariant that neither what a garden notes down nor a user that it stores can break. -/
structure Lasting (inv : Node → Prop) : Prop where
  noted : ∀ (node : Node) events logs readings, inv node →
    inv { node with events, logs, readings }
  stored : ∀ (node : Node) user store, inv node → node.store.putUser user = .ok store →
    inv { node with store }

namespace Lasting

variable {inv : Node → Prop} (h : Lasting inv)

include h

theorem log (line : String) : (log line).Keeps inv fun _ => True :=
  fun node hnode => ⟨h.noted node _ _ _ hnode, fun _ _ => trivial⟩

theorem fresh (read : Supply → Nat → α) : (fresh read).Keeps inv fun _ => True :=
  fun node hnode => ⟨h.noted node _ _ _ hnode, fun _ _ => trivial⟩

theorem announce (event : GardenEvent) : (announce event).Keeps inv fun _ => True :=
  fun node hnode => ⟨h.noted node _ _ _ hnode, fun _ _ => trivial⟩

theorem putUser (user : User) :
    (change fun store => store.putUser user).Keeps inv fun _ => True :=
  keeps_change fun node hnode store => h.stored node user store hnode

/-- What every update ends with. -/
theorem saved (user : User) : (do
    change fun store => store.putUser user
    let now ← Action.fresh Supply.now
    Action.announce (.userUpdated (← get).name user.toSynced now)
    pure user : Action User).Keeps inv fun _ => True :=
  keeps_bind (h.putUser user) fun _ _ => keeps_bind (h.fresh _) fun _ _ =>
    keeps_bind keeps_get fun _ _ => keeps_bind (h.announce _) fun _ _ => keeps_pure trivial

theorem update (user : User) (patch : Patch) (hashed : Option String) :
    (update user patch hashed).Keeps inv fun _ => True := by
  unfold Users.update
  dsimp only
  split
  · exact keeps_bind (keeps_pure (q := fun _ => True) trivial) fun _ _ => h.saved _
  · exact keeps_bind (keeps_map _ (h.fresh _)) fun _ _ => h.saved _
  · exact keeps_bind (keeps_pure (q := fun _ => True) trivial) fun _ _ => h.saved _

theorem create (username : String) (password : Option String)
    (assignments : List RoleAssignment) :
    (create username password assignments).Keeps inv fun _ => True := by
  have hashed : (password.mapM hash).Keeps inv fun _ => True := by
    cases password with
    | none => exact keeps_pure trivial
    | some plain => exact keeps_map _ (h.fresh _)
  refine keeps_bind (q := fun _ => True) (keeps_ofExcept fun _ _ => trivial) fun _ _ => ?_
  exact keeps_bind hashed fun _ _ => keeps_bind (h.putUser _) fun _ _ => keeps_pure trivial

theorem tryImport (record : Json) : (tryImport record).Keeps inv fun _ => True := by
  refine keeps_settle ?_ fun _ => h.log _
  refine keeps_bind (q := fun _ => True) (keeps_ofExcept fun _ _ => trivial) fun synced _ => ?_
  refine keeps_bind (q := fun _ => True) (keeps_ofExcept fun _ _ => trivial) fun _ _ => ?_
  refine keeps_bind (q := fun _ => True) (keeps_query fun _ _ _ _ => trivial) fun held _ => ?_
  cases held with
  | some user => exact keeps_discard (h.update _ _ _)
  | none =>
    dsimp only
    split
    · exact keeps_pure trivial
    · exact keeps_bind (h.putUser _) fun _ _ => keeps_discard (h.update _ _ _)

theorem imports (records : List Json) : (records.forM Users.tryImport).Keeps inv fun _ => True :=
  keeps_forM fun record _ => h.tryImport record

end Lasting

-- ---------------------------------------------------------------------------
-- Pushes that leave the garden
-- ---------------------------------------------------------------------------

theorem lasting_properRemotes : Lasting Node.ProperRemotes where
  noted _ _ _ _ proper := proper
  stored node user store proper saved gardens listed := by
    rw [Store.putUser_ok saved, Store.remoteGardens_withUser] at listed
    exact proper gardens listed

variable {node : Node} {first second : OperationKind → Operation → Action Response}

theorem properRemotes_imports {after : Node} {records : List Json} (proper : node.ProperRemotes)
    (ran : (records.forM tryImport).run node = (result, after)) : after.ProperRemotes := by
  obtain ⟨still, -⟩ := lasting_properRemotes.imports records node proper
  rwa [ran] at still

theorem run_push_eq (proper : node.ProperRemotes) :
    (push (routeBy first)).run node = (push (routeBy second)).run node := by
  cases hg : node.store.remoteGardens with
  | ok gardens => rw [run_push_routeBy first hg proper, run_push_routeBy second hg proper]
  | error e =>
    simp only [push, run_bind, run_query]
    cases node.store.users with
    | error _ => rfl
    | ok users => simp only [hg]

theorem run_sync_eq (proper : node.ProperRemotes) (records : List Json) :
    (sync (routeBy first) records).run node = (sync (routeBy second) records).run node := by
  rw [sync, sync, run_bind, run_bind]
  rcases hrun : (records.forM tryImport).run node with ⟨_ | _, middle⟩
  · rfl
  · exact run_push_eq (properRemotes_imports proper hrun)

end Users

namespace Action

variable {node : Node} {first second : OperationKind → Operation → Action Response}

theorem run_routeBy_eq (proper : node.ProperRemotes) (operation : Operation) :
    (routeBy (handle (routeBy first)) operation).run node =
      (routeBy (handle (routeBy second)) operation).run node := by
  rw [run_routeBy, run_routeBy]
  cases node.decide operation with
  | error failure => rfl
  | ok way =>
    cases way with
    | handle kind =>
      cases kind with
      | userSync =>
        simp only [handle, Users.handle]
        split
        · rfl
        · rw [run_bind, run_bind, Users.run_sync_eq proper]
      | _ => rfl
    | _ => rfl

/-- Any depth from two on comes to the same, unless the garden would push to itself. -/
theorem run_routeWithin (proper : node.ProperRemotes) (depth : Nat) (operation : Operation) :
    (routeWithin (depth + 2) operation).run node = (route operation).run node :=
  run_routeBy_eq proper operation

end Action

end Federation
