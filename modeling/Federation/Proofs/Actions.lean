import Federation.Routing

/-!
# What actions do when they run

One equation for each way to build an action, so that what a longer action does follows by
rewriting. An action that carries on after every failure makes a loop that is a plain fold over the
states.
-/

namespace Federation.Action

attribute [simp] run_pure run_throw run_bind run_get run_query run_statement

@[simp] theorem run_emit (effect : Effect) (node : Node) :
    (emit effect).run node = (.ok (), { node with effects := node.effects ++ [effect] }) := rfl

@[simp] theorem run_log (line : String) (node : Node) :
    (log line).run node = (.ok (), { node with logs := node.logs ++ [line] }) := rfl

@[simp] theorem run_announce (event : GardenEvent) (node : Node) :
    (announce event).run node = (.ok (), { node with events := node.events ++ [event] }) := rfl

@[simp] theorem run_fresh (read : Supply → Nat → α) (node : Node) :
    (fresh read).run node =
      (.ok (read node.supply node.readings), { node with readings := node.readings + 1 }) := rfl

@[simp] theorem run_refuse (error : ValidationError) (node : Node) :
    (refuse error : Action α).run node = (.error (.validation error), node) := rfl

@[simp] theorem run_ofExcept (result : Except ValidationError α) (node : Node) :
    (ofExcept result).run node = (result.mapError .validation, node) := by
  cases result <;> rfl

@[simp] theorem run_change (statement : Store → Except StoreError Store) (node : Node) :
    (change statement).run node =
      match statement node.store with
      | .ok store => (.ok (), { node with store })
      | .error e => (.error (.ofStore e), node) := by
  rw [change, run_statement]
  rcases h : statement node.store with e | store <;> rfl

@[simp] theorem run_map (f : α → β) (action : Action α) (node : Node) :
    (f <$> action).run node = ((action.run node).1.map f, (action.run node).2) := by
  rw [map_eq_pure_bind, run_bind]
  rcases action.run node with ⟨_ | _, _⟩ <;> rfl

@[simp] theorem run_discard (action : Action α) (node : Node) :
    (discard action).run node =
      ((action.run node).1.map fun _ => ⟨⟩, (action.run node).2) := run_map _ action node

theorem run_forM_cons {act : α → Action Unit} {node middle : Node}
    (first : (act x).run node = (.ok (), middle)) (xs : List α) :
    ((x :: xs).forM act).run node = (xs.forM act).run middle := by
  rw [List.forM_eq_forM, List.forM_cons, run_bind, first]

theorem run_settle (action : Action α) (recover : Failure → Action α) (node : Node) :
    (settle action recover).run node =
      match action.run node with
      | (.ok value, after) => (.ok value, after)
      | (.error failure, after) => (recover failure).run after := by
  show (ExceptT.tryCatch action recover) node = _
  simp only [ExceptT.tryCatch, ExceptT.mk, bind, StateT.bind, run, ExceptT.run, StateT.run]
  rcases action node with ⟨_ | _, _⟩ <;> rfl

theorem settle_log (action : Action Unit) (line : Failure → String) (node : Node) :
    (settle action fun failure => log (line failure)).run node =
      (.ok (), match action.run node with
        | (.ok (), after) => after
        | (.error failure, after) => { after with logs := after.logs ++ [line failure] }) := by
  rw [run_settle]
  rcases action.run node with ⟨_ | _, _⟩ <;> rfl

end Federation.Action

namespace Federation

-- ---------------------------------------------------------------------------
-- What no action changes
-- ---------------------------------------------------------------------------

/-- The garden is who it was and decides as it did, and has done nothing to others but such. -/
structure Node.Follows (p : Effect → Prop) (before after : Node) : Prop where
  name : after.name = before.name
  handlers : after.handlers = before.handlers
  registry : after.registry = before.registry
  sink : after.sink = before.sink
  effects : ∃ more, after.effects = before.effects ++ more ∧ ∀ effect ∈ more, p effect

theorem Node.Follows.refl {p : Effect → Prop} (node : Node) : node.Follows p node :=
  ⟨rfl, rfl, rfl, rfl, [], by simp, by simp⟩

theorem Node.Follows.trans {p : Effect → Prop} {a b c : Node} (first : a.Follows p b)
    (second : b.Follows p c) : a.Follows p c := by
  obtain ⟨before, hbefore, pbefore⟩ := first.effects
  obtain ⟨after, hafter, pafter⟩ := second.effects
  refine ⟨second.name.trans first.name, second.handlers.trans first.handlers,
    second.registry.trans first.registry, second.sink.trans first.sink, before ++ after, ?_, ?_⟩
  · rw [hafter, hbefore, List.append_assoc]
  · exact List.forall_mem_append.mpr ⟨pbefore, pafter⟩

theorem Node.Follows.silent {before after : Node} (h : before.Follows (fun _ => False) after) :
    after.effects = before.effects := by
  obtain ⟨more, grown, none⟩ := h.effects
  rw [grown, List.eq_nil_iff_forall_not_mem.mpr none, List.append_nil]

theorem Node.Follows.decide {p : Effect → Prop} {before after : Node} (h : before.Follows p after)
    (operation : Operation) : after.decide operation = before.decide operation := by
  simp only [Node.decide, h.name, h.handlers, h.registry]

namespace Action

/-- Whatever it comes to, the action does nothing to others but such. -/
def Does (action : Action α) (p : Effect → Prop) : Prop :=
  ∀ node : Node, node.Follows p (action.run node).2

variable {p : Effect → Prop}

theorem does_pure (value : α) : (pure value : Action α).Does p := fun node => .refl node

theorem does_throw (failure : Failure) : (throw failure : Action α).Does p :=
  fun node => .refl node

theorem does_get : (get : Action Node).Does p := fun node => .refl node

theorem does_refuse (error : ValidationError) : (refuse error : Action α).Does p :=
  fun node => .refl node

theorem does_ofExcept (result : Except ValidationError α) : (ofExcept result).Does p := by
  intro node
  rw [run_ofExcept]
  exact .refl node

theorem does_log (line : String) : (log line).Does p :=
  fun _ => ⟨rfl, rfl, rfl, rfl, [], by simp, by simp⟩

theorem does_announce (event : GardenEvent) : (announce event).Does p :=
  fun _ => ⟨rfl, rfl, rfl, rfl, [], by simp, by simp⟩

theorem does_fresh (read : Supply → Nat → α) : (fresh read).Does p :=
  fun _ => ⟨rfl, rfl, rfl, rfl, [], by simp, by simp⟩

theorem does_emit (h : p effect) : (emit effect).Does p :=
  fun _ => ⟨rfl, rfl, rfl, rfl, [effect], rfl, by simpa using h⟩

theorem does_query (ask : Store → Except StoreError α) : (query ask).Does p := by
  intro node
  rw [run_query]
  cases ask node.store <;> exact .refl node

theorem does_statement (change : Store → Except StoreError (α × Store)) :
    (statement change).Does p := by
  intro node
  rw [run_statement]
  rcases change node.store with _ | ⟨_, _⟩
  · exact .refl node
  · exact ⟨rfl, rfl, rfl, rfl, [], by simp, by simp⟩

theorem does_change (statement : Store → Except StoreError Store) : (change statement).Does p :=
  does_statement _

theorem does_bind {action : Action α} {next : α → Action β} (h : action.Does p)
    (hn : ∀ value, (next value).Does p) : (action >>= next).Does p := by
  intro node
  have first := h node
  rw [run_bind]
  rcases hrun : action.run node with ⟨_ | value, after⟩ <;> rw [hrun] at first
  · exact first
  · exact first.trans (hn value after)

theorem does_map {action : Action α} (f : α → β) (h : action.Does p) :
    (f <$> action).Does p := by
  intro node
  rw [run_map]
  exact h node

theorem does_settle {action : Action α} {recover : Failure → Action α} (h : action.Does p)
    (hr : ∀ failure, (recover failure).Does p) : (settle action recover).Does p := by
  intro node
  have first := h node
  rw [run_settle]
  rcases hrun : action.run node with ⟨failure | _, after⟩ <;> rw [hrun] at first
  · exact first.trans (hr failure after)
  · exact first

theorem does_forM {act : α → Action Unit} {xs : List α} (h : ∀ x ∈ xs, (act x).Does p) :
    (xs.forM act).Does p := by
  induction xs with
  | nil => exact does_pure _
  | cons x xs ih =>
    rw [List.forM_eq_forM] at ih ⊢
    rw [List.forM_cons]
    exact does_bind (h x (List.mem_cons_self ..)) fun _ =>
      ih fun y hy => h y (List.mem_cons_of_mem _ hy)

def Returns (action : Action α) (q : α → Prop) : Prop :=
  ∀ node value after, action.run node = (.ok value, after) → q value

theorem returns_pure {q : α → Prop} (h : q value) : (pure value : Action α).Returns q := by
  intro node result after hrun
  obtain rfl : value = result := by
    rw [run_pure, Prod.mk.injEq, Except.ok.injEq] at hrun
    exact hrun.1
  exact h

theorem returns_throw {q : α → Prop} (failure : Failure) :
    (throw failure : Action α).Returns q := by
  intro node result after hrun
  rw [run_throw] at hrun
  cases hrun

theorem returns_bind {q : β → Prop} {action : Action α} {next : α → Action β}
    (h : ∀ value, (next value).Returns q) : (action >>= next).Returns q := by
  intro node result after hrun
  rw [run_bind] at hrun
  rcases hfirst : action.run node with ⟨_ | value, middle⟩
  · simp [hfirst] at hrun
  · exact h value middle result after (by simpa [hfirst] using hrun)

theorem returns_map {q : β → Prop} {f : α → β} {action : Action α} (h : ∀ value, q (f value)) :
    (f <$> action).Returns q := by
  rw [map_eq_pure_bind]
  exact returns_bind fun value => returns_pure (h value)

-- ---------------------------------------------------------------------------
-- What actions keep
-- ---------------------------------------------------------------------------

/-- A garden that is such is such again afterwards, and what comes out, if anything does, is as `q`
says. -/
def Keeps (action : Action α) (inv : Node → Prop) (q : α → Prop) : Prop :=
  ∀ node, inv node →
    inv (action.run node).2 ∧ ∀ value, (action.run node).1 = .ok value → q value

section Keeps

variable {inv : Node → Prop} {q : α → Prop}

theorem keeps_pure (h : q value) : (pure value : Action α).Keeps inv q := by
  intro node hnode
  refine ⟨hnode, ?_⟩
  rintro result hrun
  cases hrun
  exact h

theorem keeps_throw (failure : Failure) : (throw failure : Action α).Keeps inv q := by
  intro node hnode
  refine ⟨hnode, ?_⟩
  rintro result hrun
  cases hrun

theorem keeps_get : (get : Action Node).Keeps inv inv := by
  intro node hnode
  refine ⟨hnode, ?_⟩
  rintro result hrun
  cases hrun
  exact hnode

theorem keeps_bind {action : Action α} {next : α → Action β} {r : β → Prop}
    (h : action.Keeps inv q) (hn : ∀ value, q value → (next value).Keeps inv r) :
    (action >>= next).Keeps inv r := by
  intro node hnode
  obtain ⟨hmiddle, hvalue⟩ := h node hnode
  rw [run_bind]
  rcases hrun : action.run node with ⟨failure | value, middle⟩ <;> rw [hrun] at hmiddle hvalue
  · exact ⟨hmiddle, fun _ h => nomatch h⟩
  · exact hn value (hvalue value rfl) middle hmiddle

theorem keeps_discard {action : Action α} (h : action.Keeps inv q) :
    (discard action).Keeps inv fun _ => True := by
  intro node hnode
  rw [run_discard]
  exact ⟨(h node hnode).1, fun _ _ => trivial⟩

theorem keeps_map {action : Action α} (f : α → β) (h : action.Keeps inv q) :
    (f <$> action).Keeps inv fun _ => True := by
  rw [map_eq_pure_bind]
  exact keeps_bind h fun _ _ => keeps_pure trivial

theorem keeps_settle {action : Action α} {recover : Failure → Action α} (h : action.Keeps inv q)
    (hr : ∀ failure, (recover failure).Keeps inv q) : (settle action recover).Keeps inv q := by
  intro node hnode
  obtain ⟨hmiddle, hvalue⟩ := h node hnode
  rw [run_settle]
  rcases hrun : action.run node with ⟨failure | value, middle⟩ <;> rw [hrun] at hmiddle hvalue
  · exact hr failure middle hmiddle
  · exact ⟨hmiddle, hvalue⟩

theorem keeps_forM {act : α → Action Unit} {xs : List α}
    (h : ∀ x ∈ xs, (act x).Keeps inv fun _ => True) : (xs.forM act).Keeps inv fun _ => True := by
  induction xs with
  | nil => exact keeps_pure trivial
  | cons x xs ih =>
    rw [List.forM_eq_forM] at ih ⊢
    rw [List.forM_cons]
    refine keeps_bind (h x List.mem_cons_self) fun _ _ => ?_
    exact ih fun y hy => h y (List.mem_cons_of_mem _ hy)

theorem keeps_ofExcept {result : Except ValidationError α}
    (h : ∀ value, result = .ok value → q value) : (ofExcept result).Keeps inv q := by
  cases result with
  | ok value => exact keeps_pure (h value rfl)
  | error e => exact keeps_throw _

theorem keeps_query {ask : Store → Except StoreError α}
    (h : ∀ node, inv node → ∀ value, ask node.store = .ok value → q value) :
    (query ask).Keeps inv q := by
  intro node hnode
  rw [run_query]
  cases hask : ask node.store with
  | error e => exact ⟨hnode, fun _ h => nomatch h⟩
  | ok value =>
    refine ⟨hnode, ?_⟩
    rintro result hrun
    cases hrun
    exact h node hnode value hask

theorem keeps_statement {change : Store → Except StoreError (α × Store)}
    (h : ∀ node, inv node → ∀ value store, change node.store = .ok (value, store) →
      inv { node with store }) :
    (statement change).Keeps inv fun _ => True := by
  intro node hnode
  rw [run_statement]
  rcases hrun : change node.store with e | ⟨value, store⟩
  · exact ⟨hnode, fun _ _ => trivial⟩
  · exact ⟨h node hnode value store hrun, fun _ _ => trivial⟩

theorem keeps_change {statement : Store → Except StoreError Store}
    (h : ∀ node, inv node → ∀ store, statement node.store = .ok store → inv { node with store }) :
    (change statement).Keeps inv fun _ => True := by
  refine keeps_statement fun node hnode _ store hrun => ?_
  cases hstore : statement node.store with
  | error e =>
    rw [hstore] at hrun
    cases hrun
  | ok changed =>
    rw [hstore] at hrun
    cases hrun
    exact h node hnode store hstore

end Keeps

end Action

end Federation
