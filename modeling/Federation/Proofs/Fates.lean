import Federation.Proofs.Routing
import Federation.Proofs.Traffic.Chains

/-!
# What becomes of an operation

An operation is refused, or one handler gets it as it is, or it goes over one link without the bound
on the wait. Which of these it is depends on its kind, its target, the handlers and the registry; and
whatever the handlers do, routing itself does nothing more.
-/

namespace Federation

def Operation.IsFor (operation : Operation) (garden : String) : Prop :=
  operation.targetGardenName = none ∨ operation.targetGardenName = some "" ∨
    operation.targetGardenName = some garden

structure Operation.Leaves (operation : Operation) (garden target : String) : Prop where
  names : operation.targetGardenName = some target
  named : target ≠ ""
  other : target ≠ garden

structure Operation.Stripped (operation sent : Operation) : Prop where
  operationType : sent.operationType = operation.operationType
  target : sent.targetGardenName = operation.targetGardenName
  args : sent.args = operation.args
  order : sent.kwargs.Sublist operation.kwargs
  kwargs (key : String) :
    sent.kwarg? key = if key = Operation.waitTimeoutKey then none else operation.kwarg? key

/-- The operation names a positive number of seconds, and these fit into a span. -/
def Operation.AsksToWait (operation : Operation) (limit : Duration) : Prop :=
  ∃ value seconds, operation.kwarg? waitTimeoutKey = some value ∧ value.double? = some seconds ∧
    seconds.isPositive = true ∧ Duration.ofDouble? seconds = some limit

theorem Operation.waitTimeout?_eq_some {operation : Operation} {limit : Duration} :
    operation.waitTimeout? = some limit ↔ operation.AsksToWait limit := by
  simp [waitTimeout?, AsksToWait, Option.bind_eq_some_iff]

theorem Operation.isLocalTo_iff {operation : Operation} :
    operation.isLocalTo garden = true ↔ operation.IsFor garden := by
  cases h : operation.targetGardenName with
  | none => simp [isLocalTo, IsFor, target?, h]
  | some target =>
    by_cases unnamed : target = ""
    · simp [isLocalTo, IsFor, target?, Option.filter, h, unnamed]
    · simp [isLocalTo, IsFor, target?, Option.filter, h, unnamed]

theorem Operation.Leaves.target?_eq {operation : Operation} (h : operation.Leaves garden target) :
    operation.target? = some target := by
  simp [target?, h.names, h.named]

theorem Operation.leaves_of_not_isFor {operation : Operation} (h : ¬ operation.IsFor garden) :
    ∃ target, operation.Leaves garden target := by
  obtain ⟨absent, unnamed, other⟩ : operation.targetGardenName ≠ none ∧
      operation.targetGardenName ≠ some "" ∧ operation.targetGardenName ≠ some garden := by
    simpa [IsFor] using h
  obtain ⟨target, htarget⟩ := Option.ne_none_iff_exists'.mp absent
  rw [htarget] at unnamed other
  exact ⟨target, htarget, by simpa using unnamed, by simpa using other⟩

theorem Operation.stripped_withoutWaitTimeout (operation : Operation) :
    operation.Stripped operation.withoutWaitTimeout where
  operationType := rfl
  target := rfl
  args := rfl
  order := List.filter_sublist
  kwargs key := lookup_filter_ne operation.kwargs waitTimeoutKey key

namespace Action

theorem run_routeBy_refused {operation : Operation} {node : Node} {failure : Failure}
    (h : node.decide operation = .error failure)
    (handle : OperationKind → Operation → Action Response) :
    (routeBy handle operation).run node = (.error failure, node) := by
  rw [run_routeBy, h]
  rfl

theorem run_publishing {garden : String} {link : Link} {operation : Operation} {node : Node} :
    (do publish garden link operation; pure .ack : Action Response).run node =
      ((link.publish node.effects operation).map fun _ => .ack,
        node.did (.publish garden operation)) := by
  simp only [publish, run_bind, run_get, run_emit]
  cases link.publish node.effects operation <;> rfl

theorem run_request {garden : String} {link : Link} {operation : Operation}
    {wait : Option Duration} {node : Node} :
    (request garden link operation wait).run node =
      (link.request node.effects operation wait, node.did (.request garden operation wait)) := by
  simp only [request, run_bind, run_get, run_emit]
  cases link.request node.effects operation wait <;> rfl

end Action

inductive Fate where
  | unknown
  | unhandled (kind : OperationKind)
  | handled (kind : OperationKind)
  | unregistered (garden : String)
  | unconnected (garden : String)
  | published (garden : String) (link : Link)
  | requested (garden : String) (link : Link)

namespace Fate

def Fits (node : Node) (operation : Operation) : Fate → Prop
  | .unknown => ∀ kind : OperationKind, operation.operationType ≠ kind.name
  | .unhandled kind =>
    operation.operationType = kind.name ∧ operation.IsFor node.name ∧ kind ∉ node.handlers
  | .handled kind =>
    operation.operationType = kind.name ∧ operation.IsFor node.name ∧ kind ∈ node.handlers
  | .unregistered garden =>
    (∃ kind : OperationKind, operation.operationType = kind.name) ∧
      operation.Leaves node.name garden ∧ node.registry.get? garden = none
  | .unconnected garden =>
    (∃ kind : OperationKind, operation.operationType = kind.name) ∧
      operation.Leaves node.name garden ∧ ∃ entry, node.registry.get? garden = some entry ∧
        ∀ link, entry.link = some link → link.connected = false
  | .published garden link =>
    operation.operationType = OperationKind.userSync.name ∧ operation.Leaves node.name garden ∧
      ∃ entry, node.registry.get? garden = some entry ∧ entry.link = some link ∧
        link.connected = true
  | .requested garden link =>
    (∃ kind : OperationKind, operation.operationType = kind.name ∧ kind ≠ .userSync) ∧
      operation.Leaves node.name garden ∧
      ∃ entry, node.registry.get? garden = some entry ∧ entry.link = some link ∧
        link.connected = true

/-- What routing does then. The garden is as it was wherever nothing is called. -/
def Happens (handle : OperationKind → Operation → Action Response) (node : Node)
    (operation : Operation) : Fate → Prop
  | .unknown | .unhandled _ | .unregistered _ =>
    ∃ failure, (Action.routeBy handle operation).run node = (.error failure, node) ∧
      failure.kind = .routing
  | .handled kind =>
    (Action.routeBy handle operation).run node = (handle kind operation).run node
  | .unconnected _ =>
    ∃ failure, (Action.routeBy handle operation).run node = (.error failure, node) ∧
      failure.kind = .remoteUnreachable
  | .published garden link =>
    ∃ sent, operation.Stripped sent ∧ (Action.routeBy handle operation).run node =
      ((link.publish node.effects sent).map fun _ => .ack, node.did (.publish garden sent))
  | .requested garden link =>
    ∃ sent wait, operation.Stripped sent ∧
      (∀ limit, wait = some limit ↔ operation.AsksToWait limit) ∧
      (Action.routeBy handle operation).run node =
        (link.request node.effects sent wait, node.did (.request garden sent wait))

theorem exists_fits (node : Node) (operation : Operation) :
    ∃ fate : Fate, fate.Fits node operation := by
  by_cases typed : ∃ kind : OperationKind, operation.operationType = kind.name
  case neg => exact ⟨.unknown, not_exists.mp typed⟩
  obtain ⟨kind, hkind⟩ := typed
  by_cases here : operation.IsFor node.name
  · by_cases known : kind ∈ node.handlers
    · exact ⟨.handled kind, hkind, here, known⟩
    · exact ⟨.unhandled kind, hkind, here, known⟩
  · obtain ⟨garden, leaves⟩ := Operation.leaves_of_not_isFor here
    cases hentry : node.registry.get? garden with
    | none => exact ⟨.unregistered garden, ⟨kind, hkind⟩, leaves, hentry⟩
    | some entry =>
      by_cases live : ∃ link, entry.link = some link ∧ link.connected = true
      · obtain ⟨link, linked, connected⟩ := live
        by_cases sync : kind = .userSync
        · exact ⟨.published garden link, sync ▸ hkind, leaves, entry, hentry, linked, connected⟩
        · exact ⟨.requested garden link, ⟨kind, hkind, sync⟩, leaves, entry, hentry, linked,
            connected⟩
      · refine ⟨.unconnected garden, ⟨kind, hkind⟩, leaves, entry, hentry, fun link linked => ?_⟩
        exact Bool.eq_false_iff.mpr fun connected => live ⟨link, linked, connected⟩

theorem Fits.unique {fate other : Fate} (h : fate.Fits node operation)
    (h' : other.Fits node operation) : other = fate := by
  have same {kind kind' : OperationKind} (h : operation.operationType = kind.name)
      (h' : operation.operationType = kind'.name) : kind = kind' :=
    OperationKind.name_inj.mp (h.symm.trans h')
  cases fate <;> cases other <;> grind [Fits, Operation.IsFor, Operation.Leaves]

theorem Fits.happens {fate : Fate} (h : fate.Fits node operation)
    (handle : OperationKind → Operation → Action Response) :
    fate.Happens handle node operation := by
  have here {name : String} (isFor : operation.IsFor name) : operation.isLocalTo name = true :=
    Operation.isLocalTo_iff.mpr isFor
  have known {kind : OperationKind} (named : operation.operationType = kind.name) :
      operation.kind? = some kind := Operation.kind?_eq_some.mpr named
  have live {entry : RegistryEntry} {link : Link} (linked : entry.link = some link)
      (connected : link.connected = true) : Registry.liveLink? entry = some link := by
    simp [Registry.liveLink?, linked, connected]
  cases fate with
  | unknown =>
    have decided : node.decide operation = .error (.unknownOperation operation.operationType) := by
      rw [Node.decide, Operation.kind?_eq_none.mpr h]
    exact ⟨_, Action.run_routeBy_refused decided handle, rfl⟩
  | unhandled kind =>
    obtain ⟨hkind, isFor, unhandled⟩ := h
    have decided : node.decide operation = .error (.noHandler kind.name) := by
      simp [Node.decide, known hkind, here isFor, unhandled]
    exact ⟨_, Action.run_routeBy_refused decided handle, rfl⟩
  | handled kind =>
    obtain ⟨hkind, isFor, handled⟩ := h
    have decided : node.decide operation = .ok (.handle kind) := by
      simp [Node.decide, known hkind, here isFor, handled]
    show (Action.routeBy handle operation).run node = _
    rw [Action.run_routeBy, decided]
  | unregistered garden =>
    obtain ⟨⟨kind, hkind⟩, leaves, absent⟩ := h
    have remote := Node.isLocalTo_away leaves.target?_eq leaves.other
    have decided : node.decide operation = .error (.unknownGarden garden) := by
      simp [Node.decide, known hkind, remote, leaves.target?_eq, absent]
    exact ⟨_, Action.run_routeBy_refused decided handle, rfl⟩
  | unconnected garden =>
    obtain ⟨⟨kind, hkind⟩, leaves, entry, hentry, dead⟩ := h
    have unlinked : Registry.liveLink? entry = none := by
      rw [Registry.liveLink?, Option.filter_eq_none_iff]
      intro link linked
      simp [dead link linked]
    have decided :=
      Node.decide_unconnected (known hkind) leaves.target?_eq leaves.other hentry unlinked
    exact ⟨_, Action.run_routeBy_refused decided handle, rfl⟩
  | published garden link =>
    obtain ⟨hkind, leaves, entry, hentry, linked, connected⟩ := h
    refine ⟨_, operation.stripped_withoutWaitTimeout, ?_⟩
    rw [Action.run_routeBy, Node.decide_away (known hkind) leaves.target?_eq leaves.other hentry
      (live linked connected)]
    exact Action.run_publishing
  | requested garden link =>
    obtain ⟨⟨kind, hkind, job⟩, leaves, entry, hentry, linked, connected⟩ := h
    have expects : kind.expectsReply = true := by simpa [OperationKind.expectsReply] using job
    refine ⟨_, _, operation.stripped_withoutWaitTimeout,
      fun _ => Operation.waitTimeout?_eq_some, ?_⟩
    rw [Action.run_routeBy, Node.decide_away (known hkind) leaves.target?_eq leaves.other hentry
      (live linked connected), if_pos expects]
    exact Action.run_request

end Fate

/-- Of an operation one thing becomes, and no other: routing refuses it and does nothing, or gives it
to one handler as it is, or makes one call on one link. -/
theorem Action.run_routeBy_fate (handle : OperationKind → Operation → Action Response) (node : Node)
    (operation : Operation) :
    ∃ fate : Fate, (fate.Fits node operation ∧ fate.Happens handle node operation) ∧
      ∀ other : Fate, other.Fits node operation → other = fate := by
  obtain ⟨fate, fits⟩ := Fate.exists_fits node operation
  exact ⟨fate, ⟨fits, fits.happens handle⟩, fun _ => fits.unique⟩

end Federation
