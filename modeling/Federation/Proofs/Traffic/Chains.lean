import Federation.Proofs.Store.Listing
import Federation.Proofs.Wire.Exchange

/-!
# Operations that are handed on

Along a chain of gardens each of which only knows the way to the next one, an operation for the last
garden comes to what it would come to there. It runs there once, and the gardens in between do
nothing but to ask the next one and to reply.
-/

namespace Federation

-- ---------------------------------------------------------------------------
-- Gardens on the way
-- ---------------------------------------------------------------------------

structure Hop where
  path : RemotePath
  id : String
  next : Node

def Hop.served (hop : Hop) (operation : Operation) : Node :=
  (hop.path.exchange hop.id hop.next operation).2

structure Node.Reaches (node : Node) (name : String) (hop : Hop) : Prop where
  away : node.name ≠ name
  entry : ∃ garden, node.registry.get? name =
    some ⟨garden, some (hop.path.linkTo hop.id hop.next)⟩
  address : hop.path.replyDestination ≠ ""
  sink : hop.next.sink.connected = true

/-- Every garden on the way to the last one reaches its name over the next garden. -/
def Chain (last : Node) : Node → List Hop → Prop
  | node, [] => node = last
  | node, hop :: rest => node.Reaches last.name hop ∧ Chain last hop.next rest

def Node.did (node : Node) (effect : Effect) : Node :=
  { node with effects := node.effects ++ [effect] }

-- ---------------------------------------------------------------------------
-- What the last garden answers
-- ---------------------------------------------------------------------------

theorem Operation.operationType_ne_empty {operation : Operation}
    (h : operation.kind? = some kind) : operation.operationType ≠ "" := by
  rw [kind?_eq_some.mp h]
  cases kind <;> decide

theorem Action.returns_here {operation : Operation} {node after : Node}
    (named : operation.target? = some node.name)
    (hrun : (route operation).run node = (.ok response, after)) :
    (response.modelClass = ModelClass.job ∨ response.modelClass = ModelClass.ack) ∧
      response.payload.Sorted := by
  rw [route, maxDepth, routeWithin, run_routeBy] at hrun
  cases hdecide : node.decide operation with
  | error failure =>
    rw [hdecide] at hrun
    cases hrun
  | ok way =>
    rw [hdecide] at hrun
    obtain ⟨kind, -, rfl | ⟨garden, link, other, away, -⟩⟩ := Node.decide_cases hdecide
    · exact returns_handle _ kind operation node response after hrun
    · exact absurd (Option.some.inj (other.symm.trans named)) away

theorem Outcome.isAnswer_here {operation : Operation} {node after : Node}
    (named : operation.target? = some node.name)
    (hrun : (Action.route operation).run node = (result, after)) :
    (ofResult result).IsAnswer ∧ ∀ response, result = .ok response →
      response.modelClass ≠ ModelClass.error ∧ response.payload.Sorted := by
  cases result with
  | error failure => exact ⟨isAnswer_failure _, fun _ h => nomatch h⟩
  | ok response =>
    obtain ⟨classed, sorted⟩ := Action.returns_here named hrun
    refine ⟨isAnswer_success classed, ?_⟩
    rintro _ ⟨⟩
    refine ⟨?_, sorted⟩
    rcases classed with classed | classed <;> rw [classed] <;> decide

theorem Outcome.isPortable_here {operation : Operation} {node after : Node}
    (named : operation.target? = some node.name)
    (hrun : (Action.route operation).run node = (result, after))
    (fits : ∀ response, result = .ok response →
      response.payload.toDocument.Only Number.ReadsBack ∧
        response.payload.toDocument.depth ≤ Document.maxDepth) :
    (ofResult result).IsPortable := by
  obtain ⟨-, classed⟩ := isAnswer_here named hrun
  cases result with
  | error failure => exact trivial
  | ok response => exact ⟨(classed _ rfl).1, (classed _ rfl).2, fits _ rfl⟩

theorem Outcome.isPlain_here {operation : Operation} {node after : Node}
    (named : operation.target? = some node.name)
    (hrun : (Action.route operation).run node = (result, after))
    (fits : ∀ response, result = .ok response →
      response.payload.toDocument.Only Number.IsInteger ∧
        response.payload.toDocument.depth ≤ Document.maxDepth) :
    (ofResult result).IsPlain ∧ (ofResult result).IsAnswer := by
  obtain ⟨isAnswer, classed⟩ := isAnswer_here named hrun
  refine ⟨?_, isAnswer⟩
  cases result with
  | error failure => exact trivial
  | ok response => exact ⟨(classed _ rfl).1, (classed _ rfl).2, fits _ rfl⟩

-- ---------------------------------------------------------------------------
-- One garden on the way
-- ---------------------------------------------------------------------------

theorem Operation.withoutWaitTimeout_idem (operation : Operation) :
    operation.withoutWaitTimeout.withoutWaitTimeout = operation.withoutWaitTimeout := by
  simp [withoutWaitTimeout]

theorem Node.Reaches.run_request {node after : Node} {target : String} {hop : Hop}
    {operation : Operation} (h : node.Reaches target hop) (hkind : operation.kind? = some kind)
    (job : kind.expectsReply = true) (named : operation.target? = some target)
    (portable : operation.withoutWaitTimeout.IsPortable)
    (next : (Action.route operation.withoutWaitTimeout).run hop.next = (result, after))
    (isAnswer : (Outcome.ofResult result).IsAnswer) :
    ∃ reply sent,
      (Action.route operation).run node = (RemotePath.readReply reply,
        node.did (.request target operation.withoutWaitTimeout operation.waitTimeout?)) ∧
      reply.modelClass? = some (Outcome.ofResult result).modelClass ∧
      reply.body = (Outcome.ofResult result).encode ∧
      hop.served operation.withoutWaitTimeout =
        after.did (.send hop.path.replyDestination sent) := by
  obtain ⟨garden, entry⟩ := h.entry
  have typed : operation.withoutWaitTimeout.operationType ≠ "" :=
    Operation.operationType_ne_empty hkind
  have stripped : (Action.route operation.withoutWaitTimeout.withoutWaitTimeout).run hop.next =
      (result, after) := by
    rw [operation.withoutWaitTimeout_idem, next]
  obtain ⟨reply, sent, exchanged, classed, body⟩ := hop.path.exchange_eq hop.id portable typed
    h.address h.sink stripped isAnswer
  have decided := Node.decide_away hkind named h.away.symm entry rfl
  rw [if_pos job] at decided
  refine ⟨reply, sent, ?_, classed, body, ?_⟩
  · rw [Action.route, Action.maxDepth, Action.routeWithin, Action.run_routeBy, decided]
    simp only [Action.request, Action.run_bind, Action.run_get, Action.run_emit,
      RemotePath.linkTo, exchanged, Option.map_some, Option.getD_some, RemotePath.conclude]
    cases RemotePath.readReply reply <;> rfl
  · rw [Hop.served, exchanged]
    rfl

theorem Node.Reaches.run_route {node after : Node} {target : String} {hop : Hop}
    {operation : Operation} (h : node.Reaches target hop) (hkind : operation.kind? = some kind)
    (job : kind.expectsReply = true) (named : operation.target? = some target)
    (portable : operation.withoutWaitTimeout.IsPortable)
    (next : (Action.route operation.withoutWaitTimeout).run hop.next = (result, after))
    (outcome : (Outcome.ofResult result).IsPortable)
    (isAnswer : (Outcome.ofResult result).IsAnswer) :
    ∃ sent,
      (Action.route operation).run node = (Outcome.told result,
        node.did (.request target operation.withoutWaitTimeout operation.waitTimeout?)) ∧
      hop.served operation.withoutWaitTimeout =
        after.did (.send hop.path.replyDestination sent) := by
  obtain ⟨reply, sent, ran, classed, body, served⟩ :=
    h.run_request hkind job named portable next isAnswer
  rw [RemotePath.readReply_heard classed body, Outcome.heard_ofResult outcome] at ran
  exact ⟨sent, ran, served⟩

-- ---------------------------------------------------------------------------
-- The whole way
-- ---------------------------------------------------------------------------

section Chains

variable {last after : Node} {operation : Operation}

/-- What a garden on the way, or the last one, is after it has run the operation. -/
def Node.ran (node last after : Node) (operation : Operation) : Node :=
  if node.name = last.name then after
  else node.did (.request last.name operation operation.waitTimeout?)

def Hop.Serves (hop : Hop) (last after : Node) (operation : Operation) : Prop :=
  ∃ reply, hop.served operation =
    (hop.next.ran last after operation).did (.send hop.path.replyDestination reply)

/-- From any garden on the way the operation comes to what it comes to in the last one. -/
theorem Chain.run_stripped {node : Node} {hops : List Hop} (chain : Chain last node hops)
    (stripped : operation.withoutWaitTimeout = operation) (hkind : operation.kind? = some kind)
    (job : kind.expectsReply = true) (named : operation.target? = some last.name)
    (plain : operation.IsPlain) (direct : (Action.route operation).run last = (result, after))
    (outcome : (Outcome.ofResult result).IsPlain ∧ (Outcome.ofResult result).IsAnswer) :
    ∃ answer, (Action.route operation).run node = (answer, node.ran last after operation) ∧
      Outcome.ofResult answer = Outcome.ofResult result ∧
      ∀ hop ∈ hops, hop.Serves last after operation := by
  induction hops generalizing node with
  | nil =>
    obtain rfl : node = last := chain
    exact ⟨result, by rw [direct, Node.ran, if_pos rfl], rfl, by simp⟩
  | cons hop rest ih =>
    obtain ⟨reaches, chain⟩ := chain
    obtain ⟨passed, next, same, served⟩ := ih chain
    rw [← same] at outcome
    obtain ⟨reply, ran, replied⟩ := reaches.run_route hkind job named
      (stripped.symm ▸ plain.isPortable) (stripped.symm ▸ next) outcome.1.isPortable outcome.2
    rw [stripped] at ran replied
    refine ⟨_, ?_, (Outcome.ofResult_told passed).trans same,
      List.forall_mem_cons.mpr ⟨⟨reply, replied⟩, served⟩⟩
    rw [ran, Node.ran, if_neg reaches.away]

/-- An operation on jobs comes to the same wherever on the way it is asked for; it runs once, in the
last garden, and all others are left as they are. -/
theorem route_chain {head : Node} {hops : List Hop} (chain : Chain last head hops)
    (distant : hops ≠ []) (hkind : operation.kind? = some kind) (job : kind ≠ .userSync)
    (named : operation.target? = some last.name) (plain : operation.withoutWaitTimeout.IsPlain)
    (direct : (Action.route operation.withoutWaitTimeout).run last = (result, after))
    (fits : ∀ response, result = .ok response →
      response.payload.toDocument.Only Number.IsInteger ∧
        response.payload.toDocument.depth ≤ Document.maxDepth) :
    ∃ answer, (Action.route operation).run head = (answer,
        head.did (.request last.name operation.withoutWaitTimeout operation.waitTimeout?)) ∧
      Outcome.ofResult answer = Outcome.ofResult result ∧
      ∀ hop ∈ hops, hop.Serves last after operation.withoutWaitTimeout := by
  have expects : kind.expectsReply = true := by simpa [OperationKind.expectsReply] using job
  have here : operation.withoutWaitTimeout.target? = some last.name := named
  have outcome := Outcome.isPlain_here here direct fits
  cases hops with
  | nil => exact absurd rfl distant
  | cons hop rest =>
    obtain ⟨reaches, chain⟩ := chain
    obtain ⟨passed, next, same, served⟩ := chain.run_stripped operation.withoutWaitTimeout_idem
      hkind expects named plain direct outcome
    rw [← same] at outcome
    obtain ⟨reply, ran, replied⟩ :=
      reaches.run_route hkind expects named plain.isPortable next outcome.1.isPortable outcome.2
    exact ⟨_, ran, (Outcome.ofResult_told passed).trans same,
      List.forall_mem_cons.mpr ⟨⟨reply, replied⟩, served⟩⟩

end Chains

-- ---------------------------------------------------------------------------
-- Three gardens
-- ---------------------------------------------------------------------------

namespace Relay

def far : Node where
  name := "far"
  handlers := Jobs.kinds
  store := { tables := some { jobs := [.ofJob (Store.nightly "1" 0)] } }
  supply := ⟨fun _ => "far", fun _ plain => plain, default⟩

def toFar (name : String) (hop : Hop) : Node where
  name := name
  registry := [("far", ⟨⟨"far", some .stomp, []⟩, some (hop.path.linkTo hop.id hop.next)⟩)]
  supply := ⟨fun _ => name, fun _ plain => plain, default⟩

def lastHop : Hop := ⟨⟨"far", "far.operations", "middle.replies", "middle"⟩, "2", far⟩

def firstHop : Hop :=
  ⟨⟨"far", "middle.operations", "near.replies", "near"⟩, "1", toFar "middle" lastHop⟩

def listing : Operation := (Operation.ofKind .jobReadAll).withTarget "far"

def jobsOfFar : Response := ⟨ModelClass.job, .array [(Store.nightly "1" 0).toDocument.toJson]⟩

theorem plain_jobsOfFar {p : Number → Prop} :
    jobsOfFar.payload.toDocument.Only p ∧
      jobsOfFar.payload.toDocument.depth ≤ Document.maxDepth := by
  have only : (Store.nightly "1" 0).toDocument.Only p := by
    simp [Job.toDocument, Store.nightly, Document.only_object, Document.Only]
  have depth : (Store.nightly "1" 0).toDocument.toJson.toDocument.depth ≤ 126 :=
    Nat.le_trans (Document.depth_toJson _) (by decide)
  constructor
  · simpa [jobsOfFar, Document.only_array] using Document.only_toJson only
  · simpa [jobsOfFar, Document.depth_array_le, Document.maxDepth] using depth

theorem run_readAll {operation : Operation} (hkind : operation.kind? = some .jobReadAll)
    (here : operation.isLocalTo "far" = true) (all : Jobs.filterOf operation = []) :
    (Action.route operation).run far = (.ok jobsOfFar, far) := by
  have jobs : far.store.jobs (Jobs.filterOf operation) = .ok [Store.nightly "1" 0] := by
    have keeps : far.store.KeepsJobs [Store.nightly "1" 0] := ⟨rfl, rfl⟩
    have listable : (Store.nightly "1" 0).Listable := Store.listable_nightly (by decide) "1"
    rw [all, keeps.jobs (List.forall_mem_singleton.mpr listable.within)]
    simp only [Store.listed, List.filter_cons, List.filter_nil, List.all_nil, if_true,
      List.mergeSort_singleton]
    rfl
  rw [Action.run_route_here hkind (by decide) here, if_pos (by decide)]
  simp [Jobs.handle, Jobs.list, jobs, Except.map, jobsOfFar]

/-- The job of the last garden is listed for the first one. -/
theorem route_near : ∃ answer, (Action.route listing).run (toFar "near" firstHop) = (answer,
      (toFar "near" firstHop).did (.request "far" listing none)) ∧
    Outcome.ofResult answer = .success jobsOfFar := by
  have near : (toFar "near" firstHop).Reaches "far" firstHop :=
    ⟨by decide, ⟨_, rfl⟩, by decide, rfl⟩
  have middle : (toFar "middle" lastHop).Reaches "far" lastHop :=
    ⟨by decide, ⟨_, rfl⟩, by decide, rfl⟩
  have chain : Chain far (toFar "near" firstHop) [firstHop, lastHop] := ⟨near, middle, rfl⟩
  have fits : ∀ response, (.ok jobsOfFar : Except Failure Response) = .ok response →
      response.payload.toDocument.Only Number.IsInteger ∧
        response.payload.toDocument.depth ≤ Document.maxDepth := by
    rintro response ⟨⟩
    exact plain_jobsOfFar
  have kind : listing.kind? = some .jobReadAll := rfl
  obtain ⟨answer, ran, same, -⟩ := route_chain chain (by simp) kind (by decide) rfl
    (Operation.isPlain_of_bare rfl rfl)
    (run_readAll kind rfl rfl) fits
  exact ⟨answer, ran, same⟩

end Relay

end Federation
