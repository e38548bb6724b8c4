import Federation.Agent
import Federation.Proofs.Http.Requests
import Federation.Proofs.Jobs.Ledger
import Federation.Proofs.Json.Reading
import Federation.Proofs.Store.Legible
import Federation.Proofs.Users.Nesting

/-!
# What a garden can come to

Whatever a garden is asked to do, over whatever way, its store can be read afterwards if it could be
read before. So it can be read in every garden that began with an empty store.
-/

namespace Federation

open Number (IsFinite)

-- ---------------------------------------------------------------------------
-- Sound gardens
-- ---------------------------------------------------------------------------

structure Node.Sound (node : Node) : Prop where
  store : node.store.Legible
  clock : ∀ n, (node.supply.now n).Valid

def Operation.Storable (operation : Operation) : Prop :=
  operation.kind? = some .jobCreate → ∀ definition, operation.record? "job" 0 = some definition →
    JobDefinition.Within IsFinite Document.maxDepth definition

theorem Operation.Legible.storable {operation : Operation} (h : operation.Legible) :
    operation.Storable :=
  fun _ _ found => Jobs.within_of_record h.args h.kwargs found

theorem Operation.storable_of_kind {operation : Operation} (hkind : operation.kind? = some kind)
    (other : kind ≠ .jobCreate) : operation.Storable := by
  intro create
  rw [hkind] at create
  exact absurd (Option.some.inj create) other

namespace Action

theorem keeps_sound {action : Action α} (store : ∀ node, (action.run node).2.store = node.store)
    (supply : ∀ node, (action.run node).2.supply = node.supply) :
    action.Keeps Node.Sound fun _ => True := by
  intro node hnode
  refine ⟨⟨?_, ?_⟩, fun _ _ => trivial⟩
  · rw [store]
    exact hnode.store
  · rw [supply]
    exact hnode.clock

theorem sound_pure (value : α) : (pure value : Action α).Keeps Node.Sound fun _ => True :=
  keeps_pure trivial

theorem sound_emit (effect : Effect) : (emit effect).Keeps Node.Sound fun _ => True :=
  keeps_sound (fun _ => rfl) fun _ => rfl

theorem sound_log (line : String) : (log line).Keeps Node.Sound fun _ => True :=
  keeps_sound (fun _ => rfl) fun _ => rfl

theorem sound_fresh (read : Supply → Nat → α) : (fresh read).Keeps Node.Sound fun _ => True :=
  keeps_sound (fun _ => rfl) fun _ => rfl

theorem sound_now : (fresh Supply.now).Keeps Node.Sound Instant.Valid := by
  intro node hnode
  refine ⟨⟨hnode.store, hnode.clock⟩, ?_⟩
  rintro now ⟨⟩
  exact hnode.clock node.readings

theorem sound_query (ask : Store → Except StoreError α) :
    (query ask).Keeps Node.Sound fun _ => True :=
  keeps_query fun _ _ _ _ => trivial

theorem sound_ofExcept (result : Except ValidationError α) :
    (ofExcept result).Keeps Node.Sound fun _ => True :=
  keeps_ofExcept fun _ _ => trivial

theorem sound_get : (get : Action Node).Keeps Node.Sound fun _ => True :=
  keeps_sound (fun _ => rfl) fun _ => rfl

-- ---------------------------------------------------------------------------
-- Jobs
-- ---------------------------------------------------------------------------

section Jobs

open Jobs

theorem sound_ask (answer : History → SchedulerCall → Except Failure Job) (call : SchedulerCall) :
    (ask answer call).Keeps Node.Sound fun _ => True := by
  refine keeps_bind sound_get fun node _ => keeps_bind (sound_emit _) fun _ _ => ?_
  cases answer node.effects call with
  | ok job => exact keeps_pure trivial
  | error failure => exact keeps_throw failure

theorem sound_setStatus (id : String) (status : JobStatus) :
    (setStatus id status).Keeps Node.Sound fun _ => True := by
  refine keeps_bind (keeps_statement fun node hnode found store ran => ?_) fun found _ => ?_
  · exact ⟨hnode.store.setJobStatus ran, hnode.clock⟩
  · split
    · exact sound_query _
    · exact keeps_throw _

theorem sound_deleteStored (id : String) :
    (deleteStored id).Keeps Node.Sound fun _ => True := by
  refine keeps_bind (keeps_statement fun node hnode found store ran => ?_) fun found _ => ?_
  · exact ⟨hnode.store.deleteJob ran, hnode.clock⟩
  · cases found with
    | true => exact keeps_pure trivial
    | false => exact keeps_throw _

theorem sound_store {definition : JobDefinition}
    (within : definition.Within IsFinite Document.maxDepth) :
    (Jobs.store definition).Keeps Node.Sound fun _ => True := by
  refine keeps_bind (sound_ofExcept _) fun _ _ => keeps_bind (sound_fresh _) fun id _ =>
    keeps_bind sound_now fun now valid => keeps_bind (keeps_change ?_) fun _ _ => keeps_pure trivial
  intro node hnode store stored
  exact ⟨hnode.store.insertJob ⟨within.trigger, within.requestTemplate, valid⟩ stored, hnode.clock⟩

theorem sound_create {definition : JobDefinition}
    (within : definition.Within IsFinite Document.maxDepth) :
    (create definition).Keeps Node.Sound fun _ => True := by
  refine keeps_bind sound_get fun node _ => ?_
  cases node.scheduler with
  | store => exact sound_store within
  | external answer => exact sound_ask answer _

theorem sound_pause (id : String) : (pause id).Keeps Node.Sound fun _ => True := by
  refine keeps_bind sound_get fun node _ => ?_
  cases node.scheduler with
  | store => exact sound_setStatus id .paused
  | external answer => exact sound_ask answer _

theorem sound_resume (id : String) : (resume id).Keeps Node.Sound fun _ => True := by
  refine keeps_bind sound_get fun node _ => ?_
  cases node.scheduler with
  | store => exact sound_setStatus id .running
  | external answer => exact sound_ask answer _

theorem sound_delete (id : String) : (delete id).Keeps Node.Sound fun _ => True := by
  refine keeps_bind sound_get fun node _ => ?_
  cases node.scheduler with
  | store => exact sound_deleteStored id
  | external answer => exact keeps_discard (sound_ask answer _)

theorem sound_read (id : String) : (read id).Keeps Node.Sound fun _ => True := by
  refine keeps_bind (sound_query _) fun found _ => ?_
  cases found with
  | some job => exact keeps_pure trivial
  | none => exact keeps_throw _

theorem sound_apply (id : String) (status : JobStatus) :
    (apply id status).Keeps Node.Sound fun _ => True := by
  cases status with
  | paused => exact sound_pause id
  | running => exact sound_resume id

theorem sound_applyAll (id : String) (statuses : List JobStatus) :
    (applyAll id statuses).Keeps Node.Sound fun _ => True := by
  induction statuses with
  | nil => exact keeps_throw _
  | cons status rest ih =>
    cases rest with
    | nil => exact sound_apply id status
    | cons next rest => exact keeps_bind (keeps_discard (sound_apply id status)) fun _ _ => ih

theorem sound_applyPatch (id : String) (patch : JobPatch) :
    (applyPatch id patch).Keeps Node.Sound fun _ => True :=
  keeps_bind (sound_ofExcept _) fun statuses _ => sound_applyAll id statuses

theorem sound_jobId (operation : Operation) :
    (jobId operation).Keeps Node.Sound fun _ => True := by
  unfold jobId
  split
  · exact keeps_pure trivial
  · exact keeps_throw _

theorem sound_record [Coded α] (key : String) (position : Nat) (operation : Operation) :
    (record key position operation : Action α).Keeps Node.Sound fun value =>
      operation.record? key position = some value := by
  intro node hnode
  obtain ⟨failure, ran⟩ := run_record (α := α) key position operation node
  rw [ran]
  refine ⟨hnode, fun value found => ?_⟩
  cases hrecord : (operation.record? key position : Option α) with
  | none =>
    rw [hrecord] at found
    cases found
  | some given =>
    rw [hrecord] at found
    cases found
    rfl

theorem sound_handleJob {operation : Operation} (hkind : operation.kind? = some kind)
    (storable : operation.Storable) :
    (Jobs.handle kind operation).Keeps Node.Sound fun _ => True := by
  cases kind with
  | jobCreate =>
    exact keeps_map _ (keeps_bind (sound_record "job" 0 operation) fun definition found =>
      sound_create (storable hkind definition found))
  | jobRead => exact keeps_map _ (keeps_bind (sound_jobId operation) fun id _ => sound_read id)
  | jobReadAll => exact keeps_bind (sound_query _) fun _ _ => keeps_pure trivial
  | jobUpdate =>
    exact keeps_bind (sound_record "patch" 1 operation) fun patch _ =>
      keeps_bind (sound_jobId operation) fun id _ => keeps_map _ (sound_applyPatch id patch)
  | jobPause => exact keeps_map _ (keeps_bind (sound_jobId operation) fun id _ => sound_pause id)
  | jobResume => exact keeps_map _ (keeps_bind (sound_jobId operation) fun id _ => sound_resume id)
  | jobDelete =>
    exact keeps_bind (keeps_bind (sound_jobId operation) fun id _ => sound_delete id) fun _ _ =>
      keeps_pure trivial
  | userSync => exact keeps_throw _

end Jobs

-- ---------------------------------------------------------------------------
-- Users
-- ---------------------------------------------------------------------------

section Users

open Users

theorem lasting_sound : Lasting Node.Sound where
  noted _ _ _ _ sound := ⟨sound.store, sound.clock⟩
  stored _ _ _ sound stored := ⟨sound.store.putUser stored, sound.clock⟩

theorem sound_handleEvent (event : GardenEvent) :
    (handleEvent event).Keeps Node.Sound fun _ => True := by
  refine keeps_bind sound_get fun node _ => ?_
  split
  · exact keeps_pure trivial
  · refine keeps_settle (keeps_change fun node hnode store stored => ?_) fun _ => sound_log _
    exact ⟨hnode.store.putShadow stored, hnode.clock⟩

section

variable {route : Operation → Action Response}
variable (hr : ∀ operation : Operation, operation.Storable →
  (route operation).Keeps Node.Sound fun _ => True)

include hr

theorem sound_push : (push route).Keeps Node.Sound fun _ => True := by
  refine keeps_bind (sound_query _) fun users _ => keeps_bind (sound_query _) fun gardens _ => ?_
  refine keeps_forM fun garden _ => keeps_settle (keeps_discard (hr _ ?_)) fun _ => sound_log _
  exact Operation.storable_of_kind rfl (by decide)

theorem sound_sync (records : List Json) : (sync route records).Keeps Node.Sound fun _ => True :=
  keeps_bind (lasting_sound.imports records) fun _ _ => sound_push hr

theorem sound_handleUsers (operation : Operation) :
    (Users.handle route operation).Keeps Node.Sound fun _ => True := by
  unfold Users.handle
  split
  · exact keeps_throw _
  · exact keeps_bind (sound_sync hr _) fun _ _ => keeps_pure trivial

end

end Users

-- ---------------------------------------------------------------------------
-- Routing
-- ---------------------------------------------------------------------------

theorem sound_publish (garden : String) (link : Link) (operation : Operation) :
    (publish garden link operation).Keeps Node.Sound fun _ => True := by
  refine keeps_bind sound_get fun node _ => keeps_bind (sound_emit _) fun _ _ => ?_
  split
  · exact keeps_pure trivial
  · exact keeps_throw _

theorem sound_request (garden : String) (link : Link) (operation : Operation)
    (wait : Option Duration) :
    (request garden link operation wait).Keeps Node.Sound fun _ => True := by
  refine keeps_bind sound_get fun node _ => keeps_bind (sound_emit _) fun _ _ => ?_
  split
  · exact keeps_pure trivial
  · exact keeps_throw _

theorem sound_routeWithin (depth : Nat) {operation : Operation} (storable : operation.Storable) :
    (routeWithin depth operation).Keeps Node.Sound fun _ => True := by
  induction depth generalizing operation with
  | zero => exact keeps_throw _
  | succ depth ih =>
    intro node hnode
    rw [routeWithin, run_routeBy]
    cases hdecide : node.decide operation with
    | error failure => exact keeps_throw failure node hnode
    | ok way =>
      cases way with
      | handle kind =>
        obtain ⟨hkind, -⟩ := Node.decide_handle hdecide
        cases kind with
        | userSync => exact sound_handleUsers (fun _ => ih) operation node hnode
        | _ => exact sound_handleJob hkind storable node hnode
      | publish garden link sent =>
        exact keeps_bind (sound_publish garden link sent) (fun _ _ => keeps_pure trivial) node hnode
      | request garden link sent wait => exact sound_request garden link sent wait node hnode

theorem sound_route {operation : Operation} (storable : operation.Storable) :
    (route operation).Keeps Node.Sound fun _ => True :=
  sound_routeWithin maxDepth storable

-- ---------------------------------------------------------------------------
-- Messages
-- ---------------------------------------------------------------------------

section

open Listener

theorem sound_onRequest (message : Message) :
    (onRequest route message).Keeps Node.Sound fun _ => True := by
  have executed : (execute route message.body).Keeps Node.Sound fun _ => True := by
    unfold execute
    split
    · rename_i operation read
      exact sound_route (Operation.legible_of_decode read).withoutWaitTimeout.storable
    · exact keeps_throw _
  refine keeps_bind (keeps_settle (keeps_map _ executed) fun _ => keeps_pure trivial) fun _ _ =>
    keeps_bind sound_get fun node _ => ?_
  split
  · exact sound_emit _
  · exact keeps_pure trivial

theorem sound_onMessage (message : Message) :
    (onMessage route message).Keeps Node.Sound fun _ => True := by
  unfold onMessage
  split
  · unfold onEvent
    split
    · exact sound_handleEvent _
    · exact sound_log _
  · exact sound_onRequest message

end

-- ---------------------------------------------------------------------------
-- Requests
-- ---------------------------------------------------------------------------

section

open Http

/-- A definition that was read from a body nests no deeper once it stands in an operation. -/
theorem legible_createJob {definition : JobDefinition} (within : definition.Within IsFinite 126)
    (parameters : List (String × String)) : (createJob parameters definition).Legible := by
  obtain ⟨args, kwargs⟩ := kwargs_targeted .jobCreate parameters
  have only : definition.toDocument.Only IsFinite := by
    refine Document.only_object.mpr ?_
    simp only [List.forall_mem_cons]
    exact ⟨trivial, trivial, within.trigger.numbers, within.requestTemplate.numbers, by simp⟩
  have depth : definition.toDocument.depth ≤ Document.maxDepth := by
    refine Document.depth_object_le.mpr ?_
    simp only [List.forall_mem_cons]
    exact ⟨Nat.zero_le _, Nat.zero_le _, within.trigger.depth, within.requestTemplate.depth,
      by simp⟩
  have value : definition.toDocument.toJson.Within IsFinite Document.maxDepth :=
    ⟨Document.sorted_toJson _, Document.only_toJson only,
      Nat.le_trans (Document.depth_toJson _) depth⟩
  refine ⟨?_, fun m hm => ?_⟩
  · rw [createJob, Operation.withKwarg, args]
    simp
  · rw [createJob, Operation.withKwarg, kwargs] at hm
    obtain rfl := List.mem_singleton.mp hm
    exact value

theorem storable_asked {request : Http.Request} (h : request.Asks operation status) :
    operation.Storable := by
  cases h with
  | list =>
    have kind : (listJobs (parameters request.target.2)).kind? = some .jobReadAll := by
      rw [listJobs, kind?_withKwarg, kind?_targeted]
    exact Operation.storable_of_kind kind (by decide)
  | create definition read =>
    exact (legible_createJob (JobDefinition.within_ofText (ofText_of_readBody read)) _).storable
  | read id => exact Operation.storable_of_kind (kind?_onJob .jobRead _ id) (by decide)
  | patch id patch =>
    have kind : (patchJob (parameters request.target.2) id patch).kind? = some .jobUpdate := by
      rw [patchJob, kind?_withKwarg, kind?_onJob]
    exact Operation.storable_of_kind kind (by decide)
  | delete id => exact Operation.storable_of_kind (kind?_onJob .jobDelete _ id) (by decide)

theorem sound_respond (broker : Option String) (request : Http.Request) :
    (respond route broker request).Keeps Node.Sound fun _ => True := by
  refine keeps_bind (q := fun _ => True) ?_ fun _ _ => keeps_pure trivial
  cases hcall : request.call with
  | answer response => exact sound_pure _
  | health => exact keeps_bind sound_get fun _ _ => keeps_pure trivial
  | run operation status sendsPayload =>
    have storable := storable_asked (Request.asks_of_call hcall)
    exact keeps_settle (keeps_bind (sound_route storable) fun _ _ => keeps_pure trivial)
      fun _ => keeps_pure trivial

end

-- ---------------------------------------------------------------------------
-- Starts
-- ---------------------------------------------------------------------------

theorem sound_putGarden (garden : Garden) :
    (change fun store => store.putGarden garden).Keeps Node.Sound fun _ => True :=
  keeps_change fun _ hnode _ stored => ⟨hnode.store.putGarden stored, hnode.clock⟩

theorem sound_start (config : GardenConfig) (link : RemotePath → Link) :
    (config.start link).Keeps Node.Sound fun _ => True := by
  unfold GardenConfig.start
  split
  · exact keeps_throw _
  · have seeded : (config.seedRegistry link).Keeps Node.Sound fun _ => True :=
      keeps_bind (keeps_forM fun remote _ => sound_putGarden remote.toGarden) fun _ _ =>
        keeps_bind (sound_query _) fun _ _ => sound_pure _
    refine keeps_bind (sound_putGarden _) fun _ _ => keeps_bind seeded fun registry _ => ?_
    · intro node hnode
      exact ⟨⟨hnode.store, hnode.clock⟩, fun _ _ => trivial⟩

end Action

-- ---------------------------------------------------------------------------
-- Occasions
-- ---------------------------------------------------------------------------

/-- Something that a garden is asked to do. The successor is another garden, or the same one with
other links, that takes over the store. -/
inductive Occasion where
  | successor (heir : Node)
  | start (config : GardenConfig) (link : RemotePath → Link)
  | operation (operation : Operation)
  | message (message : Message)
  | request (broker : Option String) (request : Http.Request)
  | push
  | imports (records : List Json)
  | createUser (username : String) (password : Option String)
      (assignments : List RoleAssignment)
  | updateUser (user : User) (patch : Users.Patch) (hashed : Option String)
  | event (event : GardenEvent)
  | createJob (definition : JobDefinition)
  | patchJob (id : String) (patch : JobPatch)
  | setStatus (id : String) (status : JobStatus)
  | deleteJob (id : String)

namespace Occasion

def action : Occasion → Action Unit
  | .successor heir => modify fun node => { heir with store := node.store }
  | .start config link => config.start link
  | .operation asked => discard (Action.route asked)
  | .message heard => Listener.onMessage Action.route heard
  | .request broker asked => discard (Http.respond Action.route broker asked)
  | .push => Users.push Action.route
  | .imports records => Users.sync Action.route records
  | .createUser username password assignments =>
    discard (Users.create username password assignments)
  | .updateUser user patch hashed => discard (Users.update user patch hashed)
  | .event told => Users.handleEvent told
  | .createJob definition => discard (Jobs.create definition)
  | .patchJob id patch => discard (Jobs.applyPatch id patch)
  | .setStatus id status => discard (Jobs.apply id status)
  | .deleteJob id => Jobs.delete id

/-- Clocks tell proper times, and what does not come as a text is as if it did. -/
def Proper : Occasion → Prop
  | .successor heir => ∀ n, (heir.supply.now n).Valid
  | .operation asked => asked.Legible
  | .createJob definition => definition.Within IsFinite Document.maxDepth
  | _ => True

theorem sound_action {occasion : Occasion} (proper : occasion.Proper) :
    occasion.action.Keeps Node.Sound fun _ => True := by
  cases occasion with
  | successor heir =>
    intro node hnode
    exact ⟨⟨hnode.store, proper⟩, fun _ _ => trivial⟩
  | start config link => exact Action.sound_start config link
  | operation asked =>
    exact Action.keeps_discard (Action.sound_route (Operation.Legible.storable proper))
  | message heard => exact Action.sound_onMessage heard
  | request broker asked => exact Action.keeps_discard (Action.sound_respond broker asked)
  | push => exact Action.sound_push fun _ => Action.sound_route
  | imports records => exact Action.sound_sync (fun _ => Action.sound_route) records
  | createUser username password assignments =>
    exact Action.keeps_discard (Action.lasting_sound.create username password assignments)
  | updateUser user patch hashed =>
    exact Action.keeps_discard (Action.lasting_sound.update user patch hashed)
  | event told => exact Action.sound_handleEvent told
  | createJob definition => exact Action.keeps_discard (Action.sound_create proper)
  | patchJob id patch => exact Action.keeps_discard (Action.sound_applyPatch id patch)
  | setStatus id status => exact Action.keeps_discard (Action.sound_apply id status)
  | deleteJob id => exact Action.sound_delete id

end Occasion

/-- What gardens come to, whatever they are asked for, when they begin with an empty store. -/
inductive Node.Reached : Node → Prop where
  | empty {node : Node} (store : node.store = {}) (clock : ∀ n, (node.supply.now n).Valid) :
    node.Reached
  | after {node : Node} (occasion : Occasion) (proper : occasion.Proper) (h : node.Reached) :
    (occasion.action.run node).2.Reached

theorem Node.Reached.sound {node : Node} (h : node.Reached) : node.Sound := by
  induction h with
  | empty store clock => exact ⟨store ▸ Store.legible_empty, clock⟩
  | after occasion proper _ ih => exact (Occasion.sound_action proper _ ih).1

end Federation
