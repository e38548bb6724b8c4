import Federation.Connection.Requests
import Federation.Proofs.Json.Members

/-!
# Replies find their requests

Requests wait side by side, and replies, other messages, limits and the end of the session come in
between in any order. Whatever the order, `run_correlates`: a request that has ended stays as it
ended, it was handed nothing but a reply with its own id, everything that is no reply went to the
listener in the order in which it came, and only a request that has not ended is in the table.

One invariant, `Correlated`, ties the table, the slots and the stages to what has arrived. It
survives whatever only takes something from those who wait and whatever moves one request on; the
beginning of a request and an arriving message are the only steps that do more.
-/

namespace Federation

-- ---------------------------------------------------------------------------
-- Tables of ids
-- ---------------------------------------------------------------------------

theorem lookup_assigned (table : List (String × α)) (id other : String) (value : α) :
    (table.map fun entry => if entry.1 = id then (id, value) else entry).lookup other =
      if other = id then (table.lookup id).map fun _ => value else table.lookup other := by
  induction table with
  | nil => simp
  | cons entry rest ih =>
    rw [List.map_cons, lookup_cons_eq, lookup_cons_eq, lookup_cons_eq, ih]
    by_cases same : entry.1 = id
    · by_cases asked : other = id <;> simp [same, asked]
    · by_cases asked : other = id
      · simp [same, asked, Ne.symm same]
      · simp [same, asked]

theorem lookup_appended (table : List (String × α)) (id other : String) (value : α) :
    (table ++ [(id, value)]).lookup other =
      (table.lookup other).or (if other = id then some value else none) := by
  rw [List.lookup_append, lookup_cons_eq]
  rfl

-- ---------------------------------------------------------------------------
-- Those who wait
-- ---------------------------------------------------------------------------

namespace PendingReplies

variable {id : String}

structure Narrows (before after : PendingReplies) : Prop where
  waiting : ∀ id ∈ after.waiting, id ∈ before.waiting
  slots : ∀ id, after.slots.lookup id ≠ none → before.slots.lookup id ≠ none
  answered : ∀ id message, after.slots.lookup id = some (.answered message) →
    before.slots.lookup id = some (.answered message)

theorem Narrows.refl (pending : PendingReplies) : pending.Narrows pending :=
  ⟨fun _ h => h, fun _ h => h, fun _ _ h => h⟩

theorem Narrows.trans {first second third : PendingReplies} (h : first.Narrows second)
    (next : second.Narrows third) : first.Narrows third where
  waiting id hid := h.waiting id (next.waiting id hid)
  slots id hid := h.slots id (next.slots id hid)
  answered id message hid := h.answered id message (next.answered id message hid)

theorem lookup_setSlot (pending : PendingReplies) (id other : String) (slot : ReplySlot) :
    (pending.setSlot id slot).slots.lookup other =
      if other = id then (pending.slots.lookup id).map fun _ => slot
      else pending.slots.lookup other :=
  lookup_assigned pending.slots id other slot

theorem lookup_register (pending : PendingReplies) (id other : String) :
    (pending.register id).slots.lookup other =
      (pending.slots.lookup other).or (if other = id then some .empty else none) :=
  lookup_appended pending.slots id other .empty

theorem answered_register {pending : PendingReplies}
    (h : (pending.register id).slots.lookup other = some (.answered message)) :
    pending.slots.lookup other = some (.answered message) := by
  rw [lookup_register, Option.or_eq_some_iff] at h
  rcases h with h | ⟨-, h⟩
  · exact h
  · split at h <;> cases h

theorem narrows_cancel (pending : PendingReplies) (id : String) :
    pending.Narrows (pending.cancel id) := by
  unfold cancel
  split
  · refine ⟨fun other hmem => (List.mem_filter.mp hmem).1, fun other => ?_, fun other message => ?_⟩
    · rw [lookup_setSlot]
      by_cases same : other = id <;> simp [same]
    · rw [lookup_setSlot]
      by_cases same : other = id <;> simp [same]
  · exact ⟨fun other hmem => (List.mem_filter.mp hmem).1, fun _ h => h, fun _ _ h => h⟩

theorem not_mem_cancel (pending : PendingReplies) (id : String) :
    id ∉ (pending.cancel id).waiting := by
  unfold cancel
  split <;> simp [setSlot]

theorem narrows_abandon (pending : PendingReplies) (id : String) :
    pending.Narrows (pending.abandon id) := by
  refine ⟨fun _ h => h, fun other => ?_, fun other message => ?_⟩ <;>
  · unfold abandon
    rw [lookup_filter_ne]
    by_cases same : other = id <;> simp [same]

theorem narrows_foldl_cancel (ids : List String) (pending : PendingReplies) :
    pending.Narrows (ids.foldl cancel pending) := by
  induction ids generalizing pending with
  | nil => exact .refl pending
  | cons id rest ih => exact (narrows_cancel pending id).trans (ih (pending.cancel id))

theorem narrows_clear (pending : PendingReplies) : pending.Narrows pending.clear :=
  narrows_foldl_cancel pending.waiting pending

theorem mem_complete {pending : PendingReplies} :
    other ∈ (pending.complete id message).2.waiting ↔ other ∈ pending.waiting ∧ other ≠ id := by
  unfold complete
  split <;> simp [setSlot]

theorem slots_complete {pending : PendingReplies}
    (h : (pending.complete id message).2.slots.lookup other ≠ none) :
    pending.slots.lookup other ≠ none := by
  unfold complete at h
  split at h
  · rw [lookup_setSlot] at h
    by_cases same : other = id
    · subst same
      simpa using h
    · simpa [same] using h
  · exact h

theorem answered_complete {pending : PendingReplies}
    (h : (pending.complete id message).2.slots.lookup other = some (.answered found)) :
    pending.slots.lookup other = some (.answered found) ∨ other = id ∧ found = message := by
  unfold complete at h
  split at h
  · rw [lookup_setSlot] at h
    by_cases same : other = id
    · rw [if_pos same, Option.map_eq_some_iff] at h
      obtain ⟨slot, -, hslot⟩ := h
      cases hslot
      exact .inr ⟨same, rfl⟩
    · rw [if_neg same] at h
      exact .inl h
  · exact .inl h

end PendingReplies

-- ---------------------------------------------------------------------------
-- What a request was handed
-- ---------------------------------------------------------------------------

namespace Message

def Answers (message : Message) (id : String) : Prop :=
  message.isReply = true ∧ message.header? Headers.correlationId = some id

end Message

namespace RequestStage

def isResolved : RequestStage → Bool
  | .resolved _ => true
  | _ => false

def message? : RequestStage → Option Message
  | .leaving (.answered message) | .resolved (.waited (.answered message)) => some message
  | _ => none

end RequestStage

namespace RequestStep

def arrival? : RequestStep → Option Message
  | .arrive message => some message
  | _ => none

def arrivals (steps : List RequestStep) : List Message := steps.filterMap arrival?

theorem arrivals_cons (step : RequestStep) (rest : List RequestStep) :
    arrivals (step :: rest) = step.arrival?.toList ++ arrivals rest := by
  cases h : step.arrival? <;> simp [arrivals, h]

theorem arrivals_append (first second : List RequestStep) :
    arrivals (first ++ second) = arrivals first ++ arrivals second :=
  List.filterMap_append

end RequestStep

namespace Requests

/-- The message is in the slot of the request, or the request ended with it. -/
def HandedTo (requests : Requests) (id : String) (message : Message) : Prop :=
  requests.connection.pending.slots.lookup id = some (.answered message) ∨
    ∃ stage, requests.stage? id = some stage ∧ stage.message? = some message

/-- How the table, the slots and the stages belong together once `heard` has arrived on the
connection. -/
structure Correlated (connection : Connection) (heard : List Message) (requests : Requests) :
    Prop where
  inbound : requests.connection.inbound =
    connection.inbound ++ heard.filter fun message => !message.isReply
  /-- Only a request that has not ended waits in the table. -/
  waiting : ∀ id ∈ requests.connection.pending.waiting,
    ∃ stage, requests.stage? id = some stage ∧ stage.isResolved = false
  slots : ∀ id, requests.connection.pending.slots.lookup id ≠ none → requests.stage? id ≠ none
  /-- What fills a slot has taken the id out of the table. -/
  filled : ∀ id message,
    requests.connection.pending.slots.lookup id = some (.answered message) →
    id ∉ requests.connection.pending.waiting
  handed : ∀ id message, requests.HandedTo id message → message ∈ heard ∧ message.Answers id

theorem stage?_setStage (requests : Requests) (id other : String) (stage : RequestStage) :
    (requests.setStage id stage).stage? other =
      if other = id then (requests.stage? id).map fun _ => stage else requests.stage? other :=
  lookup_assigned requests.stages id other stage

theorem pending_register (requests : Requests) (id : String) :
    (requests.register id).connection.pending = requests.connection.pending.register id := rfl

theorem stage?_register (requests : Requests) (id other : String) :
    (requests.register id).stage? other =
      (requests.stage? other).or (if other = id then some .registered else none) :=
  lookup_appended requests.stages id other .registered

/-- What a session brings in a frame is one such step. -/
theorem step_dispatch {frame : Frame} (h : frame.command = .message) (requests : Requests) :
    requests.step (.arrive (.ofFrame frame)) =
      some { requests with connection := requests.connection.dispatch frame } := by
  unfold Connection.dispatch
  rw [if_pos h]
  rfl

/-- What a step can do. A wait that ends without a reply ends in one way, whatever the reason. -/
inductive Moves (requests : Requests) : RequestStep → Requests → Prop
  | register {id : String} (fresh : requests.stage? id = none) :
    Moves requests (.register id) (requests.register id)
  | send {id : String} (ready : requests.stage? id = some .registered) (succeeds : Bool) :
    Moves requests (.send id succeeds) (requests.send id succeeds)
  | arrive (message : Message) :
    Moves requests (.arrive message)
      { requests with connection := requests.connection.deliver message }
  | wake {id : String} (waits : requests.stage? id = some .waiting)
    (found : requests.connection.pending.slots.lookup id = some (.answered message)) :
    Moves requests (.wake id) ((requests.changePending (·.abandon id)).setStage id
      (.resolved (.waited (.answered message))))
  | giveUp {act : RequestStep} {id : String} (waits : requests.stage? id = some .waiting)
    (brings : act.arrival? = none) (silent : (RequestStage.leaving ending).message? = none) :
    Moves requests act (requests.giveUp id ending)
  | leave {id : String} (leaving : requests.stage? id = some (.leaving ending)) :
    Moves requests (.leave id)
      ((requests.changePending (·.cancel id)).setStage id (.resolved (.waited ending)))
  | lose (failure : Failure) :
    Moves requests (.lose failure)
      { requests with connection := requests.connection.lose failure }
  | drop (id : String) : Moves requests (.drop id) (requests.changePending (·.cancel id))

variable {id : String}

theorem moves_of_step {requests : Requests} {act : RequestStep}
    (taken : requests.step act = some after) : requests.Moves act after := by
  cases act with
  | arrive message =>
    cases taken
    exact .arrive message
  | lose failure =>
    cases taken
    exact .lose failure
  | drop id =>
    cases taken
    exact .drop id
  | leave id =>
    simp only [Requests.step] at taken
    split at taken
    · rename_i leaving
      cases taken
      exact .leave leaving
    · cases taken
  | wake id =>
    simp only [Requests.step, Option.ite_none_right_eq_some] at taken
    obtain ⟨waits, taken⟩ := taken
    unfold Requests.wake at taken
    split at taken
    · rename_i found
      cases taken
      exact .wake waits found
    · cases taken
      exact .giveUp waits rfl rfl
    · cases taken
  | register id =>
    simp only [Requests.step, Option.ite_none_right_eq_some, Option.some.injEq] at taken
    obtain ⟨fresh, rfl⟩ := taken
    exact .register (Option.isNone_iff_eq_none.mp fresh)
  | send id succeeds =>
    simp only [Requests.step, Option.ite_none_right_eq_some, Option.some.injEq] at taken
    obtain ⟨ready, rfl⟩ := taken
    exact .send ready succeeds
  | expire id limit =>
    simp only [Requests.step, Option.ite_none_right_eq_some, Option.some.injEq] at taken
    obtain ⟨⟨waits, -⟩, rfl⟩ := taken
    exact .giveUp waits rfl rfl
  | stop id =>
    simp only [Requests.step, Option.ite_none_right_eq_some, Option.some.injEq] at taken
    obtain ⟨waits, rfl⟩ := taken
    exact .giveUp waits rfl rfl

theorem run_cons {requests : Requests} :
    requests.run (first :: rest) = some after ↔
      ∃ next, requests.step first = some next ∧ next.run rest = some after := by
  unfold Requests.run
  rw [List.foldlM_cons]
  exact Option.bind_eq_some_iff

namespace Correlated

variable {connection : Connection} {heard : List Message} {requests : Requests}

theorem start (connection : Connection) : Correlated connection [] (Requests.start connection) where
  inbound := by simp [Requests.start]
  waiting id hid := by simp [Requests.start] at hid
  slots id hid := by simp [Requests.start] at hid
  filled id message hid := by simp [Requests.start] at hid
  handed id message hid := by simp [HandedTo, Requests.start, Requests.stage?] at hid

theorem narrow (h : Correlated connection heard requests)
    (change : PendingReplies → PendingReplies)
    (narrows : requests.connection.pending.Narrows (change requests.connection.pending)) :
    Correlated connection heard (requests.changePending change) where
  inbound := h.inbound
  waiting id hid := h.waiting id (narrows.waiting id hid)
  slots id hid := h.slots id (narrows.slots id hid)
  filled id message hid := by
    intro hmem
    exact h.filled id message (narrows.answered id message hid) (narrows.waiting id hmem)
  handed id message := by
    rintro (hid | hid)
    · exact h.handed id message (.inl (narrows.answered id message hid))
    · exact h.handed id message (.inr hid)

theorem setStage (h : Correlated connection heard requests) {stage : RequestStage}
    (away : stage.isResolved = true → id ∉ requests.connection.pending.waiting)
    (said : ∀ message, stage.message? = some message →
      message ∈ heard ∧ message.Answers id) :
    Correlated connection heard (requests.setStage id stage) where
  inbound := h.inbound
  waiting other hmem := by
    obtain ⟨old, found, unresolved⟩ := h.waiting other hmem
    rw [stage?_setStage]
    by_cases same : other = id
    · subst same
      rw [if_pos rfl, found]
      refine ⟨stage, rfl, ?_⟩
      rw [Bool.eq_false_iff]
      intro resolved
      exact away resolved hmem
    · rw [if_neg same]
      exact ⟨old, found, unresolved⟩
  slots other hid := by
    have known : requests.stage? other ≠ none := h.slots other hid
    rw [stage?_setStage]
    by_cases same : other = id
    · subst same
      simpa using known
    · rwa [if_neg same]
  filled := h.filled
  handed other message := by
    rintro (hid | ⟨found, hfound, hmessage⟩)
    · exact h.handed other message (.inl hid)
    · rw [stage?_setStage] at hfound
      by_cases same : other = id
      · rw [if_pos same, Option.map_eq_some_iff] at hfound
        obtain ⟨_, -, rfl⟩ := hfound
        rw [same]
        exact said message hmessage
      · rw [if_neg same] at hfound
        exact h.handed other message (.inr ⟨found, hfound, hmessage⟩)

theorem register (h : Correlated connection heard requests) (fresh : requests.stage? id = none) :
    Correlated connection heard (requests.register id) where
  inbound := h.inbound
  waiting other hmem := by
    rw [stage?_register]
    rcases List.mem_append.mp hmem with hmem | hmem
    · obtain ⟨stage, found, unresolved⟩ := h.waiting other hmem
      exact ⟨stage, by rw [found]; rfl, unresolved⟩
    · have same : other = id := by simpa using hmem
      subst same
      exact ⟨.registered, by rw [fresh]; simp, rfl⟩
  slots other hid := by
    rw [pending_register, PendingReplies.lookup_register] at hid
    rw [stage?_register]
    by_cases same : other = id
    · simp [same]
    · have known : requests.stage? other ≠ none := h.slots other (by simpa [same] using hid)
      simpa [same] using known
  filled other message hid := by
    have older : requests.connection.pending.slots.lookup other = some (.answered message) :=
      PendingReplies.answered_register hid
    have known : requests.stage? other ≠ none := h.slots other (by simp [older])
    intro hmem
    rcases List.mem_append.mp hmem with hmem | hmem
    · exact h.filled other message older hmem
    · have same : other = id := by simpa using hmem
      exact known (same ▸ fresh)
  handed other message := by
    rintro (hid | ⟨stage, found, hmessage⟩)
    · exact h.handed other message (.inl (PendingReplies.answered_register hid))
    · rw [stage?_register] at found
      by_cases same : other = id
      · rw [same, fresh, if_pos rfl] at found
        cases found
        cases hmessage
      · rw [if_neg same, Option.or_none] at found
        exact h.handed other message (.inr ⟨stage, found, hmessage⟩)

theorem heard_append (h : Correlated connection heard requests) (found : Message)
    (hid : requests.HandedTo id message) :
    message ∈ heard ++ [found] ∧ message.Answers id := by
  obtain ⟨hmem, answers⟩ := h.handed id message hid
  exact ⟨List.mem_append_left _ hmem, answers⟩

theorem deliver (h : Correlated connection heard requests) (message : Message) :
    Correlated connection (heard ++ [message])
      { requests with connection := requests.connection.deliver message } := by
  unfold Connection.deliver
  by_cases reply : message.isReply = true
  · have inbound : requests.connection.inbound =
        connection.inbound ++ (heard ++ [message]).filter fun message => !message.isReply := by
      simp [h.inbound, reply]
    rw [if_pos reply]
    cases carried : message.header? Headers.correlationId with
    | none =>
      exact ⟨inbound, h.waiting, h.slots, h.filled, fun id found => h.heard_append message⟩
    | some id =>
      refine ⟨inbound, fun other hmem => ?_, fun other hid => ?_, fun other found hid hmem => ?_,
        fun other found handed => ?_⟩
      · exact h.waiting other (PendingReplies.mem_complete.mp hmem).1
      · exact h.slots other (PendingReplies.slots_complete hid)
      · obtain ⟨hmem, ne⟩ := PendingReplies.mem_complete.mp hmem
        rcases PendingReplies.answered_complete hid with hid | ⟨same, -⟩
        · exact h.filled other found hid hmem
        · exact ne same
      · rcases handed with hid | hid
        · rcases PendingReplies.answered_complete hid with hid | ⟨rfl, rfl⟩
          · exact h.heard_append message (.inl hid)
          · exact ⟨List.mem_append_right _ List.mem_cons_self, reply, carried⟩
        · exact h.heard_append message (.inr hid)
  · rw [if_neg reply]
    refine ⟨?_, h.waiting, h.slots, h.filled, fun id found => h.heard_append message⟩
    simp [h.inbound, reply]

theorem giveUp (h : Correlated connection heard requests) (id : String)
    (silent : (RequestStage.leaving ending).message? = none) :
    Correlated connection heard (requests.giveUp id ending) := by
  apply (h.narrow _ (PendingReplies.narrows_abandon _ id)).setStage
  · intro resolved
    cases resolved
  · intro message said
    rw [silent] at said
    cases said

theorem send (h : Correlated connection heard requests) (id : String) (succeeds : Bool) :
    Correlated connection heard (requests.send id succeeds) := by
  unfold Requests.send
  split
  · apply h.setStage
    · intro resolved
      cases resolved
    · intro message said
      cases said
  · have narrows := (PendingReplies.narrows_cancel requests.connection.pending id).trans
      (PendingReplies.narrows_abandon _ id)
    apply (h.narrow (fun pending => (pending.cancel id).abandon id) narrows).setStage
    · intro _
      exact PendingReplies.not_mem_cancel requests.connection.pending id
    · intro message said
      cases said

theorem wake (h : Correlated connection heard requests)
    (found : requests.connection.pending.slots.lookup id = some (.answered message)) :
    Correlated connection heard ((requests.changePending (·.abandon id)).setStage id
      (.resolved (.waited (.answered message)))) := by
  apply (h.narrow _ (PendingReplies.narrows_abandon _ id)).setStage
  · intro _
    exact h.filled id message found
  · intro said same
    cases same
    exact h.handed id message (.inl found)

theorem leave (h : Correlated connection heard requests)
    (leaving : requests.stage? id = some (.leaving ending)) :
    Correlated connection heard
      ((requests.changePending (·.cancel id)).setStage id (.resolved (.waited ending))) := by
  apply (h.narrow _ (PendingReplies.narrows_cancel _ id)).setStage
  · intro _
    exact PendingReplies.not_mem_cancel requests.connection.pending id
  · intro message said
    apply h.handed id message (.inr ⟨_, leaving, _⟩)
    cases ending <;> exact said

theorem lose (h : Correlated connection heard requests) (failure : Failure) :
    Correlated connection heard
      { requests with connection := requests.connection.lose failure } :=
  let cleared := h.narrow _ (PendingReplies.narrows_clear requests.connection.pending)
  ⟨cleared.inbound, cleared.waiting, cleared.slots, cleared.filled, cleared.handed⟩

theorem moves (h : Correlated connection heard requests) (moved : requests.Moves act after) :
    Correlated connection (heard ++ act.arrival?.toList) after := by
  cases moved with
  | arrive message => exact h.deliver message
  | register fresh => simpa [RequestStep.arrival?] using h.register fresh
  | send ready succeeds => simpa [RequestStep.arrival?] using h.send _ succeeds
  | wake waits found => simpa [RequestStep.arrival?] using h.wake found
  | giveUp waits brings silent => simpa [brings] using h.giveUp _ silent
  | leave leaving => simpa [RequestStep.arrival?] using h.leave leaving
  | lose failure => simpa [RequestStep.arrival?] using h.lose failure
  | drop id =>
    simpa [RequestStep.arrival?] using h.narrow _ (PendingReplies.narrows_cancel _ id)

theorem run (h : Correlated connection heard requests) {steps : List RequestStep}
    (taken : requests.run steps = some after) :
    Correlated connection (heard ++ RequestStep.arrivals steps) after := by
  induction steps generalizing heard requests with
  | nil =>
    cases taken
    simpa [RequestStep.arrivals] using h
  | cons first rest ih =>
    obtain ⟨next, hfirst, hrest⟩ := run_cons.mp taken
    rw [RequestStep.arrivals_cons, ← List.append_assoc]
    exact ih (h.moves (moves_of_step hfirst)) hrest

end Correlated

-- ---------------------------------------------------------------------------
-- A request that has ended
-- ---------------------------------------------------------------------------

theorem ended_setStage {requests : Requests} (ended : requests.stage? id = some (.resolved ending))
    (goes : requests.stage? other = some old) (on : old.isResolved = false) (stage : RequestStage) :
    (requests.setStage other stage).stage? id = some (.resolved ending) := by
  rw [stage?_setStage, if_neg, ended]
  rintro rfl
  rw [ended] at goes
  cases goes
  cases on

theorem ended_moves {requests : Requests} (ended : requests.stage? id = some (.resolved ending))
    (moved : requests.Moves act after) : after.stage? id = some (.resolved ending) := by
  cases moved with
  | arrive message => exact ended
  | lose failure => exact ended
  | drop id => exact ended
  | register fresh =>
    rw [stage?_register, ended]
    rfl
  | send ready succeeds =>
    unfold Requests.send
    split
    · exact ended_setStage ended ready rfl _
    · exact ended_setStage ended ready rfl _
  | wake waits found => exact ended_setStage ended waits rfl _
  | giveUp waits brings silent => exact ended_setStage ended waits rfl _
  | leave leaving => exact ended_setStage ended leaving rfl _

theorem ended_run {requests : Requests} (ended : requests.stage? id = some (.resolved ending))
    {steps : List RequestStep} (taken : requests.run steps = some after) :
    after.stage? id = some (.resolved ending) := by
  induction steps generalizing requests with
  | nil =>
    cases taken
    exact ended
  | cons first rest ih =>
    obtain ⟨next, hfirst, hrest⟩ := run_cons.mp taken
    exact ih (ended_moves ended (moves_of_step hfirst)) hrest

-- ---------------------------------------------------------------------------
-- Any run
-- ---------------------------------------------------------------------------

/-- What correlation promises when `heard` has arrived on the connection and a run has gone through
`middle` to `after`. -/
structure Correlates (connection : Connection) (heard : List Message) (middle after : Requests) :
    Prop where
  /-- A request ends once. -/
  once : ∀ id ending, middle.stage? id = some (.resolved ending) →
    after.stage? id = some (.resolved ending)
  /-- A request is handed nothing but a reply to itself. -/
  own : ∀ id message, after.HandedTo id message → message ∈ heard ∧ message.Answers id
  /-- What a request is handed does not go to the listener as well. -/
  apart : ∀ id message, after.HandedTo id message →
    message ∉ heard.filter fun message => !message.isReply
  /-- The listener gets everything else, once and in its order. -/
  inbound : after.connection.inbound =
    connection.inbound ++ heard.filter fun message => !message.isReply
  /-- Only a request that has not ended waits in the table. -/
  waiting : ∀ id ∈ after.connection.pending.waiting,
    ∃ stage, after.stage? id = some stage ∧ stage.isResolved = false
  /-- When all requests have ended, nobody is left in the table. -/
  empty : (∀ id stage, after.stage? id = some stage → stage.isResolved = true) →
    after.connection.pending.waiting = []

/-- Replies find their requests, whatever else arrives and however requests end. -/
theorem run_correlates {connection : Connection} {middle : Requests}
    (early : (Requests.start connection).run first = some middle)
    (late : middle.run second = some after) :
    Correlates connection (RequestStep.arrivals (first ++ second)) middle after := by
  have reached := ((Correlated.start connection).run early).run late
  rw [List.nil_append, ← RequestStep.arrivals_append] at reached
  refine ⟨?_, reached.handed, ?_, reached.inbound, reached.waiting, ?_⟩
  · intro id ending ended
    exact ended_run ended late
  · intro id message handed listened
    obtain ⟨-, answers⟩ := reached.handed id message handed
    have other := (List.mem_filter.mp listened).2
    rw [answers.1] at other
    cases other
  · intro all
    rw [List.eq_nil_iff_forall_not_mem]
    intro id hmem
    obtain ⟨stage, found, goes⟩ := reached.waiting id hmem
    rw [all id stage found] at goes
    cases goes

def answer (id : String) : Message :=
  ⟨[(Headers.correlationId, id), (Headers.modelClass, "Job")], ""⟩

def echoing (id : String) : Message :=
  ⟨[(Headers.correlationId, id), (Headers.modelClass, ModelClass.operation)], ""⟩

/-- Two requests overlap. One ends with the first of two replies, while operations pass by. -/
def overlapping : List RequestStep :=
  [.register "first", .register "second", .send "first" true, .arrive (echoing "first"),
    .arrive (answer "first"), .send "second" true, .arrive (answer "first"), .wake "first",
    .arrive (echoing "second")]

/-- The other one runs out of time just before its reply, a third cannot be sent, and a fourth
loses its session. -/
def ending : List RequestStep :=
  [.expire "second" (.ofSeconds 30), .arrive (answer "second"), .leave "second",
    .register "third", .send "third" false, .arrive (answer "third"), .register "fourth",
    .send "fourth" true, .lose .disconnected, .wake "fourth", .arrive (answer "fourth"),
    .leave "fourth", .arrive ⟨[], "hello"⟩]

theorem run_correlates_overlapping :
    ∃ middle after, (Requests.start { name := "hub" }).run overlapping = some middle ∧
      middle.run ending = some after ∧
      middle.stage? "first" = some (.resolved (.waited (.answered (answer "first")))) ∧
      middle.connection.pending.waiting = ["second"] ∧
      after.connection.inbound = [echoing "first", echoing "second", ⟨[], "hello"⟩] ∧
      after.connection.pending.waiting = [] ∧
      Correlates { name := "hub" } (RequestStep.arrivals (overlapping ++ ending)) middle after :=
  ⟨_, _, rfl, rfl, rfl, rfl, rfl, rfl, run_correlates rfl rfl⟩

end Requests

end Federation
