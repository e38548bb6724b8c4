import Federation.Proofs.Connection.Requests
import Federation.Proofs.Connection.Subscriptions
import Federation.Proofs.Wire.Exchange

/-!
# The reply that a request is handed

An exchange picks the reply from all that the other garden sends. On the connection nothing is
picked: what was sent arrives piece by piece, whoever waits is handed the first reply with its id,
and what comes later finds nobody. It comes to the same.
-/

namespace Federation

-- ---------------------------------------------------------------------------
-- One who waits
-- ---------------------------------------------------------------------------

namespace PendingReplies

variable {pending : PendingReplies} {connection : Connection} {id : String}
variable {found : Option Message}

/-- What the request with this id has been handed so far. -/
inductive Holds (pending : PendingReplies) (id : String) : Option Message → Prop
  | awaits (waits : id ∈ pending.waiting) (empty : pending.slots.lookup id = some .empty) :
    Holds pending id none
  | handed {message : Message} (gone : id ∉ pending.waiting)
      (filled : pending.slots.lookup id = some (.answered message)) :
    Holds pending id (some message)

theorem Holds.poll (holds : pending.Holds id found) :
    (pending.poll id).1 = some (found.elim .empty .answered) := by
  cases holds with
  | awaits waits empty =>
    rw [PendingReplies.poll, empty]
    rfl
  | handed gone filled =>
    rw [PendingReplies.poll, filled]
    rfl

theorem holds_register (free : pending.slots.lookup id = none) :
    (pending.register id).Holds id none := by
  refine .awaits (List.mem_append_right _ List.mem_cons_self) ?_
  rw [lookup_register, free, if_pos rfl]
  rfl

theorem lookup_complete_of_ne (ne : id ≠ other) (message : Message) :
    (pending.complete other message).2.slots.lookup id = pending.slots.lookup id := by
  unfold complete
  split
  · rw [lookup_setSlot, if_neg ne]
  · rfl

theorem lookup_complete_of_not_mem (gone : other ∉ pending.waiting) (message : Message) :
    (pending.complete other message).2.slots.lookup id = pending.slots.lookup id := by
  simp [complete, gone]

/-- Only the first message for an id reaches the one who waits. -/
theorem Holds.complete (holds : pending.Holds id found) (other : String) (message : Message) :
    (pending.complete other message).2.Holds id
      (found.or (if other = id then some message else none)) := by
  cases holds with
  | awaits waits empty =>
    by_cases same : other = id
    · subst same
      rw [if_pos rfl]
      refine .handed (fun h => (mem_complete.mp h).2 rfl) ?_
      simp [PendingReplies.complete, waits, empty, lookup_setSlot]
    · rw [if_neg same]
      refine .awaits (mem_complete.mpr ⟨waits, Ne.symm same⟩) ?_
      rw [lookup_complete_of_ne (Ne.symm same), empty]
  | handed gone filled =>
    refine .handed (fun h => gone (mem_complete.mp h).1) ?_
    by_cases same : other = id
    · subst same
      rw [lookup_complete_of_not_mem gone, filled]
    · rw [lookup_complete_of_ne (Ne.symm same), filled]

theorem Holds.deliver (holds : connection.pending.Holds id found) (message : Message) :
    (connection.deliver message).pending.Holds id
      (found.or (if message.isReplyTo id then some message else none)) := by
  unfold Connection.deliver
  by_cases reply : message.isReply
  · rw [if_pos reply]
    cases carried : message.header? Headers.correlationId with
    | none => simpa [Message.isReplyTo, carried] using holds
    | some other => simpa [Message.isReplyTo, reply, carried] using holds.complete other message
  · simpa [Message.isReplyTo, reply] using holds

/-- Of all that arrives a request is handed the first reply to it. -/
theorem Holds.deliverAll (holds : connection.pending.Holds id found) (heard : List Message) :
    (heard.foldl Connection.deliver connection).pending.Holds id
      (found.or (heard.find? (·.isReplyTo id))) := by
  induction heard generalizing connection found with
  | nil => simpa using holds
  | cons message rest ih =>
    have handed := ih (holds.deliver message)
    rw [Option.or_assoc] at handed
    rw [List.foldl_cons, List.find?_cons]
    cases answers : message.isReplyTo id <;> simpa [answers] using handed

end PendingReplies

/-- How a wait ends that finds this in its slot, when nothing else will come. -/
def ReplySlot.ending : ReplySlot → WaitEnd
  | .answered message => .answered message
  | _ => .lost

-- ---------------------------------------------------------------------------
-- A request over a connection
-- ---------------------------------------------------------------------------

namespace RemotePath

variable {path : RemotePath} {connection waiting : Connection} {id : String}
variable {operation : Operation}

theorem request_cases (requested : path.request connection id operation = .ok waiting) :
    ∃ session, connection.live? = some session ∧ waiting = { connection with
      pending := connection.pending.register id
      session := some { session with
        frames := session.frames ++ [path.requestFrame id operation] } } := by
  unfold request at requested
  split at requested
  case isTrue =>
    have written := Connection.writes_write
      { connection with pending := connection.pending.register id } (path.requestFrame id operation)
    generalize same : Connection.write _ (path.requestFrame id operation) = result at written
    have failed : result.mapError (fun failure => path.unreachable failure.message) = .ok waiting :=
      same ▸ requested
    cases written with
    | sent live =>
      cases failed
      exact ⟨_, live, rfl⟩
    | failed down failure => cases failed
  case isFalse => cases requested

/-- Once everything that the other garden sends has arrived, the request finds in its slot what the
exchange yields. -/
theorem poll_request (remote : Node) (free : connection.pending.slots.lookup id = none)
    (requested : path.request connection id operation = .ok waiting) :
    ∃ message, (path.requestFrame id operation).relayed? = some message ∧
      (((path.arriving (remote.serve message).1).foldl Connection.deliver waiting).pending.poll
        id).1 = some ((path.exchange id remote operation).1.elim .empty .answered) := by
  obtain ⟨message, relayed, -, -⟩ := path.exists_requested id operation
  obtain ⟨session, -, same⟩ := request_cases requested
  have registered : waiting.pending.Holds id none := by
    rw [same]
    exact PendingReplies.holds_register free
  refine ⟨message, relayed, ?_⟩
  unfold exchange
  rw [relayed]
  exact (registered.deliverAll (path.arriving (remote.serve message).1)).poll

/-- The link answers what the request concludes then; if it has been handed nothing, the session is
lost on it. -/
theorem request_linkTo (remote : Node) (free : connection.pending.slots.lookup id = none)
    (requested : path.request connection id operation = .ok waiting) (history : History)
    (wait : Option Duration) :
    ∃ message after slot, (path.requestFrame id operation).relayed? = some message ∧
      after = (path.arriving (remote.serve message).1).foldl Connection.deliver waiting ∧
      (after.pending.poll id).1 = some slot ∧
      (path.linkTo id remote).request history operation wait =
        (path.settle after id slot.ending).1 := by
  obtain ⟨message, relayed, polled⟩ := poll_request remote free requested
  refine ⟨message, _, _, relayed, rfl, polled, ?_⟩
  simp only [linkTo, settle]
  cases (path.exchange id remote operation).1 <;> rfl

end RemotePath

end Federation
