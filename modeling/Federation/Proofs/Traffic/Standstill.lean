import Federation.Proofs.Traffic.Turns
import Federation.Proofs.Users.Traffic

/-!
# When two listeners wait for each other for ever

Replies do not go through the queue, but requests do. So two listeners that wait for each other wait
for ever, and that can happen as soon as each of them is asked for something that only the other one
can answer, and in no other case.
-/

namespace Federation

theorem mem_eraseIdx_or_eq {xs : List α} (hx : xs[index]? = some x) (hy : y ∈ xs) :
    y ∈ xs.eraseIdx index ∨ y = x := by
  obtain ⟨i, hi⟩ := List.mem_iff_getElem?.mp hy
  by_cases same : i = index
  · subst same
    exact .inr (Option.some.inj (hi.symm.trans hx))
  · exact .inl (List.mem_eraseIdx_iff_getElem?.mpr ⟨i, same, hi⟩)

namespace Station

variable {asked : Prop} {station other : Station} {path back : RemotePath}
variable {flights : List (String × Message)}

-- ---------------------------------------------------------------------------
-- What one station waits for
-- ---------------------------------------------------------------------------

def Awaits (station other : Station) (path : RemotePath) (flights : List (String × Message))
    (id : String) : Prop :=
  (∃ request, path.Requests id request ∧ request.asks station.node.name = false ∧
      ((path.destination, request) ∈ flights ∨ request ∈ other.queue)) ∨
    ∃ answer, (path.replyDestination, answer) ∈ flights ∧ answer.isReply = true ∧
      answer.header? Headers.correlationId = some id

/-- A station sends nothing on unless it was asked to, and what it waits for is not lost. -/
structure Sound (asked : Prop) (station other : Station) (path : RemotePath)
    (flights : List (String × Message)) : Prop where
  faces : station.Faces other path
  arriving : ∀ flight ∈ flights, flight.1 ∈ station.subscriptions → flight.2.isReply = false →
    flight.2.asks other.node.name = true → asked
  queued : ∀ message ∈ station.queue, message.asks other.node.name = true → asked
  served : ∀ serving, station.serving = some serving → asked
  answered : ∀ serving answer, station.serving = some serving → serving.answer = some answer →
    answer.isReply = true
  awaited : ∀ serving, station.serving = some serving → serving.answer = none →
    station.Awaits other path flights serving.id

theorem Sound.start (faces : station.Faces other path) (hqueue : station.queue = [])
    (hserving : station.serving = none)
    (h : ∀ flight ∈ flights, flight.1 ∈ station.subscriptions →
      flight.2.asks other.node.name = true → asked) :
    station.Sound asked other path flights where
  faces := faces
  arriving flight hmem here _ asks := h flight hmem here asks
  queued := by simp [hqueue]
  served := by simp [hserving]
  answered := by simp [hserving]
  awaited := by simp [hserving]

theorem Sound.moves (h : station.Sound asked other path flights)
    (moves : station.Moves other path (after, sent)) :
    after.Sound asked other path (flights ++ sent) := by
  have stays : station.Stays after := moves.stays
  have faces : after.Faces other path := h.faces.left stays
  refine ⟨faces, fun flight hmem arrives request asks => ?_, fun message hm asks => ?_,
    fun serving hserving => ?_, fun serving answer hserving hanswer => ?_,
    fun serving hserving hnone => ?_⟩
  · rcases List.mem_append.mp hmem with before | new
    · exact h.arriving flight before (stays.subscriptions ▸ arrives) request asks
    · rcases moves.sent flight new with reply | ⟨away, -⟩
      · exact absurd reply (request ▸ Bool.false_ne_true)
      · exact absurd (away ▸ arrives) faces.apart
  · exact h.queued message (moves.queue message hm) asks
  · rcases moves.served with idle | ⟨message, hm, asks, -⟩
    · cases idle.symm.trans hserving
    · exact h.queued message hm asks
  · rcases moves.served with idle | ⟨message, hm, asks, id, body, hid, -⟩
    · cases idle.symm.trans hserving
    · cases Option.some.inj (hid.symm.trans hserving)
      cases hanswer
  · rcases moves.served with idle | ⟨message, hm, asks, id, body, hid, hsent⟩
    · cases idle.symm.trans hserving
    · cases Option.some.inj (hid.symm.trans hserving)
      have requests := path.requests_requestHeaders id body
      refine .inl ⟨_, requests, ?_, .inl (List.mem_append_right _ hsent)⟩
      rcases moves.sent _ hsent with reply | ⟨-, away⟩
      · exact absurd reply (requests.isReply ▸ Bool.false_ne_true)
      · rw [stays.name]
        exact away

theorem Sound.otherMoves (h : station.Sound asked other path flights)
    (moves : other.Moves station back (after, sent)) :
    station.Sound asked after path (flights ++ sent) := by
  have stays : other.Stays after := moves.stays
  refine ⟨h.faces.right stays, fun flight hmem arrives request asks => ?_, fun message hm asks => ?_,
    h.served, h.answered, fun serving hserving hnone => ?_⟩
  · rw [stays.name] at asks
    rcases List.mem_append.mp hmem with before | new
    · exact h.arriving flight before arrives request asks
    · rcases moves.sent flight new with reply | ⟨-, away⟩
      · exact absurd reply (request ▸ Bool.false_ne_true)
      · exact absurd asks (away ▸ Bool.false_ne_true)
  · rw [stays.name] at asks
    exact h.queued message hm asks
  · rcases h.awaited serving hserving hnone with
      ⟨request, requests, away, flying | queued⟩ | ⟨answer, flying, answers⟩
    · exact .inl ⟨request, requests, away, .inl (List.mem_append_left _ flying)⟩
    · rcases moves.taken request queued with left | asks | replied
      · exact .inl ⟨request, requests, away, .inr left⟩
      · exact absurd asks (away ▸ Bool.false_ne_true)
      · have operation : request.modelClass? ≠ some ModelClass.event := by
          rw [requests.modelClass]
          decide
        obtain ⟨answer, hanswer, answers⟩ := replied operation _ _ requests.replyTo h.faces.address
          requests.correlationId
        exact .inr ⟨answer, List.mem_append_right _ hanswer, answers⟩
    · exact .inr ⟨answer, List.mem_append_left _ flying, answers⟩

def landed (station : Station) (flight : String × Message) : Station :=
  if station.subscriptions.contains flight.1 then station.receive flight.2 else station

theorem Faces.landed_request (faces : station.Faces other path) (request : message.isReply = false) :
    station.landed (path.destination, message) = station ∧
      other.landed (path.destination, message) =
        { other with queue := other.queue ++ [message] } := by
  constructor
  · simp [landed, faces.apart]
  · simp [landed, faces.queue, receive, request]

theorem isWaiting_landed (request : flight.2.isReply = false) :
    (station.landed flight).isWaiting = station.isWaiting := by
  rw [landed, receive, request]
  split <;> rfl

theorem stays_landed (station : Station) (flight : String × Message) :
    station.Stays (station.landed flight) := by
  rw [landed, receive]
  split
  · split <;> exact ⟨rfl, rfl, rfl, rfl, rfl⟩
  · exact ⟨rfl, rfl, rfl, rfl, rfl⟩

theorem mem_queue_landed (flight : String × Message) :
    message ∈ (station.landed flight).queue ↔ message ∈ station.queue ∨
      message = flight.2 ∧ flight.2.isReply = false ∧ flight.1 ∈ station.subscriptions := by
  rw [landed, receive]
  by_cases here : flight.1 ∈ station.subscriptions
  · cases flight.2.isReply <;> simp [here]
  · simp [here]

/-- Only a reply changes what a listener waits for, and only once. -/
theorem serving_landed {serving : Serving} (flight : String × Message)
    (h : (station.landed flight).serving = some serving) :
    ∃ before, station.serving = some before ∧ serving.id = before.id ∧
      (serving.answer = before.answer ∨
        flight.2.isReply = true ∧ serving.answer = some flight.2) := by
  rw [Station.landed, receive] at h
  split at h
  · split at h
    case isTrue reply =>
      obtain ⟨before, hbefore, rfl⟩ := Option.map_eq_some_iff.mp h
      refine ⟨before, hbefore, ?_⟩
      split
      · exact ⟨rfl, .inr ⟨reply, rfl⟩⟩
      · exact ⟨rfl, .inl rfl⟩
    · exact ⟨serving, h, rfl, .inl rfl⟩
  · exact ⟨serving, h, rfl, .inl rfl⟩

theorem answer_landed {before serving : Serving} {flight : String × Message}
    (hserving : station.serving = some before) (here : flight.1 ∈ station.subscriptions)
    (reply : flight.2.isReply = true)
    (same : flight.2.header? Headers.correlationId = some before.id)
    (h : (station.landed flight).serving = some serving) : serving.answer ≠ none := by
  have subscribed : station.subscriptions.contains flight.1 = true := by simpa using here
  rw [Station.landed, if_pos subscribed, receive, if_pos reply] at h
  simp only [hserving, Option.map_some, Option.some.injEq] at h
  subst h
  cases hanswer : before.answer <;> simp [hanswer, same]

theorem Sound.landed (h : station.Sound asked other path flights)
    (hflight : flights[index]? = some flight) :
    (station.landed flight).Sound asked (other.landed flight) path (flights.eraseIdx index) := by
  have stays := station.stays_landed flight
  have hmem : flight ∈ flights := List.mem_of_getElem? hflight
  refine ⟨(h.faces.left stays).right (other.stays_landed flight), fun message hm here request asks => ?_,
    fun message hm asks => ?_, fun serving hserving => ?_,
    fun serving answer hserving hanswer => ?_, fun serving hserving hnone => ?_⟩
  · rw [(other.stays_landed flight).name] at asks
    rw [stays.subscriptions] at here
    exact h.arriving message (List.mem_of_mem_eraseIdx hm) here request asks
  · rw [(other.stays_landed flight).name] at asks
    rcases (mem_queue_landed flight).mp hm with before | ⟨rfl, request, here⟩
    · exact h.queued message before asks
    · exact h.arriving flight hmem here request asks
  · obtain ⟨before, hbefore, -⟩ := serving_landed flight hserving
    exact h.served before hbefore
  · obtain ⟨before, hbefore, -, same | ⟨reply, new⟩⟩ := serving_landed flight hserving
    · exact h.answered before answer hbefore (same.symm.trans hanswer)
    · cases hanswer.symm.trans new
      exact reply
  · obtain ⟨before, hbefore, hid, same | ⟨reply, new⟩⟩ := serving_landed flight hserving
    · rw [hid]
      rcases h.awaited before hbefore (same.symm.trans hnone) with
        ⟨request, requests, away, flying | queued⟩ | ⟨answer, flying, reply, correlation⟩
      · refine .inl ⟨request, requests, by rwa [stays.name], ?_⟩
        rcases mem_eraseIdx_or_eq hflight flying with still | rfl
        · exact .inl still
        · exact .inr ((mem_queue_landed _).mpr (.inr ⟨rfl, requests.isReply, h.faces.queue⟩))
      · exact .inl ⟨request, requests, by rwa [stays.name],
          .inr ((mem_queue_landed flight).mpr (.inl queued))⟩
      · rcases mem_eraseIdx_or_eq hflight flying with still | rfl
        · exact .inr ⟨answer, still, reply, correlation⟩
        · exact absurd hnone (answer_landed hbefore h.faces.replies reply correlation hserving)
    · cases hnone.symm.trans new

/-- With nothing on its way, a listener waits for what is in the queue of the other one. -/
theorem Sound.waiting (h : station.Sound asked other path []) (waits : station.isWaiting = true) :
    asked ∧ other.queue ≠ [] := by
  obtain ⟨serving, hserving, hnone⟩ := (Option.any_eq_true ..).mp waits
  refine ⟨h.served serving hserving, fun empty => ?_⟩
  rcases h.awaited serving hserving (Option.isNone_iff_eq_none.mp hnone) with
    ⟨_, _, _, flying | queued⟩ | ⟨_, flying, _⟩
  · cases flying
  · rw [empty] at queued
    cases queued
  · cases flying

theorem isWaiting_of_idle (hqueue : station.queue ≠ []) (idle : station.canMove = false) :
    station.isWaiting = true := by
  cases hserving : station.serving with
  | none => simp [canMove, hserving, hqueue] at idle
  | some serving => simpa [canMove, isWaiting, hserving] using idle

theorem Faces.exists_waiting (faces : station.Faces other path) (idle : station.serving = none)
    (hqueue : station.queue = message :: rest) (asks : message.asks other.node.name = true) :
    ∃ waiting request, station.take "" = some (waiting, [request]) ∧ waiting.isWaiting = true ∧
      station.Stays waiting ∧ request.2.isReply = false := by
  obtain ⟨body, taken, -⟩ := faces.take_asks idle hqueue asks ""
  exact ⟨_, _, taken, rfl, ⟨rfl, rfl, rfl, rfl, rfl⟩,
    (path.requests_requestHeaders "" body).isReply⟩

theorem idle_of_isWaiting (waits : station.isWaiting = true) : station.canMove = false := by
  obtain ⟨serving, hserving, hnone⟩ := (Option.any_eq_true ..).mp waits
  simpa [canMove, hserving] using hnone

end Station

namespace ListenerTraffic

variable {here there : Prop} {path back : RemotePath} {traffic after : ListenerTraffic}

-- ---------------------------------------------------------------------------
-- Runs of two stations
-- ---------------------------------------------------------------------------

def SoundPair (here there : Prop) (path back : RemotePath) (traffic : ListenerTraffic) : Prop :=
  ∃ a b, traffic.stations = [a, b] ∧ a.Sound here b path traffic.flights ∧
    b.Sound there a back traffic.flights

theorem SoundPair.deliver (h : traffic.SoundPair here there path back)
    (ran : traffic.deliver index = some after) : after.SoundPair here there path back := by
  obtain ⟨a, b, hstations, sound, sound'⟩ := h
  obtain ⟨⟨destination, message⟩, hflight, ran⟩ := Option.bind_eq_some_iff.mp ran
  cases ran
  refine ⟨a.landed (destination, message), b.landed (destination, message), ?_,
    sound.landed hflight, sound'.landed hflight⟩
  rw [hstations]
  rfl

theorem SoundPair.turn {move : Station → Option Turn} (h : traffic.SoundPair here there path back)
    (moves : ∀ {asked station other path}, station.Sound asked other path traffic.flights →
      ∀ {turn}, move station = some turn → station.Moves other path turn)
    (ran : traffic.turn garden move = some after) : after.SoundPair here there path back := by
  obtain ⟨a, b, hstations, sound, sound'⟩ := h
  obtain ⟨station, found, ran⟩ := Option.bind_eq_some_iff.mp ran
  obtain ⟨⟨moved, sent⟩, hmove, ran⟩ := Option.bind_eq_some_iff.mp ran
  cases ran
  rw [hstations] at found ⊢
  have named : station.node.name = garden := by simpa using List.find?_some found
  obtain rfl | rfl : station = a ∨ station = b := by
    simpa using List.mem_of_find?_eq_some found
  · refine ⟨moved, b, ?_, sound.moves (moves sound hmove), sound'.otherMoves (moves sound hmove)⟩
    have distinct : b.node.name ≠ garden := named ▸ sound.faces.distinct
    simp [named, distinct]
  · refine ⟨a, moved, ?_, sound.otherMoves (moves sound' hmove), sound'.moves (moves sound' hmove)⟩
    have distinct : a.node.name ≠ garden := named ▸ sound'.faces.distinct
    simp [named, distinct]

theorem SoundPair.step {step : ListenerStep} (h : traffic.SoundPair here there path back)
    (ran : traffic.step step = some after) : after.SoundPair here there path back := by
  cases step with
  | deliver index => exact h.deliver ran
  | take garden id => exact h.turn (fun sound _ hmove => sound.faces.moves_take hmove) ran
  | resume garden => exact h.turn (fun sound _ hmove => Station.moves_resume hmove sound.answered) ran

theorem SoundPair.run (h : traffic.SoundPair here there path back) {steps : List ListenerStep}
    (ran : traffic.run steps = some after) : after.SoundPair here there path back := by
  induction steps generalizing traffic with
  | nil =>
    cases ran
    exact h
  | cons step rest ih =>
    obtain ⟨next, hstep, ran⟩ := Option.bind_eq_some_iff.mp ran
    exact ih (h.step hstep) ran

theorem SoundPair.asked (h : traffic.SoundPair here there path back)
    (stuck : traffic.isStuck = true) : here ∧ there := by
  obtain ⟨a, b, hstations, sound, sound'⟩ := h
  simp only [isStuck, Bool.and_eq_true, List.isEmpty_iff, hstations] at stuck
  obtain ⟨⟨landed, idle⟩, waiting⟩ := stuck
  rw [landed] at sound sound'
  simp only [List.all_cons, List.all_nil, Bool.and_true, Bool.and_eq_true, Bool.not_eq_true'] at idle
  simp only [List.any_cons, List.any_nil, Bool.or_false, Bool.or_eq_true] at waiting
  rcases waiting with waits | waits
  · obtain ⟨asked, queued⟩ := sound.waiting waits
    exact ⟨asked, (sound'.waiting (Station.isWaiting_of_idle queued idle.2)).1⟩
  · obtain ⟨asked, queued⟩ := sound'.waiting waits
    exact ⟨(sound.waiting (Station.isWaiting_of_idle queued idle.1)).1, asked⟩

-- ---------------------------------------------------------------------------
-- The way into a standstill
-- ---------------------------------------------------------------------------

variable {a b : Station} {flights clients : List (String × Message)}

theorem run_cons {step : ListenerStep} (h : traffic.step step = some after)
    (steps : List ListenerStep) : traffic.run (step :: steps) = after.run steps := by
  rw [run, List.foldlM_cons, h]
  rfl

theorem step_deliver (h : flights[index]? = some flight) :
    step ⟨[a, b], flights⟩ (.deliver index) =
      some ⟨[a.landed flight, b.landed flight], flights.eraseIdx index⟩ := by
  simp [step, deliver, h, Station.landed]

theorem step_take {after : Station} {id : String} (distinct : b.node.name ≠ a.node.name)
    (h : a.take id = some (after, sent)) :
    step ⟨[a, b], flights⟩ (.take a.node.name id) = some ⟨[after, b], flights ++ sent⟩ ∧
      step ⟨[b, a], flights⟩ (.take a.node.name id) = some ⟨[b, after], flights ++ sent⟩ := by
  constructor
  · simp [step, turn, h, distinct]
  · simp [step, turn, h, distinct]

/-- Two listeners that wait, with no replies on their way, come to a standstill. -/
theorem exists_stuck (waits : a.isWaiting = true) (waits' : b.isWaiting = true)
    (requests : ∀ flight ∈ flights, flight.2.isReply = false) :
    ∃ steps after, run ⟨[a, b], flights⟩ steps = some after ∧ after.isStuck = true := by
  induction flights generalizing a b with
  | nil =>
    refine ⟨[], _, rfl, ?_⟩
    simp [isStuck, waits, Station.idle_of_isWaiting waits, Station.idle_of_isWaiting waits']
  | cons flight rest ih =>
    have request := requests flight List.mem_cons_self
    obtain ⟨steps, after, ran, stuck⟩ := ih (Station.isWaiting_landed request ▸ waits)
      (Station.isWaiting_landed request ▸ waits') fun f hf => requests f (List.mem_cons_of_mem _ hf)
    exact ⟨.deliver 0 :: steps, after, ran, stuck⟩

theorem exists_stuck_of_asks (ab : a.Faces b path) (ba : b.Faces a back)
    (fresh : a.queue = [] ∧ a.serving = none) (fresh' : b.queue = [] ∧ b.serving = none)
    (requests : ∀ flight ∈ clients, flight.2.isReply = false)
    (hfirst : (back.destination, first) ∈ clients) (asks : first.asks b.node.name = true)
    (hsecond : (path.destination, second) ∈ clients) (asks' : second.asks a.node.name = true) :
    ∃ steps after, run ⟨[a, b], clients⟩ steps = some after ∧ after.isStuck = true := by
  obtain ⟨i, hi⟩ := List.mem_iff_getElem?.mp hfirst
  have left : (path.destination, second) ∈ clients.eraseIdx i := by
    refine (mem_eraseIdx_or_eq hi hsecond).resolve_right fun same => ?_
    have joined : path.destination = back.destination := congrArg Prod.fst same
    exact ab.apart (joined ▸ ba.queue)
  obtain ⟨j, hj⟩ := List.mem_iff_getElem?.mp left
  -- Both requests arrive before either listener takes its own.
  let a₁ : Station := { a with queue := a.queue ++ [first] }
  let b₁ : Station := { b with queue := b.queue ++ [second] }
  have hqueue : a₁.queue = [first] := by simp [a₁, fresh.1]
  have hqueue' : b₁.queue = [second] := by simp [b₁, fresh'.1]
  have arrived : step ⟨[a, b], clients⟩ (.deliver i) = some ⟨[a₁, b], clients.eraseIdx i⟩ := by
    obtain ⟨away, here⟩ := ba.landed_request (requests _ hfirst)
    rw [step_deliver hi, away, here]
  have facing : a₁.Faces b path := ab.left (a.stays_queue _)
  have arrived' : step ⟨[a₁, b], clients.eraseIdx i⟩ (.deliver j) =
      some ⟨[a₁, b₁], (clients.eraseIdx i).eraseIdx j⟩ := by
    obtain ⟨away, here⟩ := facing.landed_request (requests _ hsecond)
    rw [step_deliver hj, away, here]
  have facing : a₁.Faces b₁ path := facing.right (b.stays_queue _)
  obtain ⟨waiting, sent, taken, waits, stays, request⟩ :=
    facing.exists_waiting fresh.2 hqueue asks
  have facing' : b₁.Faces waiting back :=
    (ba.left (b.stays_queue _)).right ((a.stays_queue _).trans stays)
  obtain ⟨waiting', sent', taken', waits', -, request'⟩ :=
    facing'.exists_waiting fresh'.2 hqueue' (stays.name ▸ asks')
  have rest : ∀ flight ∈ (clients.eraseIdx i).eraseIdx j ++ [sent] ++ [sent'],
      flight.2.isReply = false := by
    simp only [List.forall_mem_append, List.forall_mem_singleton]
    exact ⟨⟨fun flight hmem => requests flight
      (List.mem_of_mem_eraseIdx (List.mem_of_mem_eraseIdx hmem)), request⟩, request'⟩
  obtain ⟨steps, after, ran, stuck⟩ := exists_stuck waits waits' rest
  refine ⟨.deliver i :: .deliver j :: .take a.node.name "" :: .take b.node.name "" :: steps, after,
    ?_, stuck⟩
  rw [run_cons arrived, run_cons arrived', run_cons (step_take facing.distinct taken).1,
    run_cons (step_take facing'.distinct taken').2, ran]

/-- Two listeners come to a standstill, over some run, just when each of them is asked for something
that only the other one can answer. -/
theorem stuck_iff (ab : a.Faces b path) (ba : b.Faces a back)
    (fresh : a.queue = [] ∧ a.serving = none) (fresh' : b.queue = [] ∧ b.serving = none)
    (operations : ∀ flight ∈ clients, flight.2.isReply = false ∧
      (flight.1 = path.destination ∨ flight.1 = back.destination)) :
    (∃ steps after, run ⟨[a, b], clients⟩ steps = some after ∧ after.isStuck = true) ↔
      (∃ message, (back.destination, message) ∈ clients ∧ message.asks b.node.name = true) ∧
        ∃ message, (path.destination, message) ∈ clients ∧ message.asks a.node.name = true := by
  constructor
  · rintro ⟨steps, after, ran, stuck⟩
    have pair : SoundPair
        (∃ message, (back.destination, message) ∈ clients ∧ message.asks b.node.name = true)
        (∃ message, (path.destination, message) ∈ clients ∧ message.asks a.node.name = true)
        path back ⟨[a, b], clients⟩ := by
      refine ⟨a, b, rfl, .start ab fresh.1 fresh.2 fun flight hmem here asks => ?_,
        .start ba fresh'.1 fresh'.2 fun flight hmem here asks => ?_⟩
      · rcases (operations flight hmem).2 with away | home
        · exact absurd (away ▸ here) ab.apart
        · exact ⟨flight.2, home ▸ hmem, asks⟩
      · rcases (operations flight hmem).2 with home | away
        · exact ⟨flight.2, home ▸ hmem, asks⟩
        · exact absurd (away ▸ here) ba.apart
    exact (pair.run ran).asked stuck
  · rintro ⟨⟨first, hfirst, asks⟩, second, hsecond, asks'⟩
    exact exists_stuck_of_asks ab ba fresh fresh' (fun flight hmem => (operations flight hmem).1)
      hfirst asks hsecond asks'

-- ---------------------------------------------------------------------------
-- A parent and its child
-- ---------------------------------------------------------------------------

def stationOf (name other : String) : Station where
  node := { Node.linkedTo name ⟨other, some .stomp, []⟩ [] with handlers := OperationKind.all }
  subscriptions := [name ++ ".operations", name ++ ".replies"]
  paths := [⟨other, other ++ ".operations", name ++ ".replies", name⟩]

def inquiry (garden : String) : Message :=
  ⟨Headers.ofModelClass ModelClass.operation,
    ((Operation.ofKind .jobReadAll).withTarget garden).encode⟩

theorem asks_inquiry (h : garden ≠ "") : (inquiry garden).asks garden = true := by
  have plain : ((Operation.ofKind .jobReadAll).withTarget garden).IsPlain :=
    Operation.isPlain_of_bare rfl rfl
  have typed : ((Operation.ofKind .jobReadAll).withTarget garden).operationType ≠ "" := by
    change OperationKind.jobReadAll.name ≠ ""
    decide
  have operation : (inquiry garden).modelClass? ≠ some ModelClass.event := by
    change some ModelClass.operation ≠ some ModelClass.event
    decide
  refine Message.asks_iff.mpr ⟨operation, _, plain.isPortable.decode_encode typed, rfl, ?_⟩
  simp [Operation.target?, Operation.withTarget, h]

/-- Each asks the other one while it is asked by a client, and neither answers. -/
theorem stuck_parent_child :
    ∃ steps after, run ⟨[stationOf "parent" "child", stationOf "child" "parent"],
        [("parent.operations", inquiry "child"), ("child.operations", inquiry "parent")]⟩ steps =
      some after ∧ after.isStuck = true := by
  have there : (stationOf "parent" "child").Faces (stationOf "child" "parent")
      ⟨"child", "child.operations", "parent.replies", "parent"⟩ := by
    refine ⟨rfl, rfl, ⟨_, _, rfl, rfl⟩, ?_, ?_, ?_, ?_, rfl, ?_⟩ <;> decide
  have back : (stationOf "child" "parent").Faces (stationOf "parent" "child")
      ⟨"parent", "parent.operations", "child.replies", "child"⟩ := by
    refine ⟨rfl, rfl, ⟨_, _, rfl, rfl⟩, ?_, ?_, ?_, ?_, rfl, ?_⟩ <;> decide
  refine (stuck_iff there back ⟨rfl, rfl⟩ ⟨rfl, rfl⟩ fun flight hmem => ?_).mpr
    ⟨⟨inquiry "child", by simp, asks_inquiry (by decide)⟩,
      ⟨inquiry "parent", by simp, asks_inquiry (by decide)⟩⟩
  simp only [List.mem_cons, List.not_mem_nil, or_false] at hmem
  rcases hmem with rfl | rfl
  · exact ⟨rfl, .inr rfl⟩
  · exact ⟨rfl, .inl rfl⟩

end ListenerTraffic

end Federation
