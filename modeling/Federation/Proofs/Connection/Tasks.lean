import Federation.Connection.Tasks

/-!
# A connection that is shown as up without a reader

When nothing is under way and the connection is shown as up, its reader is gone exactly if the last
connecting showed it as up after the reader of its own new session had ended and been cleaned up.
The reader has then shown the connection as down for the last time, and nothing but a disconnect
changes anything any more.

Every step is one of the moves of `Moves`. An invariant, `Sound`, says what belongs to whom at any
time; `Settled` goes through a run from its end to the step that showed the connection as up.
-/

namespace Federation

theorem exists_last [DecidableEq α] {x : α} {xs : List α} (h : x ∈ xs) :
    ∃ early late, xs = early ++ x :: late ∧ x ∉ late := by
  obtain ⟨late, early, same, first⟩ := List.eq_append_cons_of_mem (List.mem_reverse.mpr h)
  refine ⟨early.reverse, late.reverse, ?_, fun hmem => first (List.mem_reverse.mp hmem)⟩
  rw [← List.reverse_reverse xs, same]
  simp

namespace ConnectionTasks

inductive Moves (tasks : ConnectionTasks) : TaskStep → ConnectionTasks → Prop
  | kept (free : tasks.connecting = none) (held : tasks.session = some reader)
      (up : tasks.state = .connected) : Moves tasks .connect tasks
  | joins (free : tasks.connecting = none) (held : tasks.session = some reader)
      (down : tasks.state ≠ .connected) :
      Moves tasks .connect { tasks with session := none, connecting := some (.joining reader) }
  | starts (free : tasks.connecting = none) (empty : tasks.session = none) :
      Moves tasks .connect { tasks with session := none, connecting := some .ready }
  | joined (at_stage : tasks.connecting = some (.joining reader)) (gone : tasks.isGone reader) :
      Moves tasks .goOn { tasks with connecting := some .ready }
  | asks (at_stage : tasks.connecting = some .ready) :
      Moves tasks .goOn { tasks with state := .connecting, connecting := some .asking }
  | opens (at_stage : tasks.connecting = some .asking) :
      Moves tasks .goOn { tasks with
        readers := tasks.readers ++ [.reading]
        connecting := some (.opened tasks.readers.length) }
  | stores (at_stage : tasks.connecting = some (.opened reader)) :
      Moves tasks .goOn { tasks with session := some reader, connecting := some .stored }
  | shows (at_stage : tasks.connecting = some .stored) :
      Moves tasks .goOn { tasks with state := .connected, connecting := none }
  | refuses (at_stage : tasks.connecting = some .ready) :
      Moves tasks .refuse { tasks with connecting := none }
  | fails (at_stage : tasks.connecting = some .asking) :
      Moves tasks .fail { tasks with state := .disconnected, connecting := none }
  | ends (reads : tasks.readers[reader]? = some .reading) :
      Moves tasks (.endReading reader) { tasks with readers := tasks.readers.set reader .ended }
  | clears (ended : tasks.readers[reader]? = some .ended) :
      Moves tasks (.cleanUp reader) { tasks with readers := tasks.readers.set reader .cleared }
  | goes (cleared : tasks.readers[reader]? = some .cleared) :
      Moves tasks (.cleanUp reader) { tasks with
        state := .disconnected, readers := tasks.readers.set reader .gone }
  | takes (free : tasks.connecting = none) (held : tasks.session = some reader) :
      Moves tasks .disconnect { tasks with
        session := none, disconnecting := tasks.disconnecting ++ [.joining reader] }
  | leaves (free : tasks.connecting = none) (empty : tasks.session = none) :
      Moves tasks .disconnect { tasks with
        session := none, disconnecting := tasks.disconnecting ++ [.ready] }
  | left (at_stage : tasks.disconnecting[index]? = some (.joining reader))
      (gone : tasks.isGone reader) :
      Moves tasks (.leave index) { tasks with
        disconnecting := tasks.disconnecting.set index .ready }
  | hides (at_stage : tasks.disconnecting[index]? = some .ready) :
      Moves tasks (.leave index) { tasks with
        state := .disconnected, disconnecting := tasks.disconnecting.set index .shown }
  | done (at_stage : tasks.disconnecting[index]? = some .shown) :
      Moves tasks (.leave index) { tasks with
        disconnecting := tasks.disconnecting.set index .done }

variable {tasks after : ConnectionTasks} {step : TaskStep}

theorem moves_beginConnect (free : tasks.connecting = none) :
    Moves tasks .connect tasks.beginConnect := by
  unfold beginConnect
  split
  case h_1 empty =>
    have starts := Moves.starts free empty
    rwa [← empty] at starts
  case h_2 reader held =>
    split
    case isTrue up => exact .kept free held up
    case isFalse down => exact .joins free held down

theorem moves_continueConnect (at_stage : tasks.connecting = some stage)
    (h : tasks.continueConnect stage = some after) : Moves tasks .goOn after := by
  cases stage with
  | joining reader =>
    obtain ⟨gone, ready⟩ := Option.ite_none_right_eq_some.mp h
    cases ready
    exact .joined at_stage gone
  | ready => cases h; exact .asks at_stage
  | asking => cases h; exact .opens at_stage
  | opened reader => cases h; exact .stores at_stage
  | stored => cases h; exact .shows at_stage

theorem moves_cleanUp (h : tasks.cleanUp reader = some after) :
    Moves tasks (.cleanUp reader) after := by
  unfold cleanUp at h
  split at h
  case h_1 ended => cases h; exact .clears ended
  case h_2 cleared => cases h; exact .goes cleared
  case h_3 => cases h

theorem moves_beginDisconnect (free : tasks.connecting = none) :
    Moves tasks .disconnect tasks.beginDisconnect := by
  unfold beginDisconnect
  cases held : tasks.session with
  | none => exact .leaves free held
  | some reader => exact .takes free held

theorem moves_continueDisconnect (h : tasks.continueDisconnect index = some after) :
    Moves tasks (.leave index) after := by
  unfold continueDisconnect at h
  split at h
  case h_1 reader at_stage =>
    obtain ⟨gone, ready⟩ := Option.ite_none_right_eq_some.mp h
    cases ready
    exact .left at_stage gone
  case h_2 at_stage => cases h; exact .hides at_stage
  case h_3 at_stage => cases h; exact .done at_stage
  case h_4 => cases h

theorem moves_of_step (h : tasks.step step = some after) : Moves tasks step after := by
  cases step with
  | connect =>
    obtain ⟨free, begun⟩ := Option.ite_none_right_eq_some.mp h
    cases begun
    exact moves_beginConnect (Option.isNone_iff_eq_none.mp free)
  | goOn =>
    obtain ⟨stage, at_stage, h⟩ := Option.bind_eq_some_iff.mp h
    exact moves_continueConnect at_stage h
  | refuse =>
    obtain ⟨at_stage, refused⟩ := Option.ite_none_right_eq_some.mp h
    cases refused
    exact .refuses at_stage
  | fail =>
    obtain ⟨at_stage, failed⟩ := Option.ite_none_right_eq_some.mp h
    cases failed
    exact .fails at_stage
  | endReading reader =>
    obtain ⟨reads, ended⟩ := Option.ite_none_right_eq_some.mp h
    cases ended
    exact .ends reads
  | cleanUp reader => exact moves_cleanUp h
  | disconnect =>
    obtain ⟨free, begun⟩ := Option.ite_none_right_eq_some.mp h
    cases begun
    exact moves_beginDisconnect (Option.isNone_iff_eq_none.mp free)
  | leave index => exact moves_continueDisconnect h

-- ---------------------------------------------------------------------------
-- What belongs to whom
-- ---------------------------------------------------------------------------

/-- The session is put back at the end of connecting, and every reader that is not gone belongs to
the stored session, or to somebody who opens or ends its session. Where none is stored and the
connection is shown as up, a disconnect is going to show it as down. -/
structure Sound (tasks : ConnectionTasks) : Prop where
  counted : ∀ reader, tasks.session = some reader → reader < tasks.readers.length
  opened : ∀ reader, tasks.connecting = some (.opened reader) → reader < tasks.readers.length
  stored : tasks.connecting = some .stored → tasks.session ≠ none
  empty : ∀ stage, tasks.connecting = some stage → stage ≠ .stored → tasks.session = none
  owned : ∀ reader < tasks.readers.length, tasks.isGone reader ∨ tasks.session = some reader ∨
    tasks.connecting = some (.opened reader) ∨ tasks.connecting = some (.joining reader) ∨
    .joining reader ∈ tasks.disconnecting
  hidden : tasks.state = .connected → tasks.session = none →
    ∃ stage ∈ tasks.disconnecting, stage ≠ .shown ∧ stage ≠ .done

theorem sound_start : Sound {} := by
  constructor <;> simp

@[grind =] theorem isGone_iff : tasks.isGone reader = true ↔ tasks.readers[reader]? = some .gone := by
  simp [isGone]

theorem mem_set_self {stages : List α} (at_index : stages[index]? = some old) (new : α) :
    new ∈ stages.set index new :=
  List.mem_set (List.getElem?_eq_some_iff.mp at_index).1 new

theorem mem_set_of_ne {stages : List α} (h : stage ∈ stages) (at_index : stages[index]? = some old)
    (other : old ≠ stage) (new : α) : stage ∈ stages.set index new := by
  obtain ⟨place, at_place⟩ := List.mem_iff_getElem?.mp h
  refine List.mem_iff_getElem?.mpr ⟨place, ?_⟩
  have apart : index ≠ place := by
    rintro rfl
    exact other (Option.some.inj (at_index.symm.trans at_place))
  rw [List.getElem?_set_ne apart, at_place]

theorem Sound.leave (h : tasks.Sound) (at_stage : tasks.disconnecting[index]? = some stage)
    (gone : ∀ reader, stage = .joining reader → tasks.isGone reader)
    {state : ConnectionState} {next : DisconnectStage}
    (hidden : state = .connected → tasks.session = none →
      ∃ stage ∈ tasks.disconnecting.set index next, stage ≠ .shown ∧ stage ≠ .done) :
    Sound { tasks with state, disconnecting := tasks.disconnecting.set index next } where
  counted := h.counted
  opened := h.opened
  stored := h.stored
  empty := h.empty
  owned reader exists_reader := by
    by_cases waited : stage = .joining reader
    · exact .inl (gone reader waited)
    · refine (h.owned reader exists_reader).imp_right (.imp_right (.imp_right (.imp_right ?_)))
      exact fun waits => mem_set_of_ne waits at_stage waited next
  hidden := hidden

theorem Sound.moves (h : tasks.Sound) (moves : Moves tasks step after) : after.Sound := by
  cases moves with
  | left at_stage gone =>
    exact h.leave at_stage (by rintro _ ⟨⟩; exact gone) fun _ _ =>
      ⟨.ready, mem_set_self at_stage .ready, by simp⟩
  | hides at_stage => exact h.leave at_stage (by simp) fun up => nomatch up
  | done at_stage =>
    refine h.leave at_stage (by simp) fun up none => ?_
    obtain ⟨stage, hmem, unshown, undone⟩ := h.hidden up none
    exact ⟨stage, mem_set_of_ne hmem at_stage (Ne.symm unshown) .done, unshown, undone⟩
  | takes | leaves =>
    obtain ⟨counted, opened, stored, empty, owned, -⟩ := h
    refine ⟨?_, ?_, ?_, ?_, ?_, fun _ _ =>
      ⟨_, List.mem_append_right _ (List.mem_singleton_self _), by simp⟩⟩ <;> grind
  | _ =>
    obtain ⟨counted, opened, stored, empty, owned, hidden⟩ := h
    constructor <;> grind

theorem run_cons (tasks : ConnectionTasks) (step : TaskStep) (rest : List TaskStep) :
    tasks.run (step :: rest) = (tasks.step step).bind fun next => next.run rest := List.foldlM_cons

theorem run_append (tasks : ConnectionTasks) (steps more : List TaskStep) :
    tasks.run (steps ++ more) = (tasks.run steps).bind fun next => next.run more :=
  List.foldlM_append

theorem Sound.run (h : tasks.Sound) (ran : tasks.run steps = some after) : after.Sound := by
  induction steps generalizing tasks with
  | nil =>
    cases ran
    exact h
  | cons step rest ih =>
    rw [run_cons] at ran
    obtain ⟨next, first, others⟩ := Option.bind_eq_some_iff.mp ran
    exact ih (h.moves (moves_of_step first)) others

-- ---------------------------------------------------------------------------
-- From the end back to the step that showed the connection as up
-- ---------------------------------------------------------------------------

/-- What was so since the connection was shown as up for the last time, when nothing is under way
at the end. -/
structure Settled (final tasks : ConnectionTasks) : Prop where
  state : tasks.state = .connected
  connecting : tasks.connecting = none
  session : tasks.session = final.session
  readers : tasks.readers = final.readers
  disconnecting : ∀ stage ∈ tasks.disconnecting, stage = .shown ∨ stage = .done

theorem isQuiet_iff : tasks.isQuiet = true ↔ tasks.connecting = none ∧
    (∀ stage ∈ tasks.disconnecting, stage = .done) ∧
    ∀ stage ∈ tasks.readers, stage = .reading ∨ stage = .gone := by
  simp [isQuiet, and_assoc]

theorem Settled.refl (quiet : tasks.isQuiet) (up : tasks.state = .connected) :
    Settled tasks tasks where
  state := up
  connecting := (isQuiet_iff.mp quiet).1
  session := rfl
  readers := rfl
  disconnecting stage hmem := .inr ((isQuiet_iff.mp quiet).2.1 stage hmem)

/-- Before a settled time it was as settled already, unless the step in between was one of
connecting: all other steps leave something to be done that would show the connection as down. -/
theorem Settled.back (h : Settled final after) (quiet : final.isQuiet) (sound : tasks.Sound)
    (moves : Moves tasks step after) (other : step ≠ .goOn) : Settled final tasks := by
  obtain ⟨state, connecting, session, readers, disconnecting⟩ := h
  obtain ⟨-, -, still⟩ := isQuiet_iff.mp quiet
  rw [← readers] at still
  cases moves with
  | kept => exact ⟨state, connecting, session, readers, disconnecting⟩
  | done at_stage =>
    refine ⟨state, connecting, session, readers, fun stage hmem => ?_⟩
    by_cases same : stage = .shown
    · exact .inl same
    · exact disconnecting stage (mem_set_of_ne hmem at_stage (Ne.symm same) .done)
  | ends reads => exact absurd (still _ (mem_set_self reads .ended)) (by decide)
  | clears ended => exact absurd (still _ (mem_set_self ended .cleared)) (by decide)
  | takes => exact absurd (disconnecting _ (List.mem_append_right _ List.mem_cons_self)) (by simp)
  | leaves => exact absurd (disconnecting _ (List.mem_append_right _ List.mem_cons_self)) (by decide)
  | left at_stage => exact absurd (disconnecting _ (mem_set_self at_stage .ready)) (by decide)
  | refuses at_stage =>
    obtain ⟨stage, hmem, unshown, undone⟩ := sound.hidden state (sound.empty _ at_stage (by simp))
    exact absurd (disconnecting stage hmem) (by simp [unshown, undone])
  | joins => cases connecting
  | starts => cases connecting
  | fails => cases state
  | goes => cases state
  | hides => cases state
  | _ => exact absurd rfl other

theorem Settled.start (h : Settled final after) (quiet : final.isQuiet) (sound : tasks.Sound)
    (ran : tasks.run steps = some after) (others : .goOn ∉ steps) : Settled final tasks := by
  induction steps generalizing tasks with
  | nil =>
    cases ran
    exact h
  | cons step rest ih =>
    rw [run_cons] at ran
    obtain ⟨next, first, ran⟩ := Option.bind_eq_some_iff.mp ran
    obtain ⟨other, others⟩ := not_or.mp (mt List.mem_cons.mpr others)
    have moves := moves_of_step first
    exact (ih (sound.moves moves) ran others).back quiet sound moves (Ne.symm other)

/-- The step that showed the connection as up for the last time found the session and the readers
that there are at the end. -/
theorem shown_before (ran : run {} (early ++ .goOn :: late) = some final) (quiet : final.isQuiet)
    (up : final.state = .connected) (last : .goOn ∉ late) :
    ∃ middle reader, run {} early = some middle ∧ middle.connecting = some .stored ∧
      middle.session = some reader ∧ reader < middle.readers.length ∧
      final.session = some reader ∧ final.readers = middle.readers := by
  rw [run_append] at ran
  obtain ⟨middle, before, ran⟩ := Option.bind_eq_some_iff.mp ran
  rw [run_cons] at ran
  obtain ⟨next, first, ran⟩ := Option.bind_eq_some_iff.mp ran
  have sound := sound_start.run before
  obtain ⟨state, connecting, session, readers, -⟩ :=
    (Settled.refl quiet up).start quiet (sound.moves (moves_of_step first)) ran last
  cases moves_of_step first with
  | shows at_stage =>
    obtain ⟨reader, held⟩ := Option.ne_none_iff_exists'.mp (sound.stored at_stage)
    exact ⟨middle, reader, before, at_stage, held, sound.counted reader held,
      session.symm.trans held, readers.symm⟩
  | _ => cases connecting

-- ---------------------------------------------------------------------------
-- Nothing more happens
-- ---------------------------------------------------------------------------

/-- The connection is shown as up and nobody is left who could show it as down by itself. -/
structure Deaf (tasks : ConnectionTasks) : Prop where
  state : tasks.state = .connected
  connecting : tasks.connecting = none
  session : tasks.session ≠ none
  readers : ∀ stage ∈ tasks.readers, stage = .gone
  disconnecting : ∀ stage ∈ tasks.disconnecting, stage = .done

theorem Sound.deaf (h : tasks.Sound) (quiet : tasks.isQuiet) (up : tasks.state = .connected)
    (held : tasks.session = some reader) (gone : tasks.isGone reader) : Deaf tasks := by
  obtain ⟨free, finished, still⟩ := isQuiet_iff.mp quiet
  refine ⟨up, free, by simp [held], fun stage hmem => ?_, finished⟩
  obtain ⟨number, counted, rfl⟩ := List.getElem_of_mem hmem
  have own_gone {number : Nat} (at_number : number < tasks.readers.length)
      (gone : tasks.isGone number) : tasks.readers[number] = .gone := by
    rw [isGone_iff, List.getElem?_eq_getElem at_number] at gone
    exact Option.some.inj gone
  rcases h.owned number counted with own | own | own | own | own
  · exact own_gone counted own
  · obtain rfl : reader = number := Option.some.inj (held.symm.trans own)
    exact own_gone counted gone
  · rw [free] at own
    cases own
  · rw [free] at own
    cases own
  · cases finished _ own

theorem Deaf.moves (h : Deaf tasks) (moves : Moves tasks step after) (other : step ≠ .disconnect) :
    after = tasks := by
  obtain ⟨state, connecting, session, readers, disconnecting⟩ := h
  cases moves with
  | kept => rfl
  | joins free held down => exact absurd state down
  | starts free empty => exact absurd empty session
  | joined at_stage | asks at_stage | opens at_stage | stores at_stage | shows at_stage
  | refuses at_stage | fails at_stage => cases connecting.symm.trans at_stage
  | ends stage | clears stage | goes stage => cases readers _ (List.mem_of_getElem? stage)
  | takes | leaves => exact absurd rfl other
  | left at_stage | hides at_stage | done at_stage =>
    cases disconnecting _ (List.mem_of_getElem? at_stage)

theorem Deaf.run (h : Deaf tasks) (ran : tasks.run steps = some after)
    (others : .disconnect ∉ steps) : after = tasks := by
  induction steps generalizing tasks with
  | nil =>
    cases ran
    rfl
  | cons step rest ih =>
    rw [run_cons] at ran
    obtain ⟨next, first, ran⟩ := Option.bind_eq_some_iff.mp ran
    obtain ⟨other, others⟩ := not_or.mp (mt List.mem_cons.mpr others)
    have same : next = tasks := h.moves (moves_of_step first) (Ne.symm other)
    exact ih h (same ▸ ran) others

theorem isAlive_iff (quiet : tasks.isQuiet) (held : tasks.session = some reader)
    (counted : reader < tasks.readers.length) :
    tasks.isAlive = false ↔ tasks.isGone reader := by
  have at_reader := List.getElem?_eq_getElem counted
  rw [isGone_iff, isAlive, held, at_reader]
  rcases (isQuiet_iff.mp quiet).2.2 _ (List.getElem_mem counted) with reads | gone
  · simp [at_reader, reads]
  · simp [at_reader, gone]

/-- When nothing is under way and the connection is shown as up, the reader of its session is gone
exactly if it was gone already at the last step of connecting, which showed the connection as up.
Only a disconnect changes that again. -/
theorem run_deaf (ran : run {} steps = some tasks) (quiet : tasks.isQuiet)
    (up : tasks.state = .connected) :
    (tasks.isAlive = false ↔
      ∃ early late middle reader, steps = early ++ .goOn :: late ∧ .goOn ∉ late ∧
        run {} early = some middle ∧ middle.connecting = some .stored ∧
        middle.session = some reader ∧ middle.isGone reader) ∧
    (tasks.isAlive = false → ∀ more after, .disconnect ∉ more → tasks.run more = some after →
      after = tasks) := by
  have shown : .goOn ∈ steps := Decidable.byContradiction fun never => by
    cases ((Settled.refl quiet up).start quiet sound_start ran never).state
  obtain ⟨early, late, rfl, last⟩ := exists_last shown
  obtain ⟨middle, reader, before, at_stage, held, counted, session, readers⟩ :=
    shown_before ran quiet up last
  have dead_iff : tasks.isAlive = false ↔ middle.isGone reader := by
    rw [isAlive_iff quiet session (readers ▸ counted), isGone, isGone, readers]
  refine ⟨⟨fun dead => ?_, ?_⟩, fun dead more after others went_on => ?_⟩
  · exact ⟨early, late, middle, reader, rfl, last, before, at_stage, held, dead_iff.mp dead⟩
  · rintro ⟨early', late', middle', reader', split, last', before', -, held', gone⟩
    rw [split] at ran
    obtain ⟨_, _, before, -, held, counted, session, readers⟩ := shown_before ran quiet up last'
    obtain rfl := Option.some.inj (before.symm.trans before')
    obtain rfl := Option.some.inj (held.symm.trans held')
    rwa [isAlive_iff quiet session (readers ▸ counted), isGone, readers]
  · have gone := (isAlive_iff quiet session (readers ▸ counted)).mp dead
    exact ((sound_start.run ran).deaf quiet up session gone).run went_on others

/-- The session breaks as soon as it is there; its reader is gone before connecting is over. -/
def brokenAtOnce : List TaskStep :=
  [.connect, .goOn, .goOn, .endReading 0, .cleanUp 0, .cleanUp 0, .goOn, .goOn]

theorem run_deaf_brokenAtOnce :
    ∃ tasks, run {} brokenAtOnce = some tasks ∧ tasks.isQuiet ∧ tasks.state = .connected ∧
      tasks.isAlive = false ∧
      ∀ more after, .disconnect ∉ more → tasks.run more = some after → after = tasks := by
  have ran : run {} brokenAtOnce = some ⟨.connected, some 0, [.gone], none, []⟩ := by decide
  have deaf := run_deaf ran (by decide) (by decide)
  exact ⟨_, ran, by decide, by decide, by decide, deaf.2 (by decide)⟩

end ConnectionTasks

end Federation
