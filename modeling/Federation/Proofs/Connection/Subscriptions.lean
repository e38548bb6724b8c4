import Federation.Config.Validation
import Federation.Connection.Steps
import Federation.Proofs.Json.Records
import Mathlib.Data.List.Induction
import Mathlib.Data.List.Nodup

/-!
# What a session is subscribed to

A session that is up is subscribed to the configured destinations and to all that were subscribed to
since, over any number of lost sessions. That it is subscribed to each only once does not hold in
general. A destination that is subscribed to again while the session is up is sent again, with the
number it has already, and a destination that is configured twice is sent twice on every session.
These are the only two ways.

What a step does to the sessions is said once, in `Moves`; everything else follows from that.
-/

namespace Federation

namespace Connection

variable {connection after : Connection} {step : ConnectionStep} {steps : List ConnectionStep}

def isUp (connection : Connection) : Bool := connection.live?.isSome

def logs (connection : Connection) : List (List Frame) :=
  connection.sessions.map Session.subscribing

def announcing (numbered : List (String × Nat)) : List Frame :=
  numbered.map fun (destination, number) => subscribeFrame destination number

theorem live?_eq_some {session : Session} :
    connection.live? = some session ↔
      connection.isConnected ∧ connection.session = some session ∧ session.ended = none := by
  simp [live?, Option.ite_none_right_eq_some, Option.filter_eq_some_iff]

theorem isUp_iff :
    connection.isUp ↔
      connection.isConnected ∧
        ∃ session, connection.session = some session ∧ session.ended = none := by
  simp [isUp, Option.isSome_iff_exists, live?_eq_some]

theorem logs_of_none (none : connection.session = none) :
    connection.logs = connection.past.map Session.subscribing := by
  simp [logs, sessions, none]

theorem logs_of_session {session : Session} (held : connection.session = some session) :
    connection.logs = connection.past.map Session.subscribing ++ [session.subscribing] := by
  simp [logs, sessions, held]

theorem logs_of_subscribing (past : after.past = connection.past)
    (same : after.session.map Session.subscribing = connection.session.map Session.subscribing) :
    after.logs = connection.logs := by
  simp only [logs, sessions, past, List.map_append, ← Option.toList_map, same]

-- ---------------------------------------------------------------------------
-- What leaves the subscriptions alone
-- ---------------------------------------------------------------------------

structure Quiet (connection after : Connection) : Prop where
  subscriptions : after.subscriptions = connection.subscriptions
  logs : after.logs = connection.logs
  up : after.isUp → connection.isUp

theorem Quiet.refl (connection : Connection) : connection.Quiet connection := ⟨rfl, rfl, id⟩

theorem Quiet.trans {next : Connection} (first : connection.Quiet next)
    (second : next.Quiet after) : connection.Quiet after :=
  ⟨second.subscriptions.trans first.subscriptions, second.logs.trans first.logs,
    first.up ∘ second.up⟩

theorem quiet_deliver (connection : Connection) (message : Message) :
    connection.Quiet (connection.deliver message) := by
  unfold deliver
  split
  · split
    · exact ⟨rfl, rfl, id⟩
    · exact .refl _
  · exact ⟨rfl, rfl, id⟩

theorem quiet_dispatch (connection : Connection) (frame : Frame) :
    connection.Quiet (connection.dispatch frame) := by
  unfold dispatch
  split
  · exact connection.quiet_deliver _
  · exact .refl _

theorem quiet_lose (connection : Connection) (failure : Failure) :
    connection.Quiet (connection.lose failure) where
  subscriptions := rfl
  logs := logs_of_subscribing rfl (Option.map_map _ _ _)
  up up := nomatch (isUp_iff.mp up).1

theorem quiet_receive (connection : Connection) (incoming : Incoming) :
    connection.Quiet (connection.receive incoming) := by
  unfold receive
  split
  · exact connection.quiet_lose _
  · exact connection.quiet_lose _
  · split
    · exact connection.quiet_dispatch _
    · exact .refl _

theorem quiet_receiveAll (connection : Connection) (incoming : List Incoming) :
    connection.Quiet (connection.receiveAll incoming) := by
  induction incoming generalizing connection with
  | nil => exact .refl _
  | cons first rest ih =>
    unfold receiveAll
    split
    · exact (connection.quiet_receive first).trans (ih _)
    · exact .refl _

theorem quiet_retire (connection : Connection) : connection.Quiet connection.retire where
  subscriptions := rfl
  logs := by simp [logs, sessions, retire]
  up up := nomatch (isUp_iff.mp up).1

theorem quiet_retireStale (connection : Connection) : connection.Quiet connection.retireStale := by
  unfold retireStale
  split
  case h_1 => exact .refl _
  case h_2 session held =>
    split
    · exact connection.quiet_retire
    · refine ⟨rfl, by simp [logs, sessions, held], fun up => ?_⟩
      obtain ⟨-, _, none, -⟩ := isUp_iff.mp up
      cases none

theorem quiet_snap (connection : Connection) (failure : Failure) :
    connection.Quiet (connection.snap failure) where
  subscriptions := rfl
  logs := logs_of_subscribing rfl (Option.map_map _ _ _)
  up up := by
    obtain ⟨-, _, held, open_⟩ := isUp_iff.mp up
    obtain ⟨_, -, rfl⟩ := Option.map_eq_some_iff.mp held
    cases open_

theorem quiet_disconnect (connection : Connection) : connection.Quiet connection.disconnect where
  subscriptions := rfl
  logs := by
    cases held : connection.session with
    | none => simp [logs, sessions, disconnect, retire, held]
    | some session =>
      cases ended : session.ended <;>
        simp [logs, sessions, disconnect, retire, held, Session.send, ended, Session.subscribing]
  up up := nomatch (isUp_iff.mp up).1

-- ---------------------------------------------------------------------------
-- What is sent, and what is not
-- ---------------------------------------------------------------------------

inductive Writes (connection : Connection) (frame : Frame) : Except Failure Connection → Prop
  | sent {session : Session} (live : connection.live? = some session) :
      Writes connection frame (.ok { connection with
        session := some { session with frames := session.frames ++ [frame] } })
  | failed (down : connection.isUp = false) (failure : Failure) :
      Writes connection frame (.error failure)

theorem writes_write (connection : Connection) (frame : Frame) :
    connection.Writes frame (connection.write frame) := by
  unfold write
  split
  case h_1 session held =>
    by_cases shown : connection.isConnected
    · rw [if_pos shown, Session.send]
      cases ended : session.ended with
      | none =>
        have sent : Writes connection frame _ :=
          .sent (live?_eq_some.mpr ⟨shown, held, ended⟩)
        rwa [ended] at sent
      | some failure => exact .failed (by simp [isUp, live?, held, ended]) failure
    · rw [if_neg shown]
      exact .failed (by simp [isUp, live?, shown]) _
  case h_2 held => exact .failed (by simp [isUp, live?, held]) _

theorem quiet_send (connection : Connection) (destination : String) (message : Message) :
    connection.Quiet (connection.step (.send destination message)) := by
  have written := connection.writes_write (sendFrame destination message)
  simp only [step, send]
  generalize connection.write (sendFrame destination message) = result at written ⊢
  cases written with
  | sent live =>
    refine ⟨rfl, logs_of_subscribing rfl ?_, fun _ => by rw [isUp, live]; rfl⟩
    rw [(live?_eq_some.mp live).2.1]
    simp [Session.subscribing, sendFrame]
  | failed _ _ => exact .refl _

-- ---------------------------------------------------------------------------
-- Opening
-- ---------------------------------------------------------------------------

theorem reach_command {network : Network} {endpoint : String}
    (reached : connection.reach network endpoint = .ok (frame, greeting)) :
    frame.command = .connect := by
  unfold reach at reached
  obtain ⟨url, -, reached⟩ := bind_ok reached
  obtain ⟨-, -, reached⟩ := bind_ok reached
  obtain ⟨-, -, reached⟩ := bind_ok reached
  obtain ⟨-, -, reached⟩ := bind_ok reached
  obtain ⟨-, -, reached⟩ := bind_ok reached
  obtain ⟨_, -, same⟩ := bind_ok reached
  cases same
  rfl

theorem subscribing_opening {frame : Frame} (opens : frame.command = .connect)
    (numbered : List (String × Nat)) (ended : Option Failure) :
    Session.subscribing ⟨frame :: announcing numbered, ended⟩ = announcing numbered := by
  have subscribes : ∀ frame ∈ announcing numbered, decide (frame.command = .subscribe) :=
    List.forall_mem_map.mpr fun _ _ => rfl
  simp [Session.subscribing, opens, List.filter_eq_self.mpr subscribes]

/-- The subscriptions on sessions that did not come up, given how many went out on each. -/
def attempted (connection : Connection) (counts : List Nat) : List (List Frame) :=
  counts.map fun count => announcing (connection.subscriptions.zipIdx.take count)

/-- What an attempt to connect comes to: sessions on which some subscriptions went out and one
could not, and, if it succeeds, one that subscribes to all. -/
inductive Tries (connection after : Connection) : Prop
  | fails (counts : List Nat) (subscriptions : after.subscriptions = connection.subscriptions)
      (logs : after.logs = connection.logs ++ connection.attempted counts)
      (down : after.isUp = false)
  | opens (counts : List Nat) (subscriptions : after.subscriptions = connection.subscriptions)
      (logs : after.logs = connection.logs ++
        (connection.attempted counts ++ [announcing connection.subscriptions.zipIdx]))

theorem attempted_append {next : Connection}
    (subscriptions : next.subscriptions = connection.subscriptions) (counts more : List Nat) :
    connection.attempted (counts ++ more) =
      connection.attempted counts ++ next.attempted more := by
  simp only [attempted, subscriptions, List.map_append]

theorem Tries.later {next : Connection} (counts : List Nat)
    (subscriptions : next.subscriptions = connection.subscriptions)
    (logs : next.logs = connection.logs ++ connection.attempted counts) (tries : next.Tries after) :
    connection.Tries after := by
  cases tries with
  | fails more same grown down =>
    refine .fails (counts ++ more) (same.trans subscriptions) ?_ down
    rw [grown, logs, List.append_assoc, attempted_append subscriptions]
  | opens more same grown =>
    refine .opens (counts ++ more) (same.trans subscriptions) ?_
    rw [grown, logs, attempted_append subscriptions, subscriptions]
    simp only [List.append_assoc]

structure Fails (connection after : Connection) (counts : List Nat) : Prop where
  session : after.session = none
  subscriptions : after.subscriptions = connection.subscriptions
  logs : after.logs = connection.logs ++ connection.attempted counts

theorem openAt_cases (network : Network) (endpoint : String) (fresh : connection.session = none) :
    (∃ failure after counts, connection.openAt network endpoint = (.error failure, after) ∧
      connection.Fails after counts) ∨
    (∃ after, connection.openAt network endpoint = (.ok (), after) ∧
      after.subscriptions = connection.subscriptions ∧
      after.logs = connection.logs ++ [announcing connection.subscriptions.zipIdx]) := by
  unfold openAt
  dsimp only
  split
  case h_1 failure _ =>
    refine .inl ⟨failure, _, [], rfl, fresh, rfl, ?_⟩
    simp [logs, sessions, attempted]
  case h_2 greetingFrame greeting reached =>
    have command := reach_command reached
    split
    case h_1 failure _ =>
      refine .inl ⟨failure, _, [0], rfl, fresh, rfl, ?_⟩
      simp [logs, sessions, fresh, Session.subscribing, command, attempted, announcing]
    case h_2 rest _ =>
      split
      case h_1 number failure _ =>
        have sent : connection.subscribeFrames.take number =
          announcing (connection.subscriptions.zipIdx.take number) := List.map_take.symm
        have opening : Session.subscribing
            ⟨greetingFrame :: connection.subscribeFrames.take number, some failure⟩ =
              announcing (connection.subscriptions.zipIdx.take number) := by
          rw [sent]
          exact subscribing_opening command _ _
        refine .inl ⟨failure, _, [number], rfl, fresh, rfl, ?_⟩
        rw [logs_of_none (by exact fresh), logs_of_none fresh, List.map_append]
        exact congrArg (fun log => _ ++ [log]) opening
      case h_2 =>
        refine .inr ⟨_, rfl, (quiet_receiveAll _ rest).subscriptions, ?_⟩
        rw [(quiet_receiveAll _ rest).logs]
        rw [logs_of_session rfl, logs_of_none fresh]
        exact congrArg (fun log => _ ++ [log]) (subscribing_opening command _ none)

theorem tries_openFirst (network : Network) (last : Failure) (endpoints : List String)
    (fresh : connection.session = none) :
    connection.Tries (connection.openFirst network last endpoints).2 := by
  induction endpoints generalizing connection last with
  | nil =>
    refine .fails [] rfl (by simp [openFirst, logs, sessions, attempted]) ?_
    rfl
  | cons endpoint rest ih =>
    unfold openFirst
    rcases openAt_cases network endpoint fresh with ⟨failure, after, counts, same, fails⟩ | opened
    · rw [same]
      exact (ih failure fails.session).later counts fails.subscriptions fails.logs
    · obtain ⟨after, same, subscriptions, logs⟩ := opened
      rw [same]
      exact .opens [] subscriptions (by simpa [attempted] using logs)

theorem session_retireStale (connection : Connection) : connection.retireStale.session = none := by
  unfold retireStale
  split
  case h_1 none => exact none
  case h_2 => split <;> rfl

theorem connect_cases (connection : Connection) (network : Network) :
    (connection.connect network).2 = connection ∨
      connection.isUp = false ∧ connection.Tries (connection.connect network).2 := by
  unfold connect
  split
  case isTrue => exact .inl rfl
  case isFalse down =>
    have stale := connection.quiet_retireStale
    refine .inr ⟨Bool.eq_false_iff.mpr fun up => ?_, ?_⟩
    · obtain ⟨shown, session, held, -⟩ := isUp_iff.mp up
      simp [held, shown] at down
    dsimp only
    split
    case isTrue =>
      refine .fails [] stale.subscriptions (by simpa [attempted] using stale.logs) ?_
      simp [isUp, live?, connection.session_retireStale]
    case isFalse =>
      refine .later [] ?_ ?_ (tries_openFirst network _ _ ?_)
      · exact stale.subscriptions
      · exact stale.logs.trans (List.append_nil _).symm
      · exact connection.session_retireStale

-- ---------------------------------------------------------------------------
-- All that a step can do
-- ---------------------------------------------------------------------------

def enlisted (known : List String) (destination : String) : List String :=
  if known.contains destination then known else known ++ [destination]

def numberOf (known : List String) (destination : String) : Nat :=
  (known.idxOf? destination).getD known.length

inductive Moves (connection : Connection) : ConnectionStep → Connection → Prop
  | stays {step : ConnectionStep} {after : Connection}
      (other : ∀ destination, step ≠ .subscribe destination) (quiet : connection.Quiet after) :
      Moves connection step after
  | connects {after : Connection} (network : Network) (down : connection.isUp = false)
      (tries : connection.Tries after) : Moves connection (.connect network) after
  | announces {after : Connection} (destination : String) (up : connection.isUp)
      (subscriptions : after.subscriptions = enlisted connection.subscriptions destination)
      (before : connection.logs = earlier ++ [log])
      (logs : after.logs = earlier ++
        [log ++ announcing [(destination, numberOf connection.subscriptions destination)]]) :
      Moves connection (.subscribe destination) after
  | enlists {after : Connection} (destination : String) (down : connection.isUp = false)
      (subscriptions : after.subscriptions = enlisted connection.subscriptions destination)
      (logs : after.logs = connection.logs) (still : after.isUp = false) :
      Moves connection (.subscribe destination) after

def enlist (connection : Connection) (destination : String) : Connection :=
  { connection with subscriptions := enlisted connection.subscriptions destination }

/-- Subscribing writes one frame after the destination has been enlisted; if that fails, the
destination stays enlisted. -/
theorem snd_subscribe (connection : Connection) (destination : String) :
    let listed := connection.enlist destination
    let frame := subscribeFrame destination (numberOf connection.subscriptions destination)
    (connection.subscribe destination).2 =
      if listed.session.isSome && listed.isConnected then
        (listed.write frame).toOption.getD listed
      else listed := by
  intro listed frame
  have known : (if connection.subscriptions.contains destination then connection
      else { connection with subscriptions := connection.subscriptions ++ [destination] }) =
        listed := by
    simp only [listed, enlist, enlisted]
    split <;> rfl
  have written : listed.write (subscribeFrame destination
      ((connection.subscriptions.idxOf? destination).getD connection.subscriptions.length)) =
        listed.write frame := rfl
  unfold subscribe
  dsimp only
  rw [known, written]
  by_cases up : listed.session.isSome && listed.isConnected
  · rw [if_pos up, if_pos up]
    cases listed.write frame <;> rfl
  · rw [if_neg up, if_neg up]

theorem moves_subscribe (connection : Connection) (destination : String) :
    connection.Moves (.subscribe destination) (connection.subscribe destination).2 := by
  let listed := connection.enlist destination
  let frame := subscribeFrame destination (numberOf connection.subscriptions destination)
  rw [snd_subscribe]
  split
  case isTrue =>
    have written := listed.writes_write frame
    change connection.Moves _ ((listed.write frame).toOption.getD listed)
    generalize listed.write frame = result at written ⊢
    cases written with
    | sent live =>
      refine .announces destination (by rw [isUp]; exact Option.isSome_of_eq_some live) rfl
        (logs_of_session (live?_eq_some.mp live).2.1) ?_
      rw [Except.toOption, Option.getD_some, logs_of_session rfl]
      simp [Session.subscribing, announcing, frame, subscribeFrame, listed, enlist]
    | failed down failure => exact .enlists destination down rfl rfl down
  case isFalse absent =>
    have down : connection.isUp = false := Bool.eq_false_iff.mpr fun up => by
      obtain ⟨shown, session, held, -⟩ := isUp_iff.mp up
      have gone : ¬ (connection.session.isSome && connection.isConnected) := absent
      simp [held, shown] at gone
    exact .enlists destination down rfl rfl down

theorem moves_step (connection : Connection) (step : ConnectionStep) :
    connection.Moves step (connection.step step) := by
  cases step with
  | connect network =>
    rcases connection.connect_cases network with same | ⟨down, tries⟩
    · refine .stays nofun ?_
      rw [Connection.step, same]
      exact .refl _
    · exact .connects network down tries
  | subscribe destination => exact connection.moves_subscribe destination
  | send destination message => exact .stays nofun (connection.quiet_send destination message)
  | hear incoming =>
    refine .stays nofun ?_
    rw [Connection.step]
    split
    · exact connection.quiet_receive incoming
    · exact .refl _
  | snap failure => exact .stays nofun (connection.quiet_snap failure)
  | disconnect => exact .stays nofun connection.quiet_disconnect

-- ---------------------------------------------------------------------------
-- The destinations and their numbers
-- ---------------------------------------------------------------------------

section
variable {known : List String} {destination : String}

theorem mem_enlisted {other : String} :
    other ∈ enlisted known destination ↔ other ∈ known ∨ other = destination := by
  unfold enlisted
  split
  case isTrue listed =>
    refine ⟨.inl, ?_⟩
    rintro (there | rfl)
    · exact there
    · exact List.contains_iff_mem.mp listed
  case isFalse => rw [List.mem_append, List.mem_singleton]

theorem enlisted_of_mem (listed : destination ∈ known) : enlisted known destination = known :=
  if_pos (List.contains_iff_mem.mpr listed)

theorem enlisted_of_not_mem (new : destination ∉ known) :
    enlisted known destination = known ++ [destination] :=
  if_neg (mt List.contains_iff_mem.mp new)

theorem numberOf_of_mem (listed : destination ∈ known) :
    (destination, numberOf known destination) ∈ known.zipIdx := by
  cases found : known.idxOf? destination with
  | none => exact absurd listed (List.idxOf?_eq_none_iff.mp found)
  | some number =>
    obtain ⟨within, there, -⟩ := List.idxOf?_eq_some_iff.mp found
    rw [numberOf, found, Option.getD_some, List.mem_zipIdx_iff_getElem?]
    exact List.getElem?_eq_some_iff.mpr ⟨within, there⟩

theorem numberOf_of_not_mem (new : destination ∉ known) :
    numberOf known destination = known.length := by
  rw [numberOf, List.idxOf?_eq_none_iff.mpr new, Option.getD_none]

theorem zipIdx_enlisted_of_not_mem (new : destination ∉ known) :
    (enlisted known destination).zipIdx =
      known.zipIdx ++ [(destination, numberOf known destination)] := by
  rw [enlisted_of_not_mem new, numberOf_of_not_mem new, List.zipIdx_append]
  simp

theorem zipIdx_prefix_enlisted : known.zipIdx <+: (enlisted known destination).zipIdx := by
  by_cases listed : destination ∈ known
  · have same : (enlisted known destination).zipIdx = known.zipIdx := by
      rw [enlisted_of_mem listed]
    exact same.symm ▸ List.prefix_rfl
  · rw [zipIdx_enlisted_of_not_mem listed]
    exact List.prefix_append _ _

theorem mem_zipIdx_enlisted {entry : String × Nat} :
    entry ∈ (enlisted known destination).zipIdx ↔
      entry ∈ known.zipIdx ∨ entry = (destination, numberOf known destination) := by
  by_cases listed : destination ∈ known
  · rw [enlisted_of_mem listed, iff_self_or]
    rintro rfl
    exact numberOf_of_mem listed
  · rw [zipIdx_enlisted_of_not_mem listed, List.mem_append, List.mem_singleton]

end

theorem Moves.subscriptions (moves : connection.Moves step after) :
    after.subscriptions = match step with
      | .subscribe destination => enlisted connection.subscriptions destination
      | _ => connection.subscriptions := by
  cases moves with
  | stays other quiet =>
    rw [quiet.subscriptions]
    cases step with
    | subscribe destination => exact absurd rfl (other destination)
    | _ => rfl
  | connects network down tries => cases tries <;> assumption
  | announces destination up subscriptions => exact subscriptions
  | enlists destination down subscriptions => exact subscriptions

theorem run_concat (connection : Connection) (steps : List ConnectionStep) (step : ConnectionStep) :
    connection.run (steps ++ [step]) = (connection.run steps).step step := List.foldl_concat ..

theorem mem_subscriptions_run {start : Connection} {destination : String} :
    destination ∈ (start.run steps).subscriptions ↔
      destination ∈ start.subscriptions ∨ .subscribe destination ∈ steps := by
  induction steps using List.reverseRecOn with
  | nil => simp [run]
  | append_singleton steps step ih =>
    rw [run_concat, (moves_step _ step).subscriptions]
    cases step <;> simp [mem_enlisted, ih, or_assoc, eq_comm]

theorem exists_subscriptions_run (start : Connection) (steps : List ConnectionStep) :
    ∃ more, (start.run steps).subscriptions = start.subscriptions ++ more ∧ more.Nodup ∧
      ∀ destination ∈ more, destination ∉ start.subscriptions := by
  induction steps using List.reverseRecOn with
  | nil => exact ⟨[], by simp [run]⟩
  | append_singleton steps step ih =>
    obtain ⟨more, same, distinct, new⟩ := ih
    rw [run_concat, (moves_step _ step).subscriptions]
    cases step with
    | subscribe destination =>
      dsimp only
      by_cases listed : destination ∈ (start.run steps).subscriptions
      · exact ⟨more, by rw [enlisted_of_mem listed, same], distinct, new⟩
      · have absent := listed
        rw [same, List.mem_append, not_or] at absent
        refine ⟨more ++ [destination], ?_, ?_, ?_⟩
        · rw [enlisted_of_not_mem listed, same, List.append_assoc]
        · exact List.nodup_append_comm.mp (List.nodup_cons.mpr ⟨absent.2, distinct⟩)
        · exact List.forall_mem_append.mpr ⟨new, List.forall_mem_singleton.mpr absent.1⟩
    | _ => exact ⟨more, same, distinct, new⟩

-- ---------------------------------------------------------------------------
-- The session that is up
-- ---------------------------------------------------------------------------

theorem announcing_append (numbered more : List (String × Nat)) :
    announcing (numbered ++ more) = announcing numbered ++ announcing more := List.map_append

def Announces (connection : Connection) (numbered : List (String × Nat)) : Prop :=
  ∃ earlier, connection.logs = earlier ++ [announcing numbered]

theorem exists_announces {start : Connection} (fresh : start.isUp = false)
    (up : (start.run steps).isUp) :
    ∃ numbered, (start.run steps).Announces numbered ∧
      ∀ entry, entry ∈ numbered ↔ entry ∈ (start.run steps).subscriptions.zipIdx := by
  induction steps using List.reverseRecOn with
  | nil => exact absurd up (Bool.eq_false_iff.mp fresh)
  | append_singleton steps step ih =>
    rw [run_concat] at up ⊢
    cases moves_step (start.run steps) step with
    | stays other quiet =>
      obtain ⟨numbered, ⟨earlier, logs⟩, all⟩ := ih (quiet.up up)
      exact ⟨numbered, ⟨earlier, quiet.logs.trans logs⟩, quiet.subscriptions ▸ all⟩
    | connects network down tries =>
      cases tries with
      | fails failed subscriptions logs down => exact absurd up (Bool.eq_false_iff.mp down)
      | opens failed subscriptions logs =>
        refine ⟨_, ⟨_, logs.trans (List.append_assoc ..).symm⟩, fun entry => ?_⟩
        rw [subscriptions]
    | announces destination was_up subscriptions before logs =>
      obtain ⟨numbered, ⟨earlier, same⟩, all⟩ := ih was_up
      obtain ⟨rfl, last⟩ := List.append_inj' (before.symm.trans same) rfl
      cases last
      refine ⟨numbered ++ [_], ⟨_, logs.trans (by rw [announcing_append])⟩, fun entry => ?_⟩
      rw [subscriptions, mem_zipIdx_enlisted, List.mem_append, List.mem_singleton, all]
    | enlists destination down subscriptions logs still =>
      exact absurd up (Bool.eq_false_iff.mp still)

-- ---------------------------------------------------------------------------
-- A destination that is subscribed to again
-- ---------------------------------------------------------------------------

/-- While a session is up, a destination is subscribed to that is there already. -/
def SubscribesAgain (start : Connection) (steps : List ConnectionStep) : Prop :=
  ∃ early destination late, steps = early ++ .subscribe destination :: late ∧
    (start.run early).isUp ∧
    (destination ∈ start.subscriptions ∨ .subscribe destination ∈ early)

theorem Moves.grows (moves : connection.Moves step after) (hlog : log ∈ connection.logs) :
    ∃ more, log ++ announcing more ∈ after.logs := by
  cases moves with
  | stays _ quiet => exact ⟨[], by simpa [announcing, quiet.logs] using hlog⟩
  | connects _ _ tries =>
    refine ⟨[], ?_⟩
    cases tries with
    | fails _ _ logs => simp [announcing, logs, hlog]
    | opens _ _ logs => simp [announcing, logs, hlog]
  | announces destination _ _ before logs =>
    rw [before, List.mem_append, List.mem_singleton] at hlog
    rcases hlog with earlier | rfl
    · exact ⟨[], by simp [announcing, logs, earlier]⟩
    · exact ⟨_, logs ▸ List.mem_append_right _ (List.mem_singleton_self _)⟩
  | enlists _ _ _ logs => exact ⟨[], by simpa [announcing, logs] using hlog⟩

theorem grows_run (connection : Connection) (steps : List ConnectionStep)
    (hlog : log ∈ connection.logs) :
    ∃ more, log ++ announcing more ∈ (connection.run steps).logs := by
  induction steps generalizing connection log with
  | nil => exact ⟨[], by simpa [announcing, run] using hlog⟩
  | cons step rest ih =>
    obtain ⟨more, grown⟩ := (connection.moves_step step).grows hlog
    obtain ⟨others, grown⟩ := ih (connection.step step) grown
    exact ⟨more ++ others, by rwa [announcing_append, ← List.append_assoc]⟩

theorem SubscribesAgain.repeats {start : Connection} (fresh : start.isUp = false)
    (again : start.SubscribesAgain steps) :
    ∃ numbered, announcing numbered ∈ (start.run steps).logs ∧ ¬ numbered.Nodup := by
  obtain ⟨early, destination, late, rfl, up, known⟩ := again
  have listed := mem_subscriptions_run.mpr known
  obtain ⟨numbered, ⟨earlier, before⟩, all⟩ := exists_announces fresh up
  have whole : start.run (early ++ .subscribe destination :: late) =
      ((start.run early).step (.subscribe destination)).run late := List.foldl_append
  cases moves_step (start.run early) (.subscribe destination) with
  | stays other quiet => exact absurd rfl (other destination)
  | announces destination _ _ same logs =>
    obtain ⟨rfl, last⟩ := List.append_inj' (before.symm.trans same) rfl
    cases last
    obtain ⟨more, grown⟩ := grows_run ((start.run early).step (.subscribe destination)) late
      (logs ▸ List.mem_append_right _ (List.mem_singleton_self _))
    rw [← announcing_append, ← announcing_append] at grown
    refine ⟨_, whole ▸ grown, fun distinct => ?_⟩
    have twice := (List.nodup_append.mp (distinct.of_append_left)).2.2
    exact twice _ ((all _).mpr (numberOf_of_mem listed)) _ (List.mem_singleton_self _) rfl
  | enlists destination down => exact absurd up (Bool.eq_false_iff.mp down)

-- ---------------------------------------------------------------------------
-- As long as nothing is subscribed to again
-- ---------------------------------------------------------------------------

/-- Every session has subscribed to the first destinations of the list in their order, and one that
is up to all of them. -/
structure Tidy (connection : Connection) : Prop where
  logs : ∀ log ∈ connection.logs, ∃ numbered, log = announcing numbered ∧
    numbered <+: connection.subscriptions.zipIdx
  live : connection.isUp → connection.Announces connection.subscriptions.zipIdx

theorem Tidy.moves (h : connection.Tidy) (moves : connection.Moves step after)
    (new : ∀ destination, step = .subscribe destination → connection.isUp →
      destination ∉ connection.subscriptions) : after.Tidy := by
  cases moves with
  | stays _ quiet =>
    refine ⟨quiet.subscriptions ▸ quiet.logs ▸ h.logs, fun up => ?_⟩
    rw [Announces, quiet.logs, quiet.subscriptions]
    exact h.live (quiet.up up)
  | connects network _ tries =>
    have cut (counts : List Nat) : ∀ log ∈ connection.attempted counts, ∃ numbered,
        log = announcing numbered ∧ numbered <+: connection.subscriptions.zipIdx :=
      List.forall_mem_map.mpr fun count _ => ⟨_, rfl, List.take_prefix ..⟩
    cases tries with
    | fails counts subscriptions logs down =>
      refine ⟨?_, fun up => absurd up (Bool.eq_false_iff.mp down)⟩
      rw [logs, subscriptions]
      exact List.forall_mem_append.mpr ⟨h.logs, cut counts⟩
    | opens counts subscriptions logs =>
      refine ⟨?_, fun _ => ⟨_, logs.trans (by rw [subscriptions, List.append_assoc])⟩⟩
      rw [logs, subscriptions]
      refine List.forall_mem_append.mpr ⟨h.logs, List.forall_mem_append.mpr ⟨cut counts, ?_⟩⟩
      exact List.forall_mem_singleton.mpr ⟨_, rfl, List.prefix_rfl⟩
  | announces destination up subscriptions before logs =>
    obtain ⟨earlier, same⟩ := h.live up
    obtain ⟨rfl, last⟩ := List.append_inj' (before.symm.trans same) rfl
    cases last
    have whole := zipIdx_enlisted_of_not_mem (new destination rfl up)
    rw [← announcing_append, ← whole, ← subscriptions] at logs
    refine ⟨?_, fun _ => ⟨_, logs⟩⟩
    rw [logs]
    refine List.forall_mem_append.mpr ⟨fun log hlog => ?_, List.forall_mem_singleton.mpr ?_⟩
    · obtain ⟨numbered, same, first⟩ := h.logs log (before ▸ List.mem_append_left _ hlog)
      exact ⟨numbered, same, first.trans (subscriptions ▸ zipIdx_prefix_enlisted)⟩
    · exact ⟨_, rfl, List.prefix_rfl⟩
  | enlists destination _ subscriptions logs still =>
    refine ⟨fun log hlog => ?_, fun up => absurd up (Bool.eq_false_iff.mp still)⟩
    obtain ⟨numbered, same, first⟩ := h.logs log (logs ▸ hlog)
    exact ⟨numbered, same, first.trans (subscriptions ▸ zipIdx_prefix_enlisted)⟩

theorem tidy_run {start : Connection} (fresh : start.logs = []) (down : start.isUp = false)
    (once : ¬ start.SubscribesAgain steps) : (start.run steps).Tidy := by
  induction steps using List.reverseRecOn with
  | nil =>
    refine ⟨fun log hlog => ?_, fun up => absurd up (Bool.eq_false_iff.mp down)⟩
    exact absurd hlog (fresh ▸ List.not_mem_nil)
  | append_singleton steps step ih =>
    have before : ¬ start.SubscribesAgain steps := by
      rintro ⟨early, destination, late, rfl, again⟩
      exact once ⟨early, destination, late ++ [step], by simp, again⟩
    rw [run_concat]
    refine (ih before).moves (moves_step _ step) ?_
    rintro destination rfl up listed
    exact once ⟨steps, destination, [], rfl, up, mem_subscriptions_run.mp listed⟩

-- ---------------------------------------------------------------------------
-- On the sessions
-- ---------------------------------------------------------------------------

theorem subscriptionIds_announcing {session : Session}
    (same : session.subscribing = announcing numbered) :
    session.subscriptionIds = numbered.map fun entry => "sub-" ++ toString entry.2 := by
  have id : ∀ entry : String × Nat, (subscribeFrame entry.1 entry.2).get? "id" =
      some ("sub-" ++ toString entry.2) := fun _ => rfl
  simp only [Session.subscriptionIds, same, announcing, List.filterMap_map, Function.comp_def, id,
    List.filterMap_eq_map']

theorem destinations_announcing {session : Session}
    (same : session.subscribing = announcing numbered) :
    session.destinations = numbered.map Prod.fst := by
  have destination : ∀ entry : String × Nat,
      (subscribeFrame entry.1 entry.2).get? Headers.destination = some entry.1 := fun _ => rfl
  simp only [Session.destinations, same, announcing, List.filterMap_map, Function.comp_def,
    destination, List.filterMap_eq_map']

theorem nodup_ids {numbered : List (String × Nat)}
    (first : numbered <+: connection.subscriptions.zipIdx) :
    (numbered.map fun entry => "sub-" ++ toString entry.2).Nodup := by
  have numbers : (numbered.map Prod.snd).Nodup := by
    refine List.Nodup.sublist (first.sublist.map Prod.snd) ?_
    rw [List.zipIdx_map_snd]
    exact List.nodup_range' ..
  have naming : Function.Injective fun number : Nat => "sub-" ++ toString number :=
    fun m n same => by
      have digits : Nat.toDigits 10 m = Nat.toDigits 10 n := by
        have written : String.ofList (Nat.toDigits 10 m) = String.ofList (Nat.toDigits 10 n) := by
          simpa [Nat.repr_eq_ofList_toDigits] using same
        exact String.ofList_injective written
      rw [← Nat.ofDigitChars_ten_toDigits (n := m), digits, Nat.ofDigitChars_ten_toDigits]
  have named := numbers.map naming
  rw [List.map_map] at named
  exact named

variable {name : String} {settings : TransportSettings}

theorem mem_destinations_run {session : Session} {destination : String}
    (live : ((ofSettings name settings).run steps).live? = some session) :
    destination ∈ session.destinations ↔
      destination ∈ settings.subscriptions ∨ .subscribe destination ∈ steps := by
  obtain ⟨numbered, ⟨earlier, logs⟩, all⟩ := exists_announces rfl (Option.isSome_of_eq_some live)
  have last := (logs_of_session (live?_eq_some.mp live).2.1).symm.trans logs
  have same : session.subscribing = announcing numbered :=
    List.singleton_inj.mp (List.append_inj' last rfl).2
  have known : destination ∈ ((ofSettings name settings).run steps).subscriptions ↔
      destination ∈ settings.subscriptions ∨ .subscribe destination ∈ steps :=
    mem_subscriptions_run
  rw [← known, destinations_announcing same, ← List.zipIdx_map_fst 0 (Connection.subscriptions _)]
  simp only [List.mem_map, all]

theorem SubscribesAgain.exists_twice (again : (ofSettings name settings).SubscribesAgain steps) :
    ∃ session ∈ ((ofSettings name settings).run steps).sessions,
      ¬ session.subscriptionIds.Nodup ∧ ¬ session.destinations.Nodup := by
  obtain ⟨numbered, hlog, twice⟩ := again.repeats rfl
  obtain ⟨session, hmem, same⟩ := List.mem_map.mp hlog
  refine ⟨session, hmem, ?_, ?_⟩
  · rw [subscriptionIds_announcing same]
    exact mt (List.Nodup.of_map _) twice
  · rw [destinations_announcing same]
    exact mt (List.Nodup.of_map _) twice

theorem exists_numbered {session : Session}
    (once : ¬ (ofSettings name settings).SubscribesAgain steps)
    (hmem : session ∈ ((ofSettings name settings).run steps).sessions) :
    ∃ numbered, session.subscribing = announcing numbered ∧
      numbered <+: ((ofSettings name settings).run steps).subscriptions.zipIdx :=
  (tidy_run rfl rfl once).logs session.subscribing (List.mem_map_of_mem hmem)

/-- What a session is subscribed to comes from the configuration, as far as that goes, and then from
what was subscribed to since. -/
theorem exists_destinations {session : Session}
    (once : ¬ (ofSettings name settings).SubscribesAgain steps)
    (hmem : session ∈ ((ofSettings name settings).run steps).sessions) :
    ∃ more, session.destinations =
        settings.subscriptions.take session.destinations.length ++ more ∧ more.Nodup ∧
      ∀ destination ∈ more, destination ∉ settings.subscriptions := by
  obtain ⟨numbered, same, first⟩ := exists_numbered once hmem
  obtain ⟨more, all, distinct, new⟩ := exists_subscriptions_run (ofSettings name settings) steps
  have listed : session.destinations <+: settings.subscriptions ++ more := by
    rw [destinations_announcing same, show settings.subscriptions ++ more = _ from all.symm,
      ← List.zipIdx_map_fst 0 (Connection.subscriptions _)]
    exact first.map Prod.fst
  have cut := List.prefix_iff_eq_take.mp listed
  rw [List.take_append] at cut
  exact ⟨_, cut, distinct.sublist (List.take_sublist ..), fun destination there =>
    new destination (List.mem_of_mem_take there)⟩

theorem nodup_subscriptionIds_run :
    (∀ session ∈ ((ofSettings name settings).run steps).sessions, session.subscriptionIds.Nodup) ↔
      ¬ (ofSettings name settings).SubscribesAgain steps := by
  constructor
  · intro distinct again
    obtain ⟨session, hmem, twice, -⟩ := again.exists_twice
    exact twice (distinct session hmem)
  · intro once session hmem
    obtain ⟨numbered, same, first⟩ := exists_numbered once hmem
    rw [subscriptionIds_announcing same]
    exact nodup_ids first

/-- The destinations on every session are distinct unless something was subscribed to again, or is
configured twice and was sent twice. -/
theorem nodup_destinations_run :
    (∀ session ∈ ((ofSettings name settings).run steps).sessions, session.destinations.Nodup) ↔
      ¬ (ofSettings name settings).SubscribesAgain steps ∧
        ∀ session ∈ ((ofSettings name settings).run steps).sessions,
          (settings.subscriptions.take session.destinations.length).Nodup := by
  constructor
  · intro distinct
    have once : ¬ (ofSettings name settings).SubscribesAgain steps := fun again => by
      obtain ⟨session, hmem, -, twice⟩ := again.exists_twice
      exact twice (distinct session hmem)
    refine ⟨once, fun session hmem => ?_⟩
    obtain ⟨more, same, -⟩ := exists_destinations once hmem
    exact (same ▸ distinct session hmem).of_append_left
  · rintro ⟨once, distinct⟩ session hmem
    obtain ⟨more, same, others, new⟩ := exists_destinations once hmem
    rw [same]
    exact List.nodup_append'.mpr ⟨distinct session hmem, others, fun _ there added =>
      new _ added (List.mem_of_mem_take there)⟩

end Connection

-- ---------------------------------------------------------------------------
-- What a configuration asks for
-- ---------------------------------------------------------------------------

def BrokerSettings.SharesDestination (broker : BrokerSettings) : Prop :=
  ∃ destination, broker.subscribeDestination = some destination ∧
    broker.replyDestination = some destination

theorem GardenConfig.mem_subscriptions {config : GardenConfig} {destination : String} :
    destination ∈ config.transport.subscriptions ↔
      config.broker.subscribeDestination = some destination ∨
        config.broker.replyDestination = some destination := by
  simp [transport]

theorem GardenConfig.nodup_take_subscriptions {config : GardenConfig} {count : Nat} :
    (config.transport.subscriptions.take count).Nodup ↔
      ¬ config.broker.SharesDestination ∨ count ≤ 1 := by
  unfold BrokerSettings.SharesDestination
  simp only [transport]
  rcases count with _ | _ | count <;> cases config.broker.subscribeDestination <;>
    cases config.broker.replyDestination <;> simp [eq_comm]

namespace Connection

/-- Whatever happens to the connection of a garden, a session that is up is subscribed to the
configured destinations and to all that were subscribed to since. The numbers on every session are
distinct unless a destination was subscribed to again while a session was up. The destinations are
distinct unless that happened, or the same destination is configured for requests and for replies
and there was a session on which more than one subscription went out. -/
theorem run_subscribed (config : GardenConfig) (name : String) (steps : List ConnectionStep) :
    let start := ofSettings name config.transport
    let connection := start.run steps
    (∀ session, connection.live? = some session → ∀ destination,
      destination ∈ session.destinations ↔
        (config.broker.subscribeDestination = some destination ∨
          config.broker.replyDestination = some destination) ∨ .subscribe destination ∈ steps) ∧
    ((∀ session ∈ connection.sessions, session.subscriptionIds.Nodup) ↔
      ¬ start.SubscribesAgain steps) ∧
    ((∀ session ∈ connection.sessions, session.destinations.Nodup) ↔
      ¬ start.SubscribesAgain steps ∧
        (¬ config.broker.SharesDestination ∨
          ∀ session ∈ connection.sessions, session.destinations.length ≤ 1)) := by
  refine ⟨fun session live destination => ?_, nodup_subscriptionIds_run, ?_⟩
  · rw [mem_destinations_run live, GardenConfig.mem_subscriptions]
  · simp only [nodup_destinations_run, GardenConfig.nodup_take_subscriptions, forall_or_left]

/-- A configuration with one destination for all is accepted, and every session subscribes to it
twice. -/
example :
    let config : GardenConfig := { broker := {
      endpoints := ["ws://hub"], subscribeDestination := "hall", replyDestination := "hall" } }
    let network : Network := {
      reach := fun _ _ => .ok { messages := [.text "CONNECTED\n\n\x00"] } }
    config.validate = .ok () ∧
      (((ofSettings "hall" config.transport).run [.connect network]).sessions.map
        fun session => (session.subscriptionIds, session.destinations)) =
      [(["sub-0", "sub-1"], ["hall", "hall"])] := by
  decide +kernel

end Connection

end Federation
