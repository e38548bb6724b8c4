import Federation.Backoff

/-!
# Waiting until something is ready

A supervisor probes until a probe succeeds or a stop is requested. After a failed probe it warns and
sleeps for the next delay; a request to stop ends the sleep. Probes take no time, so a run is
determined by the results of the probes, the delays and the time of the request.
-/

namespace Federation

inductive Readiness where
  | ready
  | stopped
  deriving DecidableEq, Repr

/-- When a stop is requested: before the start, at a time, just after all else that happens at a
time, or by a probe, counted from 0, before it answers. -/
inductive StopRequest where
  | never
  | before
  | atTime (time : Nat)
  | justAfter (time : Nat)
  | duringProbe (probe : Nat)
  deriving DecidableEq, Repr

namespace StopRequest

/-- Stop has been requested at `time`, when the probes below `probe` have been made. -/
def holds : StopRequest → Nat → Nat → Bool
  | .never, _, _ => false
  | .before, _, _ => true
  | .atTime s, time, _ => s ≤ time
  | .justAfter s, time, _ => s < time
  | .duringProbe n, _, probe => n < probe

/-- The time at which a sleep until `wake` is cut short. -/
def cut? : StopRequest → Nat → Option Nat
  | .atTime s, wake => if s ≤ wake then some s else none
  | .justAfter s, wake => if s < wake then some s else none
  | _, _ => none

end StopRequest

/-- The probes made, the warnings given, and how and when the run ended; a run whose probe results
have been used up goes on. -/
structure Supervision where
  calls : List Nat := []
  warnings : Nat := 0
  finished : Option Readiness := none
  time : Nat := 0
  deriving DecidableEq, Repr

namespace Supervision

/-- Goes on from probe number `probe` at `time`. -/
def runFrom (delay : Nat → Nat) (stop : StopRequest) :
    List Bool → Nat → Nat → Supervision → Supervision
  | [], _, time, so => { so with time }
  | result :: results, probe, time, so =>
    if stop.holds time probe then { so with finished := some .stopped, time }
    else
      let so := { so with calls := so.calls ++ [time] }
      if result then { so with finished := some .ready, time }
      else
        let so := { so with warnings := so.warnings + 1 }
        if stop.holds time (probe + 1) then { so with finished := some .stopped, time }
        else
          let wake := time + delay probe
          match stop.cut? wake with
          | some s => { so with finished := some .stopped, time := s }
          | none => runFrom delay stop results (probe + 1) wake so

/-- A run from time 0; `delay` gives the sleep after each probe. -/
def run (delay : Nat → Nat) (stop : StopRequest) (results : List Bool) : Supervision :=
  runFrom delay stop results 0 0 {}

end Supervision

/-- The sleep that a delay makes in whole milliseconds; a part of one counts as one. -/
def Duration.sleepMillis (d : Duration) : Nat := (d.nanos + 999999) / 1000000

end Federation
