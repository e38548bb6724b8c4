import Federation.Supervisor

/-!
# When a supervised wait probes and how it ends

The probes of a run and its end are told from the delays, the answers and the request to stop alone.
A probe is made when the sleeps before it are over, unless an earlier one succeeded or stop has been
requested by then; a run ends with the first success, or else when stop is requested.
-/

namespace Federation

variable {delay : Nat → Nat} {stop : StopRequest} {probes : Nat → Bool}

namespace Supervision

def dueAt (delay : Nat → Nat) : Nat → Nat
  | 0 => 0
  | n + 1 => dueAt delay n + delay n

theorem dueAt_le (delay : Nat → Nat) (h : m ≤ n) : dueAt delay m ≤ dueAt delay n := by
  induction h with
  | refl => exact Nat.le_refl _
  | step _ ih => exact Nat.le_trans ih (Nat.le_add_right _ _)

theorem le_dueAt (positive : ∀ n, 0 < delay n) : ∀ n, n ≤ dueAt delay n
  | 0 => Nat.le_refl 0
  | n + 1 => Nat.add_le_add (le_dueAt positive n) (positive n)

end Supervision

open Supervision

namespace StopRequest

/-- When stop is requested, with the probes made when they are due. -/
def time? (due : Nat → Nat) : StopRequest → Option Nat
  | .never => none
  | .before => some 0
  | .atTime s => some s
  | .justAfter s => some s
  | .duringProbe n => some (due n)

theorem holds_mono {now later probe next : Nat} (h : stop.holds now probe = true)
    (ht : now ≤ later) (hp : probe ≤ next) : stop.holds later next = true := by
  cases stop <;> simp only [holds, decide_eq_true_eq, Bool.false_eq_true] at h ⊢ <;> omega

theorem time?_of_start (h : stop.holds 0 0 = true) (due : Nat → Nat) :
    stop.time? due = some 0 := by
  cases stop <;> simp_all [holds, time?]

theorem isSome_time? {now probe : Nat} (h : stop.holds now probe = true) (due : Nat → Nat) :
    (stop.time? due).isSome = true := by
  cases stop <;> simp_all [holds, time?]

/-- A request that comes between one probe and the next comes during the first or cuts the sleep
short. -/
theorem caught {now wake : Nat} (h : stop.holds now probe = false) (due : Nat → Nat)
    (hnow : due probe = now) :
    (if stop.holds now (probe + 1) then some now else stop.cut? wake) =
      if stop.holds wake (probe + 1) then stop.time? due else none := by
  cases stop with
  | never => rfl
  | before => cases h
  | atTime s =>
    have later : ¬ s ≤ now := by simpa [holds] using h
    simp [holds, cut?, time?, later]
  | justAfter s =>
    have later : ¬ s < now := by simpa [holds] using h
    simp [holds, cut?, time?, later]
  | duringProbe n =>
    have next : ¬ n < probe := by simpa [holds] using h
    by_cases here : n = probe
    · simp [holds, time?, here, hnow]
    · have behind : ¬ n < probe + 1 := by omega
      simp [holds, cut?, behind]

theorem comes (positive : ∀ n, 0 < delay n) (h : stop.time? (dueAt delay) = some s) :
    ∃ n, stop.holds (dueAt delay n) n = true := by
  cases stop with
  | never => cases h
  | before => exact ⟨0, rfl⟩
  | atTime s => exact ⟨s, decide_eq_true (le_dueAt positive s)⟩
  | justAfter s => exact ⟨s + 1, decide_eq_true (le_dueAt positive (s + 1))⟩
  | duringProbe n => exact ⟨n + 1, by simp [holds]⟩

end StopRequest

namespace Supervision

/-- The probe is made: no earlier one succeeded, and stop has not been requested when it is due. -/
def Makes (delay : Nat → Nat) (stop : StopRequest) (probes : Nat → Bool) (n : Nat) : Prop :=
  (∀ m < n, probes m = false) ∧ stop.holds (dueAt delay n) n = false

theorem Makes.earlier (h : Makes delay stop probes n) (hm : m ≤ n) : Makes delay stop probes m := by
  refine ⟨fun l hl => h.1 l (Nat.lt_of_lt_of_le hl hm), Bool.eq_false_iff.mpr fun early => ?_⟩
  exact Bool.eq_false_iff.mp h.2 (stop.holds_mono early (dueAt_le delay hm) hm)

def after (delay : Nat → Nat) (stop : StopRequest) (probes : Nat → Bool) (n : Nat) : Supervision :=
  run delay stop ((List.range n).map probes)

-- ---------------------------------------------------------------------------
-- One probe
-- ---------------------------------------------------------------------------

theorem runFrom_cons (h : stop.holds (dueAt delay probe) probe = false) (result : Bool)
    (results : List Bool) (so : Supervision) :
    runFrom delay stop (result :: results) probe (dueAt delay probe) so =
      let so := { so with calls := so.calls ++ [dueAt delay probe] }
      if result then { so with finished := some .ready, time := dueAt delay probe }
      else
        let so := { so with warnings := so.warnings + 1 }
        match if stop.holds (dueAt delay (probe + 1)) (probe + 1) then stop.time? (dueAt delay)
          else none with
        | some s => { so with finished := some .stopped, time := s }
        | none => runFrom delay stop results (probe + 1) (dueAt delay (probe + 1)) so := by
  rw [← stop.caught h (dueAt delay) rfl, runFrom, h, dueAt]
  cases result with
  | true => rfl
  | false => cases stop.holds (dueAt delay probe) (probe + 1) <;> rfl

/-- A run that has come to a probe has made all earlier ones, and warned of each. -/
theorem run_append (h : Makes delay stop probes n) (results : List Bool) :
    run delay stop ((List.range n).map probes ++ results) =
      runFrom delay stop results n (dueAt delay n) ⟨(List.range n).map (dueAt delay), n, none, 0⟩ := by
  induction n generalizing results with
  | zero => rfl
  | succ n ih =>
    have made : Makes delay stop probes n := h.earlier (Nat.le_succ n)
    rw [List.range_succ, List.map_append, List.append_assoc, ih made, List.map_singleton,
      List.singleton_append, runFrom_cons made.2, h.1 n (Nat.lt_succ_self n), h.2, List.map_append]
    rfl

-- ---------------------------------------------------------------------------
-- All probes
-- ---------------------------------------------------------------------------

/-- Where a run stands after so many answers: it goes on, or it has ended with the first success, or
it was stopped when stop was requested. -/
inductive Fate (delay : Nat → Nat) (stop : StopRequest) (probes : Nat → Bool) (n : Nat) :
    Supervision → Prop where
  | goesOn (made : ∀ m < n, Makes delay stop probes m) (failed : ∀ m < n, probes m = false) :
      Fate delay stop probes n ⟨(List.range n).map (dueAt delay), n, none, dueAt delay n⟩
  | ready (within : k < n) (made : Makes delay stop probes k) (success : probes k = true) :
      Fate delay stop probes n
        ⟨(List.range (k + 1)).map (dueAt delay), k, some .ready, dueAt delay k⟩
  | stopped (within : k ≤ n) (made : ∀ m < k, Makes delay stop probes m)
      (failed : ∀ m < k, probes m = false) (held : stop.holds (dueAt delay k) k = true)
      (requested : stop.time? (dueAt delay) = some s) :
      Fate delay stop probes n ⟨(List.range k).map (dueAt delay), k, some .stopped, s⟩

/-- A run that has begun and does not go on ends with the last probe that it makes. -/
theorem fate_of_last (made : Makes delay stop probes k) (last : ¬ Makes delay stop probes (k + 1))
    (within : k < n) : Fate delay stop probes n (after delay stop probes n) := by
  obtain ⟨more, rfl⟩ := Nat.exists_eq_add_of_lt within
  have split : (List.range (k + more + 1)).map probes =
      (List.range k).map probes ++ probes k :: (List.range more).map fun i => probes (k + (i + 1)) := by
    rw [Nat.add_assoc, List.range_add, List.map_append, List.range_succ_eq_map]
    simp [Function.comp_def]
  have calls : (List.range k).map (dueAt delay) ++ [dueAt delay k] =
      (List.range (k + 1)).map (dueAt delay) := by
    rw [List.range_succ, List.map_append, List.map_singleton]
  rw [after, split, run_append made, runFrom_cons made.2]
  simp only [calls]
  cases success : probes k with
  | true => exact .ready within made success
  | false =>
    have failed : ∀ m < k + 1, probes m = false := fun m hm =>
      (Nat.lt_succ_iff_lt_or_eq.mp hm).elim (made.1 m) fun same => same ▸ success
    have held : stop.holds (dueAt delay (k + 1)) (k + 1) = true :=
      (Bool.not_eq_false _).mp fun free => last ⟨failed, free⟩
    obtain ⟨s, requested⟩ := Option.isSome_iff_exists.mp (stop.isSome_time? held (dueAt delay))
    rw [held, requested]
    exact .stopped within (fun m hm => made.earlier (Nat.le_of_lt_succ hm)) failed held requested

theorem exists_last (begins : Makes delay stop probes 0) :
    ∀ {n}, ¬ Makes delay stop probes n → ∃ k, Makes delay stop probes k ∧
      ¬ Makes delay stop probes (k + 1) ∧ k < n
  | 0, ends => absurd begins ends
  | n + 1, ends => by
    by_cases made : Makes delay stop probes n
    · exact ⟨n, made, ends, Nat.lt_succ_self n⟩
    · obtain ⟨k, made, last, within⟩ := exists_last begins made
      exact ⟨k, made, last, Nat.lt_succ_of_lt within⟩

theorem fate (delay : Nat → Nat) (stop : StopRequest) (probes : Nat → Bool) (n : Nat) :
    Fate delay stop probes n (after delay stop probes n) := by
  by_cases all : Makes delay stop probes n
  · have ran := run_append all []
    rw [List.append_nil] at ran
    rw [after, ran]
    exact .goesOn (fun m hm => all.earlier (Nat.le_of_lt hm)) all.1
  · by_cases begins : Makes delay stop probes 0
    · obtain ⟨k, made, last, within⟩ := exists_last begins all
      exact fate_of_last made last within
    · have held : stop.holds 0 0 = true :=
        (Bool.not_eq_false _).mp fun free => begins ⟨fun m hm => (nomatch hm), free⟩
      cases n with
      | zero => exact .goesOn (fun m hm => nomatch hm) (fun m hm => nomatch hm)
      | succ n =>
        rw [after, run, List.range_succ_eq_map, List.map_cons, runFrom, held]
        exact .stopped (Nat.zero_le _) (fun m hm => nomatch hm) (fun m hm => nomatch hm) held
          (stop.time?_of_start held _)

-- ---------------------------------------------------------------------------
-- What shows of a run
-- ---------------------------------------------------------------------------

theorem Makes.le (h : Makes delay stop probes j) (success : probes k = true) : j ≤ k :=
  Nat.le_of_not_lt fun later => by simp [h.1 k later] at success

theorem Makes.lt (h : Makes delay stop probes j) (held : stop.holds (dueAt delay k) k = true) :
    j < k :=
  Nat.lt_of_not_le fun later => by
    simpa [h.2] using stop.holds_mono held (dueAt_le delay later) later

namespace Fate

variable {so : Supervision} {j time : Nat}

theorem getElem?_calls (h : Fate delay stop probes n so) :
    so.calls[j]? = some time ↔ j < n ∧ Makes delay stop probes j ∧ time = dueAt delay j := by
  have called (k : Nat) : ((List.range k).map (dueAt delay))[j]? = some time ↔
      j < k ∧ time = dueAt delay j := by
    by_cases h : j < k <;> simp [h, eq_comm]
  cases h with
  | goesOn made failed =>
    rw [called]
    exact ⟨fun ⟨within, now⟩ => ⟨within, made j within, now⟩,
      fun ⟨within, _, now⟩ => ⟨within, now⟩⟩
  | ready within made success =>
    rw [called]
    exact ⟨fun ⟨earlier, now⟩ => ⟨Nat.lt_of_lt_of_le earlier within,
        made.earlier (Nat.le_of_lt_succ earlier), now⟩,
      fun ⟨_, makes, now⟩ => ⟨Nat.lt_succ_of_le (makes.le success), now⟩⟩
  | stopped within made failed held requested =>
    rw [called]
    exact ⟨fun ⟨earlier, now⟩ => ⟨Nat.lt_of_lt_of_le earlier within, made j earlier, now⟩,
      fun ⟨_, makes, now⟩ => ⟨makes.lt held, now⟩⟩

theorem of_ready (h : Fate delay stop probes n so) (finished : so.finished = some .ready) :
    ∃ j, Makes delay stop probes j ∧ probes j = true ∧ so.time = dueAt delay j := by
  cases h with
  | goesOn made failed => cases finished
  | ready within made success => exact ⟨_, made, success, rfl⟩
  | stopped within made failed held requested => cases finished

theorem of_success (h : Fate delay stop probes (j + 1) so) (makes : Makes delay stop probes j)
    (success : probes j = true) : so.finished = some .ready ∧ so.time = dueAt delay j := by
  cases h with
  | goesOn made failed => simp [failed j (Nat.lt_succ_self j)] at success
  | @ready k within made first =>
    have same : k = j := Nat.le_antisymm (Nat.le_of_lt_succ within) (makes.le first)
    exact ⟨rfl, congrArg (dueAt delay) same⟩
  | stopped within made failed held requested => simp [failed j (makes.lt held)] at success

theorem of_stopped (h : Fate delay stop probes n so) (finished : so.finished = some .stopped) :
    (∀ j, Makes delay stop probes j → probes j = false) ∧
      stop.time? (dueAt delay) = some so.time := by
  cases h with
  | goesOn made failed => cases finished
  | ready within made success => cases finished
  | stopped within made failed held requested =>
    exact ⟨fun j makes => failed j (makes.lt held), requested⟩

theorem of_held (h : Fate delay stop probes (n + 1) so)
    (failing : ∀ j, Makes delay stop probes j → probes j = false)
    (held : stop.holds (dueAt delay n) n = true) :
    so.finished = some .stopped ∧ stop.time? (dueAt delay) = some so.time := by
  cases h with
  | goesOn made failed => exact absurd ((made n (Nat.lt_succ_self n)).lt held) (Nat.lt_irrefl n)
  | ready within made success => simp [failing _ made] at success
  | stopped within made failed held requested => exact ⟨rfl, requested⟩

end Fate

/-- The run makes each probe when it is due, as long as it makes any; it ends with a success if it
comes to one, and otherwise at the time at which stop is requested. -/
structure Runs (delay : Nat → Nat) (stop : StopRequest) (probes : Nat → Bool) : Prop where
  calls : ∀ n j time, (after delay stop probes n).calls[j]? = some time ↔
    j < n ∧ Makes delay stop probes j ∧ time = dueAt delay j
  ready : ∀ time, (∃ n, (after delay stop probes n).finished = some .ready ∧
      (after delay stop probes n).time = time) ↔
    ∃ j, Makes delay stop probes j ∧ probes j = true ∧ time = dueAt delay j
  stopped : ∀ time, (∃ n, (after delay stop probes n).finished = some .stopped ∧
      (after delay stop probes n).time = time) ↔
    (∀ j, Makes delay stop probes j → probes j = false) ∧ stop.time? (dueAt delay) = some time

theorem runs (positive : ∀ n, 0 < delay n) (stop : StopRequest) (probes : Nat → Bool) :
    Runs delay stop probes where
  calls n j time := (fate delay stop probes n).getElem?_calls
  ready time := by
    constructor
    · rintro ⟨n, finished, rfl⟩
      exact (fate delay stop probes n).of_ready finished
    · rintro ⟨j, makes, success, rfl⟩
      exact ⟨j + 1, (fate delay stop probes (j + 1)).of_success makes success⟩
  stopped time := by
    constructor
    · rintro ⟨n, finished, rfl⟩
      exact (fate delay stop probes n).of_stopped finished
    · rintro ⟨failing, requested⟩
      obtain ⟨n, held⟩ := stop.comes positive requested
      obtain ⟨finished, same⟩ := (fate delay stop probes (n + 1)).of_held failing held
      exact ⟨n + 1, finished, Option.some.inj (same.symm.trans requested)⟩

end Supervision

end Federation
