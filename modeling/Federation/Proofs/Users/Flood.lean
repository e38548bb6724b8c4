import Mathlib.Algebra.BigOperators.Group.List.Basic
import Mathlib.Data.List.InsertIdx
import Mathlib.Data.List.Perm.Basic
import Mathlib.Logic.Relation
import Federation.Proofs.Users.Traffic

/-!
# How long a push goes on

Each garden that takes a push in pushes on, whatever the import has changed. So a push dies out when
no garden that it comes to can come to itself again, and else it can go on for ever.
-/

namespace Federation

open Relation

-- ---------------------------------------------------------------------------
-- Walks along links
-- ---------------------------------------------------------------------------

section Walks

variable {targets : String → List String}

def Leads (targets : String → List String) (name other : String) : Prop := other ∈ targets name

/-- The garden comes to a garden that comes to itself. -/
def Circles (targets : String → List String) (name : String) : Prop :=
  ∃ other, ReflTransGen (Leads targets) name other ∧ TransGen (Leads targets) other other

theorem Circles.next (h : Circles targets name) : ∃ other ∈ targets name, Circles targets other := by
  obtain ⟨center, path, circle⟩ := h
  rcases path.cases_head with rfl | ⟨other, first, rest⟩
  · obtain ⟨other, first, rest⟩ := TransGen.head'_iff.mp circle
    exact ⟨other, first, name, rest, circle⟩
  · exact ⟨other, first, center, rest, circle⟩

/-- How many operations a push of this garden leads to, as far as `depth` gardens on. -/
def cascade (targets : String → List String) : Nat → String → Nat
  | 0, _ => 0
  | depth + 1, name => ((targets name).map fun other => 1 + cascade targets depth other).sum

/-- No walk from this garden has more than `depth` links. -/
def EndsWithin (targets : String → List String) : Nat → String → Prop
  | 0, name => targets name = []
  | depth + 1, name => ∀ other ∈ targets name, EndsWithin targets depth other

theorem EndsWithin.succ (h : EndsWithin targets depth name) :
    EndsWithin targets (depth + 1) name := by
  induction depth generalizing name with
  | zero =>
    intro other hmem
    rw [show targets name = [] from h] at hmem
    cases hmem
  | succ depth ih => exact fun other hmem => ih (h other hmem)

theorem EndsWithin.next (h : EndsWithin targets depth name) (ho : other ∈ targets name) :
    EndsWithin targets depth other := by
  cases depth with
  | zero =>
    rw [show targets name = [] from h] at ho
    cases ho
  | succ depth => exact (h other ho).succ

/-- Where walks end, looking further finds no more operations. -/
theorem EndsWithin.cascade_succ (h : EndsWithin targets depth name) :
    cascade targets (depth + 1) name = cascade targets depth name := by
  induction depth generalizing name with
  | zero => simp [cascade, show targets name = [] from h]
  | succ depth ih =>
    rw [cascade, cascade]
    refine congrArg List.sum (List.map_congr_left fun other hmem => ?_)
    rw [ih (h other hmem)]

theorem exists_walk (h : ¬ EndsWithin targets depth name) :
    ∃ rest : List String, rest.length = depth ∧
      (name :: rest).Pairwise (TransGen (Leads targets)) ∧
      ∀ other ∈ name :: rest, targets other ≠ [] := by
  induction depth generalizing name with
  | zero => exact ⟨[], rfl, List.pairwise_singleton .., by simpa [EndsWithin] using h⟩
  | succ depth ih =>
    simp only [EndsWithin, not_forall] at h
    obtain ⟨other, first, h⟩ := h
    obtain ⟨rest, length, walk, leave⟩ := ih h
    have single : TransGen (Leads targets) name other := .single first
    refine ⟨other :: rest, by rw [List.length_cons, length], List.pairwise_cons.mpr ⟨?_, walk⟩, ?_⟩
    · intro far hfar
      rcases List.mem_cons.mp hfar with rfl | hfar
      · exact single
      · exact single.trans ((List.pairwise_cons.mp walk).1 far hfar)
    · intro far hfar
      rcases List.mem_cons.mp hfar with rfl | hfar
      · exact List.ne_nil_of_mem first
      · exact leave far hfar

/-- Only so many gardens have links, so a walk that goes on long enough meets one of them twice. -/
theorem endsWithin_of_not_circles (names : List String) (h : ∀ name, targets name ≠ [] → name ∈ names)
    (hc : ¬ Circles targets name) : EndsWithin targets names.length name := by
  by_contra long
  obtain ⟨rest, length, walk, leave⟩ := exists_walk long
  have apart : (name :: rest).Nodup := by
    refine List.Pairwise.imp_of_mem ?_ walk
    intro first second hfirst _ path same
    subst same
    refine hc ⟨first, ?_, path⟩
    rcases List.mem_cons.mp hfirst with rfl | hmem
    · exact .refl
    · exact ((List.pairwise_cons.mp walk).1 first hmem).to_reflTransGen
  have short := (List.subperm_of_subset apart fun other hmem => h other (leave other hmem)).length_le
  rw [List.length_cons, length] at short
  omega

end Walks

-- ---------------------------------------------------------------------------
-- Runs of pushes
-- ---------------------------------------------------------------------------

def Node.targets (node : Node) : List String :=
  match node.store.remoteGardens with
  | .ok remotes => (node.audience remotes).map Garden.name
  | .error _ => []

theorem Node.Syncs.targets {node : Node} {remotes : List Garden} (h : node.Syncs remotes) :
    node.targets = (node.audience remotes).map Garden.name := by
  simp only [Node.targets, h.remotes]

theorem Node.Syncs.map_sends {node : Node} {remotes : List Garden} (h : node.Syncs remotes)
    (users : List User) : (node.sends users remotes).map Prod.fst = node.targets := by
  rw [h.targets, sends, List.map_map]
  rfl

theorem Users.Imported.targets (h : Imported records before after) :
    after.targets = before.targets := by
  simp only [Node.targets, h.remoteGardens, h.audience]

namespace UserTraffic

def targets (traffic : UserTraffic) (name : String) : List String :=
  (traffic.garden? name).elim [] Node.targets

def addressees (traffic : UserTraffic) : List String := traffic.flights.map Prod.fst

structure Flooding (targets : String → List String) (traffic : UserTraffic) : Prop where
  syncs (name : String) (node : Node) : traffic.garden? name = some node →
    ∃ remotes, node.Syncs remotes
  targets (name : String) : traffic.targets name = targets name
  pushes : ∀ flight ∈ traffic.flights, ∃ users garden,
    flight = (garden.name, Users.syncOperation users garden)

variable {traffic after : UserTraffic} {links : String → List String}

theorem Flooding.became (h : Flooding links traffic) (hn : traffic.garden? name = some node)
    (hi : Users.Imported records node next) (users : List User) (hs : node.Syncs remotes) :
    Flooding links (traffic.became name next (node.sends users remotes)) := by
  have named : next.name = name := hi.name.trans (name_garden? hn)
  refine ⟨fun other found hfound => ?_, fun other => ?_, fun flight hflight => ?_⟩
  · rw [garden?_became named] at hfound
    split at hfound
    · rw [hn, Option.map_some, Option.some.injEq] at hfound
      exact hfound ▸ ⟨remotes, hi.syncs hs⟩
    · exact h.syncs other found hfound
  · rw [← h.targets, UserTraffic.targets, garden?_became named, UserTraffic.targets]
    split
    case isTrue same =>
      subst same
      simp [hn, hi.targets]
    case isFalse => rfl
  · rcases List.mem_append.mp hflight with hflight | hflight
    · exact h.pushes flight hflight
    · obtain ⟨garden, -, rfl⟩ := List.mem_map.mp hflight
      exact ⟨users, garden, rfl⟩

theorem Flooding.without (h : Flooding links traffic) (index : Nat) :
    Flooding links (traffic.without index) :=
  ⟨h.syncs, h.targets, fun flight hflight => h.pushes flight (List.mem_of_mem_eraseIdx hflight)⟩

theorem Flooding.step_push (h : Flooding links traffic) (hn : traffic.garden? name = some node) :
    ∃ after, traffic.step (.push name) = some after ∧ Flooding links after ∧
      after.addressees = traffic.addressees ++ links name := by
  obtain ⟨remotes, hs⟩ := h.syncs name node hn
  obtain ⟨next, users, -, imported, ran⟩ := UserTraffic.step_push hn hs
  refine ⟨_, ran, h.became hn imported users hs, ?_⟩
  rw [← h.targets, UserTraffic.targets, hn, addressees, addressees, UserTraffic.became,
    List.map_append, hs.map_sends]
  rfl

theorem Flooding.step_deliver (h : Flooding links traffic) (hf : traffic.addressees[index]? = some name)
    (hn : traffic.garden? name = some node) :
    ∃ after, traffic.step (.deliver index) = some after ∧ Flooding links after ∧
      after.addressees = traffic.addressees.eraseIdx index ++ links name := by
  rw [addressees, List.getElem?_map, Option.map_eq_some_iff] at hf
  obtain ⟨flight, hflight, rfl⟩ := hf
  obtain ⟨users, garden, rfl⟩ := h.pushes flight (List.mem_of_getElem? hflight)
  obtain ⟨remotes, hs⟩ := h.syncs garden.name node hn
  obtain ⟨next, held, -, imported, ran⟩ := UserTraffic.step_deliver hflight hn hs
  refine ⟨_, ran, (h.without index).became hn imported held hs, ?_⟩
  rw [← h.targets, UserTraffic.targets, hn, addressees, addressees, UserTraffic.became,
    List.map_append, hs.map_sends, UserTraffic.without, List.eraseIdx_map]
  rfl

theorem exists_of_step_deliver (h : traffic.step (.deliver index) = some after) :
    ∃ name node, traffic.addressees[index]? = some name ∧ traffic.garden? name = some node := by
  simp only [step, bind] at h
  obtain ⟨⟨name, operation⟩, hflight, h⟩ := Option.bind_eq_some_iff.mp h
  obtain ⟨node, hnode, -⟩ := Option.bind_eq_some_iff.mp h
  exact ⟨name, node, by rw [addressees, List.getElem?_map, hflight, Option.map_some], hnode⟩

theorem run_cons (traffic : UserTraffic) (step : UserTrafficStep) (rest : List UserTrafficStep) :
    traffic.run (step :: rest) = (traffic.step step).bind (·.run rest) := rfl

theorem run_concat (traffic : UserTraffic) (steps : List UserTrafficStep)
    (last : UserTrafficStep) :
    traffic.run (steps ++ [last]) = (traffic.run steps).bind (·.step last) := by
  simp [run, List.foldlM_append, bind, pure]

/-- How many operations there have been and will be, once these are on their way. -/
def load (links : String → List String) (depth : Nat) (names : List String) : Nat :=
  (names.map fun name => 1 + cascade links depth name).sum

theorem length_le_load (links : String → List String) (depth : Nat) (names : List String) :
    names.length ≤ load links depth names := by
  refine (List.length_map (fun name => 1 + cascade links depth name)).symm.trans_le ?_
  refine List.length_le_sum_of_one_le _ fun count hcount => ?_
  obtain ⟨name, -, rfl⟩ := List.mem_map.mp hcount
  omega

theorem load_deliver {names : List String} (hf : names[index]? = some name)
    (hd : EndsWithin links depth name) :
    load links depth (names.eraseIdx index ++ links name) + 1 = load links depth names := by
  obtain ⟨hindex, rfl⟩ := List.getElem?_eq_some_iff.mp hf
  have same := ((List.getElem_cons_eraseIdx_perm hindex).map
    fun name => 1 + cascade links depth name).sum_eq
  have next := hd.cascade_succ
  rw [cascade] at next
  simp only [load, List.map_append, List.sum_append, next, ← same, List.map_cons, List.sum_cons]
  omega

/-- Where walks end, deliveries only use up what was there. -/
theorem load_run (h : Flooding links traffic)
    (hd : ∀ name ∈ traffic.addressees, EndsWithin links depth name) (indices : List Nat)
    (hr : traffic.run (indices.map .deliver) = some after) :
    indices.length + load links depth after.addressees =
      load links depth traffic.addressees := by
  induction indices generalizing traffic with
  | nil =>
    obtain rfl : traffic = after := Option.some.inj hr
    simp
  | cons index rest ih =>
    rw [List.map_cons, run_cons] at hr
    obtain ⟨middle, hstep, hr⟩ := Option.bind_eq_some_iff.mp hr
    obtain ⟨name, node, hf, hn⟩ := exists_of_step_deliver hstep
    obtain ⟨next, hnext, flooding, addressees⟩ := h.step_deliver hf hn
    obtain rfl : middle = next := Option.some.inj (hstep.symm.trans hnext)
    have ends := hd name (List.mem_of_getElem? hf)
    have others := ih flooding (fun other hother => ?_) hr
    · have used := load_deliver hf ends
      rw [← addressees] at used
      rw [List.length_cons]
      omega
    · rw [addressees] at hother
      rcases List.mem_append.mp hother with hother | hother
      · exact hd other (List.mem_of_mem_eraseIdx hother)
      · exact ends.next hother

theorem Flooding.exists_garden (h : Flooding links traffic) (ho : other ∈ links name) :
    ∃ node, traffic.garden? name = some node := by
  rw [← h.targets, UserTraffic.targets] at ho
  cases hn : traffic.garden? name with
  | none => simp [hn] at ho
  | some node => exact ⟨node, rfl⟩

theorem exists_long_run (h : Flooding links traffic) (hc : Circles links origin) (count : Nat) :
    ∃ (indices : List Nat) (after : UserTraffic) (name : String),
      traffic.run (.push origin :: indices.map .deliver) = some after ∧ Flooding links after ∧
      indices.length = count ∧ name ∈ after.addressees ∧ Circles links name := by
  induction count with
  | zero =>
    obtain ⟨other, link, circles⟩ := hc.next
    obtain ⟨node, hn⟩ := h.exists_garden link
    obtain ⟨after, ran, flooding, addressees⟩ := h.step_push hn
    refine ⟨[], after, other, ?_, flooding, rfl, ?_, circles⟩
    · rw [run_cons, ran]
      rfl
    · rw [addressees]
      exact List.mem_append_right _ link
  | succ count ih =>
    obtain ⟨indices, middle, name, ran, flooding, length, there, circles⟩ := ih
    obtain ⟨index, hf⟩ := List.mem_iff_getElem?.mp there
    obtain ⟨other, link, circles⟩ := circles.next
    obtain ⟨node, hn⟩ := flooding.exists_garden link
    obtain ⟨after, last, flooding, addressees⟩ := flooding.step_deliver hf hn
    refine ⟨indices ++ [index], after, other, ?_, flooding, by simp [length], ?_, circles⟩
    · rw [List.map_append, ← List.cons_append, List.map_singleton, run_concat, ran,
        Option.bind_some, last]
    · rw [addressees]
      exact List.mem_append_right _ link

theorem flooding_start {gardens : List Node} (h : ∀ node ∈ gardens, ∃ remotes, node.Syncs remotes) :
    Flooding (targets ⟨gardens, []⟩) ⟨gardens, []⟩ :=
  ⟨fun _ node hn => h node (List.mem_of_find?_eq_some hn), fun _ => rfl, fun _ hf => by cases hf⟩

/-- The operations of a push are bounded in number just when no garden that the push comes to can
come to itself. Each operation that was sent has arrived or is still on its way. -/
theorem bounded_iff_not_circles (gardens : List Node) (h : ∀ node ∈ gardens, ∃ remotes, node.Syncs remotes)
    (origin : String) :
    (∃ bound, ∀ (indices : List Nat) (after : UserTraffic),
      run ⟨gardens, []⟩ (.push origin :: indices.map .deliver) = some after →
        indices.length + after.flights.length ≤ bound) ↔
      ¬ Circles (targets ⟨gardens, []⟩) origin := by
  have start := flooding_start h
  constructor
  · rintro ⟨bound, bounded⟩ circles
    obtain ⟨indices, after, name, ran, -, length, -⟩ := exists_long_run start circles (bound + 1)
    have := bounded indices after ran
    omega
  · intro straight
    have ends := endsWithin_of_not_circles (gardens.map Node.name) (fun name hname => ?_) straight
    · refine ⟨cascade (targets ⟨gardens, []⟩) gardens.length origin, fun indices after ran => ?_⟩
      rw [List.length_map] at ends
      rw [run_cons] at ran
      obtain ⟨middle, hstep, ran⟩ := Option.bind_eq_some_iff.mp ran
      obtain ⟨node, hn, -⟩ := Option.bind_eq_some_iff.mp hstep
      obtain ⟨sent, hsent, flooding, addressees⟩ := start.step_push hn
      obtain rfl : middle = sent := Option.some.inj (hstep.symm.trans hsent)
      have first : middle.addressees = targets ⟨gardens, []⟩ origin := addressees
      have all := load_run flooding (fun name hname => ends.next (first ▸ hname)) indices ran
      have total : load (targets ⟨gardens, []⟩) gardens.length middle.addressees =
          cascade (targets ⟨gardens, []⟩) gardens.length origin := by
        rw [first, ← ends.cascade_succ]
        rfl
      have left := length_le_load (targets ⟨gardens, []⟩) gardens.length after.addressees
      have same : after.addressees.length = after.flights.length := List.length_map _
      omega
    · obtain ⟨other, link⟩ := List.exists_mem_of_ne_nil _ hname
      obtain ⟨node, hn⟩ := start.exists_garden link
      rw [← name_garden? hn]
      exact List.mem_map_of_mem (List.mem_of_find?_eq_some hn)

theorem targets_home (others : List Node) : targets ⟨homeNode :: others, []⟩ "home" = ["next"] :=
  syncs_homeNode.targets

def passingNode : Node := .linkedTo "next" ⟨"last", some .stomp, []⟩ []

theorem syncs_passingNode : passingNode.Syncs [⟨"last", some .stomp, []⟩] :=
  Node.syncs_linkedTo rfl rfl (by decide) (by decide) (by simp)

/-- The garden next door pushes on to a last one, and there the push dies out. -/
theorem bounded_homeNode :
    (∃ after, run ⟨[homeNode, passingNode], []⟩ [.push "home", .deliver 0] = some after ∧
      after.addressees = ["last"]) ∧
    ∃ bound, ∀ (indices : List Nat) (after : UserTraffic),
      run ⟨[homeNode, passingNode], []⟩ (.push "home" :: indices.map .deliver) = some after →
        indices.length + after.flights.length ≤ bound := by
  have syncs : ∀ node ∈ [homeNode, passingNode], ∃ remotes, node.Syncs remotes := by
    intro node hnode
    rcases List.mem_pair.mp hnode with rfl | rfl
    · exact ⟨_, syncs_homeNode⟩
    · exact ⟨_, syncs_passingNode⟩
  have first : targets ⟨[homeNode, passingNode], []⟩ "home" = ["next"] := targets_home _
  have second : targets ⟨[homeNode, passingNode], []⟩ "next" = ["last"] := syncs_passingNode.targets
  constructor
  · have home : UserTraffic.garden? ⟨[homeNode, passingNode], []⟩ "home" = some homeNode := rfl
    obtain ⟨sent, pushed, flooding, toNext⟩ := (flooding_start syncs).step_push home
    obtain ⟨node, landed⟩ := flooding.exists_garden (second ▸ List.mem_singleton_self "last")
    have arrives : sent.addressees[0]? = some "next" := by rw [toNext, first]; rfl
    obtain ⟨after, delivered, -, toLast⟩ := flooding.step_deliver arrives landed
    refine ⟨after, by rw [run_cons, pushed, Option.bind_some, run_cons, delivered]; rfl, ?_⟩
    rw [toLast, toNext, first, second]
    rfl
  · refine (bounded_iff_not_circles _ syncs "home").mpr fun circles => ?_
    obtain ⟨next, link, circles⟩ := circles.next
    rw [first, List.mem_singleton] at link
    subst link
    obtain ⟨last, link, circles⟩ := circles.next
    rw [second, List.mem_singleton] at link
    subst link
    obtain ⟨_, link, -⟩ := circles.next
    exact List.not_mem_nil link

/-- Two gardens that know each other go on for ever. -/
theorem unbounded_pair :
    (∀ node ∈ [homeNode, nextNode], ∃ remotes, node.Syncs remotes) ∧
      ∀ bound, ∃ (indices : List Nat) (after : UserTraffic),
        run ⟨[homeNode, nextNode], []⟩ (.push "home" :: indices.map .deliver) = some after ∧
          bound < indices.length + after.flights.length := by
  have syncs : ∀ node ∈ [homeNode, nextNode], ∃ remotes, node.Syncs remotes := by
    intro node hnode
    rcases List.mem_pair.mp hnode with rfl | rfl
    · exact ⟨[nextDoor], syncs_homeNode⟩
    · exact ⟨[home], syncs_nextNode⟩
  refine ⟨syncs, fun bound => ?_⟩
  have there : Leads (targets ⟨[homeNode, nextNode], []⟩) "home" "next" := by
    rw [Leads, targets_home]
    exact List.mem_singleton_self _
  have back : Leads (targets ⟨[homeNode, nextNode], []⟩) "next" "home" := by
    have links : targets ⟨[homeNode, nextNode], []⟩ "next" = ["home"] := syncs_nextNode.targets
    rw [Leads, links]
    exact List.mem_singleton_self _
  have circles : Circles (targets ⟨[homeNode, nextNode], []⟩) "home" :=
    ⟨"home", .refl, .tail (.single there) back⟩
  obtain ⟨indices, after, name, ran, -, length, -⟩ :=
    exists_long_run (flooding_start syncs) circles (bound + 1)
  exact ⟨indices, after, ran, by omega⟩

end UserTraffic

end Federation
