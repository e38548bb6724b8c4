import Federation.Message
import Federation.Proofs.Json.Jobs
import Federation.Proofs.Json.Reals

/-!
# What comes out of texts

A text that is read to its end holds no number that values cannot hold, and nests no deeper than the
limit. So what an operation or a definition carries does the same.
-/

namespace Federation

open Number (IsFinite)

namespace Document

-- ---------------------------------------------------------------------------
-- Values
-- ---------------------------------------------------------------------------

theorem readWord_ok {d value : Document} {word text : List Char}
    (h : readWord value word text = (d, .ok rest)) :
    d = value := by
  induction word generalizing text with
  | nil =>
    cases h
    rfl
  | cons c word ih =>
    cases text with
    | nil => cases h
    | cons first text =>
      rw [readWord] at h
      split at h
      · exact ih h
      · cases h

/-- Beyond the limit nothing is left of a list or an object. -/
theorem within_nested {d : Document} {level : Nat} (h : d.Within p (maxDepth - (level + 1) + 1)) :
    (nested level d).Within p (maxDepth - level) := by
  unfold nested
  split
  · rename_i inside
    have levels : maxDepth - (level + 1) + 1 = maxDepth - level := by omega
    exact levels ▸ h
  · exact ⟨trivial, Nat.zero_le _⟩

theorem within_array {items : List Document} (h : ∀ d ∈ items, d.Within p levels) :
    (array items).Within p (levels + 1) :=
  ⟨holds_array.mpr fun d hd => (h d hd).numbers, depth_array_le.mpr fun d hd => (h d hd).depth⟩

theorem within_object {members : List (String × Document)}
    (h : ∀ m ∈ members, m.2.Within p levels) : (object members).Within p (levels + 1) :=
  ⟨holds_object.mpr fun m hm => (h m hm).numbers, depth_object_le.mpr fun m hm => (h m hm).depth⟩

structure Bounded (fuel : Nat) : Prop where
  value : ∀ level text d rest, readValue fuel level text = (d, .ok rest) →
    d.Within IsFinite (maxDepth - level)
  items : ∀ level text ds rest, readItems fuel level text = (ds, .ok rest) →
    ∀ d ∈ ds, d.Within IsFinite (maxDepth - level)
  members : ∀ level text ms rest, readMembers fuel level text = (.ok ms, .ok rest) →
    ∀ m ∈ ms, m.2.Within IsFinite (maxDepth - level)
  member : ∀ level text d ms rest, readMember fuel level text = (d, .ok ms, .ok rest) →
    d.Within IsFinite (maxDepth - level) ∧ ∀ m ∈ ms, m.2.Within IsFinite (maxDepth - level)

theorem bounded_zero : Bounded 0 where
  value _ _ _ _ h := by
    rw [readValue] at h
    cases h
  items _ _ _ _ h := by
    rw [readItems] at h
    cases h
  members _ _ _ _ h := by
    rw [readMembers] at h
    cases h
  member _ _ _ _ _ h := by
    rw [readMember] at h
    cases h

section

variable {fuel level : Nat} {text rest : List Char} {d : Document} {ds : List Document}
variable {ms : List (String × Document)}

theorem Bounded.value_succ (ih : Bounded fuel)
    (h : readValue (fuel + 1) level text = (d, .ok rest)) :
    d.Within IsFinite (maxDepth - level) := by
  rw [readValue] at h
  split at h
  · cases h
  · obtain rfl := readWord_ok h
    exact ⟨trivial, Nat.zero_le _⟩
  · obtain rfl := readWord_ok h
    exact ⟨trivial, Nat.zero_le _⟩
  · obtain rfl := readWord_ok h
    exact ⟨trivial, Nat.zero_le _⟩
  · split at h <;> cases h <;> exact ⟨trivial, Nat.zero_le _⟩
  · split at h
    · cases h
    · cases h
      exact within_nested (within_array (by simp))
    · rename_i inner _ _ _ _
      rcases hread : readItems fuel (level + 1) (skipGap inner) with ⟨items, _ | after⟩
      · rw [hread] at h
        cases h
      · rw [hread] at h
        cases h
        exact within_nested (within_array (ih.items _ _ _ _ hread))
  · split at h
    · cases h
    · cases h
      exact within_nested (within_object (by simp))
    · rename_i inner _ _ _ _
      rcases hread : readMembers fuel (level + 1) (skipGap inner) with ⟨_ | members, _ | after⟩
      · rw [hread] at h
        cases h
      · rw [hread] at h
        cases h
        exact ⟨trivial, Nat.zero_le _⟩
      · rw [hread] at h
        cases h
      · rw [hread] at h
        cases h
        exact within_nested (within_object (ih.members _ _ _ _ hread))
  · split at h
    · split at h
      · cases h
      · rename_i numeral _ _
        cases hvalue : numeral.value? with
        | none =>
          rw [hvalue] at h
          cases h
          exact ⟨trivial, Nat.zero_le _⟩
        | some n =>
          rw [hvalue] at h
          cases h
          exact ⟨Number.isFinite_of_value? hvalue, Nat.zero_le _⟩
    · cases h

theorem Bounded.items_succ (ih : Bounded fuel)
    (h : readItems (fuel + 1) level text = (ds, .ok rest)) :
    ∀ d ∈ ds, d.Within IsFinite (maxDepth - level) := by
  rw [readItems] at h
  split at h
  · cases h
  · split at h
    · cases h
    · rename_i item _ hitem
      have first := ih.value _ _ _ _ hitem
      split at h
      · rename_i text _
        rcases hread : readItems fuel level text with ⟨items, _ | after⟩
        · rw [hread] at h
          cases h
        · rw [hread] at h
          cases h
          exact List.forall_mem_cons.mpr ⟨first, ih.items _ _ _ _ hread⟩
      · cases h
        simpa using first
      · cases h
      · cases h

theorem Bounded.member_succ (ih : Bounded fuel)
    (h : readMember (fuel + 1) level text = (d, .ok ms, .ok rest)) :
    d.Within IsFinite (maxDepth - level) ∧ ∀ m ∈ ms, m.2.Within IsFinite (maxDepth - level) := by
  rw [readMember] at h
  split at h
  · split at h
    · cases h
    · rename_i value _ hvalue
      have first := ih.value _ _ _ _ hvalue
      split at h
      · rename_i text _
        obtain ⟨rfl, hread⟩ := Prod.mk.inj h
        exact ⟨first, ih.members _ _ _ _ hread⟩
      · cases h
        exact ⟨first, by simp⟩
      · cases h
      · cases h
  · cases h
  · cases h

theorem Bounded.members_succ (ih : Bounded fuel)
    (h : readMembers (fuel + 1) level text = (.ok ms, .ok rest)) :
    ∀ m ∈ ms, m.2.Within IsFinite (maxDepth - level) := by
  rw [readMembers] at h
  dsimp only at h
  split at h
  · split at h
    · cases h
    · cases h
    · rename_i text _
      rcases hread : readMember fuel level text with ⟨value, _ | members, after⟩
      · rw [hread] at h
        cases h
      · rw [hread] at h
        cases h
        obtain ⟨first, others⟩ := ih.member _ _ _ _ _ hread
        exact List.forall_mem_cons.mpr ⟨first, others⟩
  · cases h
  · cases h
  · cases h

end

theorem bounded (fuel : Nat) : Bounded fuel := by
  induction fuel with
  | zero => exact bounded_zero
  | succ fuel ih =>
    exact ⟨fun _ _ _ _ => ih.value_succ, fun _ _ _ _ => ih.items_succ,
      fun _ _ _ _ => ih.members_succ, fun _ _ _ _ _ => ih.member_succ⟩

theorem within_read {d : Document} {text : List Char} (h : read text = (d, none)) :
    d.Within IsFinite maxDepth := by
  unfold read at h
  split at h
  · cases h
  · rename_i document rest hread
    obtain ⟨rfl, -⟩ := Prod.mk.inj h
    exact (bounded _).value _ _ _ _ hread

end Document

-- ---------------------------------------------------------------------------
-- Records
-- ---------------------------------------------------------------------------

theorem Decoder.Yields.ofText {decoder : Decoder α} {Q : α → Prop}
    (h : decoder.Yields (Document.Within IsFinite Document.maxDepth) Q)
    (read : decoder.ofText text = .ok x) : Q x := by
  unfold Decoder.ofText at read
  split at read
  · rename_i document hread
    exact h .text document x (Document.within_read hread) read
  · obtain ⟨_, -, stopped⟩ := bind_ok read
    cases stopped

theorem Decoder.yields_list {decoder : Decoder α} {Q : α → Prop}
    (h : decoder.Yields (Document.Within p levels) Q) :
    (list decoder).Yields (Document.Within p (levels + 1)) fun xs => ∀ x ∈ xs, Q x := by
  intro source d xs hd read
  cases d with
  | array ds =>
    obtain ⟨inner, same, parts⟩ := hd.items
    cases same
    replace read : items decoder source ds = .ok xs := read
    induction ds generalizing xs with
    | nil =>
      cases read
      simp
    | cons d rest ih =>
      obtain ⟨hd', hrest⟩ := List.forall_mem_cons.mp parts
      obtain ⟨first, hfirst, read⟩ := bind_ok read
      obtain ⟨others, hothers, read⟩ := bind_ok read
      cases read
      exact List.forall_mem_cons.mpr
        ⟨h source d first hd' hfirst, ih others (Document.within_array hrest) hrest hothers⟩
  | _ => cases read

theorem Decoder.yields_dictionary {decoder : Decoder α} {Q : α → Prop}
    (h : decoder.Yields (Document.Within p levels) Q) :
    (dictionary decoder).Yields (Document.Within p (levels + 1)) fun xs =>
      InOrder xs ∧ ∀ m ∈ xs, Q m.2 := by
  intro source d xs hd read
  cases d with
  | object ms =>
    obtain ⟨inner, same, parts⟩ := hd.members
    cases same
    obtain ⟨found, hfound, rfl⟩ := map_ok.mp read
    have all : ∀ m ∈ found, Q m.2 := by
      clear read hd
      induction ms generalizing found with
      | nil =>
        cases hfound
        simp
      | cons m rest ih =>
        obtain ⟨hm, hrest⟩ := List.forall_mem_cons.mp parts
        obtain ⟨first, hfirst, read⟩ := bind_ok hfound
        obtain ⟨others, hothers, read⟩ := bind_ok read
        cases read
        exact List.forall_mem_cons.mpr ⟨h source m.2 first hm hfirst, ih hrest others hothers⟩
    exact ⟨inOrder_sortMembers found, fun m hm => all m (mem_sortMembers hm)⟩
  | _ => cases read

structure Operation.Within (p : Number → Prop) (levels : Nat) (operation : Operation) : Prop where
  args : ∀ v ∈ operation.args, v.Within p levels
  order : InOrder operation.kwargs
  kwargs : ∀ m ∈ operation.kwargs, m.2.Within p levels

structure Operation.Legible (operation : Operation) : Prop where
  args : ∀ v ∈ operation.args, v.Within IsFinite Document.maxDepth
  kwargs : ∀ m ∈ operation.kwargs, m.2.Within IsFinite Document.maxDepth

namespace Operation

theorem Legible.withoutWaitTimeout {operation : Operation} (h : operation.Legible) :
    operation.withoutWaitTimeout.Legible :=
  ⟨h.args, fun m hm => h.kwargs m (List.mem_filter.mp hm).1⟩

/-- Two levels of the document are the operation's own. -/
theorem yields_decoder :
    decoder.Yields (Document.Within p (levels + 2)) (Operation.Within p levels) := by
  have type : (Form.required "operation_type" .string).Yields (Document.Within p (levels + 1))
      (fun _ => True) _ := Form.yields_field (Decoder.yields_any _) (by simp)
  have target : (Form.optional "target_garden_name" (.nullable .string) none).Yields
      (Document.Within p (levels + 1)) (fun _ => True) _ :=
    Form.yields_field (Decoder.yields_any _) (by simp)
  have args : (Form.optional "args" (.list .json) []).Yields (Document.Within p (levels + 1))
      (fun args => ∀ v ∈ args, v.Within p levels) _ :=
    Form.yields_field (Decoder.yields_list Decoder.yields_json) (by simp)
  have kwargs : (Form.optional "kwargs" (.dictionary .json) []).Yields
      (Document.Within p (levels + 1))
      (fun kwargs => InOrder kwargs ∧ ∀ m ∈ kwargs, m.2.Within p levels) _ :=
    Form.yields_field (Decoder.yields_dictionary Decoder.yields_json) (by simp [inOrder_nil])
  have made : (Form.pure Operation.mk).Yields (Document.Within p (levels + 1))
      (fun make => ∀ type, True → ∀ target, True →
        ∀ args, (∀ v ∈ args, v.Within p levels) →
          ∀ kwargs, (InOrder kwargs ∧ ∀ m ∈ kwargs, m.2.Within p levels) →
            (make type target args kwargs).Within p levels) _ :=
    Form.yields_pure fun _ _ _ _ _ args _ kwargs => ⟨args, kwargs.1, kwargs.2⟩
  exact ((((made.both type).both target).both args).both kwargs).decode _

theorem exists_ofText {operation : Operation} (h : decode body = .ok operation) :
    decoder.ofText body = .ok operation ∧ operation.operationType ≠ "" := by
  obtain ⟨decoded, hdecoded, h⟩ := bind_ok h
  cases hread : (Coded.ofText body : Except DecodeError Operation) with
  | error e =>
    rw [hread] at hdecoded
    cases hdecoded
  | ok read =>
    rw [hread] at hdecoded
    cases hdecoded
    split at h
    · cases h
    · cases h
      exact ⟨hread, ‹_›⟩

theorem within_of_decode {operation : Operation} (h : decode body = .ok operation) :
    operation.Within IsFinite 125 :=
  yields_decoder.ofText (exists_ofText h).1

theorem legible_of_decode {operation : Operation} (h : decode body = .ok operation) :
    operation.Legible := by
  have within := within_of_decode h
  exact ⟨fun v hv => (within.args v hv).mono (by decide),
    fun m hm => (within.kwargs m hm).mono (by decide)⟩

end Operation

theorem JobDefinition.within_ofText (h : Coded.ofText text = .ok definition) :
    JobDefinition.Within IsFinite 126 definition :=
  yields_decoder.ofText h

end Federation
