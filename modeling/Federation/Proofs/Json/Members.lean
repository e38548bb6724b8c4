import Federation.Json.Basic

/-!
# Members in the order of their names

Objects, arguments and headers are lists of named values in strictly
increasing order of the names. Adding a value keeps that order and changes
what is found under its own name only.
-/

namespace Federation

/-- Strictly increasing names, so each name stands once. -/
def InOrder (members : List (String × α)) : Prop := (members.map Prod.fst).Pairwise (· < ·)

theorem inOrder_nil : InOrder ([] : List (String × α)) := .nil

theorem inOrder_cons {members : List (String × α)} :
    InOrder ((n, v) :: members) ↔ (∀ m ∈ members, n < m.1) ∧ InOrder members := by
  simp [InOrder, List.pairwise_cons]

theorem InOrder.filter {members : List (String × α)} (h : InOrder members)
    (p : String × α → Bool) : InOrder (members.filter p) :=
  h.sublist (List.filter_sublist.map Prod.fst)

theorem gt_of_not_lt_of_ne {a b : String} (hl : ¬ a < b) (hn : a ≠ b) : b < a := by
  rcases Decidable.em (b < a) with h | h
  · exact h
  · exact absurd (String.le_antisymm (String.not_lt.mp h) (String.not_lt.mp hl)) hn

theorem insertMember_nil : insertMember n v [] = [(n, v)] := rfl

theorem insertMember_before {rest : List (String × α)} (h : n < k) :
    insertMember n v ((k, w) :: rest) = (n, v) :: (k, w) :: rest := if_pos h

theorem insertMember_behind {rest : List (String × α)} (h : k < n) :
    insertMember n v ((k, w) :: rest) = (k, w) :: insertMember n v rest := by
  rw [insertMember, if_neg (String.lt_asymm h), if_neg (String.ne_of_lt h).symm]

theorem mem_insertMember {members : List (String × α)} (h : m ∈ insertMember n v members) :
    m = (n, v) ∨ m ∈ members := by
  induction members with
  | nil => exact .inl (List.mem_singleton.mp h)
  | cons p rest ih =>
    simp only [insertMember] at h
    split at h
    · exact List.mem_cons.mp h
    · split at h
      · rcases List.mem_cons.mp h with rfl | h
        · exact .inl rfl
        · exact .inr (List.mem_cons_of_mem _ h)
      · rcases List.mem_cons.mp h with rfl | h
        · exact .inr List.mem_cons_self
        · exact (ih h).imp_right (List.mem_cons_of_mem _)

theorem InOrder.insertMember {members : List (String × α)} (h : InOrder members) (n : String)
    (v : α) : InOrder (insertMember n v members) := by
  induction members with
  | nil => simp [Federation.insertMember, InOrder]
  | cons p rest ih =>
    obtain ⟨k, w⟩ := p
    obtain ⟨first, later⟩ := inOrder_cons.mp h
    simp only [Federation.insertMember]
    split
    · rename_i hn
      refine inOrder_cons.mpr ⟨fun m hm => ?_, h⟩
      rcases List.mem_cons.mp hm with rfl | hm
      · exact hn
      · exact String.lt_trans hn (first m hm)
    · rename_i hn
      split
      · rename_i heq
        exact inOrder_cons.mpr ⟨heq ▸ first, later⟩
      · rename_i hne
        refine inOrder_cons.mpr ⟨fun m hm => ?_, ih later⟩
        rcases mem_insertMember hm with rfl | hm
        · exact gt_of_not_lt_of_ne hn hne
        · exact first m hm

theorem lookup_cons_eq (members : List (String × α)) (k : String) (m : String × α) :
    (m :: members).lookup k = if k = m.1 then some m.2 else members.lookup k := by
  obtain ⟨n, v⟩ := m
  rw [List.lookup_cons]
  by_cases h : k = n
  · simp [h]
  · have other : (k == n) = false := beq_eq_false_iff_ne.mpr h
    simp [h, other]

theorem lookup_insertMember (members : List (String × α)) (n k : String) (v : α) :
    (insertMember n v members).lookup k = if k = n then some v else members.lookup k := by
  induction members with
  | nil => simp [insertMember, lookup_cons_eq]
  | cons p rest ih =>
    obtain ⟨name, w⟩ := p
    simp only [insertMember]
    split
    · simp [lookup_cons_eq]
    · split
      · rename_i heq
        subst heq
        by_cases h : k = n <;> simp [lookup_cons_eq, h]
      · rename_i hne
        by_cases h : k = name
        · simp [h, Ne.symm hne]
        · simp [lookup_cons_eq, h, ih]

theorem lookup_filter_ne (members : List (String × α)) (name key : String) :
    (members.filter fun m => m.1 ≠ name).lookup key =
      if key = name then none else members.lookup key := by
  induction members with
  | nil => simp
  | cons m rest ih =>
    by_cases own : m.1 = name
    · rw [List.filter_cons_of_neg (by simpa using own), ih, lookup_cons_eq, own]
      split <;> rfl
    · rw [List.filter_cons_of_pos (by simpa using own), lookup_cons_eq, ih, lookup_cons_eq]
      by_cases first : key = m.1
      · rw [if_pos first, if_pos first, if_neg (first ▸ own)]
      · rw [if_neg first, if_neg first]

theorem insertMember_last {members : List (String × α)} (h : ∀ m ∈ members, m.1 < n) (v : α) :
    insertMember n v members = members ++ [(n, v)] := by
  induction members with
  | nil => rfl
  | cons p rest ih =>
    rw [insertMember_behind (h p List.mem_cons_self),
      ih fun m hm => h m (List.mem_cons_of_mem _ hm), List.cons_append]

-- ---------------------------------------------------------------------------
-- Sorting
-- ---------------------------------------------------------------------------

theorem inOrder_sortMembers (members : List (String × α)) : InOrder (sortMembers members) := by
  suffices h : ∀ acc : List (String × α), InOrder acc →
      InOrder (members.foldl (fun acc m => insertMember m.1 m.2 acc) acc) from h [] inOrder_nil
  induction members with
  | nil => exact fun acc h => h
  | cons m rest ih => exact fun acc h => ih _ (h.insertMember m.1 m.2)

theorem mem_sortMembers {members : List (String × α)} (h : m ∈ sortMembers members) :
    m ∈ members := by
  suffices ∀ acc : List (String × α),
      m ∈ members.foldl (fun acc m => insertMember m.1 m.2 acc) acc → m ∈ acc ∨ m ∈ members by
    simpa using this [] h
  clear h
  induction members with
  | nil => exact fun acc h => .inl h
  | cons p rest ih =>
    intro acc h
    rcases ih _ h with h | h
    · rcases mem_insertMember h with rfl | h
      · exact .inr List.mem_cons_self
      · exact .inl h
    · exact .inr (List.mem_cons_of_mem _ h)

theorem foldl_insertMember (acc : List (String × α)) {members : List (String × α)}
    (h : InOrder (acc ++ members)) :
    members.foldl (fun acc m => insertMember m.1 m.2 acc) acc = acc ++ members := by
  induction members generalizing acc with
  | nil => simp
  | cons m rest ih =>
    have before : ∀ p ∈ acc, p.1 < m.1 := by
      intro p hp
      rw [InOrder, List.map_append, List.pairwise_append] at h
      exact h.2.2 _ (List.mem_map_of_mem hp) _ (by simp)
    rw [List.foldl_cons, insertMember_last before m.2, ih _ (by simpa using h)]
    simp

theorem InOrder.sortMembers_eq {members : List (String × α)} (h : InOrder members) :
    sortMembers members = members := by
  simpa [sortMembers] using foldl_insertMember [] (by simpa using h)

theorem lookup_foldl_insertMember (members acc : List (String × α)) (k : String) :
    (members.foldl (fun acc m => insertMember m.1 m.2 acc) acc).lookup k =
      (members.reverse ++ acc).lookup k := by
  induction members generalizing acc with
  | nil => simp
  | cons m rest ih =>
    rw [List.foldl_cons, ih, List.reverse_cons, List.append_assoc, List.lookup_append,
      List.lookup_append, lookup_insertMember]
    simp [lookup_cons_eq]

theorem lookup_sortMembers (members : List (String × α)) (k : String) :
    (sortMembers members).lookup k = members.reverse.lookup k := by
  rw [sortMembers, lookup_foldl_insertMember, List.append_nil]

end Federation
