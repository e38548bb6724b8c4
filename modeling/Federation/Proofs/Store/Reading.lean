import Mathlib.Data.List.Forall2
import Federation.Proofs.Json.Records

/-!
# Lists that are read element by element

A list is read when each of its elements is, and the first that cannot be read decides what the
failure is. Rows that are listed by a key come in its order, and what is read of them comes in the
same order.
-/

namespace Federation

section Reading

variable {read : α → Except ε β} {xs : List α} {ys : List β}

theorem mapM_ok : xs.mapM read = .ok ys ↔ List.Forall₂ (fun x y => read x = .ok y) xs ys := by
  induction xs generalizing ys with
  | nil => cases ys <;> simp [pure, Except.pure]
  | cons x rest ih =>
    rw [List.mapM_cons, List.forall₂_cons_left_iff]
    constructor
    · intro h
      obtain ⟨y, hy, h⟩ := bind_ok h
      obtain ⟨others, hothers, h⟩ := bind_ok h
      cases h
      exact ⟨y, others, hy, ih.mp hothers, rfl⟩
    · rintro ⟨y, others, hy, hothers, rfl⟩
      rw [hy, ih.mpr hothers]
      rfl

theorem mapM_error {e : ε} :
    xs.mapM read = .error e ↔
      ∃ before x after, xs = before ++ x :: after ∧ (∀ x ∈ before, ∃ y, read x = .ok y) ∧
        read x = .error e := by
  induction xs with
  | nil => simp [pure, Except.pure]
  | cons x rest ih =>
    rw [List.mapM_cons]
    cases hx : read x with
    | error e' =>
      constructor
      · intro h
        cases h
        exact ⟨[], x, rest, rfl, by simp, hx⟩
      · rintro ⟨before, x', after, split, passed, failed⟩
        cases before with
        | nil =>
          cases split
          rw [hx] at failed
          cases failed
          rfl
        | cons first before =>
          cases split
          obtain ⟨y, hy⟩ := passed x List.mem_cons_self
          cases hx.symm.trans hy
    | ok y =>
      have others : (do let ys ← rest.mapM read; pure (y :: ys) : Except ε (List β)) = .error e ↔
          rest.mapM read = .error e := by
        cases rest.mapM read <;> simp [bind, Except.bind, pure, Except.pure]
      refine others.trans (ih.trans ?_)
      constructor
      · rintro ⟨before, x', after, rfl, passed, failed⟩
        exact ⟨x :: before, x', after, rfl, List.forall_mem_cons.mpr ⟨⟨y, hx⟩, passed⟩, failed⟩
      · rintro ⟨before, x', after, split, passed, failed⟩
        cases before with
        | nil =>
          cases split
          cases hx.symm.trans failed
        | cons first before =>
          cases split
          exact ⟨before, x', after, rfl, (List.forall_mem_cons.mp passed).2, failed⟩

theorem exists_mapM : (∃ ys, xs.mapM read = .ok ys) ↔ ∀ x ∈ xs, ∃ y, read x = .ok y := by
  constructor
  · rintro ⟨ys, h⟩
    have related := mapM_ok.mp h
    clear h
    induction related with
    | nil => simp
    | cons hx _ ih => exact List.forall_mem_cons.mpr ⟨⟨_, hx⟩, ih⟩
  · intro h
    cases hread : xs.mapM read with
    | ok ys => exact ⟨ys, rfl⟩
    | error e =>
      obtain ⟨before, x, after, rfl, -, failed⟩ := mapM_error.mp hread
      obtain ⟨y, hy⟩ := h x (by simp)
      cases hy.symm.trans failed

theorem mem_mapM (h : xs.mapM read = .ok ys) {y : β} : y ∈ ys ↔ ∃ x ∈ xs, read x = .ok y := by
  have related := mapM_ok.mp h
  clear h
  induction related with
  | nil => simp
  | cons hx _ ih => simp [hx, ih, eq_comm]

theorem map_mapM {keyOf : α → κ} {key : β → κ} (named : ∀ x y, read x = .ok y → key y = keyOf x)
    (h : xs.mapM read = .ok ys) : ys.map key = xs.map keyOf := by
  have related := mapM_ok.mp h
  clear h
  induction related with
  | nil => rfl
  | cons hx _ ih => rw [List.map_cons, List.map_cons, ih, named _ _ hx]

theorem mapM_map_ok {write : γ → α} {f : γ → β} {zs : List γ}
    (h : ∀ z ∈ zs, read (write z) = .ok (f z)) : (zs.map write).mapM read = .ok (zs.map f) := by
  rw [mapM_ok, List.forall₂_map_left_iff, List.forall₂_map_right_iff, List.forall₂_same]
  exact h

end Reading

-- ---------------------------------------------------------------------------
-- In order
-- ---------------------------------------------------------------------------

section Order

variable {key : α → String}

theorem pairwise_mergeSort_key (rows : List α) :
    ((rows.mergeSort fun a b => key a ≤ key b).map key).Pairwise (· ≤ ·) := by
  rw [List.pairwise_map]
  refine (List.pairwise_mergeSort ?_ ?_ _).imp fun h => of_decide_eq_true h
  · intro a b c first second
    exact decide_eq_true (String.le_trans (of_decide_eq_true first) (of_decide_eq_true second))
  · intro a b
    simpa using String.le_total (key a) (key b)

theorem pairwise_lt_mergeSort_key {rows : List α} (unique : (rows.map key).Nodup) :
    ((rows.mergeSort fun a b => key a ≤ key b).map key).Pairwise (· < ·) := by
  have perm := List.mergeSort_perm rows fun a b => key a ≤ key b
  have distinct := (perm.map key).nodup_iff.mpr unique
  refine ((pairwise_mergeSort_key rows).and distinct).imp ?_
  rintro a b ⟨sorted, different⟩
  exact String.not_le.mp fun back => different (String.le_antisymm sorted back)

end Order

end Federation
