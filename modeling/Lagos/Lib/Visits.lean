/-
Visiting a set of keys in passes, a batch at a time.

Nothing here is about a particular program. A pass is the list of the keys that are left to
visit; a turn takes the last `batch` of them, and a pass that has nothing left is first
refilled from a walk of the whole set. The walk may come in another order every time.

Two rules are all that the developments above need. If every turn is completed, then every
key is visited soon (`exists_mem_taken`), and if a turn is undone by putting its keys back,
then the next turn takes the same ones (`taken_put_back`).
-/
import Mathlib.Data.List.Basic

set_option autoImplicit false

namespace Visits

variable {α : Type*}

/-! ## A turn -/

/-- The pass of a turn: what is left of the last one, or a new walk. -/
def refill (pass order : List α) : List α := if pass.isEmpty then order else pass

/-- What the turn takes. -/
def taken (batch : ℕ) (pass order : List α) : List α :=
  (refill pass order).drop ((refill pass order).length - batch)

/-- What the turn leaves. -/
def left (batch : ℕ) (pass order : List α) : List α :=
  (refill pass order).take ((refill pass order).length - batch)

theorem refill_of_ne_nil {pass : List α} (h : pass ≠ []) (order : List α) :
    refill pass order = pass := by
  rw [refill, if_neg]
  rwa [List.isEmpty_iff]

@[simp] theorem refill_nil (order : List α) : refill [] order = order := rfl

theorem left_append_taken (batch : ℕ) (pass order : List α) :
    left batch pass order ++ taken batch pass order = refill pass order :=
  List.take_append_drop _ _

theorem mem_refill {pass order : List α} {x : α} (h : x ∈ refill pass order) :
    x ∈ pass ∨ x ∈ order := by
  unfold refill at h
  split at h
  · exact Or.inr h
  · exact Or.inl h

theorem mem_refill_of_mem_taken {batch : ℕ} {pass order : List α} {x : α}
    (h : x ∈ taken batch pass order) : x ∈ refill pass order :=
  List.mem_of_mem_drop h

/-- What is not taken is left. -/
theorem mem_left {batch : ℕ} {pass order : List α} {x : α} (hx : x ∈ refill pass order)
    (ht : x ∉ taken batch pass order) : x ∈ left batch pass order := by
  rw [← left_append_taken batch] at hx
  exact (List.mem_append.mp hx).resolve_right ht

theorem length_refill_le {pass order : List α} {n : ℕ} (hpass : pass.length ≤ n)
    (horder : order.length ≤ n) : (refill pass order).length ≤ n := by
  unfold refill
  split
  · exact horder
  · exact hpass

theorem length_left (batch : ℕ) (pass order : List α) :
    (left batch pass order).length = (refill pass order).length - batch := by
  rw [left, List.length_take]
  omega

/-- **A turn that is undone is taken again.** -/
theorem taken_put_back {batch : ℕ} {pass order : List α} (h : taken batch pass order ≠ [])
    (order' : List α) :
    taken batch (refill pass order) order' = taken batch pass order := by
  have hne : refill pass order ≠ [] := by
    intro h0
    rw [taken, h0, List.drop_nil] at h
    exact h rfl
  rw [taken, refill_of_ne_nil hne, taken]

/-! ## Turn after turn -/

section

variable {batch : ℕ} {pass order : ℕ → List α}

/-- A key that is left in the pass is visited before the pass is over. -/
theorem exists_mem_taken_of_mem (hbatch : 0 < batch)
    (hstep : ∀ n, pass (n + 1) = left batch (pass n) (order n)) {x : α} (n : ℕ)
    (hx : x ∈ pass n) :
    ∃ m < (pass n).length, x ∈ taken batch (pass (n + m)) (order (n + m)) := by
  induction hlen : (pass n).length using Nat.strongRecOn generalizing n with
  | _ len ih =>
    have hrefill : refill (pass n) (order n) = pass n :=
      refill_of_ne_nil (List.ne_nil_of_mem hx) _
    have hpos : 0 < len := hlen ▸ List.length_pos_of_mem hx
    by_cases ht : x ∈ taken batch (pass n) (order n)
    · exact ⟨0, hpos, ht⟩
    · -- it is left, in a shorter pass
      have hleft : x ∈ pass (n + 1) := by
        rw [hstep]
        exact mem_left (hrefill.symm ▸ hx) ht
      have hshort : (pass (n + 1)).length < len := by
        rw [hstep, length_left, hrefill]
        omega
      obtain ⟨m, hm, hmem⟩ := ih _ hshort (n + 1) hleft rfl
      refine ⟨m + 1, by omega, ?_⟩
      rw [← Nat.add_assoc, Nat.add_right_comm]
      exact hmem

/-- **Every key is visited**: within what is left of the pass and one pass more. -/
theorem exists_mem_taken (hbatch : 0 < batch)
    (hstep : ∀ n, pass (n + 1) = left batch (pass n) (order n)) {x : α} {len : ℕ}
    (horder : ∀ n, x ∈ order n ∧ (order n).length ≤ len) (n : ℕ) :
    ∃ m < (pass n).length + len, x ∈ taken batch (pass (n + m)) (order (n + m)) := by
  induction hlen : (pass n).length using Nat.strongRecOn generalizing n with
  | _ k ih =>
    obtain ⟨hx, hle⟩ := horder n
    by_cases hnil : pass n = []
    · -- a new walk: the key is in it
      by_cases ht : x ∈ taken batch (pass n) (order n)
      · have hpos := List.length_pos_of_mem hx
        exact ⟨0, by omega, ht⟩
      · have hrefill : refill (pass n) (order n) = order n := by
          rw [hnil, refill_nil]
        have hleft : x ∈ pass (n + 1) := by
          rw [hstep]
          exact mem_left (hrefill.symm ▸ hx) ht
        obtain ⟨m, hm, hmem⟩ := exists_mem_taken_of_mem hbatch hstep (n + 1) hleft
        have hshort : (pass (n + 1)).length = (order n).length - batch := by
          rw [hstep, length_left, hrefill]
        have hpos := List.length_pos_of_mem hx
        refine ⟨m + 1, by omega, ?_⟩
        rw [← Nat.add_assoc, Nat.add_right_comm]
        exact hmem
    · have hpos := List.length_pos_of_ne_nil hnil
      have hshort : (pass (n + 1)).length < k := by
        rw [hstep, length_left, refill_of_ne_nil hnil]
        omega
      obtain ⟨m, hm, hmem⟩ := ih _ hshort (n + 1) rfl
      refine ⟨m + 1, by omega, ?_⟩
      rw [← Nat.add_assoc, Nat.add_right_comm]
      exact hmem

end

end Visits
