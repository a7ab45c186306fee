/-
A gate with a number of permits, and parties that hold one or none.

A permit is in the gate or with a party (`Conserved`). Taking one and giving one back keep that, as
does a step of a party that leaves its permit where it is, so along any run of such steps no
permit gets lost, and no more parties hold one than there are permits (`Conserved.holders_le`).
The parties are a list, and a step is of one of them.
-/
import Mathlib.Data.List.Basic

set_option autoImplicit false

namespace Permits

variable {α : Type*} {holds : α → Bool} {l : List α} {i : ℕ} {a b : α}

/-! ## Counting -/

/-- One of the parties changes. -/
theorem countP_set (h : l[i]? = some a) :
    (l.set i b).countP holds + (if holds a then 1 else 0)
      = l.countP holds + if holds b then 1 else 0 := by
  obtain ⟨hlt, hget⟩ := List.getElem?_eq_some_iff.mp h
  have hpos : (if holds a then 1 else 0) ≤ l.countP holds := by
    split
    · rename_i ha
      exact List.countP_pos_iff.mpr ⟨a, List.mem_of_getElem? h, ha⟩
    · exact Nat.zero_le _
  rw [List.countP_set hlt, hget]
  omega

/-- What is so of the parties stays so when one of them changes and it is so of this one. -/
theorem forall_mem_set {Q : α → Prop} (h : ∀ c ∈ l, Q c) (hb : Q b) : ∀ c ∈ l.set i b, Q c := by
  intro c hc
  obtain hmem | rfl := List.mem_or_eq_of_mem_set hc
  · exact h c hmem
  · exact hb

/-! ## The permits -/

/-- Every permit is in the gate, or with one of the parties. -/
def Conserved (holds : α → Bool) (n left : ℕ) (l : List α) : Prop := left + l.countP holds = n

namespace Conserved

variable {n left : ℕ}

/-- A party leaves its permit where it is. -/
theorem keep (h : Conserved holds n left l) (hi : l[i]? = some a) (hb : holds b = holds a) :
    Conserved holds n left (l.set i b) := by
  have hset := @countP_set _ holds _ _ _ b hi
  rw [hb] at hset
  unfold Conserved at *
  omega

/-- A party takes a permit out of the gate. -/
theorem take (h : Conserved holds n (left + 1) l) (hi : l[i]? = some a) (ha : holds a = false)
    (hb : holds b = true) : Conserved holds n left (l.set i b) := by
  have hset := @countP_set _ holds _ _ _ b hi
  rw [ha, hb, if_neg Bool.false_ne_true, if_pos rfl] at hset
  unfold Conserved at *
  omega

/-- A party gives its permit back. -/
theorem give (h : Conserved holds n left l) (hi : l[i]? = some a) (ha : holds a = true)
    (hb : holds b = false) : Conserved holds n (left + 1) (l.set i b) := by
  have hset := @countP_set _ holds _ _ _ b hi
  rw [ha, hb, if_neg Bool.false_ne_true, if_pos rfl] at hset
  unfold Conserved at *
  omega

/-- A party comes that has none. -/
theorem join (h : Conserved holds n left l) (hb : holds b = false) :
    Conserved holds n left (l ++ [b]) := by
  unfold Conserved at *
  rw [List.countP_append, List.countP_singleton, hb, if_neg Bool.false_ne_true, Nat.add_zero]
  exact h

/-- **No more parties hold a permit than there are permits.** -/
theorem holders_le (h : Conserved holds n left l) : l.countP holds ≤ n := by
  unfold Conserved at h
  omega

end Conserved

end Permits
