/-
A list of work that is taken a batch at a time.

The last `size` items are taken. If they succeed they are done; if they fail they go back to
where they were taken from, so that the next batch is the same one again. A log lists the
batches that were taken, each with its outcome, and `Follows` says of a log that it began with
a given list. It says nothing of what comes after the list is empty.

Whatever fails, the successful batches and what is left are the list (`Follows.perm`), and what
is left depends only on how many batches succeeded.
-/
import Mathlib.Data.List.TakeDrop
import Mathlib.Data.List.Perm.Basic

set_option autoImplicit false

namespace WorkList

variable {α : Type*}

/-- What is taken next, -/
def batch (size : ℕ) (l : List α) : List α := l.drop (l.length - size)

/-- and what is left then. -/
def rest (size : ℕ) (l : List α) : List α := l.take (l.length - size)

theorem rest_append_batch (size : ℕ) (l : List α) : rest size l ++ batch size l = l :=
  List.take_append_drop _ l

theorem batch_map {β : Type*} (f : α → β) (size : ℕ) (l : List α) :
    batch size (l.map f) = (batch size l).map f := by
  rw [batch, batch, List.length_map, List.map_drop]

/-- Only an empty list has an empty batch. -/
theorem batch_eq_nil {size : ℕ} {l : List α} (hsize : 0 < size) (h : batch size l = []) :
    l = [] := by
  rw [batch, List.drop_eq_nil_iff] at h
  exact List.length_eq_zero_iff.mp (by omega)

theorem rest_length (size : ℕ) (l : List α) : (rest size l).length = l.length - size := by
  rw [rest, List.length_take]
  omega

/-- How many batches succeeded, -/
def successes (log : List (List α × Bool)) : ℕ := log.countP Prod.snd

/-- and the items in them. -/
def done (log : List (List α × Bool)) : List α := (log.filter Prod.snd).flatMap Prod.fst

@[simp] theorem successes_nil : successes ([] : List (List α × Bool)) = 0 := rfl

@[simp] theorem done_nil : done ([] : List (List α × Bool)) = [] := rfl

theorem successes_cons (t : List α × Bool) (log : List (List α × Bool)) :
    successes (t :: log) = successes log + if t.2 then 1 else 0 := List.countP_cons

theorem done_cons (t : List α × Bool) (log : List (List α × Bool)) :
    done (t :: log) = (if t.2 then t.1 else []) ++ done log := by
  unfold done
  cases h : t.2 with
  | false => simp [h]
  | true => simp [h]

theorem done_of_successes {log : List (List α × Bool)} (h : successes log = 0) : done log = [] := by
  have hnone : log.filter Prod.snd = [] := by
    rw [List.filter_eq_nil_iff]
    exact List.countP_eq_zero.mp h
  rw [done, hnone, List.flatMap_nil]

/-- Where nothing fails, all that was taken is done. -/
theorem of_all_succeed {log : List (List α × Bool)} (h : ∀ t ∈ log, t.2 = true) :
    successes log = log.length ∧ done log = log.flatMap Prod.fst := by
  refine ⟨List.countP_eq_length.mpr h, ?_⟩
  rw [done, List.filter_eq_self.mpr h]

/-- How many batches a list is. -/
def rounds (size n : ℕ) : ℕ := (n + size - 1) / size

/-- They are as many as it takes. -/
theorem lt_rounds_iff {size n k : ℕ} (hsize : 0 < size) : k < rounds size n ↔ k * size < n := by
  rw [rounds, ← Nat.succ_le_iff, Nat.le_div_iff_mul_le hsize, Nat.succ_mul]
  omega

/-- What is left of a list after some successes. -/
def left (size : ℕ) (l : List α) (k : ℕ) : List α := l.take (l.length - k * size)

theorem left_map {β : Type*} (f : α → β) (size : ℕ) (l : List α) (k : ℕ) :
    left size (l.map f) k = (left size l k).map f := by
  rw [left, left, List.length_map, List.map_take]

@[simp] theorem left_zero (size : ℕ) (l : List α) : left size l 0 = l := by
  rw [left, Nat.zero_mul, Nat.sub_zero, List.take_length]

theorem left_length (size : ℕ) (l : List α) (k : ℕ) :
    (left size l k).length = l.length - k * size := by
  rw [left, List.length_take]
  omega

/-- One success more takes one batch. -/
theorem left_rest (size : ℕ) (l : List α) (k : ℕ) :
    left size (rest size l) k = left size l (k + 1) := by
  rw [left, rest_length, rest, left, List.take_take]
  congr 1
  rw [Nat.succ_mul]
  omega

theorem left_succ (size : ℕ) (l : List α) (k : ℕ) :
    rest size (left size l k) = left size l (k + 1) := by
  rw [rest, left_length, left, left, List.take_take]
  congr 1
  rw [Nat.succ_mul]
  omega

/-- A log that began with a list. -/
def Follows (size : ℕ) : List α → List (List α × Bool) → Prop
  | _, [] => True
  | l, t :: log =>
    l = [] ∨ (t.1 = batch size l ∧ Follows size (if t.2 then rest size l else l) log)

namespace Follows

variable {size : ℕ} {l : List α} {log : List (List α × Bool)}

theorem of_nil : Follows size ([] : List α) log := by
  cases log with
  | nil => trivial
  | cons t log => exact .inl rfl

/-- A log up to some point began with the same list. -/
theorem append_left {more : List (List α × Bool)} (h : Follows size l (log ++ more)) :
    Follows size l log := by
  induction log generalizing l with
  | nil => trivial
  | cons t log ih => exact h.imp_right fun h => ⟨h.1, ih h.2⟩

/-- A log goes on with what is left. -/
theorem concat (h : Follows size l log) {t : List α × Bool}
    (ht : successes log * size < l.length → t.1 = batch size (left size l (successes log))) :
    Follows size l (log ++ [t]) := by
  induction log generalizing l with
  | nil =>
    by_cases hl : l = []
    · exact .inl hl
    · refine .inr ⟨?_, trivial⟩
      have hpos := List.length_pos_iff.mpr hl
      simpa using ht (by simpa using hpos)
  | cons u log ih =>
    obtain hl | ⟨hu, hrest⟩ := h
    · exact .inl hl
    · refine .inr ⟨hu, ih hrest ?_⟩
      rw [successes_cons] at ht
      cases hok : u.2 with
      -- After a failure the list is the same, and so is the number of successes.
      | false =>
        rw [hok] at ht
        exact ht
      -- After a success both are one batch further, so what is left is the same.
      | true =>
        rw [hok, if_pos rfl] at ht
        rw [if_pos rfl, rest_length, left_rest]
        intro hlt
        exact ht (by rw [Nat.succ_mul]; omega)

/-- **The batch taken next** depends on the successes only. -/
theorem next {t : List α × Bool} {more : List (List α × Bool)}
    (h : Follows size l (log ++ t :: more)) (hlt : successes log * size < l.length) :
    t.1 = batch size (left size l (successes log)) := by
  induction log generalizing l with
  | nil =>
    obtain hl | ⟨ht, -⟩ := h
    · rw [hl] at hlt
      exact absurd hlt (Nat.not_lt_zero _)
    · simpa using ht
  | cons u log ih =>
    obtain hl | ⟨-, hrest⟩ := h
    · rw [hl] at hlt
      exact absurd hlt (Nat.not_lt_zero _)
    · rw [successes_cons] at hlt ⊢
      have hu := ih hrest
      cases hok : u.2 with
      | false =>
        rw [hok] at hu hlt
        exact hu hlt
      | true =>
        rw [hok, if_pos rfl] at hu hlt
        rw [if_pos rfl, ← left_rest]
        refine hu ?_
        rw [rest_length]
        rw [Nat.succ_mul] at hlt
        omega

/-- **A batch that failed is the next one.** -/
theorem again {t u : List α × Bool} {more : List (List α × Bool)}
    (h : Follows size l (log ++ t :: u :: more)) (hlt : successes log * size < l.length)
    (hfailed : t.2 = false) : u.1 = t.1 := by
  have hsame : successes (log ++ [t]) = successes log := by
    rw [successes, List.countP_append, List.countP_singleton, hfailed]
    rfl
  have hu : Follows size l ((log ++ [t]) ++ u :: more) := by
    rw [List.append_assoc]
    exact h
  rw [hu.next (by rw [hsame]; exact hlt), hsame, h.next hlt]

/-- **Nothing is lost, and nothing done twice**: what is done and what is left are the list. -/
theorem perm (h : Follows size l log) (hle : ∀ k < successes log, k * size < l.length) :
    (done log ++ left size l (successes log)).Perm l := by
  induction log generalizing l with
  | nil =>
    rw [done_nil, successes_nil, left_zero]
    exact List.Perm.refl l
  | cons t log ih =>
    obtain hl | ⟨ht, hrest⟩ := h
    · -- An empty list has no successes.
      have hzero : successes (t :: log) = 0 := by
        by_contra hpos
        have hlt := hle 0 (Nat.pos_of_ne_zero hpos)
        rw [hl] at hlt
        exact Nat.not_lt_zero _ hlt
      rw [hzero, done_of_successes hzero, left_zero]
      exact List.Perm.refl l
    · rw [successes_cons] at hle
      rw [done_cons, successes_cons]
      cases hok : t.2 with
      | false =>
        rw [hok] at hrest hle
        exact ih hrest hle
      -- What is done of the rest, and the batch, are the whole of the list again.
      | true =>
        rw [hok, if_pos rfl] at hrest hle
        have hle' : ∀ k < successes log, k * size < (rest size l).length := by
          intro k hk
          have hlt := hle (k + 1) (Nat.succ_lt_succ hk)
          rw [Nat.succ_mul] at hlt
          rw [rest_length]
          omega
        rw [if_pos rfl, if_pos rfl, ← left_rest, List.append_assoc, ht]
        have hperm := (ih hrest hle').append_left (batch size l)
        have hback := hperm.trans List.perm_append_comm
        rwa [rest_append_batch] at hback

end Follows

end WorkList
