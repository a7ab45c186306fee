/-
The least number of edits that turn one list into another.

An edit puts one element anywhere into a list, takes one out, or puts another in its place.
`Reaches n as bs` is a chain of `n` of them. An alignment goes through both lists once, from the
front, and counts what it does not keep (`Aligned`); it is the shape that a table is filled in.
Every alignment is a chain, and a chain is an alignment that is no longer (`least_iff_aligned`), so the
least of the one is the least of the other. What the table is filled by are the four rules of
`Least`, for lists that grow at their ends.
-/
import Mathlib.Data.List.Basic
import Mathlib.Order.Bounds.Basic
import Mathlib.Order.MinMax
import Mathlib.Order.Nat

set_option autoImplicit false

namespace EditDistance

variable {α : Type*}

/-! ## Chains of edits -/

/-- One edit. -/
inductive Edit : List α → List α → Prop where
  | insert (u v : List α) (x : α) : Edit (u ++ v) (u ++ x :: v)
  | delete (u v : List α) (x : α) : Edit (u ++ x :: v) (u ++ v)
  | substitute (u v : List α) (x y : α) : Edit (u ++ x :: v) (u ++ y :: v)

/-- A number of edits, one after the other. -/
inductive Reaches : ℕ → List α → List α → Prop where
  | refl (as : List α) : Reaches 0 as as
  | step {n : ℕ} {as bs cs : List α} (h : Reaches n as bs) (hedit : Edit bs cs) :
      Reaches (n + 1) as cs

/-! ## Alignments -/

/-- A way through two lists, with the number of elements that are not kept. -/
inductive Aligned : ℕ → List α → List α → Prop where
  | nil : Aligned 0 [] []
  | keep {n : ℕ} {as bs : List α} (a : α) (h : Aligned n as bs) : Aligned n (a :: as) (a :: bs)
  | substitute {n : ℕ} {as bs : List α} (a b : α) (h : Aligned n as bs) :
      Aligned (n + 1) (a :: as) (b :: bs)
  | delete {n : ℕ} {as bs : List α} (a : α) (h : Aligned n as bs) : Aligned (n + 1) (a :: as) bs
  | insert {n : ℕ} {as bs : List α} (b : α) (h : Aligned n as bs) : Aligned (n + 1) as (b :: bs)

variable {n m : ℕ} {a b : α} {as bs cs u v : List α}

/-! ## Edits -/

theorem Edit.cons (h : Edit as bs) (a : α) : Edit (a :: as) (a :: bs) := by
  cases h with
  | insert u v x => exact .insert (a :: u) v x
  | delete u v x => exact .delete (a :: u) v x
  | substitute u v x y => exact .substitute (a :: u) v x y

/-- The edits of the empty list. -/
theorem Edit.of_nil (h : Edit [] cs) : ∃ x, cs = [x] := by
  generalize has : ([] : List α) = as at h
  cases h with
  | insert u v x =>
    obtain ⟨rfl, rfl⟩ := List.append_eq_nil_iff.mp has.symm
    exact ⟨x, rfl⟩
  | delete u v x => simp at has
  | substitute u v x y => simp at has

/-- An edit is made before the first element, to it, or behind it. -/
theorem Edit.of_cons (h : Edit (b :: bs) cs) :
    (∃ x, cs = x :: b :: bs) ∨ cs = bs ∨ (∃ y, cs = y :: bs) ∨ ∃ ds, cs = b :: ds ∧ Edit bs ds := by
  generalize has : b :: bs = as at h
  cases h with
  | insert u v x =>
    cases u with
    | nil =>
      obtain rfl : b :: bs = v := has
      exact .inl ⟨x, rfl⟩
    | cons d u =>
      cases has
      exact .inr (.inr (.inr ⟨_, rfl, .insert u v x⟩))
  | delete u v x =>
    cases u with
    | nil =>
      cases has
      exact .inr (.inl rfl)
    | cons d u =>
      cases has
      exact .inr (.inr (.inr ⟨_, rfl, .delete u v x⟩))
  | substitute u v x y =>
    cases u with
    | nil =>
      cases has
      exact .inr (.inr (.inl ⟨y, rfl⟩))
    | cons d u =>
      cases has
      exact .inr (.inr (.inr ⟨_, rfl, .substitute u v x y⟩))

theorem Reaches.cons (h : Reaches n as bs) (a : α) : Reaches n (a :: as) (a :: bs) := by
  induction h with
  | refl as => exact .refl _
  | step h hedit ih => exact ih.step (hedit.cons a)

/-- A chain may begin with an edit. -/
theorem Reaches.head (hedit : Edit as bs) (h : Reaches n bs cs) : Reaches (n + 1) as cs := by
  induction h with
  | refl bs => exact (Reaches.refl as).step hedit
  | step h hlast ih => exact (ih hedit).step hlast

/-! ## The two agree -/

/-- An alignment is a chain of edits. -/
theorem Aligned.reaches (h : Aligned n as bs) : Reaches n as bs := by
  induction h with
  | nil => exact .refl []
  | keep a h ih => exact ih.cons a
  | @substitute n as bs a b h ih => exact .head (.substitute [] as a b) (ih.cons b)
  | @delete n as bs a h ih => exact .head (.delete [] as a) ih
  | @insert n as bs b h ih => exact .head (.insert [] as b) (ih.cons b)

theorem aligned_refl (as : List α) : Aligned 0 as as := by
  induction as with
  | nil => exact .nil
  | cons a as ih => exact ih.keep a

/-- One more edit costs an alignment at most one. -/
theorem Aligned.edit (h : Aligned n as bs) (hedit : Edit bs cs) :
    ∃ m ≤ n + 1, Aligned m as cs := by
  induction h generalizing cs with
  | nil =>
    obtain ⟨x, rfl⟩ := hedit.of_nil
    exact ⟨1, le_rfl, Aligned.nil.insert x⟩
  | @keep n as bs a h ih =>
    obtain ⟨x, rfl⟩ | rfl | ⟨y, rfl⟩ | ⟨ds, rfl, hds⟩ := hedit.of_cons
    · exact ⟨n + 1, le_rfl, (h.keep a).insert x⟩
    · exact ⟨n + 1, le_rfl, h.delete a⟩
    · exact ⟨n + 1, le_rfl, h.substitute a y⟩
    · obtain ⟨m, hm, hrest⟩ := ih hds
      exact ⟨m, hm, hrest.keep a⟩
  | @substitute n as bs a b h ih =>
    obtain ⟨x, rfl⟩ | rfl | ⟨y, rfl⟩ | ⟨ds, rfl, hds⟩ := hedit.of_cons
    · exact ⟨n + 1 + 1, le_rfl, (h.substitute a b).insert x⟩
    · exact ⟨n + 1, Nat.le_succ _, h.delete a⟩
    · exact ⟨n + 1, Nat.le_succ _, h.substitute a y⟩
    · obtain ⟨m, hm, hrest⟩ := ih hds
      exact ⟨m + 1, Nat.succ_le_succ hm, hrest.substitute a b⟩
  | @delete n as bs a h ih =>
    obtain ⟨m, hm, hrest⟩ := ih hedit
    exact ⟨m + 1, Nat.succ_le_succ hm, hrest.delete a⟩
  | @insert n as bs b h ih =>
    obtain ⟨x, rfl⟩ | rfl | ⟨y, rfl⟩ | ⟨ds, rfl, hds⟩ := hedit.of_cons
    · exact ⟨n + 1 + 1, le_rfl, (h.insert b).insert x⟩
    · exact ⟨n, by omega, h⟩
    · exact ⟨n + 1, Nat.le_succ _, h.insert y⟩
    · obtain ⟨m, hm, hrest⟩ := ih hds
      exact ⟨m + 1, Nat.succ_le_succ hm, hrest.insert b⟩

/-- A chain of edits is an alignment that is no longer. -/
theorem Reaches.aligned (h : Reaches n as bs) : ∃ m ≤ n, Aligned m as bs := by
  induction h with
  | refl as => exact ⟨0, le_rfl, aligned_refl as⟩
  | step h hedit ih =>
    obtain ⟨m, hm, haligned⟩ := ih
    obtain ⟨k, hk, hnext⟩ := haligned.edit hedit
    exact ⟨k, by omega, hnext⟩

/-! ## The least number -/

/-- The least number of edits. -/
def Least (n : ℕ) (as bs : List α) : Prop := IsLeast {n | Reaches n as bs} n

/-- It is the least that an alignment has. -/
theorem least_iff_aligned : Least n as bs ↔ Aligned n as bs ∧ ∀ m, Aligned m as bs → n ≤ m := by
  constructor
  · rintro ⟨hreaches, hleast⟩
    obtain ⟨m, hm, haligned⟩ := Reaches.aligned hreaches
    have hn := hleast haligned.reaches
    obtain rfl : n = m := le_antisymm hn hm
    exact ⟨haligned, fun k hk => hleast hk.reaches⟩
  · rintro ⟨haligned, hleast⟩
    refine ⟨haligned.reaches, fun k hk => ?_⟩
    obtain ⟨m, hm, h⟩ := Reaches.aligned hk
    exact (hleast m h).trans hm

theorem Least.unique (h : Least n as bs) (h' : Least m as bs) : n = m := IsLeast.unique h h'

/-! ## Lists that grow at the end -/

theorem Aligned.append (h : Aligned n as bs) (h' : Aligned m u v) :
    Aligned (n + m) (as ++ u) (bs ++ v) := by
  induction h with
  | nil => simpa using h'
  | keep a h ih => exact ih.keep a
  | substitute a b h ih => exact Nat.add_right_comm _ 1 m ▸ ih.substitute a b
  | delete a h ih => exact Nat.add_right_comm _ 1 m ▸ ih.delete a
  | insert b h ih => exact Nat.add_right_comm _ 1 m ▸ ih.insert b

/-- Read from the back it is an alignment too. -/
theorem Aligned.reverse (h : Aligned n as bs) : Aligned n as.reverse bs.reverse := by
  induction h with
  | nil => exact .nil
  | keep a h ih => simpa using ih.append ((Aligned.nil).keep a)
  | substitute a b h ih => simpa using ih.append ((Aligned.nil).substitute a b)
  | delete a h ih => simpa using ih.append ((Aligned.nil).delete a)
  | insert b h ih => simpa using ih.append ((Aligned.nil).insert b)

/-- What an alignment does last. -/
theorem Aligned.last (h : Aligned n (u ++ [a]) (v ++ [b])) :
    (a = b ∧ Aligned n u v) ∨ (∃ m, n = m + 1 ∧ (Aligned m u v ∨ Aligned m u (v ++ [b])
      ∨ Aligned m (u ++ [a]) v)) := by
  have hback := h.reverse
  rw [List.reverse_append, List.reverse_append] at hback
  cases hback with
  | keep a h => exact .inl ⟨rfl, by simpa using h.reverse⟩
  | substitute a b h => exact .inr ⟨_, rfl, .inl (by simpa using h.reverse)⟩
  | delete a h => exact .inr ⟨_, rfl, .inr (.inl (by simpa using h.reverse))⟩
  | insert b h => exact .inr ⟨_, rfl, .inr (.inr (by simpa using h.reverse))⟩

/-- Out of nothing all is inserted. -/
theorem least_nil_left (bs : List α) : Least bs.length [] bs := by
  rw [least_iff_aligned]
  constructor
  · induction bs with
    | nil => exact .nil
    | cons b bs ih => exact ih.insert b
  · intro m h
    generalize has : ([] : List α) = as at h
    induction h with
    | nil => exact le_rfl
    | keep a h ih => cases has
    | substitute a b h ih => cases has
    | delete a h ih => cases has
    | insert b h ih => exact Nat.succ_le_succ (ih has)

theorem Aligned.symm (h : Aligned n as bs) : Aligned n bs as := by
  induction h with
  | nil => exact .nil
  | keep a h ih => exact ih.keep a
  | substitute a b h ih => exact ih.substitute b a
  | delete a h ih => exact ih.insert a
  | insert b h ih => exact ih.delete b

/-- Into nothing all is deleted. -/
theorem least_nil_right (as : List α) : Least as.length as [] := by
  have h := least_iff_aligned.mp (least_nil_left as)
  exact least_iff_aligned.mpr ⟨h.1.symm, fun m hm => h.2 m hm.symm⟩

/-- One more element on either side: the last of each is kept or substituted, or one of them is
deleted or inserted. -/
theorem least_append_singleton [DecidableEq α] {s d i : ℕ} (hs : Least s u v)
    (hd : Least d u (v ++ [b])) (hi : Least i (u ++ [a]) v) :
    Least (min (min (s + if a ≠ b then 1 else 0) (d + 1)) (i + 1)) (u ++ [a]) (v ++ [b]) := by
  obtain ⟨hs, hsl⟩ := least_iff_aligned.mp hs
  obtain ⟨hd, hdl⟩ := least_iff_aligned.mp hd
  obtain ⟨hi, hil⟩ := least_iff_aligned.mp hi
  rw [least_iff_aligned]
  constructor
  · have hsub : Aligned (s + if a ≠ b then 1 else 0) (u ++ [a]) (v ++ [b]) := by
      by_cases hab : a = b
      · subst hab
        simpa using hs.append ((Aligned.nil).keep a)
      · simpa [hab] using hs.append ((Aligned.nil).substitute a b)
    have hdel : Aligned (d + 1) (u ++ [a]) (v ++ [b]) := by
      simpa using hd.append ((Aligned.nil).delete a)
    have hins : Aligned (i + 1) (u ++ [a]) (v ++ [b]) := by
      simpa using hi.append ((Aligned.nil).insert b)
    rcases min_choice (min (s + if a ≠ b then 1 else 0) (d + 1)) (i + 1) with h | h <;> rw [h]
    · rcases min_choice (s + if a ≠ b then 1 else 0) (d + 1) with h | h <;> rw [h]
      · exact hsub
      · exact hdel
    · exact hins
  · intro m h
    obtain ⟨rfl, hkept⟩ | ⟨k, rfl, hsub | hdel | hins⟩ := h.last
    · have hle := hsl m hkept
      rw [if_neg (not_not_intro rfl)]
      omega
    · have hle := hsl k hsub
      split <;> omega
    · have hle := hdl k hdel
      omega
    · have hle := hil k hins
      omega

end EditDistance
