/-
Which name an error suggests in place of an unknown one (`edit_distance` and `did_you_mean`,
`config/mod.rs`).

`edit_distance` keeps one row of a table: for what it has read of the first text, the distances to
all beginnings of the second (`RowFrom`). The row is an invariant of the loop over the first text,
and within it `edit_row` is a loop over the second that fills the row from the one above
(`rowFrom_cons`). So the last entry at the end is the least number of edits
(`edit_distance_least`), and the name suggested is the first of those that are the fewest edits
away, if they are few enough (`did_you_mean_eq_some`).
-/
import Lagos.Config
import Lagos.Lib.EditDistance

set_option autoImplicit false

open RustStd EditDistance

namespace Lagos.Config

/-! ## The rows -/

/-- A row of the table, from the column of `v` on: the distances from `u` to `v`, and to `v` with
ever more of `w` behind it. -/
def RowFrom (u v : Str) : Str → List ℕ → Prop
  | [], row => ∃ n, row = [n] ∧ Least n u v
  | b :: w, row => ∃ n rest, row = n :: rest ∧ Least n u v ∧ RowFrom u (v ++ [b]) w rest

theorem RowFrom.head {u v w : Str} {row : List ℕ} (h : RowFrom u v w row) :
    ∃ n rest, row = n :: rest ∧ Least n u v := by
  cases w with
  | nil =>
    obtain ⟨n, rfl, hn⟩ := h
    exact ⟨n, [], rfl, hn⟩
  | cons b w =>
    obtain ⟨n, rest, rfl, hn, -⟩ := h
    exact ⟨n, rest, rfl, hn⟩

/-- The first row: from nothing all is inserted. -/
theorem rowFrom_nil (v w : Str) : RowFrom [] v w (List.range' v.length (w.length + 1)) := by
  induction w generalizing v with
  | nil => exact ⟨v.length, rfl, least_nil_left v⟩
  | cons b w ih =>
    have hrest := ih (v ++ [b])
    rw [List.length_append, List.length_singleton] at hrest
    exact ⟨v.length, _, rfl, least_nil_left v, hrest⟩

/-- One row from the row above. -/
theorem rowFrom_cons {u v w : Str} {prev : List ℕ} {left : ℕ} {c : Char}
    (hprev : RowFrom u v w prev) (hleft : Least left (u ++ [c]) v) :
    RowFrom (u ++ [c]) v w (left :: edit_row c w prev left) := by
  induction w generalizing v prev left with
  | nil =>
    obtain ⟨n, rfl, -⟩ := hprev
    exact ⟨left, by simp [edit_row], hleft⟩
  | cons b w ih =>
    obtain ⟨substitute, rest, rfl, hsubstitute, hrest⟩ := hprev
    obtain ⟨delete, prev, rfl, hdelete⟩ := hrest.head
    -- The entry that `edit_row` writes next, and the rest of the row behind it.
    have hhere := least_append_singleton hsubstitute hdelete hleft
    exact ⟨left, _, rfl, hleft, ih hrest hhere⟩

/-- What is at the end of a row. -/
theorem RowFrom.last {u v w : Str} {row : List ℕ} (h : RowFrom u v w row) :
    Least (row.getLast?.getD 0) u (v ++ w) := by
  induction w generalizing v row with
  | nil =>
    obtain ⟨n, rfl, hn⟩ := h
    simpa using hn
  | cons b w ih =>
    obtain ⟨n, rest, rfl, -, hrest⟩ := h
    have hlast := ih hrest
    obtain ⟨k, rest, rfl, -⟩ := hrest.head
    rw [List.getLast?_cons_cons]
    simpa using hlast

/-- The loop over the first text keeps a row. -/
theorem rowFrom_foldl (b u a : Str) {row : List ℕ} (h : RowFrom u [] b row) :
    RowFrom (u ++ a) [] b ((a.zipIdx u.length).foldl
      (fun prev (ca, i) => (i + 1) :: edit_row ca b prev (i + 1)) row) := by
  induction a generalizing u row with
  | nil => simpa using h
  | cons c a ih =>
    have hleft : Least (u.length + 1) (u ++ [c]) [] := by
      simpa using least_nil_right (u ++ [c])
    have hnext := ih (u ++ [c]) (rowFrom_cons h hleft)
    rw [List.zipIdx_cons, List.foldl_cons]
    simpa using hnext

/-- **`edit_distance` is the least number of edits.** -/
theorem edit_distance_eq_least (a b : Str) : Least (edit_distance a b) a b := by
  have hfirst : RowFrom [] [] b (List.range (b.length + 1)) := by
    rw [List.range_eq_range']
    exact rowFrom_nil [] b
  exact (rowFrom_foldl b [] a hfirst).last

/-! ## The suggestion -/

/-- A known name is `n` edits from a name, and that is close enough to be a typo of it. -/
def Near (name k : Str) (n : ℕ) : Prop :=
  Least n name k ∧ len k ≤ 64 ∧ n ≤ min 3 (max (len k) (len name) / 2 + 1)

/-- What `did_you_mean` keeps of the known names. -/
def is_near (name k : Str) : Bool :=
  len k ≤ 64 ∧ edit_distance name k ≤ min 3 (max (len k) (len name) / 2 + 1)

theorem near_iff {name k : Str} {n : ℕ} :
    Near name k n ↔ is_near name k = true ∧ n = edit_distance name k := by
  unfold Near is_near
  rw [decide_eq_true_iff]
  constructor
  · rintro ⟨hleast, hlen, hclose⟩
    obtain rfl := hleast.unique (edit_distance_eq_least name k)
    exact ⟨⟨hlen, hclose⟩, rfl⟩
  · rintro ⟨⟨hlen, hclose⟩, rfl⟩
    exact ⟨edit_distance_eq_least name k, hlen, hclose⟩

section Least

variable {α : Type} {f : α → ℕ} {l pre post : List α} {x : α}

/-- A least one of a list has none before it that is as little, -/
theorem split_of_minOn? (h : l.minOn? f = some x) :
    ∃ pre post, l = pre ++ x :: post ∧ (∀ y ∈ pre, f x < f y) ∧ ∀ y ∈ post, f x ≤ f y := by
  induction l generalizing x with
  | nil => cases h
  | cons a l ih =>
    rw [List.minOn?_cons, Option.some.injEq] at h
    cases hrest : l.minOn? f with
    | none =>
      have hnil : l = [] := by
        by_contra hne
        have hsome := (List.isSome_minOn?_iff (f := f)).mpr hne
        rw [hrest] at hsome
        cases hsome
      rw [hrest] at h
      cases h
      exact ⟨[], [], by rw [hnil]; rfl, by simp, by simp⟩
    | some b =>
      obtain ⟨pre, post, rfl, hpre, hpost⟩ := ih hrest
      rw [hrest, Option.elim_some] at h
      by_cases hle : f a ≤ f b
      · rw [minOn_eq_left hle] at h
        subst h
        refine ⟨[], _, rfl, by simp, fun y hy => ?_⟩
        obtain hy | rfl | hy := List.mem_append.mp hy |>.imp_right List.mem_cons.mp
        · exact hle.trans (hpre y hy).le
        · exact hle
        · exact hle.trans (hpost y hy)
      · rw [minOn_eq_right hle] at h
        subst h
        refine ⟨a :: pre, post, rfl, fun y hy => ?_, hpost⟩
        obtain rfl | hy := List.mem_cons.mp hy
        · exact Nat.lt_of_not_le hle
        · exact hpre y hy

/-- and there is no other such. -/
theorem minOn?_of_split (hpre : ∀ y ∈ pre, f x < f y) (hpost : ∀ y ∈ post, f x ≤ f y) :
    (pre ++ x :: post).minOn? f = some x := by
  induction pre with
  | nil =>
    rw [List.nil_append, List.minOn?_cons]
    cases hrest : post.minOn? f with
    | none => rfl
    | some b => rw [Option.elim_some, minOn_eq_left (hpost b (List.minOn?_mem hrest))]
  | cons a pre ih =>
    have hlater := ih fun y hy => hpre y (List.mem_cons_of_mem a hy)
    rw [List.cons_append, List.minOn?_cons, hlater, Option.elim_some,
      minOn_eq_right (Nat.not_le.mpr (hpre a List.mem_cons_self))]

end Least

/-- **The name that is suggested** is near, and of the near ones it is the first that is the fewest
edits away. -/
theorem did_you_mean_eq_some (name : Str) (known : List Str) (k : Str) :
    did_you_mean name known = some k ↔ len name ≤ 64 ∧ ∃ pre post n, known = pre ++ k :: post
      ∧ Near name k n ∧ (∀ k' ∈ pre, ∀ m, Near name k' m → n < m)
      ∧ ∀ k' ∈ post, ∀ m, Near name k' m → n ≤ m := by
  unfold did_you_mean
  by_cases hlong : len name > 64
  · rw [if_pos hlong]
    exact iff_of_false (by simp) fun h => absurd h.1 (Nat.not_le.mpr hlong)
  rw [if_neg hlong, and_iff_right (Nat.le_of_not_lt hlong)]
  change (known.filter (is_near name)).minOn? (edit_distance name) = some k ↔ _
  constructor
  · intro h
    obtain ⟨pre', post', hsplit, hpre, hpost⟩ := split_of_minOn? h
    obtain ⟨pre, rest, rfl, hpre', hrest⟩ := List.filter_eq_append_iff.mp hsplit
    obtain ⟨skipped, post, rfl, hskipped, hnear, hpost'⟩ := List.filter_eq_cons_iff.mp hrest
    refine ⟨pre ++ skipped, post, edit_distance name k, by simp, near_iff.mpr ⟨hnear, rfl⟩,
      fun k' hk' m hm => ?_, fun k' hk' m hm => ?_⟩
    · obtain ⟨hnear', rfl⟩ := near_iff.mp hm
      obtain hk' | hk' := List.mem_append.mp hk'
      · exact hpre k' (hpre' ▸ List.mem_filter.mpr ⟨hk', hnear'⟩)
      · exact absurd hnear' (hskipped k' hk')
    · obtain ⟨hnear', rfl⟩ := near_iff.mp hm
      exact hpost k' (hpost' ▸ List.mem_filter.mpr ⟨hk', hnear'⟩)
  · rintro ⟨pre, post, n, rfl, hn, hpre, hpost⟩
    obtain ⟨hnear, rfl⟩ := near_iff.mp hn
    rw [List.filter_append, List.filter_cons_of_pos hnear]
    refine minOn?_of_split (fun k' hk' => ?_) fun k' hk' => ?_
    · obtain ⟨hmem, hnear'⟩ := List.mem_filter.mp hk'
      exact hpre k' hmem _ (near_iff.mpr ⟨hnear', rfl⟩)
    · obtain ⟨hmem, hnear'⟩ := List.mem_filter.mp hk'
      exact hpost k' hmem _ (near_iff.mpr ⟨hnear', rfl⟩)

end Lagos.Config
