/-
The first element of a list that passes a test, found by other means than going through
the list.

`Least P best` says that `best` is the least number with `P`, or that there is none. A
search that keeps the least position seen so far computes it (`least_scan`,
`least_foldl`), and it is the position `List.find?` stops at (`find?_of_least`).

Where the list is sorted, what `find?` returns does not depend on how ties were broken,
as long as no two elements that pass are tied (`find?_eq_of_perm`).
-/
import Mathlib.Data.List.Basic
import Mathlib.Order.Basic

set_option autoImplicit false

namespace FirstMatch

/-! ## The least position -/

/-- `best` is the least number with `P`, if any number has it. -/
def Least (P : ℕ → Prop) : Option ℕ → Prop
  | none => ∀ i, ¬ P i
  | some p => P p ∧ ∀ i, P i → p ≤ i

theorem least_congr {P Q : ℕ → Prop} (h : ∀ i, P i ↔ Q i) (best : Option ℕ) :
    Least P best ↔ Least Q best := by
  rw [show P = Q from funext fun i => propext (h i)]

/-- Look through positions in ascending order for one that passes and improves on `best`;
the first that cannot improve on it ends the search. -/
def scan (ok : ℕ → Bool) : List ℕ → Option ℕ → Option ℕ
  | [], best => best
  | i :: rest, best =>
    if best.any fun b => b ≤ i then best
    else if ok i then some i
    else scan ok rest best

/-- A scan of ascending positions takes them into account, all of them. -/
theorem least_scan {ok : ℕ → Bool} {positions : List ℕ} (hasc : positions.Pairwise (· < ·))
    {P : ℕ → Prop} {best : Option ℕ} (hbest : Least P best) :
    Least (fun i => P i ∨ (i ∈ positions ∧ ok i = true)) (scan ok positions best) := by
  induction positions with
  | nil => simpa [scan] using hbest
  | cons i rest ih =>
    obtain ⟨hi, hrest⟩ := List.pairwise_cons.mp hasc
    rw [scan]
    split
    · -- every remaining position is at least as far as the best one
      rename_i hstop
      obtain ⟨b, rfl, hle⟩ : ∃ b, best = some b ∧ b ≤ i := by
        cases best with
        | none => cases hstop
        | some b => exact ⟨b, rfl, by simpa using hstop⟩
      refine ⟨.inl hbest.1, ?_⟩
      intro j hj
      rcases hj with hj | ⟨hj, -⟩
      · exact hbest.2 j hj
      · rcases List.mem_cons.mp hj with rfl | hj
        · exact hle
        · exact Nat.le_trans hle (Nat.le_of_lt (hi j hj))
    · rename_i hgo
      split
      · rename_i hok
        refine ⟨.inr ⟨List.mem_cons_self, hok⟩, ?_⟩
        intro j hj
        rcases hj with hj | ⟨hj, -⟩
        · cases best with
          | none => exact absurd hj (hbest j)
          | some b =>
            have hlt : i < b := by simpa using hgo
            exact Nat.le_trans (Nat.le_of_lt hlt) (hbest.2 j hj)
        · rcases List.mem_cons.mp hj with rfl | hj
          · exact Nat.le_refl _
          · exact Nat.le_of_lt (hi j hj)
      · rename_i hok
        -- `i` does not pass, so it may be dropped from the list.
        refine (least_congr (fun j => or_congr_right ?_) _).mp (ih hrest)
        rw [List.mem_cons]
        constructor
        · rintro ⟨hj, h⟩
          exact ⟨.inr hj, h⟩
        · rintro ⟨rfl | hj, h⟩
          · exact absurd h hok
          · exact ⟨hj, h⟩

/-- Searches over several lists of positions, one after the other. -/
theorem least_foldl {α : Type*} {visit : Option ℕ → α → Option ℕ} {Q : α → ℕ → Prop}
    {l : List α}
    (hvisit : ∀ a ∈ l, ∀ P best, Least P best → Least (fun i => P i ∨ Q a i) (visit best a))
    {P : ℕ → Prop} {best : Option ℕ} (hbest : Least P best) :
    Least (fun i => P i ∨ ∃ a ∈ l, Q a i) (l.foldl visit best) := by
  induction l generalizing P best with
  | nil => simpa using hbest
  | cons a l ih =>
    have hrest := ih (fun b hb => hvisit b (List.mem_cons_of_mem a hb))
      (hvisit a List.mem_cons_self P best hbest)
    refine (least_congr ?_ _).mp hrest
    intro i
    rw [or_assoc]
    exact or_congr_right (by simp)

/-- The least position of an element that passes is where `find?` stops. -/
theorem find?_of_least {α : Type*} {l : List α} {p : α → Bool} {best : Option ℕ}
    (h : Least (fun i => ∃ a, l[i]? = some a ∧ p a = true) best) :
    (best.bind fun i => l[i]?) = l.find? p := by
  cases best with
  | none =>
    refine (List.find?_eq_none.mpr fun a ha hp => ?_).symm
    obtain ⟨i, hi⟩ := List.getElem?_of_mem ha
    exact h i ⟨a, hi, hp⟩
  | some i =>
    obtain ⟨⟨a, ha, hp⟩, hmin⟩ := h
    rw [Option.bind_some, ha]
    obtain ⟨hi, rfl⟩ := List.getElem?_eq_some_iff.mp ha
    refine (List.find?_eq_some_iff_getElem.mpr ⟨hp, i, hi, rfl, fun j hj => ?_⟩).symm
    rw [Bool.not_eq_true']
    -- An earlier element that passes would be less than the least.
    by_contra hpj
    have hle := hmin j ⟨l[j], List.getElem?_eq_getElem (Nat.lt_trans hj hi), by simpa using hpj⟩
    exact absurd hj (Nat.not_lt.mpr hle)

/-! ## Sorted lists -/

/-- **Ties do not matter.** Two sorted arrangements of one collection have the same first
element that passes, if of any two that pass one comes strictly first. -/
theorem find?_eq_of_perm {α : Type*} {r : α → α → Prop} {l l' : List α} (hperm : l.Perm l')
    (hl : l.Pairwise r) (hl' : l'.Pairwise r) {p : α → Bool}
    (htie : ∀ a ∈ l, ∀ b ∈ l, p a = true → p b = true → r a b → r b a → a = b) :
    l.find? p = l'.find? p := by
  have hfilter := hperm.filter p
  have hmem : ∀ {a}, a ∈ l.filter p → a ∈ l ∧ p a = true := fun h => List.mem_filter.mp h
  -- What passes is sorted the same way in both, and no two of it are tied.
  have heq : l.filter p = l'.filter p :=
    hfilter.eq_of_pairwise (fun a b ha hb hab hba =>
      htie a (hmem ha).1 b (hmem (hfilter.mem_iff.mpr hb)).1 (hmem ha).2
        (hmem (hfilter.mem_iff.mpr hb)).2 hab hba) (hl.filter p) (hl'.filter p)
  rw [← List.head?_filter, ← List.head?_filter, heq]

end FirstMatch
