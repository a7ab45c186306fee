/-
Texts with holes, and the marks that stand for them.

Nothing here is about a particular program. An outline is a text with some places left open, and
`put` writes something into each of them: marks that are numbered, or the values that the marks
stand for. To find the marks again by a search, a mark must not be seen where none was put. It is
enough that all marks begin with one word that the outline does not have and that does not
overlap itself (`Unbordered`): the first mark that is seen is then the first that was put
(`Signed.le_length`), and by its number it is no other (`Signed.eq_of_append`).
-/
import Mathlib.Data.List.Infix

set_option autoImplicit false

namespace Markers

variable {α : Type*}

/-! ## Outlines -/

/-- An outline with the `n`-th text, and those that follow it, written into its holes. -/
def put (f : ℕ → List α) : ℕ → List (Option α) → List α
  | _, [] => []
  | n, some c :: o => c :: put f n o
  | n, none :: o => f n ++ put f (n + 1) o

/-- How many holes there are. -/
def holes (o : List (Option α)) : ℕ := o.countP Option.isNone

@[simp] theorem put_nil (f : ℕ → List α) (n : ℕ) : put f n [] = [] := rfl

@[simp] theorem put_some (f : ℕ → List α) (n : ℕ) (c : α) (o : List (Option α)) :
    put f n (some c :: o) = c :: put f n o := rfl

@[simp] theorem put_none (f : ℕ → List α) (n : ℕ) (o : List (Option α)) :
    put f n (none :: o) = f n ++ put f (n + 1) o := rfl

@[simp] theorem holes_nil : holes ([] : List (Option α)) = 0 := rfl

@[simp] theorem holes_some (c : α) (o : List (Option α)) : holes (some c :: o) = holes o := by
  simp [holes]

@[simp] theorem holes_none (o : List (Option α)) :
    holes ((none : Option α) :: o) = holes o + 1 := by
  simp [holes]

theorem holes_append (o o' : List (Option α)) : holes (o ++ o') = holes o + holes o' :=
  List.countP_append

@[simp] theorem holes_map_some (l : List α) : holes (l.map some) = 0 := by
  simp [holes]

theorem put_append (f : ℕ → List α) (n : ℕ) (o o' : List (Option α)) :
    put f n (o ++ o') = put f n o ++ put f (n + holes o) o' := by
  induction o generalizing n with
  | nil => rfl
  | cons c o ih =>
    cases c with
    | some c =>
      rw [List.cons_append, put_some, put_some, ih, holes_some, List.cons_append]
    | none =>
      rw [List.cons_append, put_none, put_none, ih, holes_none, List.append_assoc, Nat.add_assoc,
        Nat.add_comm 1]

@[simp] theorem put_map_some (f : ℕ → List α) (n : ℕ) (l : List α) : put f n (l.map some) = l := by
  induction l with
  | nil => rfl
  | cons c l ih => rw [List.map_cons, put_some, ih]

/-- A text up to a hole, what is put into it, and the rest. -/
theorem put_cut (f : ℕ → List α) (n : ℕ) (l : List α) (o : List (Option α)) :
    put f n (l.map some ++ none :: o) = l ++ (f n ++ put f (n + 1) o) := by
  rw [put_append, put_map_some, holes_map_some, Nat.add_zero, put_none]

/-- Only what is put into a hole matters. -/
theorem put_congr {f g : ℕ → List α} {n : ℕ} {o : List (Option α)}
    (h : ∀ i, n ≤ i → i < n + holes o → f i = g i) : put f n o = put g n o := by
  induction o generalizing n with
  | nil => rfl
  | cons c o ih =>
    cases c with
    | some c =>
      rw [put_some, put_some, ih]
      intro i hi hlt
      exact h i hi (by rwa [holes_some])
    | none =>
      rw [holes_none] at h
      rw [put_none, put_none, h n (Nat.le_refl n) (by omega), ih]
      intro i hi hlt
      exact h i (by omega) (by omega)

/-- An outline is a text, up to its first hole if it has one. -/
theorem cut (o : List (Option α)) :
    (∃ l : List α, o = l.map some) ∨ ∃ (l : List α) (o' : List (Option α)),
      o = l.map some ++ none :: o' := by
  induction o with
  | nil => exact .inl ⟨[], rfl⟩
  | cons c o ih =>
    cases c with
    | none => exact .inr ⟨[], o, rfl⟩
    | some c =>
      obtain ⟨l, rfl⟩ | ⟨l, o', rfl⟩ := ih
      · exact .inl ⟨c :: l, rfl⟩
      · exact .inr ⟨c :: l, o', rfl⟩

/-! ## Marks -/

/-- No end of the word is a beginning of it, but for the whole. -/
def Unbordered (w : List α) : Prop := ∀ u v, w = u ++ v → u ≠ [] → v ≠ [] → ¬ v <+: w

/-- Marks that begin with one word, and are told apart by what follows it. -/
structure Signed (w : List α) (marker : ℕ → List α) : Prop where
  ne_nil : w ≠ []
  unbordered : Unbordered w
  begins : ∀ n, w <+: marker n
  eq_of_append : ∀ m n a b, marker m ++ a = marker n ++ b → m = n

section

variable {w : List α} {marker : ℕ → List α}

/-- **A mark is not seen before it.** Where the text up to a mark does not have the word, the
word begins nowhere in it. -/
theorem Signed.not_prefix (h : Signed w marker) {l : List α} (hl : l ≠ []) (hw : ¬ w <:+: l)
    (n : ℕ) (rest : List α) : ¬ w <+: l ++ (marker n ++ rest) := by
  intro hpre
  obtain ⟨tail, htail⟩ := h.begins n
  by_cases hlen : w.length ≤ l.length
  · exact hw (List.prefix_of_prefix_length_le hpre (List.prefix_append l _) hlen).isInfix
  · -- The word would begin in the text and end in the mark, and so overlap itself.
    obtain ⟨v, hv⟩ := List.prefix_of_prefix_length_le (List.prefix_append l _) hpre
      (Nat.le_of_lt (Nat.lt_of_not_le hlen))
    have hvne : v ≠ [] := by
      rintro rfl
      rw [List.append_nil] at hv
      rw [hv] at hlen
      exact hlen (Nat.le_refl _)
    refine h.unbordered l v hv.symm hl hvne ?_
    rw [← hv, List.prefix_append_right_inj, ← htail, List.append_assoc] at hpre
    refine List.prefix_of_prefix_length_le hpre (List.prefix_append w _) ?_
    rw [← hv, List.length_append]
    omega

/-- So the first place where a mark is seen is where the first was put. -/
theorem Signed.le_length (h : Signed w marker) {l : List α} (hw : ¬ w <:+: l) {m n : ℕ}
    {before after rest : List α}
    (heq : before ++ (marker m ++ after) = l ++ (marker n ++ rest)) : l.length ≤ before.length := by
  by_contra hlt
  have hle : before.length ≤ l.length := Nat.le_of_lt (Nat.lt_of_not_le hlt)
  obtain ⟨l', rfl⟩ := List.prefix_of_prefix_length_le (List.prefix_append before _)
    (heq ▸ List.prefix_append l _) hle
  rw [List.append_assoc, List.append_cancel_left_eq] at heq
  have hl' : l' ≠ [] := by
    rintro rfl
    rw [List.append_nil] at hlt
    exact hlt (Nat.le_refl _)
  refine h.not_prefix hl' (fun hin => hw (hin.trans (List.suffix_append _ _).isInfix)) n rest ?_
  rw [← heq]
  exact (h.begins m).trans (List.prefix_append _ _)

/-- And it is that mark. -/
theorem Signed.eq_of_length (h : Signed w marker) {l before after rest : List α} {m n : ℕ}
    (heq : before ++ (marker m ++ after) = l ++ (marker n ++ rest))
    (hlen : before.length = l.length) : before = l ∧ m = n ∧ after = rest := by
  obtain ⟨hbefore, hrest⟩ := List.append_inj heq hlen
  have hmn := h.eq_of_append m n after rest hrest
  subst hmn
  exact ⟨hbefore, rfl, List.append_cancel_left hrest⟩

/-- A text without the word has no mark. -/
theorem Signed.absent (h : Signed w marker) {l : List α} (hw : ¬ w <:+: l) (n : ℕ) :
    ¬ marker n <:+: l := by
  intro hin
  exact hw ((h.begins n).isInfix.trans hin)

end

end Markers
