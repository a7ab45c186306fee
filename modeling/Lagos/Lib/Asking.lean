/-
Programs that put questions to the world around them, one after the other, and may fail.

A program is a function from a state of that world to a record of what it asked and was answered,
the state it left, and what it came to. So what was asked is there to be spoken about, also of a
program that failed, and the answers may depend on everything that was asked before.

Three things are said of programs, each with its rule for a sequence. `Passes` says what a program
that succeeded has asked. `Staged` says that the questions come in the order of a rank, each at
most once, whatever the answers are and however it ends. `Closed` says that an answer of a kind
is the last that a program hears, and that it fails then.
-/
import Mathlib.Data.List.Pairwise
import Mathlib.Data.Nat.Init
import Mathlib.Order.Defs.LinearOrder

set_option autoImplicit false

/-- A program: what it asks, the world it leaves, and what it comes to. -/
def Asking (σ Q ε α : Type) : Type := σ → List Q × σ × Except ε α

namespace Asking

variable {σ Q ε α β γ : Type}

/-! ## Programs -/

/-- What a program asks in a world. -/
def asked (x : Asking σ Q ε α) (s : σ) : List Q := (x s).1

/-- The world that it leaves. -/
def after (x : Asking σ Q ε α) (s : σ) : σ := (x s).2.1

/-- What it comes to. -/
def result (x : Asking σ Q ε α) (s : σ) : Except ε α := (x s).2.2

protected def pure (a : α) : Asking σ Q ε α := fun s => ([], s, .ok a)

protected def bind (x : Asking σ Q ε α) (f : α → Asking σ Q ε β) : Asking σ Q ε β := fun s =>
  match x s with
  | (qs, t, .ok a) => (qs ++ (f a t).1, (f a t).2)
  | (qs, t, .error e) => (qs, t, .error e)

instance : Monad (Asking σ Q ε) where
  pure := Asking.pure
  bind := Asking.bind

/-- A program that asks nothing. -/
def lift (r : Except ε α) : Asking σ Q ε α := fun s => ([], s, r)

/-- A program that fails at once. -/
def fail (e : ε) : Asking σ Q ε α := lift (.error e)

/-- One question, and the record of its answer. -/
def ask (record : α → Q) (answer : σ → α × σ) : Asking σ Q ε α := fun s =>
  ([record (answer s).1], (answer s).2, .ok (answer s).1)

/-- The same program, its failures told otherwise. -/
def mapError {ε' : Type} (f : ε → ε') (x : Asking σ Q ε α) : Asking σ Q ε' α := fun s =>
  (x.asked s, x.after s, (x.result s).mapError f)

theorem asked_ask_bind (record : α → Q) (answer : σ → α × σ) (f : α → Asking σ Q ε β) (s : σ) :
    (ask record answer >>= f).asked s
      = record (answer s).1 :: (f (answer s).1).asked (answer s).2 := rfl

theorem after_ask_bind (record : α → Q) (answer : σ → α × σ) (f : α → Asking σ Q ε β) (s : σ) :
    (ask record answer >>= f).after s = (f (answer s).1).after (answer s).2 := rfl

/-! ## What a program that succeeds has asked -/

/-- In the world `s` a program asks `qs`, leaves `t` and comes to `a`. -/
def Passes (x : Asking σ Q ε α) (s : σ) (qs : List Q) (t : σ) (a : α) : Prop :=
  x s = (qs, t, .ok a)

/-- In the world `s` a program asks `qs`, leaves `t` and fails with `e`. -/
def Fails (x : Asking σ Q ε α) (s : σ) (qs : List Q) (t : σ) (e : ε) : Prop :=
  x s = (qs, t, .error e)

/-- Of every program there is one of the two. -/
theorem passes_or_fails (x : Asking σ Q ε α) (s : σ) :
    (∃ a, x.Passes s (x.asked s) (x.after s) a) ∨ ∃ e, x.Fails s (x.asked s) (x.after s) e := by
  unfold Passes Fails asked after
  rcases x s with ⟨qs, t, e | a⟩
  · exact .inr ⟨e, rfl⟩
  · exact .inl ⟨a, rfl⟩

theorem Passes.asked {x : Asking σ Q ε α} {s t : σ} {qs : List Q} {a : α}
    (h : x.Passes s qs t a) : x.asked s = qs := by
  rw [Asking.asked, show x s = _ from h]

theorem Passes.result {x : Asking σ Q ε α} {s t : σ} {qs : List Q} {a : α}
    (h : x.Passes s qs t a) : x.result s = .ok a := by
  rw [Asking.result, show x s = _ from h]

theorem Fails.result {x : Asking σ Q ε α} {s t : σ} {qs : List Q} {e : ε}
    (h : x.Fails s qs t e) : x.result s = .error e := by
  rw [Asking.result, show x s = _ from h]

@[simp] theorem passes_pure {a b : α} {s t : σ} {qs : List Q} :
    (pure a : Asking σ Q ε α).Passes s qs t b ↔ qs = [] ∧ t = s ∧ b = a := by
  unfold Passes
  constructor
  · intro h
    cases h
    exact ⟨rfl, rfl, rfl⟩
  · rintro ⟨rfl, rfl, rfl⟩
    rfl

@[simp] theorem passes_lift {r : Except ε α} {b : α} {s t : σ} {qs : List Q} :
    (lift r : Asking σ Q ε α).Passes s qs t b ↔ qs = [] ∧ t = s ∧ r = .ok b := by
  unfold Passes lift
  simp [eq_comm]

@[simp] theorem not_passes_fail {e : ε} {b : α} {s t : σ} {qs : List Q} :
    ¬ (fail e : Asking σ Q ε α).Passes s qs t b := by
  rw [fail, passes_lift]
  rintro ⟨-, -, h⟩
  cases h

@[simp] theorem passes_ask {record : α → Q} {answer : σ → α × σ} {b : α} {s t : σ}
    {qs : List Q} : (ask record answer : Asking σ Q ε α).Passes s qs t b
      ↔ qs = [record b] ∧ answer s = (b, t) := by
  unfold Passes ask
  constructor
  · intro h
    cases h
    exact ⟨rfl, rfl⟩
  · rintro ⟨rfl, h⟩
    rw [h]

/-- A sequence succeeds where both of its programs do, one after the other. -/
theorem passes_bind {x : Asking σ Q ε α} {f : α → Asking σ Q ε β} {s t : σ} {qs : List Q}
    {b : β} : (x >>= f).Passes s qs t b ↔
      ∃ qs₁ m a qs₂, x.Passes s qs₁ m a ∧ (f a).Passes m qs₂ t b ∧ qs = qs₁ ++ qs₂ := by
  change Asking.bind x f s = _ ↔ _
  unfold Passes Asking.bind
  rcases x s with ⟨qs₁, m, e | a⟩
  · dsimp only
    constructor
    · intro h
      cases h
    · rintro ⟨_, _, _, _, h, -⟩
      cases h
  · dsimp only
    constructor
    · intro h
      rcases hf : f a m with ⟨qs₂, u, r⟩
      rw [hf] at h
      cases h
      exact ⟨qs₁, m, a, qs₂, rfl, hf, rfl⟩
    · rintro ⟨_, _, _, qs₂, h, hf, rfl⟩
      cases h
      rw [hf]

/-- What asks nothing leaves the rest as it is. -/
theorem passes_lift_bind {r : Except ε α} {f : α → Asking σ Q ε β} {s t : σ} {qs : List Q} {b : β} :
    (lift r >>= f).Passes s qs t b ↔ ∃ a, r = .ok a ∧ (f a).Passes s qs t b := by
  rw [passes_bind]
  constructor
  · rintro ⟨_, _, a, _, hlift, hf, rfl⟩
    obtain ⟨rfl, rfl, hr⟩ := passes_lift.mp hlift
    exact ⟨a, hr, hf⟩
  · rintro ⟨a, hr, hf⟩
    exact ⟨[], s, a, qs, passes_lift.mpr ⟨rfl, rfl, hr⟩, hf, rfl⟩

/-- A sequence asks what its first program asks, and what the second does where it is reached. -/
theorem asked_bind (x : Asking σ Q ε α) (f : α → Asking σ Q ε β) (s : σ) :
    (x >>= f).asked s = x.asked s
      ∨ ∃ a, (x >>= f).asked s = x.asked s ++ (f a).asked (x.after s) := by
  change (Asking.bind x f s).1 = _ ∨ ∃ a, (Asking.bind x f s).1 = _
  unfold asked after Asking.bind
  rcases x s with ⟨qs, t, e | a⟩
  · exact .inl rfl
  · exact .inr ⟨a, rfl⟩

theorem passes_mapError {ε' : Type} {g : ε → ε'} {x : Asking σ Q ε α} {s t : σ} {qs : List Q}
    {a : α} : (x.mapError g).Passes s qs t a ↔ x.Passes s qs t a := by
  unfold Passes mapError asked after result
  rcases x s with ⟨qs', t', e | a'⟩
  · simp [Except.mapError]
  · simp [Except.mapError]

/-! ## The order of the questions -/

/-- The questions of a program have ranks from `lo` on and below `hi`, each greater than the one
before. -/
def Staged (rank : Q → ℕ) (lo hi : ℕ) (x : Asking σ Q ε α) : Prop :=
  ∀ s, (x.asked s).Pairwise (fun p q => rank p < rank q) ∧ ∀ q ∈ x.asked s, lo ≤ rank q ∧ rank q < hi

section Staged

variable {rank : Q → ℕ} {lo m hi : ℕ}

theorem staged_lift (r : Except ε α) : Staged rank lo hi (lift r : Asking σ Q ε α) :=
  fun _ => ⟨List.Pairwise.nil, fun _ h => absurd h List.not_mem_nil⟩

theorem staged_fail (e : ε) : Staged rank lo hi (fail e : Asking σ Q ε α) := staged_lift _

theorem staged_pure (a : α) : Staged rank lo hi (pure a : Asking σ Q ε α) := staged_lift _

theorem staged_ask {record : α → Q} {n : ℕ} (answer : σ → α × σ)
    (h : ∀ a, rank (record a) = n) :
    Staged rank n (n + 1) (ask record answer : Asking σ Q ε α) := by
  refine fun s => ⟨List.pairwise_singleton _ _, fun q hq => ?_⟩
  rw [List.mem_singleton.mp hq, h]
  exact ⟨Nat.le_refl n, Nat.lt_succ_self n⟩

theorem Staged.mono {x : Asking σ Q ε α} {lo' hi' : ℕ} (h : Staged rank lo hi x) (hlo : lo' ≤ lo)
    (hhi : hi ≤ hi') : Staged rank lo' hi' x :=
  fun s => ⟨(h s).1, fun q hq =>
    ⟨Nat.le_trans hlo ((h s).2 q hq).1, Nat.lt_of_lt_of_le ((h s).2 q hq).2 hhi⟩⟩

/-- What follows a program asks later. -/
theorem staged_bind {x : Asking σ Q ε α} {f : α → Asking σ Q ε β} (hlo : lo ≤ m)
    (hhi : m ≤ hi) (hx : Staged rank lo m x) (hf : ∀ a, Staged rank m hi (f a)) :
    Staged rank lo hi (x >>= f) := by
  intro s
  obtain ⟨hsorted, hranks⟩ := hx s
  obtain hfailed | ⟨a, happend⟩ := asked_bind x f s
  · rw [hfailed]
    exact ⟨hsorted, fun q hq => ⟨(hranks q hq).1, Nat.lt_of_lt_of_le (hranks q hq).2 hhi⟩⟩
  · obtain ⟨hsorted', hranks'⟩ := hf a (x.after s)
    rw [happend]
    refine ⟨List.pairwise_append.mpr ⟨hsorted, hsorted', fun p hp q hq => ?_⟩, fun q hq => ?_⟩
    · exact Nat.lt_of_lt_of_le (hranks p hp).2 (hranks' q hq).1
    · obtain hq | hq := List.mem_append.mp hq
      · exact ⟨(hranks q hq).1, Nat.lt_of_lt_of_le (hranks q hq).2 hhi⟩
      · exact ⟨Nat.le_trans hlo (hranks' q hq).1, (hranks' q hq).2⟩

theorem Staged.mapError {ε' : Type} {x : Asking σ Q ε α} (h : Staged rank lo hi x) (g : ε → ε') :
    Staged rank lo hi (x.mapError g) := h

/-- Questions in the order of their ranks: no two of one rank. -/
theorem Staged.unique {x : Asking σ Q ε α} (h : Staged rank lo hi x) (s : σ) (n : ℕ) :
    ((x.asked s).filter fun q => rank q = n).length ≤ 1 := by
  have hsorted := (h s).1.filter (fun q => rank q = n)
  match hl : (x.asked s).filter fun q => rank q = n with
  | [] => exact Nat.zero_le 1
  | [_] => exact Nat.le_refl 1
  | p :: q :: rest =>
    -- Two of them would have ranks that differ.
    rw [hl] at hsorted
    have hp : p ∈ (x.asked s).filter fun q => rank q = n := hl ▸ List.mem_cons_self
    have hq : q ∈ (x.asked s).filter fun q => rank q = n :=
      hl ▸ List.mem_cons_of_mem _ List.mem_cons_self
    have hlt := List.rel_of_pairwise_cons hsorted (List.mem_cons_self (a := q))
    have hpn := of_decide_eq_true (List.mem_filter.mp hp).2
    have hqn := of_decide_eq_true (List.mem_filter.mp hq).2
    omega

end Staged

/-! ## Answers that end a program -/

/-- After an answer of this kind a program hears no other, and fails. -/
def Closed (bad : Q → Prop) (x : Asking σ Q ε α) : Prop :=
  ∀ s pre q post, x.asked s = pre ++ q :: post → bad q → post = [] ∧ ∃ e, x.result s = .error e

section Closed

variable {bad : Q → Prop}

theorem closed_lift (r : Except ε α) : Closed bad (lift r : Asking σ Q ε α) := by
  intro s pre q post h
  exact absurd h.symm (by simp [asked, lift])

theorem closed_fail (e : ε) : Closed bad (fail e : Asking σ Q ε α) := closed_lift _

theorem closed_pure (a : α) : Closed bad (pure a : Asking σ Q ε α) := closed_lift _

/-- A question that has no bad answer. -/
theorem closed_ask {record : α → Q} {answer : σ → α × σ} (h : ∀ a, ¬ bad (record a)) :
    Closed bad (ask record answer : Asking σ Q ε α) := by
  intro s pre q post hasked hq
  have hmem : q ∈ [record (answer s).1] := by
    change [record (answer s).1] = pre ++ q :: post at hasked
    simp [hasked]
  obtain rfl := List.mem_singleton.mp hmem
  exact absurd hq (h _)

/-- A question whose bad answers are all failed on. -/
theorem closed_ask_bind {record : α → Q} {answer : σ → α × σ} {f : α → Asking σ Q ε β}
    (hf : ∀ a, Closed bad (f a))
    (hbad : ∀ a, bad (record a) → ∃ e, f a = fail e) :
    Closed bad (ask record answer >>= f) := by
  intro s pre q post h hq
  have hresult : (ask record answer >>= f).result s = (f (answer s).1).result (answer s).2 := rfl
  rw [hresult]
  rw [asked_ask_bind] at h
  obtain ⟨rfl, hrest⟩ | ⟨pre', rfl, hrest⟩ := List.cons_eq_append_iff.mp h
  · -- It is the answer itself.
    cases hrest
    obtain ⟨e, he⟩ := hbad _ hq
    rw [he]
    exact ⟨rfl, e, rfl⟩
  · exact hf _ _ pre' q post hrest hq

/-- A sequence ends where one of its programs does. -/
theorem closed_bind {x : Asking σ Q ε α} {f : α → Asking σ Q ε β} (hx : Closed bad x)
    (hf : ∀ a, Closed bad (f a)) : Closed bad (x >>= f) := by
  intro s pre q post h hq
  have hxs := hx s
  change (Asking.bind x f s).1 = _ at h
  change post = [] ∧ ∃ e, (Asking.bind x f s).2.2 = _
  unfold asked result at hxs
  unfold Asking.bind at h ⊢
  rcases hrun : x s with ⟨qs, t, e | a⟩
  · rw [hrun] at h hxs
    exact ⟨(hxs pre q post h hq).1, e, rfl⟩
  · rw [hrun] at h hxs
    dsimp only at h hxs ⊢
    obtain ⟨mid, hpre, hrest⟩ | ⟨mid, hqs, hrest⟩ := List.append_eq_append_iff.mp h
    · -- The second program heard it.
      exact hf a t mid q post hrest hq
    · -- The first succeeded, so what it heard was nothing of the kind.
      cases mid with
      | nil =>
        rw [List.nil_append] at hrest
        exact hf a t [] q post hrest.symm hq
      | cons q' mid =>
        cases hrest
        obtain ⟨-, e, he⟩ := hxs pre q mid hqs hq
        cases he

theorem Closed.mapError {ε' : Type} {x : Asking σ Q ε α} (h : Closed bad x) (g : ε → ε') :
    Closed bad (x.mapError g) := by
  intro s pre q post hasked hq
  obtain ⟨hpost, e, he⟩ := h s pre q post hasked hq
  refine ⟨hpost, g e, ?_⟩
  change (x.result s).mapError g = _
  rw [he]
  rfl

end Closed

/-! ## What a program leaves alone -/

/-- A program leaves this part of the world as it finds it. -/
def Leaves {ι : Type} (p : σ → ι) (x : Asking σ Q ε α) : Prop := ∀ s, p (x.after s) = p s

section Leaves

variable {ι : Type} {p : σ → ι}

theorem leaves_lift (r : Except ε α) : Leaves p (lift r : Asking σ Q ε α) := fun _ => rfl

theorem leaves_fail (e : ε) : Leaves p (fail e : Asking σ Q ε α) := leaves_lift _

theorem leaves_pure (a : α) : Leaves p (pure a : Asking σ Q ε α) := leaves_lift _

theorem leaves_ask {record : α → Q} {answer : σ → α × σ}
    (h : ∀ s, p (answer s).2 = p s) :
    Leaves p (ask record answer : Asking σ Q ε α) := h

/-- What follows a program leaves the part as that left it. -/
theorem part_after_bind {x : Asking σ Q ε α} {f : α → Asking σ Q ε β}
    (hf : ∀ a, Leaves p (f a)) (s : σ) : p ((x >>= f).after s) = p (x.after s) := by
  change p (Asking.bind x f s).2.1 = _
  unfold after Asking.bind
  rcases x s with ⟨qs, t, e | a⟩
  · rfl
  · exact hf a t

theorem leaves_bind {x : Asking σ Q ε α} {f : α → Asking σ Q ε β} (hx : Leaves p x)
    (hf : ∀ a, Leaves p (f a)) : Leaves p (x >>= f) :=
  fun s => (part_after_bind hf s).trans (hx s)

theorem Leaves.mapError {ε' : Type} {x : Asking σ Q ε α} (h : Leaves p x) (g : ε → ε') :
    Leaves p (x.mapError g) := h

end Leaves

/-! ## What came before a question -/

/-- A sequence asks what its first program asks, and after that, if it succeeds, what the second
does. -/
theorem mem_asked_bind {x : Asking σ Q ε α} {f : α → Asking σ Q ε β} {s : σ} {q : Q} :
    q ∈ (x >>= f).asked s ↔ q ∈ x.asked s
      ∨ ∃ qs m a, x.Passes s qs m a ∧ q ∈ (f a).asked m := by
  change q ∈ (Asking.bind x f s).1 ↔ _
  unfold Passes asked Asking.bind
  rcases x s with ⟨qs, t, e | a⟩
  · simp
  · dsimp only
    rw [List.mem_append]
    refine or_congr_right ⟨fun h => ⟨qs, t, a, rfl, h⟩, ?_⟩
    rintro ⟨_, _, _, h, hq⟩
    cases h
    exact hq

theorem asked_subset_bind (x : Asking σ Q ε α) (f : α → Asking σ Q ε β) (s : σ) :
    x.asked s ⊆ (x >>= f).asked s := fun _ hq => mem_asked_bind.mpr (.inl hq)

theorem mem_asked_lift_bind {r : Except ε α} {f : α → Asking σ Q ε β} {s : σ} {q : Q} :
    q ∈ (lift r >>= f).asked s ↔ ∃ a, r = .ok a ∧ q ∈ (f a).asked s := by
  rw [mem_asked_bind]
  constructor
  · rintro (h | ⟨_, _, a, hlift, hq⟩)
    · exact absurd h List.not_mem_nil
    · obtain ⟨-, rfl, hr⟩ := passes_lift.mp hlift
      exact ⟨a, hr, hq⟩
  · rintro ⟨a, hr, hq⟩
    exact .inr ⟨[], s, a, passes_lift.mpr ⟨rfl, rfl, hr⟩, hq⟩

/-- What a sequence asks includes what was asked where its first program succeeded. -/
theorem Passes.subset_bind {x : Asking σ Q ε α} {f : α → Asking σ Q ε β} {s t : σ} {qs : List Q}
    {a : α} (h : x.Passes s qs t a) : qs ⊆ (x >>= f).asked s := by
  rw [← h.asked]
  exact asked_subset_bind x f s

/-- It includes what the second asks then. -/
theorem Passes.subset_bind_right {x : Asking σ Q ε α} {f : α → Asking σ Q ε β} {s t : σ}
    {qs : List Q} {a : α} (h : x.Passes s qs t a) : (f a).asked t ⊆ (x >>= f).asked s :=
  fun _ hq => mem_asked_bind.mpr (.inr ⟨qs, t, a, h, hq⟩)

end Asking
