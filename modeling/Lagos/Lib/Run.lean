/-
Runs of a labelled, partial step function, and the two rules that carry an
invariant along them.

Nothing here is about a particular program. A system is a function
`step : σ → ε → Option σ`: the state after an event, or `none` when the event
cannot happen in that state. A run is a list of events folded through it, and
`Along` says of every event of a run what held in the state it found. The two
are kept apart so that a run can be computed, and a condition on its steps
decided, without building a derivation.

`run_induction` is the one induction the developments above need: whatever is
true at the start and kept by each step that meets the condition is true at the
end, with the events so far at hand. What must happen at last is said of an
`Execution`, a run without end, and follows from a rank (`Execution.eventually`).
-/
import Mathlib.Data.List.Induction

set_option autoImplicit false

namespace StepRun

variable {σ ε : Type*} (step : σ → ε → Option σ)

/-! ## Runs -/

/-- The state a list of events leads to, or `none` if one of them cannot happen. -/
def run : σ → List ε → Option σ
  | s, [] => some s
  | s, e :: es => (step s e).bind fun t => run t es

/-- Every event of the run finds a state in which `ok` holds of it. -/
def Along (ok : σ → ε → Prop) : σ → List ε → Prop
  | _, [] => True
  | s, e :: es => ok s e ∧ ∀ t ∈ step s e, Along ok t es

instance Along.decidable (ok : σ → ε → Prop) [∀ s e, Decidable (ok s e)] :
    ∀ s es, Decidable (Along step ok s es)
  | _, [] => isTrue trivial
  | s, e :: es =>
    have : Decidable (∀ t ∈ step s e, Along step ok t es) :=
      match h : step s e with
      | none => isTrue (by simp)
      | some t =>
        have := Along.decidable ok t es
        decidable_of_iff (Along step ok t es) (by simp)
    inferInstanceAs (Decidable (_ ∧ _))

variable {step}

@[simp] theorem run_nil (s : σ) : run step s [] = some s := rfl

@[simp] theorem run_cons (s : σ) (e : ε) (es : List ε) :
    run step s (e :: es) = (step s e).bind fun t => run step t es := rfl

@[simp] theorem along_nil (ok : σ → ε → Prop) (s : σ) : Along step ok s [] := trivial

@[simp] theorem along_cons (ok : σ → ε → Prop) (s : σ) (e : ε) (es : List ε) :
    Along step ok s (e :: es) ↔ ok s e ∧ ∀ t ∈ step s e, Along step ok t es := Iff.rfl

theorem run_append (s : σ) (es fs : List ε) :
    run step s (es ++ fs) = (run step s es).bind fun t => run step t fs := by
  induction es generalizing s with
  | nil => rfl
  | cons e es ih =>
    simp only [List.cons_append, run_cons, ih, Option.bind_assoc]

/-- A step behind a guard happened, so the guard held. -/
theorem eq_of_guarded {p : Prop} [Decidable p] {s t : σ}
    (h : (if p then some s else none) = some t) : p ∧ t = s := by
  split at h
  · rename_i hp
    exact ⟨hp, (Option.some.inj h).symm⟩
  · cases h

/-- A run of `es ++ [e]` is a run of `es` and one more step. -/
theorem run_concat {s t : σ} {es : List ε} {e : ε} :
    run step s (es ++ [e]) = some t ↔ ∃ m, run step s es = some m ∧ step m e = some t := by
  rw [run_append]
  cases h : run step s es with
  | none => simp
  | some m => cases h' : step m e <;> simp [h']

theorem along_append (ok : σ → ε → Prop) {s : σ} {es fs : List ε} :
    Along step ok s (es ++ fs)
      ↔ Along step ok s es ∧ ∀ t ∈ run step s es, Along step ok t fs := by
  induction es generalizing s with
  | nil => simp
  | cons e es ih =>
    cases h : step s e with
    | none => simp [h]
    | some m => simp [h, ih, and_assoc]

/-- A condition on the events alone. -/
theorem along_of_forall {ok : σ → ε → Prop} {s : σ} {es : List ε}
    (h : ∀ e ∈ es, ∀ s, ok s e) : Along step ok s es := by
  induction es generalizing s with
  | nil => trivial
  | cons e es ih =>
    refine ⟨h e List.mem_cons_self s, ?_⟩
    intro t _
    exact ih fun e' he' => h e' (List.mem_cons_of_mem e he')

/-- A condition on the events alone that holds along a run holds of all its events. -/
theorem forall_of_along {p : ε → Prop} {s t : σ} {es : List ε} (hrun : run step s es = some t)
    (h : Along step (fun _ e => p e) s es) : ∀ e ∈ es, p e := by
  induction es generalizing s with
  | nil => exact List.forall_mem_nil _
  | cons e es ih =>
    rw [run_cons] at hrun
    obtain ⟨m, hstep, hrest⟩ := Option.bind_eq_some_iff.mp hrun
    exact List.forall_mem_cons.mpr ⟨h.1, ih hrest (h.2 m hstep)⟩

/-- What holds of every event of the list holds of every step. -/
theorem Along.and_forall {ok : σ → ε → Prop} {p : ε → Prop} {s : σ} {es : List ε}
    (h : Along step ok s es) (hp : ∀ e ∈ es, p e) :
    Along step (fun s e => ok s e ∧ p e) s es := by
  induction es generalizing s with
  | nil => trivial
  | cons e es ih =>
    refine ⟨⟨h.1, hp e List.mem_cons_self⟩, ?_⟩
    intro t ht
    exact ih (h.2 t ht) fun e' he' => hp e' (List.mem_cons_of_mem e he')

/-! ## Induction along a run -/

/-- **The run rule.** What holds of the empty run, and is kept by every further
step that meets the condition, holds of every run whose steps all meet it. The
predicate sees the events so far as well as the state they lead to. -/
theorem run_induction {ok : σ → ε → Prop} {s₀ : σ} {P : List ε → σ → Prop} (h0 : P [] s₀)
    (hstep : ∀ es e s t, run step s₀ es = some s → P es s → ok s e →
      step s e = some t → P (es ++ [e]) t)
    {es : List ε} {s : σ} (hrun : run step s₀ es = some s) (hok : Along step ok s₀ es) :
    P es s := by
  -- The induction takes the last event off, so that `es` is what had happened before it.
  induction es using List.reverseRecOn generalizing s with
  | nil =>
    cases hrun
    exact h0
  | append_singleton es e ih =>
    obtain ⟨m, hm, he⟩ := run_concat.mp hrun
    rw [along_append] at hok
    exact hstep es e m s hm (ih hm hok.1) (hok.2 m hm).1 he

/-- **The invariant rule.** The special case in which only the state matters. -/
theorem run_invariant {ok : σ → ε → Prop} {s₀ : σ} {I : σ → Prop} (h0 : I s₀)
    (hstep : ∀ s e t, I s → ok s e → step s e = some t → I t)
    {es : List ε} {s : σ} (hrun : run step s₀ es = some s) (hok : Along step ok s₀ es) :
    I s :=
  run_induction (P := fun _ s => I s) h0 (fun _ e s t _ h ho he => hstep s e t h ho he)
    hrun hok

/-- An invariant that every step keeps, whatever it is, holds along every run. -/
theorem run_invariant_always {s₀ : σ} {I : σ → Prop} (h0 : I s₀)
    (hstep : ∀ s e t, I s → step s e = some t → I t)
    {es : List ε} {s : σ} (hrun : run step s₀ es = some s) : I s := by
  -- The condition is dropped: every step meets the trivial one.
  suffices hok : Along step (fun _ _ => True) s₀ es from
    run_invariant h0 (fun s e t h _ he => hstep s e t h he) hrun hok
  clear hrun
  induction es generalizing s₀ with
  | nil => trivial
  | cons e es ih => exact ⟨trivial, fun t ht => ih (hstep s₀ e t h0 ht)⟩

/-- Two conditions that an invariant makes equivalent on the steps that can
happen select the same runs. -/
theorem along_congr {ok ok' : σ → ε → Prop} {s₀ : σ} {I : σ → Prop} (h0 : I s₀)
    (hstep : ∀ s e t, I s → ok s e → step s e = some t → I t)
    (hiff : ∀ s e t, I s → step s e = some t → (ok s e ↔ ok' s e))
    {es : List ε} {s : σ} (hrun : run step s₀ es = some s) :
    Along step ok s₀ es ↔ Along step ok' s₀ es := by
  induction es generalizing s₀ with
  | nil => simp
  | cons e es ih =>
    -- The run says what this step leads to, so both conditions are compared there only.
    obtain ⟨t, ht, hrest⟩ := Option.bind_eq_some_iff.mp hrun
    rw [along_cons, along_cons, ← hiff s₀ e t h0 ht]
    refine and_congr_right fun ho => forall₂_congr fun u hu => ?_
    obtain rfl : t = u := Option.some.inj (ht.symm.trans hu)
    exact ih (hstep s₀ e t h0 ho ht) hrest

/-! ## Runs without end -/

/-- A run that goes on forever. -/
structure Execution (step : σ → ε → Option σ) where
  state : ℕ → σ
  event : ℕ → ε
  next : ∀ n, step (state n) (event n) = some (state (n + 1))

/-- What is left of it after `n` steps. -/
def Execution.from (x : Execution step) (n : ℕ) : Execution step where
  state k := x.state (n + k)
  event k := x.event (n + k)
  next k := x.next (n + k)

/-- **The progress rule.** As long as the goal is not reached no step raises the rank, and the
steps of one kind lower it. If such a step always comes, the goal is reached. -/
theorem Execution.eventually (x : Execution step) {goal : σ → Prop} {mine : ε → Prop}
    {rank : σ → ℕ}
    (hstep : ∀ n, ¬ goal (x.state n) → ¬ goal (x.state (n + 1)) →
      rank (x.state (n + 1)) ≤ rank (x.state n)
        ∧ (mine (x.event n) → rank (x.state (n + 1)) < rank (x.state n)))
    (hfair : ∀ n, ¬ goal (x.state n) → ∃ m, n ≤ m ∧ mine (x.event m)) (n : ℕ) :
    ∃ m, n ≤ m ∧ goal (x.state m) := by
  by_contra hnever
  have hnot : ∀ m, n ≤ m → ¬ goal (x.state m) := fun m hm hgoal => hnever ⟨m, hm, hgoal⟩
  -- The rank goes down along the run, so from every step on it falls below every bound.
  have hmono : ∀ a d, n ≤ a → rank (x.state (a + d)) ≤ rank (x.state a) := by
    intro a d ha
    induction d with
    | zero => exact Nat.le_refl _
    | succ d ih =>
      have hd := hstep (a + d) (hnot _ (by omega)) (hnot (a + d + 1) (by omega))
      exact Nat.le_trans hd.1 ih
  have hfalls : ∀ k, ∃ m, n ≤ m ∧ rank (x.state m) + k ≤ rank (x.state n) := by
    intro k
    induction k with
    | zero => exact ⟨n, Nat.le_refl _, Nat.le_refl _⟩
    | succ k ih =>
      obtain ⟨m, hm, hk⟩ := ih
      obtain ⟨j, hj, hmine⟩ := hfair m (hnot m hm)
      have hjn : n ≤ j := Nat.le_trans hm hj
      have hless := (hstep j (hnot j hjn) (hnot (j + 1) (by omega))).2 hmine
      have hle := hmono m (j - m) hm
      rw [Nat.add_sub_cancel' hj] at hle
      exact ⟨j + 1, by omega, by omega⟩
  obtain ⟨m, -, hm⟩ := hfalls (rank (x.state n) + 1)
  omega

end StepRun
