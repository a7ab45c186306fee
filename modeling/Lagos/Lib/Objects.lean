/-
Objects behind addresses, and what a log of operations on them explains.

Nothing here is about a particular program. An object is a machine that reads an input,
moves to another state and answers. Several holders of one address operate on one object,
in whatever order, and the log has every operation with its address. A memory is
`Explained` by a log when each object is in the state, and has given the answers, that the
inputs at its own address lead to from the state it was made in: whatever went on at other
addresses, it is one machine that was fed its own inputs.
-/
import Mathlib.Logic.Function.Basic
import Mathlib.Data.List.Basic

set_option autoImplicit false

namespace Objects

variable {σ ι ο : Type*} (step : σ → ι → σ × ο)

/-! ## One machine -/

/-- The state after a list of inputs. -/
def final (s : σ) (inputs : List ι) : σ := inputs.foldl (fun s i => (step s i).1) s

/-- The answers to a list of inputs. -/
def answers : σ → List ι → List ο
  | _, [] => []
  | s, i :: inputs => (step s i).2 :: answers (step s i).1 inputs

@[simp] theorem final_nil (s : σ) : final step s [] = s := rfl

@[simp] theorem final_cons (s : σ) (i : ι) (inputs : List ι) :
    final step s (i :: inputs) = final step (step s i).1 inputs := rfl

theorem final_concat (s : σ) (inputs : List ι) (i : ι) :
    final step s (inputs ++ [i]) = (step (final step s inputs) i).1 := by
  rw [final, List.foldl_append, List.foldl_cons, List.foldl_nil, final]

theorem answers_concat (s : σ) (inputs : List ι) (i : ι) :
    answers step s (inputs ++ [i]) =
      answers step s inputs ++ [(step (final step s inputs) i).2] := by
  induction inputs generalizing s with
  | nil => rfl
  | cons j inputs ih => rw [List.cons_append, answers, answers, ih, final_cons, List.cons_append]

/-! ## A memory of them -/

/-- One operation. -/
structure Entry (α ι ο : Type*) where
  address : α
  input : ι
  answer : ο

section

variable {α : Type*} [DecidableEq α]

/-- The operations at one address, in order. -/
def operations (a : α) (log : List (Entry α ι ο)) : List (Entry α ι ο) :=
  log.filter fun e => e.address = a

theorem operations_concat (a : α) (log : List (Entry α ι ο)) (e : Entry α ι ο) :
    operations a (log ++ [e]) =
      if e.address = a then operations a log ++ [e] else operations a log := by
  rw [operations, List.filter_append, operations]
  by_cases h : e.address = a
  · rw [if_pos h, List.filter_cons_of_pos (by simpa using h), List.filter_nil]
  · rw [if_neg h, List.filter_cons_of_neg (by simpa using h), List.filter_nil, List.append_nil]

/-- Every object made is what the operations at its address explain, and there are none at
other addresses. -/
structure Explained (made memory : α → Option σ) (log : List (Entry α ι ο)) : Prop where
  state : ∀ a, memory a =
    (made a).map fun s => final step s ((operations a log).map Entry.input)
  answers : ∀ a s, made a = some s → (operations a log).map Entry.answer =
    answers step s ((operations a log).map Entry.input)
  addresses : ∀ e ∈ log, (made e.address).isSome

variable {step} {made memory : α → Option σ} {log : List (Entry α ι ο)}

/-- Nothing has happened yet. -/
theorem Explained.nil : Explained step made made ([] : List (Entry α ι ο)) where
  state a := by
    cases made a with
    | none => rfl
    | some s => rfl
  answers _ _ _ := rfl
  addresses e he := absurd he List.not_mem_nil

/-- **One operation** changes its object and explains it. -/
theorem Explained.operate (h : Explained step made memory log) {a : α} {s : σ}
    (hs : memory a = some s) (i : ι) :
    Explained step made (Function.update memory a (some (step s i).1))
      (log ++ [⟨a, i, (step s i).2⟩]) := by
  obtain ⟨s₀, hs₀, hfinal⟩ : ∃ s₀, made a = some s₀ ∧
      final step s₀ ((operations a log).map Entry.input) = s := by
    have := h.state a
    rw [hs, eq_comm, Option.map_eq_some_iff] at this
    exact this
  refine ⟨?_, ?_, ?_⟩
  · intro b
    rw [operations_concat]
    by_cases hb : a = b
    · subst hb
      rw [Function.update_self, if_pos rfl, hs₀, Option.map_some, List.map_append, List.map_cons,
        List.map_nil, final_concat, hfinal]
    · rw [Function.update_of_ne (Ne.symm hb), if_neg hb]
      exact h.state b
  · intro b t ht
    rw [operations_concat]
    by_cases hb : a = b
    · subst hb
      rw [hs₀, Option.some.injEq] at ht
      subst ht
      rw [if_pos rfl, List.map_append, List.map_append, List.map_cons, List.map_cons,
        List.map_nil, List.map_nil, answers_concat, hfinal, h.answers a s₀ hs₀]
    · rw [if_neg hb]
      exact h.answers b t ht
  · intro e he
    rcases List.mem_append.mp he with he | he
    · exact h.addresses e he
    · rw [List.mem_singleton.mp he, hs₀]
      rfl

/-- **New objects** at addresses where there were none are explained by having been made. -/
theorem Explained.make (h : Explained step made memory log) {made' memory' : α → Option σ}
    (hkept : ∀ a, (made a).isSome → made' a = made a ∧ memory' a = memory a)
    (hnew : ∀ a, made a = none → memory' a = made' a) :
    Explained step made' memory' log := by
  have hnone : ∀ a, made a = none → operations a log = [] := by
    intro a ha
    rw [operations, List.filter_eq_nil_iff]
    intro e he heq
    have hsome := h.addresses e he
    rw [of_decide_eq_true heq, ha] at hsome
    cases hsome
  refine ⟨?_, ?_, ?_⟩
  · intro a
    cases ha : made a with
    | none =>
      rw [hnew a ha, hnone a ha]
      cases made' a with
      | none => rfl
      | some s => rfl
    | some s =>
      obtain ⟨hm, hm'⟩ := hkept a (ha ▸ rfl)
      rw [hm, hm']
      exact h.state a
  · intro a s hs
    cases ha : made a with
    | none =>
      rw [hnone a ha]
      rfl
    | some t =>
      rw [(hkept a (ha ▸ rfl)).1] at hs
      exact h.answers a s hs
  · intro e he
    rw [(hkept _ (h.addresses e he)).1]
    exact h.addresses e he

end

end Objects
