/-
The chains of hooks that routes run (`ext.rs`).

`run_chain` asks for a permit of the gate that all clones of a registry share, takes the time, and
calls the hooks of the route one after the other, each under the earlier of its own deadline and
the chain's. Between any two of its accesses to the gate or the clock other chains may come, and
while it awaits a hook the hook may return, the deadline may pass, or the chain may be dropped. So
`advance` is one stretch of `run_chain` between two such points, `return_hook` and `elapse` are the
two ways a hook ends, and `cancel` is the drop.

The gate is made by the first chain that looks at it, for the limit of this chain. A hook is known
by its name; what it does is when it returns, and what. The clock is read as a hook returns, and
that reading is the time it returned at.
-/
import Lagos.Error
import Lagos.Lib.Run
import Lagos.Routes
import Mathlib.Data.List.ModifyLast

set_option autoImplicit false

open RustStd

namespace Lagos.Extensions

open Lagos.Error Lagos.Routes StepRun

/-! ## The gate -/

/-- `Semaphore::MAX_PERMITS`: `usize::MAX >> 3`. -/
def MAX_PERMITS : ℕ := 2305843009213693951

/-- `ExecutionAdmission`: the limit it was made for, and the permits that the semaphore has left. -/
structure ExecutionAdmission where
  configured : Option ℕ
  available : Option ℕ
  deriving DecidableEq, Repr

/-- The drop of `_permit`. -/
def release (permit : Bool) (admission : Option ExecutionAdmission) : Option ExecutionAdmission :=
  if permit then admission.map fun a => { a with available := a.available.map (· + 1) }
  else admission

/-! ## A chain -/

/-- A call of `run_chain`: the route, the budgets and the limit, and the names that are registered
in the clone that it is called on. -/
structure Call where
  route : RouteConfig
  hook_budget : Duration
  chain_budget : Duration
  max_inflight : Option ℕ
  by_name : List Str

/-- How a hook ended that was awaited: with what it returned, or at its deadline. -/
inductive Ending where
  | returned (at_ : Instant) (result : Except Rejection Unit)
  | elapsed (at_ : Instant)

/-- A hook that was called. -/
structure HookRun where
  name : Str
  started : Instant
  ending : Option Ending

/-- Where a chain is. -/
inductive Phase where
  | called
  /-- The gate is there. -/
  | initialised
  /-- It may run, with a permit if the gate has a semaphore. -/
  | admitted (permit : Bool)
  /-- At the head of the loop, with the hooks to come. -/
  | looping (permit : Bool) (chain_deadline : Instant) (rest : List Str)
  /-- A hook is awaited. -/
  | awaiting (permit : Bool) (chain_deadline : Instant) (rest : List Str) (deadline : Instant)
      (reason : String)
  | returned (result : Except Rejection Unit)
  | cancelled

/-- A chain. What it called so far, and when it took the time, is history. -/
structure Chain where
  call : Call
  phase : Phase := .called
  begun : Option Instant := none
  runs : List HookRun := []

/-- A chain goes on to a phase. -/
def Chain.go (c : Chain) (phase : Phase) : Chain := { c with phase := phase }

/-- The last hook that was called ends. -/
def Chain.conclude (c : Chain) (ending : Ending) : Chain :=
  { c with runs := c.runs.modifyLast fun r => { r with ending := some ending } }

/-- `return`, where the permit is dropped. -/
def Chain.leave (c : Chain) (permit : Bool) (admission : Option ExecutionAdmission)
    (result : Except Rejection Unit) : Option ExecutionAdmission × Chain :=
  (release permit admission, c.go (.returned result))

/-- What a chain refuses with. -/
def unavailable (message reason : String) : Except Rejection Unit :=
  .error (.unavailable message reason)

/-! ## One stretch of `run_chain` -/

/-- `Instant::checked_add`. -/
def checked_add (last_instant : Instant) (at_ : Instant) (d : Duration) : Option Instant :=
  if at_ + d ≤ last_instant then some (at_ + d) else none

/-- `run_chain` before it looks at the gate, and `get_or_init`. -/
def Chain.initialise (c : Chain) (admission : Option ExecutionAdmission) :
    Option ExecutionAdmission × Chain :=
  if c.call.route.extensions.isEmpty then (admission, c.go (.returned (.ok ())))
  else if c.call.max_inflight.any fun n => n = 0 ∨ n > MAX_PERMITS then
    (admission, c.go (.returned
      (unavailable "Invalid policy execution capacity" "extension_capacity")))
  else (some (admission.getD ⟨c.call.max_inflight, c.call.max_inflight⟩), c.go .initialised)

/-- `try_acquire`, if the gate was made for this limit. -/
def Chain.try_acquire (c : Chain) (a : ExecutionAdmission) : ExecutionAdmission × Chain :=
  if a.configured ≠ c.call.max_inflight then
    (a, c.go (.returned
      (unavailable "Conflicting policy execution capacity" "extension_capacity")))
  else
    match a.available with
    | none => (a, c.go (.admitted false))
    | some 0 =>
      (a, c.go (.returned (unavailable "Policy execution is at capacity" "extension_capacity")))
    | some (n + 1) => ({ a with available := some n }, c.go (.admitted true))

section Stretch

variable (last_instant now : Instant)

/-- The chain's deadline. -/
def Chain.begin_ (c : Chain) (permit : Bool) (admission : Option ExecutionAdmission) :
    Option ExecutionAdmission × Chain :=
  match checked_add last_instant now c.call.chain_budget with
  | none =>
    c.leave permit admission
      (unavailable "Invalid policy execution budget" "extension_chain_timeout")
  | some deadline =>
    (admission, { c with
      phase := .looping permit deadline c.call.route.extensions
      begun := some now })

/-- The loop over the hooks, as far as the next one that is awaited. -/
def Chain.next (c : Chain) (permit : Bool) (chain_deadline : Instant)
    (admission : Option ExecutionAdmission) : List Str → Option ExecutionAdmission × Chain
  | [] => c.leave permit admission (.ok ())
  | name :: rest =>
    if name ∉ c.call.by_name then
      c.leave permit admission
        (unavailable "Gateway misconfigured" s!"missing_extension_{text name}")
    else if chain_deadline ≤ now then
      c.leave permit admission (unavailable "Policy execution timed out" "extension_chain_timeout")
    else
      let hook_deadline := (checked_add last_instant now c.call.hook_budget).getD chain_deadline
      (admission, { c with
        phase := .awaiting permit chain_deadline rest (min hook_deadline chain_deadline)
          (if chain_deadline ≤ hook_deadline then "extension_chain_timeout"
            else "extension_timeout")
        runs := c.runs ++ [⟨name, now, none⟩] })

/-- One stretch of `run_chain`, unless it is awaiting a hook or over. -/
def Chain.advance (c : Chain) (admission : Option ExecutionAdmission) :
    Option (Option ExecutionAdmission × Chain) :=
  match c.phase with
  | .called => some (c.initialise admission)
  | .initialised => admission.map fun a => ((c.try_acquire a).map some id)
  | .admitted permit => some (c.begin_ last_instant now permit admission)
  | .looping permit chain_deadline rest =>
    some (c.next last_instant now permit chain_deadline admission rest)
  | .awaiting .. | .returned _ | .cancelled => none

/-- The hook that is awaited returns. What comes too late is a timeout, whatever it is. -/
def Chain.return_hook (c : Chain) (admission : Option ExecutionAdmission)
    (result : Except Rejection Unit) : Option (Option ExecutionAdmission × Chain) :=
  match c.phase with
  | .awaiting permit chain_deadline rest deadline reason =>
    let c := c.conclude (.returned now result)
    if deadline ≤ now then
      some (c.leave permit admission (unavailable "Policy execution timed out" reason))
    else
      match result with
      | .ok () => some (admission, c.go (.looping permit chain_deadline rest))
      | .error rejection => some (c.leave permit admission (.error rejection))
  | _ => none

/-- The deadline of the hook that is awaited passes. -/
def Chain.elapse (c : Chain) (admission : Option ExecutionAdmission) :
    Option (Option ExecutionAdmission × Chain) :=
  match c.phase with
  | .awaiting permit _ _ deadline reason =>
    if deadline ≤ now then
      some ((c.conclude (.elapsed now)).leave permit admission
        (unavailable "Policy execution timed out" reason))
    else none
  | _ => none

end Stretch

/-- Whether a chain has a permit. -/
def Phase.permit : Phase → Bool
  | .admitted permit | .looping permit .. | .awaiting permit .. => permit
  | .called | .initialised | .returned _ | .cancelled => false

/-- Whether a chain was let in and is not over. -/
def Phase.is_inside : Phase → Bool
  | .admitted _ | .looping .. | .awaiting .. => true
  | .called | .initialised | .returned _ | .cancelled => false

/-- Whether a chain is over. -/
def Phase.is_over : Phase → Bool
  | .returned _ | .cancelled => true
  | _ => false

/-- The future of a chain is dropped, wherever it is, and its permit with it. -/
def Chain.cancel (c : Chain) (admission : Option ExecutionAdmission) :
    Option (Option ExecutionAdmission × Chain) :=
  if c.phase.is_over then none else some (release c.phase.permit admission, c.go .cancelled)

/-! ## The registry -/

/-- The clock, the gate that the clones share, and the chains so far. -/
structure State where
  now : Instant
  admission : Option ExecutionAdmission := none
  chains : List Chain := []

/-- What can happen next. -/
inductive Event where
  | tick (d : Duration)
  | call (c : Call)
  | advance (chain : ℕ)
  | return_hook (chain : ℕ) (result : Except Rejection Unit)
  | elapse (chain : ℕ)
  | cancel (chain : ℕ)

/-- A step of one of the chains. -/
def State.move (s : State) (i : ℕ)
    (f : Chain → Option ExecutionAdmission → Option (Option ExecutionAdmission × Chain)) :
    Option State :=
  s.chains[i]?.bind fun c =>
    (f c s.admission).map fun (admission, c') =>
      { s with admission := admission, chains := s.chains.set i c' }

/-- The clock reads no later than the last instant that there is. -/
def step (last_instant : Instant) (s : State) : Event → Option State
  | .tick d => if s.now + d ≤ last_instant then some { s with now := s.now + d } else none
  | .call c => some { s with chains := s.chains ++ [{ call := c }] }
  | .advance i => s.move i (Chain.advance last_instant s.now)
  | .return_hook i result => s.move i fun c admission => c.return_hook s.now admission result
  | .elapse i => s.move i (Chain.elapse s.now)
  | .cancel i => s.move i Chain.cancel

/-! ## What a stretch can do -/

/-- A hook ended too late, or not well. -/
def Ending.Fails (now deadline : Instant) : Ending → Prop
  | .returned t (.ok ()) => t = now ∧ deadline ≤ now
  | .returned _ (.error _) => True
  | .elapsed _ => True

/-- What a step can do to a chain and the gate. -/
inductive Moves (last_instant now : Instant) (admission : Option ExecutionAdmission) (c : Chain) :
    Option ExecutionAdmission → Chain → Prop
  | idle (hphase : c.phase = .called) (hnone : c.call.route.extensions = []) :
      Moves last_instant now admission c admission (c.go (.returned (.ok ())))
  /-- It is not let in. -/
  | refuse (rejection : Rejection) (hphase : c.phase = .called ∨ c.phase = .initialised)
      (hsome : c.phase = .called → c.call.route.extensions ≠ []) :
      Moves last_instant now admission c admission (c.go (.returned (.error rejection)))
  | initialise (hphase : c.phase = .called) (hsome : c.call.route.extensions ≠ []) :
      Moves last_instant now admission c
        (some (admission.getD ⟨c.call.max_inflight, c.call.max_inflight⟩)) (c.go .initialised)
  /-- There is no semaphore. -/
  | enter {a : ExecutionAdmission} (hphase : c.phase = .initialised) (ha : admission = some a)
      (hlimit : a.configured = c.call.max_inflight) (hopen : a.available = none) :
      Moves last_instant now admission c admission (c.go (.admitted false))
  | take {a : ExecutionAdmission} {n : ℕ} (hphase : c.phase = .initialised)
      (ha : admission = some a) (hlimit : a.configured = c.call.max_inflight)
      (hleft : a.available = some (n + 1)) :
      Moves last_instant now admission c (some { a with available := some n })
        (c.go (.admitted true))
  | begin_ {permit : Bool} (hphase : c.phase = .admitted permit)
      (hlast : now + c.call.chain_budget ≤ last_instant) :
      Moves last_instant now admission c admission { c with
        phase := .looping permit (now + c.call.chain_budget) c.call.route.extensions
        begun := some now }
  /-- It was let in, and runs no hook any more. -/
  | give_up {permit : Bool} (rejection : Rejection)
      (hphase : c.phase = .admitted permit
        ∨ ∃ chain_deadline rest, c.phase = .looping permit chain_deadline rest ∧ rest ≠ []) :
      Moves last_instant now admission c (release permit admission)
        (c.go (.returned (.error rejection)))
  | finish {permit : Bool} {chain_deadline : Instant}
      (hphase : c.phase = .looping permit chain_deadline []) :
      Moves last_instant now admission c (release permit admission) (c.go (.returned (.ok ())))
  /-- It calls the next hook. -/
  | start {permit : Bool} {chain_deadline : Instant} {name : Str} {rest : List Str}
      (reason : String) (hphase : c.phase = .looping permit chain_deadline (name :: rest))
      (hbefore : now < chain_deadline) :
      Moves last_instant now admission c admission { c with
        phase := .awaiting permit chain_deadline rest
          (min ((checked_add last_instant now c.call.hook_budget).getD chain_deadline)
            chain_deadline) reason
        runs := c.runs ++ [⟨name, now, none⟩] }
  /-- The hook returned well and in time. -/
  | on_time {permit : Bool} {chain_deadline deadline : Instant} {rest : List Str} {reason : String}
      (hphase : c.phase = .awaiting permit chain_deadline rest deadline reason)
      (htime : now < deadline) :
      Moves last_instant now admission c admission
        ((c.conclude (.returned now (.ok ()))).go (.looping permit chain_deadline rest))
  /-- It did not. -/
  | fail {permit : Bool} {chain_deadline deadline : Instant} {rest : List Str} {reason : String}
      (ending : Ending) (rejection : Rejection)
      (hphase : c.phase = .awaiting permit chain_deadline rest deadline reason)
      (hfails : ending.Fails now deadline) :
      Moves last_instant now admission c (release permit admission)
        ((c.conclude ending).go (.returned (.error rejection)))
  | cancel (hphase : c.phase.is_over = false) :
      Moves last_instant now admission c (release c.phase.permit admission) (c.go .cancelled)

section Inversion

variable {last_instant now : Instant} {admission admission' : Option ExecutionAdmission}
  {c c' : Chain}

theorem initialise_cases (hphase : c.phase = .called)
    (h : c.initialise admission = (admission', c')) :
    Moves last_instant now admission c admission' c' := by
  unfold Chain.initialise at h
  by_cases hnone : c.call.route.extensions.isEmpty = true
  · rw [if_pos hnone] at h
    cases h
    exact .idle hphase (List.isEmpty_iff.mp hnone)
  · rw [if_neg hnone] at h
    have hsome : c.call.route.extensions ≠ [] := fun hnil => hnone (List.isEmpty_iff.mpr hnil)
    split at h
    · cases h
      exact .refuse _ (.inl hphase) fun _ => hsome
    · cases h
      exact .initialise hphase hsome

theorem try_acquire_cases {a a' : ExecutionAdmission} (hphase : c.phase = .initialised)
    (h : c.try_acquire a = (a', c')) : Moves last_instant now (some a) c (some a') c' := by
  have hcalled : c.phase ≠ .called := by
    rw [hphase]
    nofun
  unfold Chain.try_acquire at h
  by_cases hlimit : a.configured = c.call.max_inflight
  · rw [if_neg (not_not.mpr hlimit)] at h
    split at h
    · rename_i hopen
      cases h
      exact .enter hphase rfl hlimit hopen
    · cases h
      exact .refuse _ (.inr hphase) fun h => absurd h hcalled
    · rename_i hleft
      cases h
      exact .take hphase rfl hlimit hleft
  · rw [if_pos hlimit] at h
    cases h
    exact .refuse _ (.inr hphase) fun h => absurd h hcalled

theorem begin_cases {permit : Bool} (hphase : c.phase = .admitted permit)
    (h : c.begin_ last_instant now permit admission = (admission', c')) :
    Moves last_instant now admission c admission' c' := by
  unfold Chain.begin_ checked_add at h
  by_cases hlast : now + c.call.chain_budget ≤ last_instant
  · rw [if_pos hlast] at h
    cases h
    exact .begin_ hphase hlast
  · rw [if_neg hlast] at h
    cases h
    exact .give_up _ (.inl hphase)

theorem next_cases {permit : Bool} {chain_deadline : Instant} {rest : List Str}
    (hphase : c.phase = .looping permit chain_deadline rest)
    (h : c.next last_instant now permit chain_deadline admission rest = (admission', c')) :
    Moves last_instant now admission c admission' c' := by
  cases rest with
  | nil =>
    cases h
    exact .finish hphase
  | cons name rest =>
    have hstop : c.phase = .admitted permit
        ∨ ∃ chain_deadline rest, c.phase = .looping permit chain_deadline rest ∧ rest ≠ [] :=
      .inr ⟨_, _, hphase, List.cons_ne_nil _ _⟩
    rw [Chain.next] at h
    split at h
    · cases h
      exact .give_up _ hstop
    · split at h
      · cases h
        exact .give_up _ hstop
      · rename_i hbefore
        cases h
        exact .start _ hphase (Nat.lt_of_not_le hbefore)

theorem advance_cases (h : c.advance last_instant now admission = some (admission', c')) :
    Moves last_instant now admission c admission' c' := by
  unfold Chain.advance at h
  split at h
  · rename_i hphase
    exact initialise_cases hphase (Option.some.inj h)
  · rename_i hphase
    obtain ⟨a, rfl, htaken⟩ := Option.map_eq_some_iff.mp h
    cases hacquire : c.try_acquire a with
    | mk a' c₁ =>
      rw [hacquire] at htaken
      cases htaken
      exact try_acquire_cases hphase hacquire
  · rename_i permit hphase
    exact begin_cases hphase (Option.some.inj h)
  · rename_i permit chain_deadline rest hphase
    exact next_cases hphase (Option.some.inj h)
  · cases h
  · cases h
  · cases h

theorem return_hook_cases {result : Except Rejection Unit}
    (h : c.return_hook now admission result = some (admission', c')) :
    Moves last_instant now admission c admission' c' := by
  unfold Chain.return_hook at h
  split at h
  · rename_i permit chain_deadline rest deadline reason hphase
    by_cases hlate : deadline ≤ now
    · rw [if_pos hlate] at h
      cases h
      refine .fail (.returned now result) _ hphase ?_
      cases result with
      | ok u => exact ⟨rfl, hlate⟩
      | error rejection => trivial
    · rw [if_neg hlate] at h
      cases result with
      | ok u =>
        cases h
        exact .on_time hphase (Nat.lt_of_not_le hlate)
      | error rejection =>
        cases h
        exact .fail _ _ hphase trivial
  · cases h

theorem elapse_cases (h : c.elapse now admission = some (admission', c')) :
    Moves last_instant now admission c admission' c' := by
  unfold Chain.elapse at h
  split at h
  · rename_i permit chain_deadline rest deadline reason hphase
    obtain ⟨-, h⟩ := eq_of_guarded h
    cases h
    exact .fail (.elapsed now) _ hphase trivial
  · cases h

theorem cancel_cases (h : c.cancel admission = some (admission', c')) :
    Moves last_instant now admission c admission' c' := by
  unfold Chain.cancel at h
  split at h
  · cases h
  · rename_i hover
    cases h
    exact .cancel (Bool.eq_false_of_not_eq_true hover)

end Inversion

/-- **What a step can do**: the clock goes on, a chain is called, or one of the chains moves. -/
theorem step_cases {last_instant : Instant} {s s' : State} {e : Event}
    (h : step last_instant s e = some s') :
    (∃ d, s.now + d ≤ last_instant ∧ s' = { s with now := s.now + d })
      ∨ (∃ call, s' = { s with chains := s.chains ++ [{ call := call }] })
      ∨ ∃ i c admission c', s.chains[i]? = some c
        ∧ Moves last_instant s.now s.admission c admission c'
        ∧ s' = { s with admission := admission, chains := s.chains.set i c' } := by
  have hmove : ∀ {i : ℕ} {f}, s.move i f = some s' →
      (∀ c admission c', f c s.admission = some (admission, c') →
        Moves last_instant s.now s.admission c admission c') →
      ∃ i c admission c', s.chains[i]? = some c
        ∧ Moves last_instant s.now s.admission c admission c'
        ∧ s' = { s with admission := admission, chains := s.chains.set i c' } := by
    intro i f h hf
    obtain ⟨c, hc, h⟩ := Option.bind_eq_some_iff.mp h
    obtain ⟨⟨admission, c'⟩, hmoved, rfl⟩ := Option.map_eq_some_iff.mp h
    exact ⟨i, c, admission, c', hc, hf c admission c' hmoved, rfl⟩
  cases e with
  | tick d =>
    obtain ⟨hle, rfl⟩ := eq_of_guarded h
    exact .inl ⟨d, hle, rfl⟩
  | call c =>
    cases h
    exact .inr (.inl ⟨c, rfl⟩)
  | advance i => exact .inr (.inr (hmove h fun _ _ _ => advance_cases))
  | return_hook i result =>
    exact .inr (.inr (@hmove i (fun c admission => c.return_hook s.now admission result) h
      fun _ _ _ => return_hook_cases))
  | elapse i => exact .inr (.inr (hmove h fun _ _ _ => elapse_cases))
  | cancel i => exact .inr (.inr (hmove h fun _ _ _ => cancel_cases))

end Lagos.Extensions
