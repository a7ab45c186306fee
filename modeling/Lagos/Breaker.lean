/-
The circuit breaker: `breaker.rs` as the code computes it.

`Inner` is the state behind the mutex and the five operations are the five
critical sections, each a function from the state it locks to the state it
leaves. `CircuitBreaker` copies the five fields of its configuration and never
writes them again, so the configuration is a parameter here and not part of the
state.

The lock makes every operation atomic, and that is all concurrency does to this
component: a run of the breaker is a list of operations in the order in which
they took the lock. What the breaker cannot see is *which* request a report
comes from. That is the subject of `BreakerRun`; this file only says what each
operation does to the state it finds, one lemma per operation and state.
-/
import Lagos.Lib.RustStd

set_option autoImplicit false

open RustStd

namespace Lagos.Breaker

/-! ## The state -/

/-- `breaker::State`. -/
inductive State where
  | Closed
  | Open
  | HalfOpen
  deriving DecidableEq, Repr

/-- `CircuitBreakerConfig`, the part of the configuration a breaker copies. -/
structure CircuitBreakerConfig where
  failures : UInt32
  window : Duration
  cooldown : Duration
  successes_to_close : UInt32
  max_trials : UInt32
  deriving DecidableEq, Repr

/-- What `ResolvedConfig` demands of every `circuit_breaker` block: opening must
take a failure, and closing must be possible. -/
def CircuitBreakerConfig.accepted (cfg : CircuitBreakerConfig) : Bool :=
  cfg.failures != 0 && !(cfg.successes_to_close == 0 || cfg.max_trials == 0)

/-- The fields behind the mutex. -/
structure Inner where
  state : State
  /-- Failures counted since `window_started`. -/
  failures : UInt32
  window_started : Instant
  /-- When the circuit last opened; the cooldown counts from here. -/
  opened_at : Instant
  /-- Successful trials since entering half-open. -/
  trial_successes : UInt32
  /-- Trials the breaker believes are out. -/
  trials_in_flight : UInt32
  deriving DecidableEq, Repr

/-- `CircuitBreaker::new`, at the clock reading it takes. -/
def new (now : Instant) : Inner where
  state := .Closed
  failures := 0
  window_started := now
  opened_at := now
  trial_successes := 0
  trials_in_flight := 0

/-! ## The operations -/

/-- `CircuitBreaker::allow_at`: whether to send this request upstream. -/
def allow_at (cfg : CircuitBreakerConfig) (inner : Inner) (now : Instant) : Bool × Inner :=
  match inner.state with
  | .Closed => (true, inner)
  | .Open =>
    if saturating_duration_since now inner.opened_at < cfg.cooldown then
      (false, inner)
    else
      -- the request that finds the cooldown over is the first trial
      (true, { inner with state := .HalfOpen, trial_successes := 0, trials_in_flight := 1 })
  | .HalfOpen =>
    if inner.trials_in_flight ≥ cfg.max_trials then
      (false, inner)
    else
      (true, { inner with trials_in_flight := saturating_add inner.trials_in_flight 1 })

/-- `CircuitBreaker::cancel`: give a trial's slot back without counting it. -/
def cancel (inner : Inner) : Inner :=
  if inner.state = .HalfOpen then
    { inner with trials_in_flight := saturating_sub inner.trials_in_flight 1 }
  else inner

/-- `CircuitBreaker::record_success_at`. The clock reading is not used. -/
def record_success_at (cfg : CircuitBreakerConfig) (inner : Inner) (_now : Instant) : Inner :=
  match inner.state with
  | .Closed => { inner with failures := 0 }
  | .HalfOpen =>
    -- whose success it is cannot be told here: every one counts as a trial's
    let inner := { inner with
      trials_in_flight := saturating_sub inner.trials_in_flight 1
      trial_successes := saturating_add inner.trial_successes 1 }
    if inner.trial_successes ≥ cfg.successes_to_close then
      { inner with state := .Closed, failures := 0, trial_successes := 0, trials_in_flight := 0 }
    else inner
  -- a straggler; the circuit has opened since it was admitted
  | .Open => inner

/-- The first half of a failure report to a closed circuit: a run of failures
older than the window is forgotten. -/
def roll_window (cfg : CircuitBreakerConfig) (inner : Inner) (now : Instant) : Inner :=
  if saturating_duration_since now inner.window_started > cfg.window then
    { inner with window_started := now, failures := 0 }
  else inner

/-- `CircuitBreaker::record_failure_at`. -/
def record_failure_at (cfg : CircuitBreakerConfig) (inner : Inner) (now : Instant) : Inner :=
  match inner.state with
  | .Closed =>
    -- only a closed circuit counts failures over a window
    let inner := roll_window cfg inner now
    let inner := { inner with failures := saturating_add inner.failures 1 }
    if inner.failures ≥ cfg.failures then
      { inner with state := .Open, opened_at := now }
    else inner
  | .HalfOpen =>
    { inner with state := .Open, opened_at := now, trial_successes := 0, trials_in_flight := 0 }
  | .Open => inner

/-- How a request reports: the three ways `Gateway::logging` ends a request the
breaker admitted. -/
inductive Outcome where
  | success
  | failure
  | cancel
  deriving DecidableEq, Repr

/-- The operation an outcome calls. -/
def record_at (cfg : CircuitBreakerConfig) (inner : Inner) (now : Instant) : Outcome → Inner
  | .success => record_success_at cfg inner now
  | .failure => record_failure_at cfg inner now
  | .cancel => cancel inner

/-! ## What each operation does -/

section Specs

variable (cfg : CircuitBreakerConfig) (inner : Inner) (now : Instant)

/-- Everything an admission can do: let a request through a closed circuit, turn
a cooled-down open one half-open with this request as its first trial, or give
out one more trial while fewer than the cap are believed to be out. -/
theorem allow_at_admits {inner' : Inner} (h : allow_at cfg inner now = (true, inner')) :
    (inner.state = .Closed ∧ inner' = inner) ∨
    (inner.state = .Open ∧
      inner' = { inner with state := .HalfOpen, trial_successes := 0, trials_in_flight := 1 }) ∨
    (inner.state = .HalfOpen ∧ inner.trials_in_flight < cfg.max_trials ∧
      inner' = { inner with trials_in_flight := saturating_add inner.trials_in_flight 1 }) := by
  unfold allow_at at h
  split at h
  · rename_i hs
    exact .inl ⟨hs, (Prod.mk.inj h).2.symm⟩
  · rename_i hs
    split at h
    · exact absurd (Prod.mk.inj h).1 (by simp)
    · exact .inr (.inl ⟨hs, (Prod.mk.inj h).2.symm⟩)
  · rename_i hs
    split at h
    · exact absurd (Prod.mk.inj h).1 (by simp)
    · rename_i hlt
      exact .inr (.inr ⟨hs, UInt32.not_le.mp hlt, (Prod.mk.inj h).2.symm⟩)

/-- A refusal leaves the breaker as it was. -/
theorem allow_at_refuses {inner' : Inner} (h : allow_at cfg inner now = (false, inner')) :
    inner' = inner ∧ inner.state ≠ .Closed := by
  unfold allow_at at h
  split at h
  · exact absurd (Prod.mk.inj h).1 (by simp)
  · rename_i hs
    split at h
    · -- open, and the cooldown is not over
      exact ⟨(Prod.mk.inj h).2.symm, by simp [hs]⟩
    · exact absurd (Prod.mk.inj h).1 (by simp)
  · rename_i hs
    split at h
    · exact ⟨(Prod.mk.inj h).2.symm, by simp [hs]⟩
    · exact absurd (Prod.mk.inj h).1 (by simp)

/-- A half-open circuit with a slot to give gives it. The count cannot saturate: it
stays below a cap that is itself a `u32`. -/
theorem allow_at_takes_slot (h : inner.state = .HalfOpen)
    (hlt : inner.trials_in_flight < cfg.max_trials) :
    ∃ inner', allow_at cfg inner now = (true, inner') ∧ inner'.state = .HalfOpen
      ∧ inner'.trials_in_flight.toNat = inner.trials_in_flight.toNat + 1
      ∧ inner'.trial_successes = inner.trial_successes := by
  have hlt' := UInt32.lt_iff_toNat_lt.mp hlt
  -- Below a cap that is a `u32` the sum cannot reach `u32::MAX`.
  have hu32 := toNat_le_max cfg.max_trials
  refine ⟨{ inner with trials_in_flight := saturating_add inner.trials_in_flight 1 },
    ?_, h, ?_, rfl⟩
  · simp only [allow_at, h]
    rw [if_neg (UInt32.not_le.mpr hlt)]
  · rw [toNat_saturating_add, show (1 : UInt32).toNat = 1 from rfl]
    omega

/-- An admission or a refusal leaves a half-open circuit half-open. -/
theorem allow_at_stays_half_open (h : inner.state = .HalfOpen) :
    (allow_at cfg inner now).2.state = .HalfOpen := by
  simp only [allow_at, h]
  split <;> simp [h]

/-- An open circuit takes no report. -/
theorem record_at_open (o : Outcome) (h : inner.state = .Open) :
    record_at cfg inner now o = inner := by
  cases o <;> simp [record_at, record_success_at, record_failure_at, cancel, h]

/-- One success away from closing: the next success report closes the circuit. -/
def closes_next : Bool :=
  saturating_add inner.trial_successes 1 ≥ cfg.successes_to_close

/-- The success that completes the evidence closes the circuit and clears it. -/
theorem record_success_at_closes (h : inner.state = .HalfOpen)
    (hc : closes_next cfg inner = true) :
    record_success_at cfg inner now
      = { inner with state := .Closed, failures := 0, trial_successes := 0,
                     trials_in_flight := 0 } := by
  simp only [closes_next, decide_eq_true_eq] at hc
  simp only [record_success_at, h, ge_iff_le]
  rw [if_pos hc]

/-- Every other success gives one slot back and counts once. -/
theorem record_success_at_counts (h : inner.state = .HalfOpen)
    (hc : closes_next cfg inner = false) :
    record_success_at cfg inner now
      = { inner with trials_in_flight := saturating_sub inner.trials_in_flight 1
                     trial_successes := saturating_add inner.trial_successes 1 } := by
  simp only [closes_next, decide_eq_false_iff_not] at hc
  simp only [record_success_at, h, ge_iff_le]
  rw [if_neg hc]

/-- A success report to a closed circuit ends the run of failures. -/
theorem record_success_at_closed (h : inner.state = .Closed) :
    record_success_at cfg inner now = { inner with failures := 0 } := by
  simp only [record_success_at, h]

/-- One failure from a half-open circuit opens it. -/
theorem record_failure_at_half_open (h : inner.state = .HalfOpen) :
    record_failure_at cfg inner now
      = { inner with state := .Open, opened_at := now, trial_successes := 0,
                     trials_in_flight := 0 } := by
  simp only [record_failure_at, h]

/-- Whether a failure reported now would be the one that trips a closed circuit. -/
def trips_next : Bool :=
  saturating_add (roll_window cfg inner now).failures 1 ≥ cfg.failures

@[simp] theorem roll_window_state : (roll_window cfg inner now).state = inner.state := by
  unfold roll_window
  split <;> rfl

@[simp] theorem roll_window_trial_successes :
    (roll_window cfg inner now).trial_successes = inner.trial_successes := by
  unfold roll_window
  split <;> rfl

@[simp] theorem roll_window_trials_in_flight :
    (roll_window cfg inner now).trials_in_flight = inner.trials_in_flight := by
  unfold roll_window
  split <;> rfl

/-- A failure report to a closed circuit opens it exactly when it trips it, and
touches neither trial counter either way. -/
theorem record_failure_at_closed (h : inner.state = .Closed) :
    (record_failure_at cfg inner now).state
        = (if trips_next cfg inner now then .Open else .Closed)
      ∧ (record_failure_at cfg inner now).trial_successes = inner.trial_successes
      ∧ (record_failure_at cfg inner now).trials_in_flight = inner.trials_in_flight := by
  -- Rolling the window touches neither the state nor the trial counters.
  simp only [record_failure_at, h, trips_next, decide_eq_true_eq]
  split <;> simp [h]

/-- Cancelling gives a slot back in a half-open circuit and does nothing in any
other. -/
theorem cancel_half_open (h : inner.state = .HalfOpen) :
    cancel inner
      = { inner with trials_in_flight := saturating_sub inner.trials_in_flight 1 } := by
  simp only [cancel, h, if_true]

theorem cancel_closed (h : inner.state = .Closed) : cancel inner = inner := by
  simp [cancel, h]

end Specs

end Lagos.Breaker
