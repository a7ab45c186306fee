/-
The breaker under any interleaving of requests.

`Breaker` is one component and its lock; this file puts the requests around it.
A request calls `allow_at` once; if admitted it holds a `Ticket` until it reports
exactly one outcome, at any later time and in any order with the others. The
ticket is what the breaker does not keep: the request's number, how often the
circuit had opened when it was admitted (its `epoch`) and whether it was let
through as a trial. Between two openings there is at most one half-open episode,
so an epoch names its episode.

Both questions asked of such runs turn on one kind of report, that of a request
admitted before the circuit last opened. The code drops it while the circuit is
open and treats it as a trial's while the circuit is half-open. `keeps_cap` and
`stale_harmless` say when that does no harm, `half_open_cap_of_keeps_cap` and
`attributed_iff_stale_harmless` that nothing else can go wrong.
-/
import Lagos.Breaker
import Lagos.Lib.Run
import Mathlib.Data.List.Count

set_option autoImplicit false

open RustStd StepRun

namespace Lagos.Breaker

/-! ## Requests around a breaker -/

/-- What is known of an admitted request until it reports. -/
structure Ticket where
  request : ℕ
  /-- How often the circuit had opened when the request was admitted. -/
  epoch : ℕ
  /-- Whether it was admitted to a half-open circuit. -/
  trial : Bool
  deriving DecidableEq, Repr

/-- A report that was made, and the state it found. -/
structure Report where
  ticket : Ticket
  outcome : Outcome
  found : State
  deriving DecidableEq, Repr

/-- A breaker and the requests in flight. -/
structure Circuit where
  inner : Inner
  clock : Instant
  /-- Requests that have called `allow_at` so far; the next one's number. -/
  requests : ℕ
  /-- How often the circuit has opened. -/
  epoch : ℕ
  inflight : List Ticket
  /-- Every report so far, newest first. -/
  reports : List Report
  deriving DecidableEq, Repr

/-- One operation on the breaker, at a clock reading. -/
inductive Event where
  | allow (now : Instant)
  | report (ticket : Ticket) (outcome : Outcome) (now : Instant)
  deriving DecidableEq, Repr

/-- A new breaker with nothing in flight. -/
def start (now : Instant) : Circuit where
  inner := new now
  clock := now
  requests := 0
  epoch := 0
  inflight := []
  reports := []

/-- The circuit once a new request has had its answer `r` from `allow_at`. -/
def Circuit.answered (c : Circuit) (r : Bool × Inner) (now : Instant) : Circuit :=
  { c with
    inner := r.2
    clock := now
    requests := c.requests + 1
    inflight :=
      if r.1 then ⟨c.requests, c.epoch, r.2.state = .HalfOpen⟩ :: c.inflight else c.inflight }

/-- The circuit once `t` has reported `o`, leaving the breaker in `inner`. -/
def Circuit.reported (c : Circuit) (t : Ticket) (o : Outcome) (inner : Inner) (now : Instant) :
    Circuit :=
  { c with
    inner := inner
    clock := now
    -- an open circuit does not open again: its stragglers are dropped
    epoch := if c.inner.state ≠ .Open ∧ inner.state = .Open then c.epoch + 1 else c.epoch
    inflight := c.inflight.erase t
    reports := ⟨t, o, c.inner.state⟩ :: c.reports }

/-- One step. Time does not run backwards, and only a request in flight reports. -/
def step (cfg : CircuitBreakerConfig) (c : Circuit) : Event → Option Circuit
  | .allow now =>
    if c.clock ≤ now then some (c.answered (allow_at cfg c.inner now) now) else none
  | .report t o now =>
    if c.clock ≤ now ∧ t ∈ c.inflight then
      some (c.reported t o (record_at cfg c.inner now o) now)
    else none

/-- A request admitted as a trial of the episode the circuit is in. -/
def Circuit.current (c : Circuit) (t : Ticket) : Bool := t.trial && t.epoch == c.epoch

/-- A request admitted before the circuit last opened. -/
def Circuit.stale (c : Circuit) (t : Ticket) : Prop := t.epoch < c.epoch

instance (c : Circuit) (t : Ticket) : Decidable (c.stale t) :=
  inferInstanceAs (Decidable (_ < _))

/-- Trials of the current episode that have not reported. -/
def Circuit.outstanding (c : Circuit) : ℕ := c.inflight.countP c.current

/-- Success reports that trials of episode `k` made to a half-open circuit. -/
def Circuit.evidence (c : Circuit) (k : ℕ) : ℕ :=
  c.reports.countP fun r =>
    r.outcome = .success && r.found = .HalfOpen && r.ticket.trial && r.ticket.epoch == k

variable {cfg : CircuitBreakerConfig}

theorem step_allow {c c' : Circuit} {now : Instant} :
    step cfg c (.allow now) = some c'
      ↔ c.clock ≤ now ∧ c' = c.answered (allow_at cfg c.inner now) now := by
  constructor
  · intro h
    exact eq_of_guarded h
  · rintro ⟨h, rfl⟩
    exact if_pos h

theorem step_report {c c' : Circuit} {t : Ticket} {o : Outcome} {now : Instant} :
    step cfg c (.report t o now) = some c'
      ↔ (c.clock ≤ now ∧ t ∈ c.inflight)
        ∧ c' = c.reported t o (record_at cfg c.inner now o) now := by
  constructor
  · intro h
    exact eq_of_guarded h
  · rintro ⟨h, rfl⟩
    exact if_pos h

/-! ## What the tickets always satisfy -/

/-- The tickets agree with the breaker about where they were issued. No ticket is
from the future; an open circuit has issued none since it opened; and a half-open
one has issued nothing but trials. -/
structure Tracked (c : Circuit) : Prop where
  epoch_le : ∀ t ∈ c.inflight, t.epoch ≤ c.epoch
  open_fresh : c.inner.state = .Open → ∀ t ∈ c.inflight, t.epoch < c.epoch
  half_open_trial : c.inner.state = .HalfOpen → ∀ t ∈ c.inflight, t.epoch = c.epoch →
    t.trial = true

theorem tracked_start (now : Instant) : Tracked (start now) where
  epoch_le := by simp [start]
  open_fresh := by simp [start]
  half_open_trial := by simp [start]

/-- In a half-open circuit a request in flight is either a trial of this episode
or stale. -/
theorem Tracked.current_or_stale {c : Circuit} (hc : Tracked c) (hs : c.inner.state = .HalfOpen)
    {t : Ticket} (ht : t ∈ c.inflight) : c.current t = true ∨ c.stale t := by
  rcases Nat.lt_or_ge t.epoch c.epoch with hlt | hge
  · exact .inr hlt
  · have heq : t.epoch = c.epoch := Nat.le_antisymm (hc.epoch_le t ht) hge
    exact .inl (by simp [Circuit.current, heq, hc.half_open_trial hs t ht heq])

/-- A current trial is not stale. -/
theorem not_stale_of_current {c : Circuit} {t : Ticket} (h : c.current t = true) :
    ¬ c.stale t := by
  simp only [Circuit.current, Bool.and_eq_true, beq_iff_eq] at h
  simp only [Circuit.stale]
  omega

theorem tracked_answered {c : Circuit} (hc : Tracked c) (now : Instant) :
    Tracked (c.answered (allow_at cfg c.inner now) now) := by
  -- A refusal adds no ticket; an admission adds one of the present epoch.
  rcases hr : allow_at cfg c.inner now with ⟨b, inner⟩
  cases b with
  | false =>
    obtain ⟨rfl, -⟩ := allow_at_refuses _ _ _ hr
    exact ⟨hc.epoch_le, hc.open_fresh, hc.half_open_trial⟩
  | true =>
    have hadm := allow_at_admits _ _ _ hr
    refine ⟨?_, ?_, ?_⟩
    · simpa [Circuit.answered] using hc.epoch_le
    · -- an admission never leaves the circuit open
      intro hopen
      rcases hadm with ⟨hs, rfl⟩ | ⟨-, rfl⟩ | ⟨hs, -, rfl⟩
      · simp [Circuit.answered, hs] at hopen
      · simp [Circuit.answered] at hopen
      · simp [Circuit.answered, hs] at hopen
    · intro hhalf t ht
      simp only [Circuit.answered, if_true, List.mem_cons] at hhalf ht
      rcases ht with rfl | ht
      · simp [hhalf]
      · intro heq
        -- an older ticket: the circuit was half-open before, or was open and had only stale ones
        rcases hadm with ⟨hs, rfl⟩ | ⟨hs, rfl⟩ | ⟨hs, -, rfl⟩
        · exact hc.half_open_trial hhalf t ht heq
        · exact absurd heq (Nat.ne_of_lt (hc.open_fresh hs t ht))
        · exact hc.half_open_trial hs t ht heq

/-- A report leaves a half-open circuit half-open, or closes or opens it; it never
makes one half-open. -/
theorem record_at_half_open {inner : Inner} {now : Instant} {o : Outcome}
    (h : (record_at cfg inner now o).state = .HalfOpen) : inner.state = .HalfOpen := by
  -- Only a report to a closed circuit could make it something else, and it opens it.
  cases hs : inner.state with
  | HalfOpen => rfl
  | Open => rw [record_at_open _ _ _ _ hs, hs] at h; cases h
  | Closed =>
    cases o with
    | success => simp [record_at, record_success_at_closed _ _ _ hs, hs] at h
    | cancel => simp [record_at, cancel_closed _ hs, hs] at h
    | failure =>
      rw [record_at, (record_failure_at_closed _ _ _ hs).1] at h
      split at h <;> cases h

theorem tracked_reported {c : Circuit} (hc : Tracked c) {t : Ticket} {o : Outcome}
    {now : Instant} : Tracked (c.reported t o (record_at cfg c.inner now o) now) := by
  -- What is still in flight was in flight before.
  have hsub : ∀ u ∈ c.inflight.erase t, u ∈ c.inflight := fun u hu => List.mem_of_mem_erase hu
  refine ⟨?_, ?_, ?_⟩
  · intro u hu
    have hle := hc.epoch_le u (hsub u hu)
    simp only [Circuit.reported]
    split <;> omega
  · intro hopen u hu
    have hle := hc.epoch_le u (hsub u hu)
    simp only [Circuit.reported] at hopen ⊢
    split
    · omega
    · -- it was open already, so nothing changed hands
      rename_i hne
      have hs : c.inner.state = .Open := by
        by_contra hns
        exact hne ⟨hns, hopen⟩
      exact hc.open_fresh hs u (hsub u hu)
  · intro hhalf u hu
    have hs := record_at_half_open hhalf
    simp only [Circuit.reported] at hhalf ⊢
    rw [if_neg (by simp [hhalf])]
    exact hc.half_open_trial hs u (hsub u hu)

theorem step_tracked {c c' : Circuit} {e : Event} (hc : Tracked c)
    (h : step cfg c e = some c') : Tracked c' := by
  cases e with
  | allow now =>
    rw [step_allow] at h
    rw [h.2]
    exact tracked_answered hc now
  | report t o now =>
    rw [step_report] at h
    rw [h.2]
    exact tracked_reported hc

theorem run_tracked {now : Instant} {es : List Event} {c : Circuit}
    (h : run (step cfg) (start now) es = some c) : Tracked c :=
  run_invariant_always (tracked_start now) (fun _ _ _ hc => step_tracked hc) h

/-- A report that leaves the circuit out of the open state takes its own ticket
out of the count of outstanding trials, and no other. -/
theorem outstanding_reported {c : Circuit} {t : Ticket} {o : Outcome} {inner : Inner}
    {now : Instant} (ht : t ∈ c.inflight) (hne : inner.state ≠ .Open) :
    (c.reported t o inner now).outstanding
      = c.outstanding - (if c.current t then 1 else 0) := by
  -- The circuit does not open, so the epoch and with it `current` stay the same.
  have hcur : (c.reported t o inner now).current = c.current := by
    funext u
    simp [Circuit.current, Circuit.reported, hne]
  rw [Circuit.outstanding, hcur]
  simp [Circuit.reported, Circuit.outstanding, List.countP_erase, ht]

/-- An admission to a circuit that is half-open afterwards adds one trial. -/
theorem outstanding_admitted {c : Circuit} {inner : Inner} {now : Instant}
    (hs : inner.state = .HalfOpen) :
    (c.answered (true, inner) now).outstanding = c.outstanding + 1 := by
  have hcur : (c.answered (true, inner) now).current = c.current := rfl
  rw [Circuit.outstanding, hcur]
  simp [Circuit.answered, Circuit.outstanding, Circuit.current, hs]

/-- An open circuit has no trial outstanding: what is in flight is from before. -/
theorem Tracked.outstanding_open {c : Circuit} (hc : Tracked c) (hs : c.inner.state = .Open) :
    c.outstanding = 0 := by
  rw [Circuit.outstanding, List.countP_eq_zero]
  intro u hu hcur
  exact not_stale_of_current hcur (hc.open_fresh hs u hu)

/-! ## The half-open cap -/

/-- The report does not give away a slot it never held: a stale success or cancel
that reaches a half-open circuit finds no slot taken, or is the success that
closes the circuit. -/
def keeps_cap (cfg : CircuitBreakerConfig) (c : Circuit) : Event → Prop
  | .allow _ => True
  | .report t o _ =>
    c.stale t → c.inner.state = .HalfOpen → o ≠ .failure →
      (o = .success ∧ closes_next cfg c.inner = true) ∨ c.inner.trials_in_flight = 0

instance (c : Circuit) (e : Event) : Decidable (keeps_cap cfg c e) := by
  cases e <;> unfold keeps_cap <;> infer_instance

/-- The slots the breaker counts are the trials outstanding, and within the cap. -/
def Slots (cfg : CircuitBreakerConfig) (c : Circuit) : Prop :=
  c.inner.state = .HalfOpen →
    c.inner.trials_in_flight.toNat = c.outstanding
      ∧ c.inner.trials_in_flight.toNat ≤ cfg.max_trials.toNat

theorem slots_answered {c : Circuit} (hmax : 1 ≤ cfg.max_trials) (hc : Tracked c)
    (hslots : Slots cfg c) (now : Instant) :
    Slots cfg (c.answered (allow_at cfg c.inner now) now) := by
  intro hhalf
  rcases hr : allow_at cfg c.inner now with ⟨b, inner⟩
  rw [hr] at hhalf
  cases b with
  | false =>
    obtain ⟨rfl, -⟩ := allow_at_refuses _ _ _ hr
    exact hslots hhalf
  | true =>
    rcases allow_at_admits _ _ _ hr with ⟨hs, rfl⟩ | ⟨hs, rfl⟩ | ⟨hs, hlt, -⟩
    · simp [Circuit.answered, hs] at hhalf
    · -- the first trial: everything still in flight is from before the opening
      rw [outstanding_admitted rfl, hc.outstanding_open hs]
      exact ⟨rfl, UInt32.le_iff_toNat_le.mp hmax⟩
    · obtain ⟨heq, hle⟩ := hslots hs
      have hlt' := UInt32.lt_iff_toNat_lt.mp hlt
      obtain ⟨inner', hr', hs', hslot, -⟩ := allow_at_takes_slot cfg c.inner now hs hlt
      obtain rfl : inner' = inner := congrArg Prod.snd (hr'.symm.trans hr)
      rw [outstanding_admitted hs', ← heq, ← hslot]
      exact ⟨rfl, by simp only [Circuit.answered]; omega⟩

theorem slots_reported {c : Circuit} (hc : Tracked c) (hslots : Slots cfg c) {t : Ticket}
    {o : Outcome} {now : Instant} (ht : t ∈ c.inflight)
    (hok : keeps_cap cfg c (.report t o now)) :
    Slots cfg (c.reported t o (record_at cfg c.inner now o) now) := by
  intro hhalf
  have hs : c.inner.state = .HalfOpen := record_at_half_open hhalf
  obtain ⟨heq, hle⟩ := hslots hs
  have h1 : (1 : UInt32).toNat = 1 := rfl
  -- a success that does not close and a cancel both give back one slot
  have hback : o ≠ .failure ∧ ¬ (o = .success ∧ closes_next cfg c.inner = true) ∧
      (record_at cfg c.inner now o).trials_in_flight
        = saturating_sub c.inner.trials_in_flight 1 := by
    cases o with
    | failure =>
      simp [Circuit.reported, record_at, record_failure_at_half_open _ _ _ hs] at hhalf
    | cancel => simp [record_at, cancel_half_open _ hs]
    | success =>
      cases hcl : closes_next cfg c.inner with
      | true =>
        simp [Circuit.reported, record_at, record_success_at_closes _ _ _ hs hcl] at hhalf
      | false => simp [record_at, record_success_at_counts _ _ _ hs hcl]
  obtain ⟨hnf, hncl, hslot⟩ := hback
  have hne : (record_at cfg c.inner now o).state ≠ .Open := by
    intro hopen
    rw [show (c.reported t o (record_at cfg c.inner now o) now).inner.state
      = (record_at cfg c.inner now o).state from rfl, hopen] at hhalf
    cases hhalf
  rw [outstanding_reported ht hne]
  show (record_at cfg c.inner now o).trials_in_flight.toNat = _
    ∧ (record_at cfg c.inner now o).trials_in_flight.toNat ≤ _
  rw [hslot, toNat_saturating_sub, h1]
  refine ⟨?_, by omega⟩
  -- A current trial gives back its own slot; a stale report finds none to give back.
  rcases hc.current_or_stale hs ht with hcur | hst
  · simp only [hcur, if_true]
    omega
  · have hzero : c.inner.trials_in_flight = 0 := (hok hst hs hnf).resolve_left hncl
    have hz : c.inner.trials_in_flight.toNat = 0 := by rw [hzero]; rfl
    omega

theorem step_slots {c c' : Circuit} {e : Event} (hmax : 1 ≤ cfg.max_trials)
    (h : Tracked c ∧ Slots cfg c) (hok : keeps_cap cfg c e) (hstep : step cfg c e = some c') :
    Tracked c' ∧ Slots cfg c' := by
  refine ⟨step_tracked h.1 hstep, ?_⟩
  cases e with
  | allow now =>
    rw [step_allow] at hstep
    rw [hstep.2]
    exact slots_answered hmax h.1 h.2 now
  | report t o now =>
    rw [step_report] at hstep
    rw [hstep.2]
    exact slots_reported h.1 h.2 hstep.1.2 hok

theorem run_slots (hmax : 1 ≤ cfg.max_trials) {now : Instant} {es : List Event} {c : Circuit}
    (hrun : run (step cfg) (start now) es = some c)
    (hok : Along (step cfg) (keeps_cap cfg) (start now) es) : Tracked c ∧ Slots cfg c :=
  run_invariant ⟨tracked_start now, fun h => by simp [start, new] at h⟩
    (fun _ _ _ => step_slots hmax) hrun hok

/-- **The half-open cap.** In every run none of whose reports gives away a slot it
never held, the trials of a half-open circuit's episode that have not reported
are never more than `max_trials`. -/
theorem half_open_cap_of_keeps_cap (cfg : CircuitBreakerConfig) (hmax : 1 ≤ cfg.max_trials)
    (now : Instant) (es : List Event) (c : Circuit)
    (hrun : run (step cfg) (start now) es = some c)
    (hok : Along (step cfg) (keeps_cap cfg) (start now) es)
    (hs : c.inner.state = .HalfOpen) : c.outstanding ≤ cfg.max_trials.toNat := by
  obtain ⟨heq, hle⟩ := (run_slots hmax hrun hok).2 hs
  rw [← heq]
  exact hle

/-- The configuration of the breaker's own tests. -/
def tested : CircuitBreakerConfig where
  failures := 3
  window := 30000000000
  cooldown := 10000000000
  successes_to_close := 2
  max_trials := 1

/-- Three failures open the circuit and, eleven seconds later, a trial goes out. -/
def tripped_run : List Event :=
  [.allow 0, .allow 0, .allow 0, .allow 0,
   .report ⟨1, 0, false⟩ .failure 0, .report ⟨2, 0, false⟩ .failure 0,
   .report ⟨3, 0, false⟩ .failure 0, .allow 11000000000]

theorem half_open_cap_of_keeps_cap_tripped :
    ∃ c, run (step tested) (start 0) tripped_run = some c ∧ c.inner.state = .HalfOpen
      ∧ c.outstanding ≤ tested.max_trials.toNat := by
  obtain ⟨c, hc⟩ : ∃ c, run (step tested) (start 0) tripped_run = some c :=
    Option.isSome_iff_exists.mp (by decide)
  have hs : c.inner.state = .HalfOpen := by
    have h : (run (step tested) (start 0) tripped_run).map (·.inner.state) = some .HalfOpen := by
      decide
    rw [hc] at h
    exact Option.some.inj h
  exact ⟨c, hc, hs, half_open_cap_of_keeps_cap tested (by decide) 0 tripped_run c hc (by decide) hs⟩

/-- The request admitted before the circuit opened succeeds at last, and its slot,
which it never held, is given out again. -/
def late_success_run : List Event :=
  tripped_run ++ [.report ⟨0, 0, false⟩ .success 11000000000, .allow 11000000000]

/-- Without the condition the cap does not hold: two trials of one episode are out
at once under a cap of one. -/
theorem half_open_cap_late_success :
    ¬ ∀ (cfg : CircuitBreakerConfig), 1 ≤ cfg.max_trials →
      ∀ (now : Instant) (es : List Event) (c : Circuit),
        run (step cfg) (start now) es = some c → c.inner.state = .HalfOpen →
          c.outstanding ≤ cfg.max_trials.toNat := by
  intro hcap
  obtain ⟨c, hc⟩ : ∃ c, run (step tested) (start 0) late_success_run = some c :=
    Option.isSome_iff_exists.mp (by decide)
  -- The run is computed: half-open, with two trials out.
  have hfacts : (run (step tested) (start 0) late_success_run).map
      (fun c => (c.inner.state, c.outstanding)) = some (.HalfOpen, 2) := by decide
  rw [hc, Option.map_some, Option.some.injEq, Prod.mk.injEq] at hfacts
  have hle := hcap tested (by decide) 0 late_success_run c hc hfacts.1
  rw [hfacts.2] at hle
  exact absurd hle (by decide)

/-- A half-open circuit keeps admitting until it believes the cap is reached. -/
theorem fill_slots (n : ℕ) {c : Circuit} (hs : c.inner.state = .HalfOpen)
    (hn : c.inner.trials_in_flight.toNat + n ≤ cfg.max_trials.toNat) :
    ∃ d, run (step cfg) c (List.replicate n (.allow c.clock)) = some d
      ∧ d.inner.state = .HalfOpen ∧ d.outstanding = c.outstanding + n := by
  induction n generalizing c with
  | zero => exact ⟨c, rfl, hs, rfl⟩
  | succ n ih =>
    -- There is a slot left as long as there are admissions to make.
    have hlt : c.inner.trials_in_flight < cfg.max_trials :=
      UInt32.lt_iff_toNat_lt.mpr (by omega)
    obtain ⟨inner, hallow, hs', hslot, -⟩ := allow_at_takes_slot cfg c.inner c.clock hs hlt
    have hstep : step cfg c (.allow c.clock) = some (c.answered (true, inner) c.clock) :=
      step_allow.mpr ⟨Nat.le_refl _, by rw [hallow]⟩
    obtain ⟨d, hrun, hd, hout⟩ := ih (c := c.answered (true, inner) c.clock) hs'
      (by simp only [Circuit.answered]; omega)
    refine ⟨d, ?_, hd, ?_⟩
    · rw [List.replicate_succ, run_cons, hstep]
      exact hrun
    · rw [hout, outstanding_admitted hs']
      omega

/-- The condition leaves out nothing that is harmless: after the first report that
gives away a slot it never held, admissions alone take the circuit over its cap. -/
theorem cap_exceeded_of_not_keeps_cap (hmax : 1 ≤ cfg.max_trials) {now : Instant}
    {es : List Event} {c c' : Circuit} {e : Event}
    (hrun : run (step cfg) (start now) es = some c)
    (hok : Along (step cfg) (keeps_cap cfg) (start now) es)
    (hbad : ¬ keeps_cap cfg c e) (hstep : step cfg c e = some c') :
    ∃ fs d, run (step cfg) c' fs = some d ∧ d.inner.state = .HalfOpen
      ∧ cfg.max_trials.toNat < d.outstanding := by
  obtain ⟨hc, hslots⟩ := run_slots hmax hrun hok
  cases e with
  | allow now => exact absurd trivial hbad
  | report t o now =>
    simp only [keeps_cap, Classical.not_imp, not_or] at hbad
    obtain ⟨hst, hs, hnf, hncl, hpos⟩ := hbad
    obtain ⟨heq, hle⟩ := hslots hs
    obtain ⟨⟨-, ht⟩, rfl⟩ := step_report.mp hstep
    -- the report gives back a slot and stays half-open
    have hinner : (record_at cfg c.inner now o).state = .HalfOpen ∧
        (record_at cfg c.inner now o).trials_in_flight
          = saturating_sub c.inner.trials_in_flight 1 := by
      cases o with
      | failure => exact absurd rfl hnf
      | cancel => simp [record_at, cancel_half_open _ hs, hs]
      | success =>
        have hcl : closes_next cfg c.inner = false := by
          cases h : closes_next cfg c.inner with
          | false => rfl
          | true => exact absurd ⟨rfl, h⟩ hncl
        simp [record_at, record_success_at_counts _ _ _ hs hcl, hs]
    have hposN : c.inner.trials_in_flight.toNat ≠ 0 := fun h =>
      hpos (UInt32.toNat_inj.mp h)
    -- The slot is given back, but the trial that holds it is still out.
    have hslot : (c.reported t o (record_at cfg c.inner now o) now).inner.trials_in_flight.toNat
        = c.inner.trials_in_flight.toNat - 1 := by
      show (record_at cfg c.inner now o).trials_in_flight.toNat = _
      rw [hinner.2, toNat_saturating_sub, show (1 : UInt32).toNat = 1 from rfl]
    have hout : (c.reported t o (record_at cfg c.inner now o) now).outstanding
        = c.outstanding := by
      rw [outstanding_reported ht (by simp [hinner.1]), if_neg, Nat.sub_zero]
      exact fun hcur => not_stale_of_current hcur hst
    -- So filling the circuit to its cap brings one more out than there may be.
    obtain ⟨d, hd, hds, hdo⟩ := @fill_slots cfg
      (cfg.max_trials.toNat - (c.inner.trials_in_flight.toNat - 1))
      (c.reported t o (record_at cfg c.inner now o) now) hinner.1 (by omega)
    exact ⟨_, d, hd, hds, by omega⟩

/-! ## Whose evidence moves the circuit -/

/-- A stale report that leaves the circuit alone: it finds the circuit open, or
closed and does not trip it, or half-open and cancels where no slot is taken. -/
def stale_harmless (cfg : CircuitBreakerConfig) (c : Circuit) : Event → Prop
  | .allow _ => True
  | .report t o now =>
    c.stale t →
      match c.inner.state with
      | .Open => True
      | .Closed => ¬ (o = .failure ∧ trips_next cfg c.inner now = true)
      | .HalfOpen => o = .cancel ∧ c.inner.trials_in_flight = 0

instance (c : Circuit) (e : Event) : Decidable (stale_harmless cfg c e) := by
  cases e with
  | allow now => exact isTrue trivial
  | report t o now =>
    unfold stale_harmless
    cases c.inner.state <;> infer_instance

/-- A report leaves the state and both trial counters as they were. -/
def Unmoved (inner inner' : Inner) : Prop :=
  inner'.state = inner.state ∧ inner'.trial_successes = inner.trial_successes
    ∧ inner'.trials_in_flight = inner.trials_in_flight

/-- What a step may owe to whom. A half-open circuit closes only on enough success
reports of trials of its own episode, opens only on a failure of one of them, and
no report of a request from before the last opening moves the state or either
trial counter. -/
structure Attributed (cfg : CircuitBreakerConfig) (c : Circuit) (e : Event) : Prop where
  closes : ∀ c' ∈ step cfg c e, c.inner.state = .HalfOpen → c'.inner.state = .Closed →
    cfg.successes_to_close.toNat ≤ c'.evidence c.epoch
  opens : ∀ c' ∈ step cfg c e, c.inner.state = .HalfOpen → c'.inner.state = .Open →
    ∃ t now, e = .report t .failure now ∧ t.trial = true ∧ t.epoch = c.epoch
  ignores : ∀ c' ∈ step cfg c e, ∀ t o now, e = .report t o now → c.stale t →
    Unmoved c.inner c'.inner

/-- The successes a half-open circuit has counted were all reported by trials of
its episode. -/
def Counted (c : Circuit) : Prop :=
  c.inner.state = .HalfOpen → c.inner.trial_successes.toNat ≤ c.evidence c.epoch

/-- Reporting adds one to the evidence of an episode exactly when it is a success
of one of its trials and finds the circuit half-open. -/
theorem evidence_reported (c : Circuit) (t : Ticket) (o : Outcome) (inner : Inner)
    (now : Instant) (k : ℕ) :
    (c.reported t o inner now).evidence k
      = c.evidence k + (if o = .success ∧ c.inner.state = .HalfOpen ∧ t.trial = true
          ∧ t.epoch = k then 1 else 0) := by
  simp only [Circuit.evidence, Circuit.reported, List.countP_cons]
  congr 1
  simp [and_assoc]

/-- A cancel is lost on a half-open circuit exactly when no slot is taken. -/
theorem unmoved_cancel_iff {inner : Inner} (hs : inner.state = .HalfOpen) :
    Unmoved inner (cancel inner) ↔ inner.trials_in_flight = 0 := by
  rw [Unmoved, cancel_half_open _ hs]
  simp only [true_and]
  constructor
  · intro h
    have hN := congrArg UInt32.toNat h
    rw [toNat_saturating_sub, show (1 : UInt32).toNat = 1 from rfl] at hN
    exact UInt32.toNat_inj.mp (by rw [UInt32.toNat_zero]; omega)
  · intro h
    rw [h]
    rfl

/-- A success is never lost on a half-open circuit: it closes it or is counted, and
the count is below the threshold and so below `u32::MAX`. -/
theorem not_unmoved_success (cfg : CircuitBreakerConfig) {inner : Inner} (now : Instant)
    (hs : inner.state = .HalfOpen) : ¬ Unmoved inner (record_success_at cfg inner now) := by
  intro h
  -- Closing changes the state; not closing changes the count, since it cannot saturate.
  cases hcl : closes_next cfg inner with
  | true =>
    have hstate := h.1
    rw [record_success_at_closes _ _ _ hs hcl, hs] at hstate
    cases hstate
  | false =>
    have hcount := congrArg UInt32.toNat h.2.1
    rw [record_success_at_counts _ _ _ hs hcl] at hcount
    simp only [toNat_saturating_add, show (1 : UInt32).toNat = 1 from rfl] at hcount
    simp only [closes_next, decide_eq_false_iff_not, ge_iff_le, UInt32.le_iff_toNat_le,
      toNat_saturating_add, show (1 : UInt32).toNat = 1 from rfl] at hcl
    have hmax := toNat_le_max cfg.successes_to_close
    omega

/-- `stale_harmless` is, state by state, that the report leaves the circuit
unmoved. -/
theorem unmoved_iff_stale_harmless {c : Circuit} {t : Ticket} (hst : c.stale t) (o : Outcome)
    (now : Instant) :
    Unmoved c.inner (record_at cfg c.inner now o) ↔ stale_harmless cfg c (.report t o now) := by
  simp only [stale_harmless, hst, forall_const]
  cases hs : c.inner.state with
  | Open => simp [record_at_open _ _ _ _ hs, Unmoved]
  | Closed =>
    cases o with
    | success => simp [record_at, record_success_at_closed _ _ _ hs, Unmoved]
    | cancel => simp [record_at, cancel_closed _ hs, Unmoved]
    | failure =>
      obtain ⟨hstate, hsucc, hslot⟩ := record_failure_at_closed cfg c.inner now hs
      simp only [record_at, Unmoved, hstate, hsucc, hslot, hs, and_true, true_and]
      cases trips_next cfg c.inner now <;> simp
  | HalfOpen =>
    cases o with
    | success => simp [record_at, not_unmoved_success cfg now hs]
    | cancel => simp [record_at, unmoved_cancel_iff hs]
    | failure => simp [record_at, record_failure_at_half_open _ _ _ hs, Unmoved, hs]

/-- The success report that closes a half-open circuit is a trial's, and the last
of enough of them. -/
theorem closes_with_evidence {c : Circuit} (hc : Tracked c) (hcount : Counted c) {t : Ticket}
    {o : Outcome} {now : Instant} (ht : t ∈ c.inflight) (hs : c.inner.state = .HalfOpen)
    (hcl : (record_at cfg c.inner now o).state = .Closed)
    (hok : stale_harmless cfg c (.report t o now)) :
    cfg.successes_to_close.toNat
      ≤ (c.reported t o (record_at cfg c.inner now o) now).evidence c.epoch := by
  cases o with
  | failure => simp [record_at, record_failure_at_half_open _ _ _ hs] at hcl
  | cancel => simp [record_at, cancel_half_open _ hs, hs] at hcl
  | success =>
    have hnext : closes_next cfg c.inner = true := by
      cases h : closes_next cfg c.inner with
      | true => rfl
      | false =>
        rw [record_at, record_success_at_counts _ _ _ hs h] at hcl
        simp [hs] at hcl
    -- A stale success to a half-open circuit is never harmless.
    have hcur : c.current t = true := by
      apply (hc.current_or_stale hs ht).resolve_right
      intro hst
      have h := hok hst
      simp [hs] at h
    simp only [Circuit.current, Bool.and_eq_true, beq_iff_eq] at hcur
    rw [evidence_reported, if_pos ⟨rfl, hs, hcur⟩]
    simp only [closes_next, decide_eq_true_eq, ge_iff_le, UInt32.le_iff_toNat_le,
      toNat_saturating_add, show (1 : UInt32).toNat = 1 from rfl] at hnext
    have hle := hcount hs
    omega

/-- The report that opens a half-open circuit is a failure, and a trial's. -/
theorem opens_by_trial {c : Circuit} (hc : Tracked c) {t : Ticket} {o : Outcome} {now : Instant}
    (ht : t ∈ c.inflight) (hs : c.inner.state = .HalfOpen)
    (hop : (record_at cfg c.inner now o).state = .Open)
    (hok : stale_harmless cfg c (.report t o now)) :
    o = .failure ∧ t.trial = true ∧ t.epoch = c.epoch := by
  -- A harmless stale report leaves the state, and this one opened the circuit.
  have hcur : c.current t = true := by
    apply (hc.current_or_stale hs ht).resolve_right
    intro hst
    have hun := (unmoved_iff_stale_harmless hst o now).mpr hok
    rw [hun.1, hs] at hop
    cases hop
  simp only [Circuit.current, Bool.and_eq_true, beq_iff_eq] at hcur
  refine ⟨?_, hcur⟩
  cases o with
  | failure => rfl
  | cancel => simp [record_at, cancel_half_open _ hs, hs] at hop
  | success =>
    cases hcl : closes_next cfg c.inner with
    | true => simp [record_at, record_success_at_closes _ _ _ hs hcl] at hop
    | false => simp [record_at, record_success_at_counts _ _ _ hs hcl, hs] at hop

/-- One step owes what it does to the right requests exactly when it is not a
stale report that moves the circuit. -/
theorem attributed_step_iff {c c' : Circuit} {e : Event} (hc : Tracked c) (hcount : Counted c)
    (hstep : step cfg c e = some c') : Attributed cfg c e ↔ stale_harmless cfg c e := by
  -- `step` is a function, so there is one state to talk about.
  have honly : ∀ d ∈ step cfg c e, d = c' := fun d hd => by
    rw [hstep, Option.mem_some] at hd
    exact hd.symm
  cases e with
  | allow now =>
    obtain ⟨-, rfl⟩ := step_allow.mp hstep
    -- An admission neither closes nor opens a half-open circuit.
    have hstays := allow_at_stays_half_open cfg c.inner now
    refine iff_of_true ⟨?_, ?_, fun _ _ t o n heq => by cases heq⟩ trivial
    · intro d hd hs hcl
      rw [honly d hd] at hcl
      exact absurd ((hstays hs).symm.trans hcl) (by decide)
    · intro d hd hs hop
      rw [honly d hd] at hop
      exact absurd ((hstays hs).symm.trans hop) (by decide)
  | report t o now =>
    obtain ⟨⟨-, ht⟩, rfl⟩ := step_report.mp hstep
    constructor
    · intro hatt hst
      have hmem : c.reported t o (record_at cfg c.inner now o) now
          ∈ step cfg c (.report t o now) := by rw [hstep]; rfl
      exact (unmoved_iff_stale_harmless hst o now).mp (hatt.ignores _ hmem t o now rfl hst) hst
    · intro hok
      refine ⟨?_, ?_, ?_⟩
      · intro d hd hs hcl
        rw [honly d hd] at hcl ⊢
        exact closes_with_evidence hc hcount ht hs hcl hok
      · intro d hd hs hop
        rw [honly d hd] at hop
        obtain ⟨rfl, htrial, hepoch⟩ := opens_by_trial hc ht hs hop hok
        exact ⟨t, now, rfl, htrial, hepoch⟩
      · intro d hd t' o' now' heq hst
        rw [honly d hd]
        cases heq
        exact (unmoved_iff_stale_harmless hst o now).mpr hok

/-- A harmless step keeps the count of successes within the evidence. -/
theorem step_counted {c c' : Circuit} {e : Event} (h : Tracked c ∧ Counted c)
    (hok : stale_harmless cfg c e) (hstep : step cfg c e = some c') :
    Tracked c' ∧ Counted c' := by
  obtain ⟨hc, hcount⟩ := h
  refine ⟨step_tracked hc hstep, ?_⟩
  cases e with
  | allow now =>
    obtain ⟨-, rfl⟩ := step_allow.mp hstep
    intro hhalf
    show (allow_at cfg c.inner now).2.trial_successes.toNat ≤ c.evidence c.epoch
    rcases hr : allow_at cfg c.inner now with ⟨b, inner⟩
    rw [hr] at hhalf
    cases b with
    | false =>
      obtain ⟨rfl, -⟩ := allow_at_refuses _ _ _ hr
      exact hcount hhalf
    | true =>
      -- A new episode starts with no success counted.
      rcases allow_at_admits _ _ _ hr with ⟨hs, rfl⟩ | ⟨-, rfl⟩ | ⟨hs, -, rfl⟩
      · exact hcount hhalf
      · exact Nat.zero_le _
      · exact hcount hs
  | report t o now =>
    obtain ⟨⟨-, ht⟩, rfl⟩ := step_report.mp hstep
    intro hhalf
    have hs : c.inner.state = .HalfOpen := record_at_half_open hhalf
    have hhalf' : (record_at cfg c.inner now o).state = .HalfOpen := hhalf
    have hle := hcount hs
    have hepoch : (c.reported t o (record_at cfg c.inner now o) now).epoch = c.epoch := by
      simp [Circuit.reported, hhalf']
    rw [hepoch, evidence_reported]
    show (record_at cfg c.inner now o).trial_successes.toNat ≤ _
    cases o with
    | failure => simp [record_at, record_failure_at_half_open _ _ _ hs] at hhalf'
    | cancel =>
      rw [record_at, cancel_half_open _ hs]
      exact Nat.le_trans hle (Nat.le_add_right _ _)
    | success =>
      have hcur : c.current t = true := by
        apply (hc.current_or_stale hs ht).resolve_right
        intro hst
        have h := hok hst
        simp [hs] at h
      simp only [Circuit.current, Bool.and_eq_true, beq_iff_eq] at hcur
      rw [if_pos ⟨rfl, hs, hcur⟩]
      -- The success counted is this one, and it is evidence: its report is a current trial's.
      cases hcl : closes_next cfg c.inner with
      | true => simp [record_at, record_success_at_closes _ _ _ hs hcl] at hhalf'
      | false =>
        rw [record_at, record_success_at_counts _ _ _ hs hcl]
        show (saturating_add c.inner.trial_successes 1).toNat ≤ _
        rw [toNat_saturating_add, show (1 : UInt32).toNat = 1 from rfl]
        omega

/-- **Evidence attribution.** Every step of a run owes what it does to the right
requests if and only if every stale report of the run is harmless. -/
theorem attributed_iff_stale_harmless (cfg : CircuitBreakerConfig) (now : Instant)
    (es : List Event) (c : Circuit) (hrun : run (step cfg) (start now) es = some c) :
    Along (step cfg) (Attributed cfg) (start now) es
      ↔ Along (step cfg) (stale_harmless cfg) (start now) es := by
  refine (along_congr (I := fun c => Tracked c ∧ Counted c)
    ⟨tracked_start now, fun h => by simp [start, new] at h⟩
    (fun _ _ _ => step_counted) (fun c e c' h hstep => ?_) hrun).symm
  exact (attributed_step_iff h.1 h.2 hstep).symm

theorem attributed_iff_stale_harmless_tripped :
    Along (step tested) (Attributed tested) (start 0) tripped_run
      ↔ Along (step tested) (stale_harmless tested) (start 0) tripped_run := by
  obtain ⟨c, hc⟩ : ∃ c, run (step tested) (start 0) tripped_run = some c :=
    Option.isSome_iff_exists.mp (by decide)
  exact attributed_iff_stale_harmless tested 0 tripped_run c hc

/-- The request admitted before the circuit opened fails at last and opens it again,
though the only trial is still out. -/
def late_failure_run : List Event := tripped_run ++ [.report ⟨0, 0, false⟩ .failure 11000000000]

/-- Stale reports do move the circuit: not every run is attributed. -/
theorem attributed_late_failure :
    ¬ ∀ (cfg : CircuitBreakerConfig) (now : Instant) (es : List Event) (c : Circuit),
      run (step cfg) (start now) es = some c →
        Along (step cfg) (Attributed cfg) (start now) es := by
  intro hall
  obtain ⟨c, hc⟩ : ∃ c, run (step tested) (start 0) late_failure_run = some c :=
    Option.isSome_iff_exists.mp (by decide)
  obtain ⟨m, hm⟩ : ∃ m, run (step tested) (start 0) tripped_run = some m :=
    Option.isSome_iff_exists.mp (by decide)
  have hlast := ((along_append _).mp (hall tested 0 late_failure_run c hc)).2 m hm
  have hm' : (run (step tested) (start 0) tripped_run).map
      (fun m => (m.inner.state, (step tested m (.report ⟨0, 0, false⟩ .failure 11000000000)).map
        (fun d => d.inner.state), m.epoch)) = some (.HalfOpen, some .Open, 1) := by decide
  rw [hm, Option.map_some, Option.some.injEq, Prod.mk.injEq, Prod.mk.injEq] at hm'
  obtain ⟨hs, hd, hepoch⟩ := hm'
  obtain ⟨d, hd, hopen⟩ := Option.map_eq_some_iff.mp hd
  -- The last step opens a half-open circuit, so it would have to be a trial's.
  obtain ⟨t, n, heq, htrial, -⟩ := hlast.1.opens d hd hs hopen
  cases heq
  cases htrial

end Lagos.Breaker
