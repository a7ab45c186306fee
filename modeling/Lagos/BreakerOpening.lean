/-
When a closed circuit opens (`CircuitBreaker::record_failure_at`).

The rule the configuration speaks of is about failures that lie close together: so many in a row
within `window`. The breaker does not keep the times of failures. It keeps one count and the
start of one window; a failure that comes more than `window` after the start begins a new one,
and what was counted is forgotten, however recent. So a burst is missed where a window begins
inside it, and nowhere else.

The rule is stated on the reports alone (`Burst`), and so is where windows begin
(`window_from`). A success clears the count and leaves the window.
-/
import Lagos.BreakerRun

set_option autoImplicit false

open RustStd

namespace Lagos.Breaker.Opening

/-! ## Reports to a closed circuit -/

/-- A report, and when it is made. -/
inductive Call where
  | success (now : Instant)
  | failure (now : Instant)
  deriving DecidableEq, Repr

def Call.at : Call → Instant
  | .success now | .failure now => now

/-- The operation a report calls. -/
def record (cfg : CircuitBreakerConfig) (inner : Inner) : Call → Inner
  | .success now => record_success_at cfg inner now
  | .failure now => record_failure_at cfg inner now

/-- The breaker after some reports. -/
def after (cfg : CircuitBreakerConfig) (inner : Inner) (calls : List Call) : Inner :=
  calls.foldl (record cfg) inner

/-- The failures since the last success, the latest first. -/
def failure_run (calls : List Call) : List Instant :=
  calls.foldl (fun run call => match call with
    | .success _ => []
    | .failure now => now :: run) []

/-- The last `k` failures without a success between them, the one at `now` included. -/
def last_failures (k : UInt32) (calls : List Call) (now : Instant) : List Instant :=
  (now :: failure_run calls).take k.toNat

/-- The rule: the failure at `now` is the last of `failures` ones in a row that lie within
`window`. -/
structure Burst (cfg : CircuitBreakerConfig) (calls : List Call) (now : Instant) : Prop where
  enough : (last_failures cfg.failures calls now).length = cfg.failures.toNat
  close : ∀ f ∈ last_failures cfg.failures calls now,
    saturating_duration_since now f ≤ cfg.window

/-- The start of the window after some reports: each failure that comes more than `window` after
a start is the next one. -/
def window_from (window : Duration) (start : Instant) (calls : List Call) : Instant :=
  calls.foldl (fun start call => match call with
    | .success _ => start
    | .failure now => if saturating_duration_since now start > window then now else start) start

/-- A window begins inside the burst that ends at `now`. -/
def SplitBurst (cfg : CircuitBreakerConfig) (start : Instant) (calls : List Call)
    (now : Instant) : Prop :=
  Burst cfg calls now ∧ ∃ f ∈ last_failures cfg.failures calls now,
    f < window_from cfg.window start (calls ++ [.failure now])

/-- The breaker opens as the rule says: at every failure that finds it closed. -/
def OpensByRule (cfg : CircuitBreakerConfig) (inner : Inner) (calls : List Call) : Prop :=
  ∀ before now rest, calls = before ++ .failure now :: rest →
    (after cfg inner before).state = .Closed →
      ((record_failure_at cfg (after cfg inner before) now).state = .Open ↔ Burst cfg before now)

/-- No burst is split while the breaker is closed. -/
def NoSplitBurst (cfg : CircuitBreakerConfig) (inner : Inner) (calls : List Call) : Prop :=
  ∀ before now rest, calls = before ++ .failure now :: rest →
    (after cfg inner before).state = .Closed → ¬ SplitBurst cfg inner.window_started before now

/-! ## Times, the latest first -/

/-- So many are no earlier than `t` when the latest so many are. -/
theorem le_countP_iff {l : List Instant} (hl : l.Pairwise (· ≥ ·)) (t : Instant) (k : ℕ) :
    k ≤ l.countP (fun f => t ≤ f) ↔ k ≤ l.length ∧ ∀ f ∈ l.take k, t ≤ f := by
  induction l generalizing k with
  | nil => simp
  | cons a l ih =>
    obtain ⟨ha, hl⟩ := List.pairwise_cons.mp hl
    cases k with
    | zero => simp
    | succ k =>
      rw [List.countP_cons, List.length_cons, List.take_succ_cons, List.forall_mem_cons]
      by_cases hat : t ≤ a
      · rw [if_pos (decide_eq_true hat), Nat.succ_le_succ_iff, Nat.succ_le_succ_iff, ih hl]
        simp only [hat, true_and]
      · -- Nothing before `a` is late enough either.
        have hnone : l.countP (fun f => t ≤ f) = 0 := by
          rw [List.countP_eq_zero]
          intro f hf
          have := ha f hf
          simp only [decide_eq_true_eq]
          lia
        rw [hnone]
        simp [hat]

theorem failure_run_success (calls : List Call) (now : Instant) :
    failure_run (calls ++ [.success now]) = [] := by
  simp [failure_run]

theorem failure_run_failure (calls : List Call) (now : Instant) :
    failure_run (calls ++ [.failure now]) = now :: failure_run calls := by
  simp [failure_run]

theorem window_from_success (window : Duration) (start : Instant) (calls : List Call)
    (now : Instant) :
    window_from window start (calls ++ [.success now]) = window_from window start calls := by
  simp [window_from]

theorem window_from_failure (window : Duration) (start : Instant) (calls : List Call)
    (now : Instant) :
    window_from window start (calls ++ [.failure now]) =
      if saturating_duration_since now (window_from window start calls) > window then now
      else window_from window start calls := by
  simp [window_from]

theorem after_concat (cfg : CircuitBreakerConfig) (inner : Inner) (calls : List Call)
    (call : Call) :
    after cfg inner (calls ++ [call]) = record cfg (after cfg inner calls) call := by
  simp [after]

/-- Reports at nondecreasing times, the breaker's window having started before them. -/
def InOrder (start : Instant) (calls : List Call) : Prop :=
  (start :: calls.map Call.at).Pairwise (· ≤ ·)

theorem InOrder.of_append {start : Instant} {calls more : List Call}
    (h : InOrder start (calls ++ more)) : InOrder start calls := by
  unfold InOrder at *
  rw [List.map_append, ← List.cons_append] at h
  exact (List.pairwise_append.mp h).1

theorem InOrder.le_last {start : Instant} {calls : List Call} {call : Call}
    (h : InOrder start (calls ++ [call])) : ∀ t ∈ start :: calls.map Call.at, t ≤ call.at := by
  unfold InOrder at h
  rw [List.map_append, ← List.cons_append] at h
  intro t ht
  exact (List.pairwise_append.mp h).2.2 t ht call.at List.mem_cons_self

/-! ## The invariant -/

/-- What a closed breaker has in its two fields, by the reports. -/
structure Counting (cfg : CircuitBreakerConfig) (start : Instant) (calls : List Call)
    (inner : Inner) : Prop where
  closed : inner.state = .Closed
  window_started : inner.window_started = window_from cfg.window start calls
  failures : inner.failures.toNat
    = (failure_run calls).countP (fun f => window_from cfg.window start calls ≤ f)
  below : inner.failures.toNat < cfg.failures.toNat
  /-- Every failure found its window open, or began one. -/
  in_window : ∀ f ∈ failure_run calls,
    saturating_duration_since f (window_from cfg.window start calls) ≤ cfg.window
  sorted : (failure_run calls).Pairwise (· ≥ ·)
  reported : ∀ f ∈ failure_run calls, f ∈ calls.map Call.at
  started : window_from cfg.window start calls ∈ start :: calls.map Call.at

variable {cfg : CircuitBreakerConfig} {start : Instant} {calls : List Call} {inner : Inner}

/-- What a failure makes of the two fields. -/
theorem Counting.failure (h : Counting cfg start calls inner) {now : Instant}
    (horder : InOrder start (calls ++ [.failure now])) :
    (roll_window cfg inner now).window_started
        = window_from cfg.window start (calls ++ [.failure now]) ∧
      (saturating_add (roll_window cfg inner now).failures 1).toNat
        = (now :: failure_run calls).countP
          (fun f => window_from cfg.window start (calls ++ [.failure now]) ≤ f) ∧
      ∀ f ∈ now :: failure_run calls, saturating_duration_since f
        (window_from cfg.window start (calls ++ [.failure now])) ≤ cfg.window := by
  have hle := horder.le_last
  have hmax := toNat_le_max cfg.failures
  have hbelow := h.below
  rw [window_from_failure, roll_window, h.window_started]
  by_cases hroll : saturating_duration_since now (window_from cfg.window start calls) > cfg.window
  · -- A new window: what was counted was before it, or it would have begun one itself.
    have hearlier : ∀ f ∈ failure_run calls, f < now := by
      intro f hf
      have hin := h.in_window f hf
      have hlast := hle f (List.mem_cons_of_mem start (h.reported f hf))
      simp only [saturating_duration_since, Call.at] at hin hroll hlast
      lia
    rw [if_pos hroll, if_pos hroll]
    refine ⟨rfl, ?_, ?_⟩
    · have hnone : (failure_run calls).countP (fun f => now ≤ f) = 0 := by
        rw [List.countP_eq_zero]
        intro f hf
        have := hearlier f hf
        simp only [decide_eq_true_eq]
        lia
      rw [List.countP_cons, hnone, toNat_saturating_add]
      simp [U32_MAX]
    · intro f hf
      have hlast : f ≤ now := by
        obtain rfl | hf := List.mem_cons.mp hf
        · exact Nat.le_refl _
        · exact Nat.le_of_lt (hearlier f hf)
      rw [saturating_duration_since, Nat.sub_eq_zero_of_le hlast]
      exact Nat.zero_le _
  · have hstart : window_from cfg.window start calls ≤ now := hle _ h.started
    rw [if_neg hroll, if_neg hroll]
    refine ⟨h.window_started, ?_, ?_⟩
    · rw [List.countP_cons, if_pos (decide_eq_true hstart), toNat_saturating_add, h.failures]
      have := h.failures
      change min (_ + 1) _ = _
      omega
    · exact List.forall_mem_cons.mpr ⟨not_lt.mp hroll, h.in_window⟩

/-- **A closed breaker opens at a burst that no window begins in.** -/
theorem Counting.opens_iff (h : Counting cfg start calls inner) {now : Instant}
    (horder : InOrder start (calls ++ [.failure now])) :
    (record_failure_at cfg inner now).state = .Open ↔
      Burst cfg calls now ∧ ∀ f ∈ last_failures cfg.failures calls now,
        window_from cfg.window start (calls ++ [.failure now]) ≤ f := by
  obtain ⟨-, hcount, hin⟩ := h.failure horder
  have hlast := horder.le_last
  have hsorted : (now :: failure_run calls).Pairwise (· ≥ ·) := by
    refine List.pairwise_cons.mpr ⟨?_, h.sorted⟩
    intro f hf
    exact hlast f (List.mem_cons_of_mem start (h.reported f hf))
  have hopen : (record_failure_at cfg inner now).state = .Open ↔
      cfg.failures.toNat ≤ (saturating_add (roll_window cfg inner now).failures 1).toNat := by
    have htrip : trips_next cfg inner now = true ↔
        cfg.failures.toNat ≤ (saturating_add (roll_window cfg inner now).failures 1).toNat := by
      rw [trips_next, decide_eq_true_eq, ge_iff_le, UInt32.le_iff_toNat_le]
    rw [(record_failure_at_closed cfg inner now h.closed).1, ← htrip]
    cases trips_next cfg inner now <;> simp
  rw [hopen, hcount, le_countP_iff hsorted, last_failures]
  constructor
  · rintro ⟨hlen, hwithin⟩
    refine ⟨⟨?_, ?_⟩, hwithin⟩
    · rw [last_failures, List.length_take, Nat.min_eq_left hlen]
    · intro f hf
      -- Both are in the one window, and `f` is not before its start.
      have hnow := hin now List.mem_cons_self
      have hf := hwithin f hf
      simp only [saturating_duration_since] at hnow ⊢
      lia
  · rintro ⟨⟨hlen, -⟩, hwithin⟩
    rw [last_failures, List.length_take] at hlen
    exact ⟨by omega, hwithin⟩

/-- A moment on record stays on record. -/
theorem mem_times_concat {t : Instant} (call : Call) (ht : t ∈ start :: calls.map Call.at) :
    t ∈ start :: (calls ++ [call]).map Call.at := by
  rw [List.map_append, ← List.cons_append]
  exact List.mem_append_left _ ht

/-- A success ends the run of failures, and leaves the window. -/
theorem Counting.success (hk : 1 ≤ cfg.failures) (h : Counting cfg start calls inner)
    (now : Instant) :
    Counting cfg start (calls ++ [.success now]) (record_success_at cfg inner now) := by
  rw [record_success_at_closed cfg inner now h.closed]
  have hrun := failure_run_success calls now
  have hwin := window_from_success cfg.window start calls now
  constructor
  · exact h.closed
  · rw [hwin]
    exact h.window_started
  · rw [hrun]
    rfl
  · exact UInt32.le_iff_toNat_le.mp hk
  · rw [hrun]
    simp
  · rw [hrun]
    exact List.Pairwise.nil
  · rw [hrun]
    simp
  · rw [hwin]
    exact mem_times_concat _ h.started

/-- A failure that does not trip the breaker is counted. -/
theorem Counting.counted (h : Counting cfg start calls inner) {now : Instant}
    (horder : InOrder start (calls ++ [.failure now])) (htrip : trips_next cfg inner now = false) :
    Counting cfg start (calls ++ [.failure now]) (record_failure_at cfg inner now) := by
  obtain ⟨hstarted, hcount, hin⟩ := h.failure horder
  have hlast := horder.le_last
  have hlt : ¬ saturating_add (roll_window cfg inner now).failures 1 ≥ cfg.failures := by
    simpa [trips_next] using htrip
  have hrecord : record_failure_at cfg inner now = { roll_window cfg inner now with
      failures := saturating_add (roll_window cfg inner now).failures 1 } := by
    simp only [record_failure_at, h.closed]
    rw [if_neg hlt]
  have hrun := failure_run_failure calls now
  rw [hrecord]
  constructor
  · exact (roll_window_state cfg inner now).trans h.closed
  · exact hstarted
  · rw [hrun]
    exact hcount
  · exact UInt32.lt_iff_toNat_lt.mp (UInt32.not_le.mp hlt)
  · rw [hrun]
    exact hin
  · -- The latest failure comes first.
    rw [hrun]
    refine List.pairwise_cons.mpr ⟨?_, h.sorted⟩
    intro f hf
    exact hlast f (List.mem_cons_of_mem start (h.reported f hf))
  · rw [hrun]
    refine List.forall_mem_cons.mpr ⟨by simp [Call.at], ?_⟩
    intro f hf
    simpa using Or.inl (List.mem_map.mp (h.reported f hf))
  · rw [window_from_failure]
    split
    · simp [Call.at]
    · exact mem_times_concat _ h.started

/-- A report finds the breaker open and leaves it so, or keeps the invariant. -/
theorem Counting.record (hk : 1 ≤ cfg.failures) (h : Counting cfg start calls inner) {call : Call}
    (horder : InOrder start (calls ++ [call])) :
    (record cfg inner call).state = .Open ∨
      Counting cfg start (calls ++ [call]) (record cfg inner call) := by
  cases call with
  | success now => exact .inr (h.success hk now)
  | failure now =>
    change (record_failure_at cfg inner now).state = .Open ∨
      Counting cfg start (calls ++ [.failure now]) (record_failure_at cfg inner now)
    cases htrip : trips_next cfg inner now with
    | true =>
      left
      rw [(record_failure_at_closed cfg inner now h.closed).1, if_pos htrip]
    | false => exact .inr (h.counted horder htrip)

/-! ## Every run -/

/-- A closed breaker that has counted nothing: one that was just made, or has just closed again. -/
structure Fresh (inner : Inner) : Prop where
  closed : inner.state = .Closed
  failures : inner.failures = 0

theorem fresh_new (now : Instant) : Fresh (new now) := ⟨rfl, rfl⟩

/-- Closing leaves nothing counted. -/
theorem fresh_of_closes {now : Instant} (hs : inner.state = .HalfOpen)
    (hc : (record_success_at cfg inner now).state = .Closed) :
    Fresh (record_success_at cfg inner now) := by
  cases hclose : closes_next cfg inner with
  | true =>
    rw [record_success_at_closes cfg inner now hs hclose]
    exact ⟨rfl, rfl⟩
  | false =>
    rw [record_success_at_counts cfg inner now hs hclose] at hc
    rw [hs] at hc
    cases hc

/-- **Every run of reports** to a fresh breaker keeps the invariant until it opens, and then
leaves it open. -/
theorem run_counting (hk : 1 ≤ cfg.failures) (hfresh : Fresh inner)
    (horder : InOrder inner.window_started calls) :
    (after cfg inner calls).state = .Open ∨
      Counting cfg inner.window_started calls (after cfg inner calls) := by
  induction calls using List.reverseRecOn with
  | nil =>
    right
    have hk' := UInt32.le_iff_toNat_le.mp hk
    constructor
    · exact hfresh.closed
    · rfl
    · change inner.failures.toNat = 0
      rw [hfresh.failures]
      rfl
    · change inner.failures.toNat < _
      rw [hfresh.failures]
      exact hk'
    · simp [failure_run]
    · exact List.Pairwise.nil
    · simp [failure_run]
    · exact List.mem_cons_self
  | append_singleton calls call ih =>
    rw [after_concat]
    obtain hopen | hcount := ih horder.of_append
    · left
      cases call with
      | success now =>
        exact (congrArg Inner.state (record_at_open cfg _ now .success hopen)).trans hopen
      | failure now =>
        exact (congrArg Inner.state (record_at_open cfg _ now .failure hopen)).trans hopen
    · exact hcount.record hk horder

/-- **The opening rule.** A breaker opens as its configuration says, at every failure of a run,
if and only if no burst of the run is split between two windows. -/
theorem opens_by_rule_iff (cfg : CircuitBreakerConfig) (hk : 1 ≤ cfg.failures) (inner : Inner)
    (hfresh : Fresh inner) (calls : List Call) (horder : InOrder inner.window_started calls) :
    OpensByRule cfg inner calls ↔ NoSplitBurst cfg inner calls := by
  refine forall_congr' fun before => forall_congr' fun now => forall_congr' fun rest =>
    forall_congr' fun hcalls => forall_congr' fun hclosed => ?_
  rw [hcalls, List.append_cons] at horder
  have hbefore : InOrder inner.window_started before := horder.of_append.of_append
  obtain hopen | hcount := run_counting hk hfresh hbefore
  · rw [hopen] at hclosed
    cases hclosed
  · rw [hcount.opens_iff horder.of_append, SplitBurst]
    constructor
    · rintro hrule ⟨hburst, f, hf, hearly⟩
      exact absurd ((hrule.mpr hburst).2 f hf) (Nat.not_le_of_lt hearly)
    · intro hsplit
      refine ⟨And.left, fun hburst => ⟨hburst, ?_⟩⟩
      intro f hf
      by_contra hearly
      exact hsplit ⟨hburst, f, hf, Nat.lt_of_not_le hearly⟩

/-- A burst in the window the breaker was made in. -/
def burst : List Call :=
  [.failure 1000000000, .success 2000000000, .failure 3000000000, .failure 4000000000,
    .failure 5000000000]

theorem opens_by_rule_iff_burst :
    OpensByRule tested (new 0) burst ↔ NoSplitBurst tested (new 0) burst :=
  opens_by_rule_iff tested (by decide) (new 0) (fresh_new 0) burst
    (by unfold InOrder; decide)

/-- A burst on both sides of the thirtieth second after the breaker was made. -/
def split_burst : List Call := [.failure 20000000000, .failure 31000000000, .failure 32000000000]

/-- Three failures within twelve seconds, and the circuit stays closed. -/
theorem not_opens_by_rule_split_burst :
    ¬ OpensByRule tested (new 0) split_burst := by
  intro h
  have hrule := h [.failure 20000000000, .failure 31000000000] 32000000000 [] rfl (by decide)
  have hburst : Burst tested [.failure 20000000000, .failure 31000000000] 32000000000 :=
    ⟨by decide, by decide⟩
  exact absurd (hrule.mpr hburst) (by decide)

end Lagos.Breaker.Opening
