/-
The exact limiter over the whole history of a key (`Window::check`, `ratelimit/mod.rs`).

A key's window moves only when a check arrives: by one interval, or, after two, to the check
itself. Every answer is kept here with the window it was given in, and `Counted` says what
the two counts of a window are in terms of the answers so far: the admissions in it, and those
in the window that ended where it starts. The quota, and what a client that waits as long as
it is told will find, follow from that and from one look at `decide`.

The numbers are computed exactly, in `ℚ`.
-/
import Lagos.Lib.TimeSlots
import Lagos.Limiter
import Mathlib.Algebra.Order.BigOperators.Group.List
import Mathlib.Algebra.Order.Floor.Ring
import Mathlib.Algebra.Order.Ring.Nat
import Mathlib.Tactic.FieldSimp
import Mathlib.Tactic.Linarith
import Mathlib.Tactic.Positivity

set_option autoImplicit false

open RustStd

namespace Lagos.RateLimit

/-! ## Decisions in exact arithmetic -/

/-- What `decide` holds against the limit. -/
def estimated (previous current : ℕ) (progress : ℚ) : ℚ := previous * (1 - progress) + current

theorem le_estimated (previous current : ℕ) {progress : ℚ} (h1 : progress ≤ 1) :
    (current : ℚ) ≤ estimated previous current progress := by
  have hweight : 0 ≤ (previous : ℚ) * (1 - progress) :=
    mul_nonneg (Nat.cast_nonneg previous) (sub_nonneg.mpr h1)
  unfold estimated
  linarith

section Decide

variable {previous current limit : ℕ} {progress : ℚ} (interval : Duration)

theorem exact_clamp (h0 : 0 ≤ progress) (h1 : progress ≤ 1) :
    F64.clamp progress (F64.of_nat 0) (F64.of_nat 1) = progress := by
  change (if progress < ((0 : ℕ) : ℚ) then ((0 : ℕ) : ℚ)
    else if ((1 : ℕ) : ℚ) < progress then ((1 : ℕ) : ℚ) else progress) = progress
  rw [Nat.cast_zero, Nat.cast_one, if_neg (not_lt.mpr h0), if_neg (not_lt.mpr h1)]

theorem exact_clamp_mem (x : ℚ) : 0 ≤ F64.clamp x (F64.of_nat 0) (F64.of_nat 1)
    ∧ F64.clamp x (F64.of_nat 0) (F64.of_nat 1) ≤ (1 : ℚ) := by
  change 0 ≤ (if x < ((0 : ℕ) : ℚ) then ((0 : ℕ) : ℚ)
      else if ((1 : ℕ) : ℚ) < x then ((1 : ℕ) : ℚ) else x)
    ∧ (if x < ((0 : ℕ) : ℚ) then ((0 : ℕ) : ℚ)
      else if ((1 : ℕ) : ℚ) < x then ((1 : ℕ) : ℚ) else x) ≤ 1
  rw [Nat.cast_zero, Nat.cast_one]
  split
  · exact ⟨le_refl 0, zero_le_one⟩
  · rename_i h0
    split
    · exact ⟨zero_le_one, le_refl 1⟩
    · rename_i h1
      exact ⟨not_lt.mp h0, not_lt.mp h1⟩

theorem exact_max (x y : ℚ) : F64.max x y = max x y := by
  change (if x < y then y else x) = max x y
  split
  · rename_i h
    exact (max_eq_right h.le).symm
  · rename_i h
    exact (max_eq_left (not_lt.mp h)).symm

theorem exact_ceil (x : ℚ) : F64.ceil x = ((⌈x⌉ : ℤ) : ℚ) := by
  change ((x.ceil : ℤ) : ℚ) = _
  rw [Rat.ceil_eq_neg_floor_neg]
  rfl

/-- A request is refused where the estimate has reached the limit, -/
theorem decide_of_le (h0 : 0 ≤ progress) (h1 : progress ≤ 1)
    (h : (limit : ℚ) ≤ estimated previous current progress) :
    decide previous current progress limit interval =
      { allowed := false
        limit := limit
        remaining := 0
        retry_after := F64.from_secs_f64 (F64.ceil (F64.max
          (F64.max (F64.as_secs_f64 interval) (F64.MIN_POSITIVE : ℚ) * (1 - progress)) 1)) } := by
  have hone : (F64.of_nat 1 : ℚ) = 1 := Nat.cast_one
  have hge : F64.ge ((F64.of_nat previous : ℚ) * (1 - progress) + F64.of_nat current)
      (F64.of_nat limit) = true := decide_eq_true h
  unfold decide
  simp only [exact_clamp h0 h1]
  simp only [hone]
  exact if_pos hge

/-- and admitted where it has not. -/
theorem decide_of_lt (h0 : 0 ≤ progress) (h1 : progress ≤ 1)
    (h : estimated previous current progress < limit) :
    decide previous current progress limit interval =
      { allowed := true
        limit := limit
        remaining := ⌊max ((limit : ℚ) - estimated previous current progress - 1) 0⌋.toNat
        retry_after := 0 } := by
  have hone : (F64.of_nat 1 : ℚ) = 1 := Nat.cast_one
  have hzero : (F64.of_nat 0 : ℚ) = 0 := Nat.cast_zero
  have hge : ¬ F64.ge ((F64.of_nat previous : ℚ) * (1 - progress) + F64.of_nat current)
      (F64.of_nat limit) = true := fun hge => absurd (of_decide_eq_true hge) (not_le.mpr h)
  unfold decide
  simp only [exact_clamp h0 h1]
  simp only [hone, hzero, exact_max]
  exact if_neg hge

theorem decide_allowed (h0 : 0 ≤ progress) (h1 : progress ≤ 1) :
    (decide previous current progress limit interval).allowed = true
      ↔ estimated previous current progress < limit := by
  by_cases h : estimated previous current progress < limit
  · rw [decide_of_lt interval h0 h1 h]
    exact iff_of_true rfl h
  · rw [decide_of_le interval h0 h1 (not_lt.mp h)]
    exact iff_of_false Bool.false_ne_true h

end Decide

/-! ## How far into its window a check is -/

/-- The part of an interval that has gone by. -/
def progress (elapsed interval : Duration) : ℚ := (elapsed : ℚ) / interval

section Progress

variable {elapsed interval : Duration}

theorem progress_nonneg : 0 ≤ progress elapsed interval :=
  div_nonneg (Nat.cast_nonneg _) (Nat.cast_nonneg _)

theorem progress_le_one (h : elapsed ≤ interval) : progress elapsed interval ≤ 1 :=
  div_le_one_of_le₀ (Nat.cast_le.mpr h) (Nat.cast_nonneg _)

/-- An interval is at least a nanosecond, which is more than the smallest `f64`. -/
theorem interval_secs_eq (hi : 0 < interval) :
    F64.max (F64.as_secs_f64 interval) (F64.MIN_POSITIVE : ℚ) = (interval : ℚ) / 1000000000 := by
  have hone : (1 : ℚ) ≤ interval := Nat.one_le_cast.mpr hi
  have hmin : (1 / 2 ^ 1022 : ℚ) ≤ (interval : ℚ) / 1000000000 := by
    have hpow : (1 / 2 ^ 1022 : ℚ) ≤ 1 / 1000000000 := by
      refine one_div_le_one_div_of_le (by norm_num) ?_
      calc (1000000000 : ℚ) ≤ 2 ^ 30 := by norm_num
        _ ≤ 2 ^ 1022 := pow_le_pow_right₀ (by norm_num) (by norm_num)
    have hdiv : (1 / 1000000000 : ℚ) ≤ (interval : ℚ) / 1000000000 :=
      div_le_div_of_nonneg_right hone (by norm_num)
    exact hpow.trans hdiv
  rw [exact_max]
  change max ((interval : ℚ) / (NANOS_PER_SEC : ℕ)) (1 / 2 ^ 1022 : ℚ) = _
  rw [show ((NANOS_PER_SEC : ℕ) : ℚ) = 1000000000 from by norm_num [NANOS_PER_SEC]]
  exact max_eq_left hmin

/-- What `check` computes is the part of the interval that has gone by. -/
theorem check_progress (hi : 0 < interval) (h : elapsed ≤ interval) :
    F64.clamp (F64.as_secs_f64 elapsed
      / F64.max (F64.as_secs_f64 interval) (F64.MIN_POSITIVE : ℚ)) (F64.of_nat 0) (F64.of_nat 1)
      = progress elapsed interval := by
  have hne : (interval : ℚ) ≠ 0 := (Nat.cast_pos.mpr hi).ne'
  have hdiv : (F64.as_secs_f64 elapsed / F64.max (F64.as_secs_f64 interval) (F64.MIN_POSITIVE : ℚ)
      : ℚ) = progress elapsed interval := by
    rw [interval_secs_eq hi]
    change (elapsed : ℚ) / (NANOS_PER_SEC : ℕ) / ((interval : ℚ) / 1000000000) = _
    rw [show ((NANOS_PER_SEC : ℕ) : ℚ) = 1000000000 from by norm_num [NANOS_PER_SEC], progress]
    field_simp
  rw [hdiv]
  exact exact_clamp progress_nonneg (progress_le_one h)

end Progress

/-! ## One check -/

namespace Window

variable {w : Window} {now : Instant} {interval : Duration}

/-- Everything `roll` can do. -/
theorem roll_cases (w : Window) (now : Instant) (hi : 0 < interval) :
    (now < w.start + interval ∧ w.roll now interval = (w, now - w.start)) ∨
    (w.start + interval ≤ now ∧ now < w.start + interval + interval ∧ w.roll now interval
      = (⟨w.start + interval, 0, w.current⟩, now - (w.start + interval))) ∨
    (w.start + interval + interval ≤ now ∧ w.roll now interval = (Window.new now, 0)) := by
  unfold roll saturating_duration_since
  by_cases h2 : now - w.start ≥ 2 * interval
  · exact .inr (.inr ⟨by lia, if_pos h2⟩)
  · by_cases h1 : now - w.start ≥ interval
    · refine .inr (.inl ⟨by lia, by lia, ?_⟩)
      simp only [if_neg h2, if_pos h1, Nat.sub_add_eq]
    · refine .inl ⟨by lia, ?_⟩
      simp only [if_neg h2, if_neg h1]

/-- A rolled window holds the moment it was rolled to. -/
theorem roll_spec (hi : 0 < interval) (hs : w.start ≤ now) :
    (w.roll now interval).1.start ≤ now ∧ now < (w.roll now interval).1.start + interval
      ∧ (w.roll now interval).2 = now - (w.roll now interval).1.start := by
  obtain ⟨hlt, hroll⟩ | ⟨hle, hlt, hroll⟩ | ⟨hle, hroll⟩ := roll_cases w now hi
  · rw [hroll]
    exact ⟨hs, hlt, rfl⟩
  · rw [hroll]
    exact ⟨hle, hlt, rfl⟩
  · rw [hroll]
    exact ⟨Nat.le_refl now, Nat.lt_add_of_pos_right hi, (Nat.sub_self now).symm⟩

theorem new_roll (hi : 0 < interval) : ((Window.new now).roll now interval).1 = Window.new now := by
  obtain ⟨-, hroll⟩ | ⟨hle, -, -⟩ | ⟨hle, -⟩ := roll_cases (Window.new now) now hi
  · rw [hroll]
  · exact absurd (show now + interval ≤ now from hle) (by lia)
  · exact absurd (show now + interval + interval ≤ now from hle) (by lia)

/-- What a window leaves when it admits a request, -/
def count (w : Window) : Window := { w with current := saturating_add_u64 w.current 1 }

/-- and the answer it gives. -/
def answer (w : Window) (now : Instant) (limit : ℕ) (interval : Duration) : Decision :=
  decide w.previous w.current (progress (now - w.start) interval) limit interval

/-- A check is a roll, and an answer of the rolled window. -/
theorem check_eq (hi : 0 < interval) (hs : w.start ≤ now) (limit : ℕ) :
    w.check ℚ now limit interval =
      let r := (w.roll now interval).1
      (if (r.answer now limit interval).allowed then r.count else r,
        r.answer now limit interval) := by
  obtain ⟨hstart, hlt, helapsed⟩ := roll_spec hi hs
  unfold check
  simp only
  rw [helapsed, check_progress hi (by lia)]
  rfl

/-- How far into its window a check is. -/
theorem progress_bounds (hlt : now < w.start + interval) :
    0 ≤ progress (now - w.start) interval ∧ progress (now - w.start) interval ≤ 1 :=
  ⟨progress_nonneg, progress_le_one (by lia)⟩

theorem answer_allowed (hlt : now < w.start + interval) {limit : ℕ} :
    (w.answer now limit interval).allowed = true ↔
      estimated w.previous w.current (progress (now - w.start) interval) < limit :=
  decide_allowed interval (progress_bounds hlt).1 (progress_bounds hlt).2

/-- A window that admits a request has room for it. -/
theorem current_lt_of_allowed (hlt : now < w.start + interval) {limit : ℕ}
    (h : (w.answer now limit interval).allowed = true) : w.current < limit := by
  have hest := (answer_allowed hlt).mp h
  have hle := le_estimated w.previous w.current (progress_bounds hlt).2
  exact_mod_cast hle.trans_lt hest

/-- A limit is a `u64`, so a count below it does not saturate. -/
theorem count_eq {limit : ℕ} (hlimit : limit ≤ U64_MAX) (h : w.current < limit) :
    w.count = ⟨w.start, w.current + 1, w.previous⟩ := by
  have hsat : saturating_add_u64 w.current 1 = w.current + 1 := by
    rw [saturating_add_u64]
    lia
  rw [count, hsat]

end Window

/-! ## The history of a key -/

/-- The answer to a check, with the window it was given in. -/
structure Answer where
  now : Instant
  window : Window
  decision : Decision
  deriving DecidableEq, Repr

/-- A key's window, if it has one, and the answers so far. -/
structure History where
  window : Option Window := none
  answers : List Answer := []
  deriving DecidableEq, Repr

/-- `Limiter::check_exact`, as one key sees it: its first check makes the window. -/
def History.check (limit : ℕ) (interval : Duration) (h : History) (now : Instant) : History :=
  let w := h.window.getD (Window.new now)
  let res := w.check ℚ now limit interval
  { window := some res.1
    answers := h.answers ++ [⟨now, (w.roll now interval).1, res.2⟩] }

/-- The window a check would be decided in, -/
def History.found (interval : Duration) (h : History) (now : Instant) : Window :=
  ((h.window.getD (Window.new now)).roll now interval).1

/-- and the answer it would get. -/
def History.decision (limit : ℕ) (interval : Duration) (h : History) (now : Instant) : Decision :=
  ((h.window.getD (Window.new now)).check ℚ now limit interval).2

/-- What the limiter's store does with a key is its history. -/
theorem Limiter.check_exact_history {ρ : Type} (l : Limiter ρ)
    (windows : AList fun _ : Str => Window) (key : Str) (now : Instant) (h : History)
    (hw : windows.lookup key = h.window) :
    (l.check_exact ℚ windows key now).1.lookup key = (h.check l.limit l.interval now).window ∧
      (l.check_exact ℚ windows key now).2 = h.decision l.limit l.interval now := by
  unfold Limiter.check_exact History.check History.decision
  rw [hw]
  exact ⟨AList.lookup_insert _, rfl⟩

/-- The checks of a key, one after the other. -/
def checks (limit : ℕ) (interval : Duration) (times : List Instant) : History :=
  times.foldl (History.check limit interval) {}

/-- The requests admitted in the window that starts at `start`. -/
def admitted (answers : List Answer) (start : Instant) : ℕ :=
  answers.countP fun a => a.decision.allowed && a.window.start == start

/-- Those of them admitted by progress `p`. -/
def admitted_by (interval : Duration) (answers : List Answer) (start : Instant) (p : ℚ) : ℕ :=
  answers.countP fun a => a.decision.allowed && a.window.start == start
    && Decidable.decide (progress (a.now - start) interval ≤ p)

theorem admitted_concat (answers : List Answer) (a : Answer) (start : Instant) :
    admitted (answers ++ [a]) start = admitted answers start
      + if a.decision.allowed && a.window.start == start then 1 else 0 := by
  rw [admitted, List.countP_append, List.countP_singleton]
  rfl

theorem admitted_by_concat (interval : Duration) (answers : List Answer) (a : Answer)
    (start : Instant) (p : ℚ) :
    admitted_by interval (answers ++ [a]) start p = admitted_by interval answers start p
      + if a.decision.allowed && a.window.start == start
          && Decidable.decide (progress (a.now - start) interval ≤ p) then 1 else 0 := by
  rw [admitted_by, List.countP_append, List.countP_singleton]
  rfl

theorem admitted_by_le (interval : Duration) (answers : List Answer) (start : Instant) (p : ℚ) :
    admitted_by interval answers start p ≤ admitted answers start := by
  refine List.countP_mono_left fun a _ ha => ?_
  exact (Bool.and_eq_true_iff.mp ha).1

/-- Where the answers so far lie. `now` is the last moment anything was asked. -/
structure Placed (interval : Duration) (now : Instant) (w : Window) (answers : List Answer) :
    Prop where
  start_le : w.start ≤ now
  inside : ∀ a ∈ answers, a.window.start ≤ a.now ∧ a.now < a.window.start + interval
  /-- Every answer was given in this window or in one that had ended when this one began. -/
  ended : ∀ a ∈ answers, a.window.start = w.start ∨ a.window.start + interval ≤ w.start
  apart : ∀ a ∈ answers, ∀ b ∈ answers, a.window.start = b.window.start
    ∨ a.window.start + interval ≤ b.window.start ∨ b.window.start + interval ≤ a.window.start

/-- What the counts of a window say, and what holds of every window so far. -/
structure Counted (limit : ℕ) (interval : Duration) (now : Instant) (w : Window)
    (answers : List Answer) : Prop where
  placed : Placed interval now w answers
  current : w.current = admitted answers w.start
  previous : ∀ s, s + interval = w.start → w.previous = admitted answers s
  full : ∀ s, admitted answers s ≤ limit
  weighted : ∀ s p, 0 ≤ p → p ≤ 1 → (admitted_by interval answers (s + interval) p : ℤ)
    ≤ ⌈(limit : ℚ) - admitted answers s * (1 - p)⌉

section Placed

variable {interval : Duration} {t now : Instant} {w : Window} {answers : List Answer}

/-- An answer is given in the window as it is. -/
theorem Placed.concat (h : Placed interval now w answers) (hlt : now < w.start + interval)
    (d : Decision) : Placed interval now w (answers ++ [⟨now, w, d⟩]) where
  start_le := h.start_le
  inside := List.forall_mem_append.mpr
    ⟨h.inside, List.forall_mem_singleton.mpr ⟨h.start_le, hlt⟩⟩
  ended := List.forall_mem_append.mpr ⟨h.ended, List.forall_mem_singleton.mpr (.inl rfl)⟩
  apart := by
    intro a ha b hb
    obtain ha | ha := List.mem_append.mp ha <;> obtain hb | hb := List.mem_append.mp hb
    · exact h.apart a ha b hb
    · rw [List.mem_singleton.mp hb]
      exact (h.ended a ha).imp_right .inl
    · rw [List.mem_singleton.mp ha]
      exact (h.ended b hb).imp Eq.symm .inr
    · rw [List.mem_singleton.mp ha, List.mem_singleton.mp hb]
      exact .inl rfl

/-- Nothing was admitted in a window that begins later. -/
theorem Placed.admitted_later (h : Placed interval t w answers) {s : Instant}
    (hs : w.start < s) : admitted answers s = 0 := by
  refine List.countP_eq_zero.mpr fun a ha hin => ?_
  have hstart : a.window.start = s := by simpa using (Bool.and_eq_true_iff.mp hin).2
  have hended := h.ended a ha
  lia

theorem Placed.admitted_by_later (h : Placed interval t w answers) {s : Instant}
    (hs : w.start < s) (p : ℚ) : admitted_by interval answers s p = 0 :=
  Nat.le_zero.mp (h.admitted_later hs ▸ admitted_by_le interval answers s p)

end Placed

namespace Counted

variable {limit : ℕ} {interval : Duration} {t now : Instant} {w : Window} {answers : List Answer}

theorem new (limit : ℕ) (interval : Duration) (now : Instant) :
    Counted limit interval now (Window.new now) [] where
  placed := ⟨Nat.le_refl now, List.forall_mem_nil _, List.forall_mem_nil _, List.forall_mem_nil _⟩
  current := rfl
  previous _ _ := rfl
  full _ := Nat.zero_le limit
  weighted s p _ _ := by
    refine Int.ceil_nonneg ?_
    simp [admitted]

/-- Rolling moves the counts with the window. -/
theorem roll (h : Counted limit interval t w answers) (hi : 0 < interval) (ht : t ≤ now) :
    Counted limit interval now (w.roll now interval).1 answers := by
  have hs : w.start ≤ now := Nat.le_trans h.placed.start_le ht
  obtain ⟨-, hroll⟩ | ⟨hle, -, hroll⟩ | ⟨hle, hroll⟩ := Window.roll_cases _ _ hi
  · rw [hroll]
    exact { h with placed := { h.placed with start_le := hs } }
  · -- One interval on: what was current is the previous window's count.
    rw [hroll]
    refine { h with
      placed := { h.placed with start_le := hle, ended := fun a ha => ?_ }
      current := (h.placed.admitted_later (Nat.lt_add_of_pos_right hi)).symm
      previous := fun s hs => ?_ }
    · have hended := h.placed.ended a ha
      simp only
      lia
    · obtain rfl : s = w.start := by
        simp only at hs
        lia
      exact h.current
  · -- Two or more: neither window has ever been asked.
    rw [hroll]
    refine { h with
      placed := { h.placed with start_le := Nat.le_refl now, ended := fun a ha => ?_ }
      current := (h.placed.admitted_later (by simp only [Window.new]; lia)).symm
      previous := fun s hs =>
        (h.placed.admitted_later (by simp only [Window.new] at hs; lia)).symm }
    have hended := h.placed.ended a ha
    simp only [Window.new]
    lia

/-- A request that is refused leaves the counts, -/
theorem refused (h : Counted limit interval now w answers) (hlt : now < w.start + interval)
    {d : Decision} (hd : d.allowed = false) :
    Counted limit interval now w (answers ++ [⟨now, w, d⟩]) := by
  have hsame : ∀ s, admitted (answers ++ [⟨now, w, d⟩]) s = admitted answers s := by
    intro s
    rw [admitted_concat, hd]
    rfl
  refine
    { placed := h.placed.concat hlt d
      current := h.current.trans (hsame _).symm
      previous := fun s hs => (h.previous s hs).trans (hsame s).symm
      full := fun s => (hsame s).symm ▸ h.full s
      weighted := fun s p h0 h1 => ?_ }
  rw [hsame, admitted_by_concat, hd]
  exact h.weighted s p h0 h1

/-- The bound of a window follows from its limit as long as nothing is admitted in the next. -/
theorem weighted_of_none {n : ℕ} {p : ℚ} (hn : n ≤ limit) (h0 : 0 ≤ p) :
    0 ≤ ⌈(limit : ℚ) - n * (1 - p)⌉ := by
  refine Int.ceil_nonneg (sub_nonneg.mpr ?_)
  have hcast : (n : ℚ) ≤ limit := Nat.cast_le.mpr hn
  have hweight : (n : ℚ) * (1 - p) ≤ n * 1 :=
    mul_le_mul_of_nonneg_left (by linarith) (Nat.cast_nonneg n)
  linarith

/-- A window that admits a request by progress `p` has not yet admitted what the one before it
leaves of the limit. -/
theorem room (h : Counted limit interval now w answers) (hlt : now < w.start + interval)
    (hallowed : (w.answer now limit interval).allowed = true) {s : Instant}
    (hs : s + interval = w.start) {p : ℚ} (hp : progress (now - w.start) interval ≤ p) :
    (admitted_by interval answers w.start p : ℤ)
      < ⌈(limit : ℚ) - admitted answers s * (1 - p)⌉ := by
  have hest := (Window.answer_allowed hlt).mp hallowed
  have hle : (admitted_by interval answers w.start p : ℤ) ≤ w.current := by
    rw [h.current]
    exact_mod_cast admitted_by_le interval answers w.start p
  have hweight : (w.previous : ℚ) * (1 - p)
      ≤ w.previous * (1 - progress (now - w.start) interval) :=
    mul_le_mul_of_nonneg_left (by linarith) (Nat.cast_nonneg _)
  refine lt_of_le_of_lt hle (Int.lt_ceil.mpr ?_)
  rw [← h.previous s hs]
  unfold estimated at hest
  push_cast
  linarith

/-- and one that is admitted is counted, within every bound. -/
theorem allowed (h : Counted limit interval now w answers) (hi : 0 < interval)
    (hlimit : limit ≤ U64_MAX) (hlt : now < w.start + interval)
    (hallowed : (w.answer now limit interval).allowed = true) :
    Counted limit interval now w.count
      (answers ++ [⟨now, w, w.answer now limit interval⟩]) := by
  have hroom := Window.current_lt_of_allowed hlt hallowed
  have hthis : admitted (answers ++ [⟨now, w, w.answer now limit interval⟩]) w.start
      = w.current + 1 := by
    rw [admitted_concat, hallowed, ← h.current]
    simp
  have hother : ∀ s, s ≠ w.start →
      admitted (answers ++ [⟨now, w, w.answer now limit interval⟩]) s = admitted answers s := by
    intro s hs
    rw [admitted_concat, hallowed]
    simp [Ne.symm hs]
  have hplaced := h.placed.concat hlt (w.answer now limit interval)
  have hfull : ∀ s, admitted (answers ++ [⟨now, w, w.answer now limit interval⟩]) s
      ≤ limit := by
    intro s
    by_cases hs : s = w.start
    · rw [hs, hthis]
      exact hroom
    · rw [hother s hs]
      exact h.full s
  refine
    { placed := { hplaced with }
      current := (congrArg Window.current (Window.count_eq hlimit hroom)).trans hthis.symm
      previous := fun s hs => (h.previous s hs).trans (hother s ?_).symm
      full := hfull
      weighted := fun s p h0 h1 => ?_ }
  · have hstart : s + interval = w.start := hs
    lia
  · by_cases hnext : s + interval = w.start
    · -- The request is admitted in the window after the one at `s`.
      rw [admitted_by_concat, hother s (by lia), hallowed, hnext]
      by_cases hp : progress (now - w.start) interval ≤ p
      · have hbound := h.room hlt hallowed hnext hp
        rw [if_pos (by simp [hp])]
        push_cast
        lia
      · rw [if_neg (by simp [hp]), ← hnext]
        exact h.weighted s p h0 h1
    · by_cases hs : s = w.start
      · -- It is admitted in the window at `s`, and the next one has not begun.
        rw [hplaced.admitted_by_later (by lia)]
        exact weighted_of_none (hfull s) h0
      · have hno : (w.start == s + interval) = false := beq_false_of_ne fun he => hnext he.symm
        rw [admitted_by_concat, hother s hs, hno, Bool.and_false, Bool.false_and,
          if_neg Bool.false_ne_true]
        exact h.weighted s p h0 h1

/-- **One answer.** The window it was given in counts it if it admits the request, and no
bound is passed. -/
theorem answer (h : Counted limit interval now w answers) (hi : 0 < interval)
    (hlimit : limit ≤ U64_MAX) (hlt : now < w.start + interval) :
    Counted limit interval now
      (if (w.answer now limit interval).allowed then w.count else w)
      (answers ++ [⟨now, w, w.answer now limit interval⟩]) := by
  cases hallowed : (w.answer now limit interval).allowed with
  | false => exact h.refused hlt hallowed
  | true => exact h.allowed hi hlimit hlt hallowed

end Counted

/-! ## Every history -/

/-- What every history keeps: a key that was never asked for has no window. -/
def History.Ok (limit : ℕ) (interval : Duration) (now : Instant) (h : History) : Prop :=
  (h.window = none ∧ h.answers = []) ∨
    ∃ w, h.window = some w ∧ Counted limit interval now w h.answers

section History

variable {limit : ℕ} {interval : Duration} {t now : Instant} {h : History}

/-- The window a check is decided in counts what was admitted. -/
theorem History.Ok.found (hok : h.Ok limit interval t) (hi : 0 < interval) (ht : t ≤ now) :
    Counted limit interval now (h.found interval now) h.answers
      ∧ now < (h.found interval now).start + interval := by
  unfold History.found
  obtain ⟨hw, hanswers⟩ | ⟨w, hw, hcounted⟩ := hok
  · rw [hw, hanswers, Option.getD_none, Window.new_roll hi]
    exact ⟨Counted.new limit interval now, Nat.lt_add_of_pos_right hi⟩
  · rw [hw, Option.getD_some]
    have hs : w.start ≤ now := Nat.le_trans hcounted.placed.start_le ht
    exact ⟨hcounted.roll hi ht, (Window.roll_spec hi hs).2.1⟩

theorem History.Ok.start_le (hok : h.Ok limit interval t) (ht : t ≤ now) :
    (h.window.getD (Window.new now)).start ≤ now := by
  obtain ⟨hw, -⟩ | ⟨w, hw, hcounted⟩ := hok
  · rw [hw]
    exact Nat.le_refl now
  · rw [hw]
    exact Nat.le_trans hcounted.placed.start_le ht

theorem History.Ok.decision_eq (hok : h.Ok limit interval t) (hi : 0 < interval) (ht : t ≤ now) :
    h.decision limit interval now = (h.found interval now).answer now limit interval := by
  rw [History.decision, Window.check_eq hi (hok.start_le ht)]
  rfl

/-- What a check does to a history. -/
theorem History.Ok.check_eq (hok : h.Ok limit interval t) (hi : 0 < interval) (ht : t ≤ now) :
    h.check limit interval now =
      { window := some (if (h.decision limit interval now).allowed
          then (h.found interval now).count else h.found interval now)
        answers := h.answers ++ [⟨now, h.found interval now, h.decision limit interval now⟩] } := by
  rw [hok.decision_eq hi ht, History.check, Window.check_eq hi (hok.start_le ht)]
  rfl

/-- **One check.** -/
theorem History.Ok.check (hok : h.Ok limit interval t) (hi : 0 < interval)
    (hlimit : limit ≤ U64_MAX) (ht : t ≤ now) :
    (h.check limit interval now).Ok limit interval now := by
  obtain ⟨hcounted, hlt⟩ := hok.found hi ht
  rw [hok.check_eq hi ht, hok.decision_eq hi ht]
  exact .inr ⟨_, rfl, hcounted.answer hi hlimit hlt⟩

theorem History.Ok.mono (hok : h.Ok limit interval t) (ht : t ≤ now) :
    h.Ok limit interval now := by
  refine hok.imp_right fun ⟨w, hw, hcounted⟩ => ⟨w, hw, { hcounted with placed := ?_ }⟩
  exact { hcounted.placed with start_le := Nat.le_trans hcounted.placed.start_le ht }

theorem checks_concat (times : List Instant) (now : Instant) :
    checks limit interval (times ++ [now])
      = (checks limit interval times).check limit interval now := by
  rw [checks, List.foldl_append]
  rfl

/-- **Every run of checks.** -/
theorem checks_ok (hi : 0 < interval) (hlimit : limit ≤ U64_MAX) {times : List Instant}
    (hsorted : times.Pairwise (· ≤ ·)) (hnow : ∀ t ∈ times, t ≤ now) :
    (checks limit interval times).Ok limit interval now := by
  induction times using List.reverseRecOn generalizing now with
  | nil => exact .inl ⟨rfl, rfl⟩
  | append_singleton times t ih =>
    obtain ⟨hbefore, -, hlast⟩ := List.pairwise_append.mp hsorted
    rw [checks_concat]
    have hok := ih hbefore fun t' ht' => hlast t' ht' t (List.mem_singleton_self t)
    exact (hok.check hi hlimit (Nat.le_refl t)).mono (hnow t (by simp))

end History

/-! ## Refused requests -/

section Refused

variable {limit : ℕ} {interval : Duration} {t now later : Instant} {h : History}

/-- No request is in view of the window. -/
def Window.Empty (w : Window) : Prop := w.previous = 0 ∧ w.current = 0

theorem Window.roll_empty {w : Window} (hi : 0 < interval) (h : w.Empty) :
    (w.roll now interval).1.Empty := by
  obtain ⟨-, hroll⟩ | ⟨-, -, hroll⟩ | ⟨-, hroll⟩ := roll_cases w now hi
  · rw [hroll]
    exact h
  · rw [hroll]
    exact ⟨h.2, rfl⟩
  · rw [hroll]
    exact ⟨rfl, rfl⟩

/-- Rolling on the way changes no count. It may change where an empty window starts. -/
theorem Window.roll_roll {w : Window} (hi : 0 < interval) (hlater : now ≤ later) :
    ((w.roll now interval).1.roll later interval).1 = (w.roll later interval).1 ∨
      ((w.roll now interval).1.roll later interval).1.Empty ∧ (w.roll later interval).1.Empty := by
  obtain ⟨-, hroll⟩ | ⟨hle, hlt, hroll⟩ | ⟨hle, hroll⟩ := roll_cases w now hi
  · rw [hroll]
    exact .inl rfl
  · rw [hroll]
    obtain ⟨hlt', -⟩ | ⟨-, hlt', hroll'⟩ | ⟨hle', hroll'⟩ :=
      roll_cases w later hi
    · lia
    · -- `later` is in the window that `now` rolled to.
      have hsame : (Window.mk (w.start + interval) 0 w.current).roll later interval
          = (⟨w.start + interval, 0, w.current⟩, later - (w.start + interval)) := by
        obtain ⟨-, hroll''⟩ | ⟨hle'', -, -⟩ | ⟨hle'', -⟩ :=
          roll_cases (Window.mk (w.start + interval) 0 w.current) later hi
        · exact hroll''
        · simp only at hle''
          lia
        · simp only at hle''
          lia
      rw [hsame, hroll']
      exact .inl rfl
    · -- It is in a later one, where nothing is in view any more.
      rw [hroll']
      obtain ⟨hlt'', -⟩ | ⟨-, -, hroll''⟩ | ⟨-, hroll''⟩ :=
        roll_cases (Window.mk (w.start + interval) 0 w.current) later hi
      · simp only at hlt''
        lia
      · rw [hroll'']
        exact .inr ⟨⟨rfl, rfl⟩, rfl, rfl⟩
      · rw [hroll'']
        exact .inl rfl
  · rw [hroll]
    refine .inr ⟨roll_empty hi ⟨rfl, rfl⟩, ?_⟩
    obtain ⟨hlt', -⟩ | ⟨-, hlt', -⟩ | ⟨-, hroll'⟩ := roll_cases w later hi
    · lia
    · lia
    · rw [hroll']
      exact ⟨rfl, rfl⟩

/-- What an empty window answers does not depend on where it starts. -/
theorem Window.answer_empty {w : Window} (hlimit : 1 ≤ limit) (hlt : now < w.start + interval)
    (h : w.Empty) :
    w.answer now limit interval
      = { allowed := true
          limit := limit
          remaining := ⌊max ((limit : ℚ) - 0 - 1) 0⌋.toNat
          retry_after := 0 } := by
  have hest : estimated w.previous w.current (progress (now - w.start) interval) = 0 := by
    rw [estimated, h.1, h.2, Nat.cast_zero]
    ring
  have hroom : estimated w.previous w.current (progress (now - w.start) interval) < limit := by
    rw [hest]
    exact_mod_cast hlimit
  rw [answer, decide_of_lt interval (progress_bounds hlt).1 (progress_bounds hlt).2 hroom, hest]

/-- **A refused request is as if it had not been made**, for the counts and the answer of
whatever request comes next. -/
theorem History.Ok.refused (hok : h.Ok limit interval t) (hi : 0 < interval)
    (hlimit : 1 ≤ limit) (hmax : limit ≤ U64_MAX) (ht : t ≤ now) (hlater : now ≤ later)
    (hrefused : (h.decision limit interval now).allowed = false) :
    ((h.check limit interval now).found interval later).current
        = (h.found interval later).current ∧
      ((h.check limit interval now).found interval later).previous
        = (h.found interval later).previous ∧
      (h.check limit interval now).decision limit interval later
        = h.decision limit interval later := by
  have hwindow : (h.check limit interval now).window = some (h.found interval now) := by
    rw [hok.check_eq hi ht, hrefused]
    rfl
  have hfound : (h.check limit interval now).found interval later
      = ((h.found interval now).roll later interval).1 := by
    rw [History.found, hwindow, Option.getD_some]
  have hcases : (h.check limit interval now).found interval later = h.found interval later ∨
      ((h.check limit interval now).found interval later).Empty
        ∧ (h.found interval later).Empty := by
    rw [hfound]
    obtain ⟨hw, -⟩ | ⟨w, hw, -⟩ := hok
    · -- A key without a window has an empty one whenever it is asked for.
      have hnew : ∀ t, h.found interval t = Window.new t := fun t => by
        rw [History.found, hw, Option.getD_none, Window.new_roll hi]
      rw [hnew, hnew]
      exact .inr ⟨Window.roll_empty hi ⟨rfl, rfl⟩, rfl, rfl⟩
    · have hsome : ∀ t, h.found interval t = (w.roll t interval).1 := fun t => by
        rw [History.found, hw, Option.getD_some]
      rw [hsome, hsome]
      exact Window.roll_roll hi hlater
  have hok' := hok.check hi hmax ht
  rw [hok'.decision_eq hi hlater, hok.decision_eq hi (Nat.le_trans ht hlater)]
  obtain hsame | ⟨hempty, hempty'⟩ := hcases
  · rw [hsame]
    exact ⟨rfl, rfl, rfl⟩
  · have hlt := (hok'.found hi hlater).2
    have hlt' := (hok.found hi (Nat.le_trans ht hlater)).2
    rw [Window.answer_empty hlimit hlt hempty, Window.answer_empty hlimit hlt' hempty']
    exact ⟨hempty.2.trans hempty'.2.symm, hempty.1.trans hempty'.1.symm, rfl⟩

end Refused

/-! ## Further requests -/

section Remaining

variable {limit : ℕ} {interval : Duration} {t now : Instant} {h : History}

/-- What is reported to remain is what the estimate leaves of the limit. -/
theorem Window.remaining_le {w : Window} (hlt : now < w.start + interval)
    (hallowed : (w.answer now limit interval).allowed = true) {k : ℕ}
    (hk : k < (w.answer now limit interval).remaining) :
    estimated w.previous w.current (progress (now - w.start) interval) + (k + 1) < limit := by
  have hroom := (answer_allowed hlt).mp hallowed
  rw [answer, decide_of_lt interval (progress_bounds hlt).1 (progress_bounds hlt).2 hroom] at hk
  have hfloor : ((k + 1 : ℕ) : ℤ)
      ≤ ⌊max ((limit : ℚ) - estimated w.previous w.current (progress (now - w.start) interval) - 1)
        0⌋ := by
    simp only at hk
    lia
  have hmax := Int.le_floor.mp hfloor
  have hpos : (0 : ℚ) < ((k + 1 : ℕ) : ℤ) := by exact_mod_cast Nat.succ_pos k
  have hleft := (le_max_iff.mp hmax).resolve_right (not_le.mpr hpos)
  push_cast at hleft
  linarith

/-- At one instant the window stays, and counts what it admits. -/
theorem History.Ok.repeated (hok : h.Ok limit interval t) (hi : 0 < interval)
    (hmax : limit ≤ U64_MAX) (ht : t ≤ now)
    (hallowed : (h.decision limit interval now).allowed = true) {k : ℕ}
    (hk : k ≤ (h.decision limit interval now).remaining) :
    ((List.replicate (k + 1) now).foldl (History.check limit interval) h).Ok limit interval now ∧
      ((List.replicate (k + 1) now).foldl (History.check limit interval) h).found interval now
        = ⟨(h.found interval now).start, (h.found interval now).current + (k + 1),
            (h.found interval now).previous⟩ := by
  have hdecision := hok.decision_eq hi ht
  obtain ⟨-, hlt⟩ := hok.found hi ht
  -- A window that holds the moment is found again as it was left.
  have hfound : ∀ {h' : History} {w : Window}, h'.window = some w → now < w.start + interval →
      h'.found interval now = w := by
    intro h' w hw hlt'
    rw [History.found, hw, Option.getD_some]
    obtain ⟨-, hroll⟩ | ⟨hle, -, -⟩ | ⟨hle, -⟩ := Window.roll_cases w now hi
    · rw [hroll]
    · lia
    · lia
  induction k with
  | zero =>
    have hroom := Window.current_lt_of_allowed hlt (hdecision ▸ hallowed)
    refine ⟨hok.check hi hmax ht, hfound (w := _) ?_ hlt⟩
    change (h.check limit interval now).window = _
    rw [hok.check_eq hi ht, hallowed, if_pos rfl, Window.count_eq hmax hroom]
  | succ k ih =>
    obtain ⟨hok', hfound'⟩ := ih (Nat.le_of_succ_le hk)
    rw [List.replicate_succ', List.foldl_append]
    generalize (List.replicate (k + 1) now).foldl (History.check limit interval) h = h'
      at hok' hfound'
    have hlt' := (hok'.found hi (Nat.le_refl now)).2
    have hest := Window.remaining_le hlt (hdecision ▸ hallowed) (k := k) (by rw [← hdecision]; lia)
    have hallowed' : (h'.decision limit interval now).allowed = true := by
      rw [hok'.decision_eq hi (Nat.le_refl now), Window.answer_allowed hlt', hfound']
      unfold estimated at hest ⊢
      push_cast
      linarith
    have hroom := Window.current_lt_of_allowed hlt'
      (hok'.decision_eq hi (Nat.le_refl now) ▸ hallowed')
    refine ⟨hok'.check hi hmax (Nat.le_refl now), hfound ?_ hlt⟩
    change (h'.check limit interval now).window = _
    rw [hok'.check_eq hi (Nat.le_refl now), hallowed', if_pos rfl, Window.count_eq hmax hroom,
      hfound']
    rfl

/-- **What is reported to remain is admitted**, request after request, at the same instant. -/
theorem History.Ok.remaining (hok : h.Ok limit interval t) (hi : 0 < interval)
    (hmax : limit ≤ U64_MAX) (ht : t ≤ now)
    (hallowed : (h.decision limit interval now).allowed = true) {k : ℕ}
    (hk : k < (h.decision limit interval now).remaining) :
    (((List.replicate (k + 1) now).foldl (History.check limit interval) h).decision limit interval
      now).allowed = true := by
  obtain ⟨hok', hfound⟩ := hok.repeated hi hmax ht hallowed (Nat.le_of_lt hk)
  have hdecision := hok.decision_eq hi ht
  have hlt := (hok.found hi ht).2
  have hlt' := (hok'.found hi (Nat.le_refl now)).2
  have hest := Window.remaining_le hlt (hdecision ▸ hallowed) (hdecision ▸ hk)
  rw [hok'.decision_eq hi (Nat.le_refl now), Window.answer_allowed hlt', hfound]
  unfold estimated at hest ⊢
  push_cast
  linarith

end Remaining

/-! ## The quota -/

/-- What a key's history admits in any time of one interval. -/
theorem admissions_in_span {limit : ℕ} (hmax : limit ≤ U64_MAX) {interval : Duration}
    (hi : 0 < interval) {times : List Instant} (hsorted : times.Pairwise (· ≤ ·))
    (first : Instant) :
    (checks limit interval times).answers.countP (fun b => b.decision.allowed
      && Decidable.decide (first ≤ b.now ∧ b.now ≤ first + interval)) ≤ 2 * limit := by
  obtain ⟨last, hlast⟩ : ∃ last, ∀ t ∈ times, t ≤ last :=
    ⟨times.sum, fun t ht => List.le_sum_of_mem ht⟩
  obtain ⟨hcounted, -⟩ := (checks_ok hi hmax hsorted hlast).found hi (Nat.le_refl last)
  have hslotted : TimeSlots.Slotted interval Answer.now (fun b => b.window.start)
      ((checks limit interval times).answers.filter fun b => b.decision.allowed) :=
    { inside := fun b hb => hcounted.placed.inside b (List.mem_of_mem_filter hb)
      apart := fun b hb c hc => hcounted.placed.apart b (List.mem_of_mem_filter hb) c
        (List.mem_of_mem_filter hc) }
  have hfull : ∀ start, ((checks limit interval times).answers.filter fun b =>
      b.decision.allowed).countP (fun b => b.window.start = start) ≤ limit := by
    intro start
    rw [List.countP_filter]
    refine (List.countP_congr fun b _ => ?_).trans_le (hcounted.full start)
    rw [Bool.and_comm, beq_eq_decide]
  have hspan := hslotted.span_le hfull first
  rw [List.countP_filter] at hspan
  refine (List.countP_congr fun b _ => ?_).trans_le hspan
  rw [Bool.and_comm]

/-- **The sliding-window quota**, over every history of a key. -/
theorem window_quota {limit : ℕ} (hlimit : 1 ≤ limit) (hmax : limit ≤ U64_MAX)
    {interval : Duration} (hi : 0 < interval) {times : List Instant}
    (hsorted : times.Pairwise (· ≤ ·)) :
    (∀ start, admitted (checks limit interval times).answers start ≤ limit) ∧
    (∀ start p, 0 ≤ p → p ≤ 1 →
      (admitted_by interval (checks limit interval times).answers (start + interval) p : ℤ)
        ≤ ⌈(limit : ℚ) - admitted (checks limit interval times).answers start * (1 - p)⌉) ∧
    (∀ first, (checks limit interval times).answers.countP (fun a => a.decision.allowed
      && Decidable.decide (first ≤ a.now ∧ a.now ≤ first + interval)) ≤ 2 * limit) ∧
    ∀ now, (∀ t ∈ times, t ≤ now) →
      (((checks limit interval times).decision limit interval now).allowed = false →
        ∀ later, now ≤ later →
          ((checks limit interval (times ++ [now])).found interval later).current
            = ((checks limit interval times).found interval later).current ∧
          ((checks limit interval (times ++ [now])).found interval later).previous
            = ((checks limit interval times).found interval later).previous ∧
          (checks limit interval (times ++ [now])).decision limit interval later
            = (checks limit interval times).decision limit interval later) ∧
      (((checks limit interval times).decision limit interval now).allowed = true →
        ∀ k < ((checks limit interval times).decision limit interval now).remaining,
          ((checks limit interval (times ++ List.replicate (k + 1) now)).decision limit interval
            now).allowed = true) := by
  have hok : ∀ now, (∀ t ∈ times, t ≤ now) → (checks limit interval times).Ok limit interval now :=
    fun now hnow => checks_ok hi hmax hsorted hnow
  -- The last moment is as good as any to say what holds of the answers.
  obtain ⟨last, hlast⟩ : ∃ last, ∀ t ∈ times, t ≤ last :=
    ⟨times.sum, fun t ht => List.le_sum_of_mem ht⟩
  obtain ⟨hcounted, -⟩ := (hok last hlast).found hi (Nat.le_refl last)
  refine ⟨hcounted.full, hcounted.weighted, admissions_in_span hmax hi hsorted,
    fun now hnow => ⟨?_, ?_⟩⟩
  · intro hrefused later hlater
    rw [checks_concat]
    exact (hok now hnow).refused hi hlimit hmax (Nat.le_refl now) hlater hrefused
  · intro hallowed k hk
    rw [checks, List.foldl_append]
    exact (hok now hnow).remaining hi hmax (Nat.le_refl now) hallowed hk

theorem window_quota_two_of_three :
    (∀ start, admitted (checks 2 10 [0, 0, 3]).answers start ≤ 2) ∧
    ∀ first, (checks 2 10 [0, 0, 3]).answers.countP (fun a => a.decision.allowed
      && Decidable.decide (first ≤ a.now ∧ a.now ≤ first + 10)) ≤ 2 * 2 :=
  have h := window_quota (by decide : 1 ≤ 2) (by decide) (by decide : 0 < 10)
    (by decide : List.Pairwise (· ≤ ·) [0, 0, 3])
  ⟨h.1, h.2.2.1⟩

/-! ## Retry-After -/

/-- `Gateway::check_rate_limit`: the seconds a refused client is told to wait. -/
def retry_after_secs (d : Decision) : ℕ := max (d.retry_after / NANOS_PER_SEC) 1

section RetryAfter

variable {limit : ℕ} {interval : Duration} {t now : Instant} {h : History}

/-- What `ceil` makes of some nanoseconds: the least whole seconds that are no less, and not
none. -/
theorem ceil_secs (left : ℕ) :
    ∃ secs : ℕ, ⌈max ((left : ℚ) / 1000000000) 1⌉ = secs ∧ 1 ≤ secs ∧
      left ≤ secs * NANOS_PER_SEC ∧ (secs = 1 ∨ secs * NANOS_PER_SEC < left + NANOS_PER_SEC) := by
  obtain ⟨secs, hsecs⟩ : ∃ secs : ℕ, ⌈max ((left : ℚ) / 1000000000) 1⌉ = secs :=
    Int.eq_ofNat_of_zero_le (Int.ceil_nonneg (le_max_of_le_right zero_le_one))
  have hceil : max ((left : ℚ) / 1000000000) 1 ≤ secs := by
    have hle := Int.le_ceil (max ((left : ℚ) / 1000000000) 1)
    rw [hsecs] at hle
    exact_mod_cast hle
  have hceil' : (secs : ℚ) < max ((left : ℚ) / 1000000000) 1 + 1 := by
    have hlt := Int.ceil_lt_add_one (max ((left : ℚ) / 1000000000) 1)
    rw [hsecs] at hlt
    exact_mod_cast hlt
  refine ⟨secs, hsecs, by exact_mod_cast (le_max_right _ _).trans hceil, ?_, ?_⟩
  · have hle := (le_max_left _ _).trans hceil
    rw [div_le_iff₀ (by norm_num)] at hle
    exact_mod_cast hle
  · -- Less than a second is one second; more is rounded up by less than one.
    obtain hmax | hmax := le_total ((left : ℚ) / 1000000000) 1
    · rw [max_eq_right hmax] at hceil'
      have hlt : (secs : ℚ) < 2 := by linarith
      have hlt' : secs < 2 := by exact_mod_cast hlt
      have hone : (1 : ℚ) ≤ secs := (le_max_right _ _).trans hceil
      have hone' : 1 ≤ secs := by exact_mod_cast hone
      left
      lia
    · rw [max_eq_left hmax, ← sub_lt_iff_lt_add, lt_div_iff₀ (by norm_num)] at hceil'
      right
      have hlt : (secs : ℚ) * 1000000000 < left + 1000000000 := by linarith
      exact_mod_cast hlt

/-- The wait is what is left of the window, rounded up to whole seconds, and at least one. -/
theorem Window.retry_after_spec {w : Window} (hi : 0 < interval) (hs : w.start ≤ now)
    (hlt : now < w.start + interval)
    (hrefused : (w.answer now limit interval).allowed = false) :
    let left := w.start + interval - now
    let secs := retry_after_secs (w.answer now limit interval)
    1 ≤ secs ∧ left ≤ secs * NANOS_PER_SEC
      ∧ (secs = 1 ∨ secs * NANOS_PER_SEC < left + NANOS_PER_SEC) := by
  have hnot : ¬ estimated w.previous w.current (progress (now - w.start) interval) < limit := by
    intro hroom
    rw [(answer_allowed hlt).mpr hroom] at hrefused
    cases hrefused
  have hpos : (0 : ℚ) < interval := Nat.cast_pos.mpr hi
  have hleft : ((w.start + interval - now : ℕ) : ℚ) = interval - (now - w.start : ℕ) := by
    rw [← Nat.cast_sub (by lia)]
    congr 1
    lia
  -- What is left of the window, in seconds.
  have hsecs : (interval : ℚ) / 1000000000 * (1 - progress (now - w.start) interval)
      = ((w.start + interval - now : ℕ) : ℚ) / 1000000000 := by
    rw [hleft, progress]
    field_simp
  generalize hn : w.start + interval - now = left at hsecs
  -- The seconds, as the integer `ceil` returns.
  obtain ⟨secs, hsecs_eq, hone, hle, hleast⟩ := ceil_secs left
  have hretry : (w.answer now limit interval).retry_after = secs * NANOS_PER_SEC := by
    rw [answer, decide_of_le interval (progress_bounds hlt).1 (progress_bounds hlt).2
      (not_lt.mp hnot), interval_secs_eq hi, exact_max, hsecs, exact_ceil]
    change ⌊((⌈max ((left : ℚ) / 1000000000) 1⌉ : ℤ) : ℚ) * (NANOS_PER_SEC : ℕ)⌋.toNat = _
    rw [hsecs_eq, Int.cast_natCast, ← Nat.cast_mul, Int.floor_natCast, Int.toNat_natCast]
  have hheader : retry_after_secs (w.answer now limit interval) = secs := by
    rw [retry_after_secs, hretry, Nat.mul_div_cancel _ (by decide)]
    exact Nat.max_eq_left hone
  simp only
  rw [hheader]
  exact ⟨hone, hle, hleast⟩

/-- A wait that fills the rest of the window ends with it only where that is whole seconds. -/
theorem wait_eq_iff {left secs : ℕ} (hleft : 0 < left)
    (hle : left ≤ secs * NANOS_PER_SEC)
    (hleast : secs = 1 ∨ secs * NANOS_PER_SEC < left + NANOS_PER_SEC) :
    secs * NANOS_PER_SEC = left ↔ left % NANOS_PER_SEC = 0 := by
  unfold NANOS_PER_SEC Duration at *
  omega

/-- Once a window has ended there is room, unless it was full and ends just now. -/
theorem Window.room_after {w : Window} (hi : 0 < interval) (hlimit : 1 ≤ limit)
    (hcurrent : w.current ≤ limit) (hnow : w.start + interval ≤ now) :
    estimated (w.roll now interval).1.previous (w.roll now interval).1.current
        (progress (now - (w.roll now interval).1.start) interval) < limit
      ↔ ¬ (w.current = limit ∧ now = w.start + interval) := by
  have hpos : (0 : ℚ) < limit := Nat.cast_pos.mpr hlimit
  obtain ⟨hlt, -⟩ | ⟨hle, hlt, hroll⟩ | ⟨hle, hroll⟩ := roll_cases w now hi
  · lia
  · rw [hroll]
    simp only [estimated, Nat.cast_zero, add_zero]
    by_cases hend : now = w.start + interval
    · -- At the very end all of the old window is in view.
      have hzero : progress (now - (w.start + interval)) interval = 0 := by
        rw [hend, Nat.sub_self, progress, Nat.cast_zero, zero_div]
      rw [hzero, sub_zero, mul_one, Nat.cast_lt]
      lia
    · refine iff_of_true ?_ fun h => hend h.2
      have hprogress : 0 < progress (now - (w.start + interval)) interval :=
        div_pos (Nat.cast_pos.mpr (by lia)) (Nat.cast_pos.mpr hi)
      have hone : progress (now - (w.start + interval)) interval ≤ 1 := progress_le_one (by lia)
      have hcast : (w.current : ℚ) ≤ limit := Nat.cast_le.mpr hcurrent
      have hweight : (w.current : ℚ) * (1 - progress (now - (w.start + interval)) interval)
          ≤ limit * (1 - progress (now - (w.start + interval)) interval) :=
        mul_le_mul_of_nonneg_right hcast (by linarith)
      have hless : (0 : ℚ) < limit * progress (now - (w.start + interval)) interval :=
        mul_pos hpos hprogress
      linarith
  · rw [hroll]
    refine iff_of_true ?_ fun h => by lia
    simpa [estimated, Window.new] using hpos

/-- What a client that waits as long as it is told finds. -/
theorem History.Ok.retry (hok : h.Ok limit interval t) (hi : 0 < interval) (hlimit : 1 ≤ limit)
    (hmax : limit ≤ U64_MAX) (ht : t ≤ now)
    (hrefused : (h.decision limit interval now).allowed = false) :
    ((h.check limit interval now).decision limit interval
        (now + retry_after_secs (h.decision limit interval now) * NANOS_PER_SEC)).allowed = true ↔
      ¬ ((h.found interval now).current = limit ∧
        ((h.found interval now).start + interval - now) % NANOS_PER_SEC = 0) := by
  obtain ⟨hcounted, hlt⟩ := hok.found hi ht
  have hdecision := hok.decision_eq hi ht
  have hwindow : (h.check limit interval now).window = some (h.found interval now) := by
    rw [hok.check_eq hi ht, hrefused]
    rfl
  have hcurrent : (h.found interval now).current ≤ limit := by
    rw [hcounted.current]
    exact hcounted.full _
  have hstart := hcounted.placed.start_le
  obtain ⟨hone, hle, hleast⟩ := Window.retry_after_spec hi hstart hlt (hdecision ▸ hrefused)
  rw [← hdecision] at hone hle hleast
  generalize retry_after_secs (h.decision limit interval now) = secs at hone hle hleast ⊢
  have hleft : 0 < (h.found interval now).start + interval - now := by lia
  have hwait := wait_eq_iff hleft hle hleast
  have hok' := hok.check hi hmax ht
  have hlater : now ≤ now + secs * NANOS_PER_SEC := Nat.le_add_right _ _
  have hlt' := (hok'.found hi hlater).2
  rw [hok'.decision_eq hi hlater, Window.answer_allowed hlt']
  have hfound : (h.check limit interval now).found interval (now + secs * NANOS_PER_SEC)
      = ((h.found interval now).roll (now + secs * NANOS_PER_SEC) interval).1 := by
    rw [History.found, hwindow, Option.getD_some]
  rw [hfound, Window.room_after hi hlimit hcurrent (by lia)]
  refine not_congr (and_congr_right fun _ => ?_)
  rw [← hwait]
  lia

/-- What a check decides, whatever the interval. -/
theorem check_allowed (w : Window) (now : Instant) (limit : ℕ) (interval : Duration) :
    ∃ x : ℚ, x ≤ 1 ∧ ((w.check ℚ now limit interval).2.allowed = true ↔
      estimated (w.roll now interval).1.previous (w.roll now interval).1.current x < limit) := by
  have hmem := exact_clamp_mem (F64.as_secs_f64 (w.roll now interval).2
    / F64.max (F64.as_secs_f64 interval) (F64.MIN_POSITIVE : ℚ))
  refine ⟨_, hmem.2, ?_⟩
  rw [← decide_allowed interval hmem.1 hmem.2]
  rfl

/-- A limit of zero admits nothing, -/
theorem check_zero (w : Window) (now : Instant) (interval : Duration) :
    (w.check ℚ now 0 interval).2.allowed = false := by
  obtain ⟨x, hx, hiff⟩ := check_allowed w now 0 interval
  refine Bool.eq_false_iff.mpr fun hallowed => ?_
  have hroom := hiff.mp hallowed
  have hle := le_estimated (w.roll now interval).1.previous (w.roll now interval).1.current hx
  have hcurrent : (0 : ℚ) ≤ (w.roll now interval).1.current := Nat.cast_nonneg _
  rw [Nat.cast_zero] at hroom
  linarith

/-- and without an interval nothing is ever in view. -/
theorem check_no_interval (w : Window) (now : Instant) (hlimit : 1 ≤ limit) :
    (w.check ℚ now limit 0).2.allowed = true := by
  obtain ⟨x, -, hiff⟩ := check_allowed w now limit 0
  have hroll : w.roll now 0 = (Window.new now, 0) := by
    unfold Window.roll
    exact if_pos (Nat.zero_le _)
  have hpos : (0 : ℚ) < limit := Nat.cast_pos.mpr hlimit
  rw [hiff, hroll]
  simpa [estimated, Window.new] using hpos

def ten_seconds : Duration := 10000000000

/-- A moment that is not a whole number of seconds from the end of a window of ten. -/
def late : Instant := 3500000000

end RetryAfter

end Lagos.RateLimit
