/-
The rate limiter's arithmetic (`ratelimit/mod.rs`): the sliding-window estimate, the
decision that follows from it, and the window a limiter counting in one process keeps.

`decide` works on `f64`. Nothing proved about it rests on how an operation of `f64`
rounds, so the type and its operations are a parameter, and every result holds for the
IEEE ones. The instance on the rationals computes exactly and serves to run examples
whose numbers `f64` represents.
-/
import Lagos.Config
import Mathlib.Data.Rat.Floor

set_option autoImplicit false

open RustStd

namespace Lagos.RateLimit

open Lagos.Config

/-! ## Floating point -/

/-- The operations of `f64` that the limiter uses. -/
class F64 (F : Type) extends Add F, Sub F, Mul F, Div F where
  /-- `n as f64`. -/
  of_nat : ℕ → F
  /-- `x as u64`. -/
  to_u64 : F → ℕ
  MIN_POSITIVE : F
  max : F → F → F
  clamp : F → F → F → F
  ceil : F → F
  /-- `>=`. -/
  ge : F → F → Bool
  as_secs_f64 : Duration → F
  from_secs_f64 : F → Duration

/-- Exact arithmetic in place of rounded. -/
instance F64.exact : F64 ℚ where
  of_nat n := n
  to_u64 x := x.floor.toNat
  MIN_POSITIVE := 1 / 2 ^ 1022
  max x y := if x < y then y else x
  clamp x lo hi := if x < lo then lo else if hi < x then hi else x
  ceil x := x.ceil
  ge x y := decide (y ≤ x)
  as_secs_f64 d := (d : ℚ) / NANOS_PER_SEC
  from_secs_f64 x := (x * NANOS_PER_SEC).floor.toNat

/-! ## Decisions -/

/-- `Decision`. -/
structure Decision where
  allowed : Bool
  limit : ℕ
  remaining : ℕ
  retry_after : Duration
  deriving DecidableEq, Repr

/-- `Decision::allow`. -/
def Decision.allow (limit remaining : ℕ) : Decision := ⟨true, limit, remaining, 0⟩

/-- `Decision::refuse`. -/
def Decision.refuse (limit : ℕ) (retry_after : Duration) : Decision :=
  ⟨false, limit, 0, max retry_after NANOS_PER_SEC⟩

section

variable {F : Type} [F64 F]

/-- `decide`: the previous window, weighted by how much of it is still in view, and the
current one. -/
def decide (previous current : ℕ) (progress : F) (limit : ℕ) (interval : Duration) : Decision :=
  let interval_secs := F64.max (F64.as_secs_f64 interval) (F64.MIN_POSITIVE : F)
  let progress := F64.clamp progress (F64.of_nat 0) (F64.of_nat 1)
  let estimated :=
    F64.of_nat previous * (F64.of_nat 1 - progress) + F64.of_nat current
  if F64.ge estimated (F64.of_nat limit) then
    let remaining_window := interval_secs * (F64.of_nat 1 - progress)
    { allowed := false
      limit := limit
      remaining := 0
      retry_after := F64.from_secs_f64 (F64.ceil (F64.max remaining_window (F64.of_nat 1))) }
  else
    { allowed := true
      limit := limit
      remaining :=
        F64.to_u64 (F64.max (F64.of_nat limit - estimated - F64.of_nat 1) (F64.of_nat 0))
      retry_after := 0 }

end

/-! ## The window of one process -/

/-- `Window`: anchored when its key is first seen. -/
structure Window where
  start : Instant
  current : ℕ
  previous : ℕ
  deriving DecidableEq, Repr

/-- `Window::new`. -/
def Window.new (now : Instant) : Window := ⟨now, 0, 0⟩

/-- The first half of `Window::check`: the window rolled forward to `now`, and how far into
it `now` is. -/
def Window.roll (w : Window) (now : Instant) (interval : Duration) : Window × Duration :=
  let elapsed := saturating_duration_since now w.start
  if elapsed ≥ 2 * interval then (Window.new now, 0)
  else if elapsed ≥ interval then
    ({ start := w.start + interval, current := 0, previous := w.current }, elapsed - interval)
  else (w, elapsed)

/-- `Window::check`. -/
def Window.check (F : Type) [F64 F] (w : Window) (now : Instant) (limit : ℕ)
    (interval : Duration) : Window × Decision :=
  let interval_secs := F64.max (F64.as_secs_f64 interval) (F64.MIN_POSITIVE : F)
  let (w, elapsed) := w.roll now interval
  let progress :=
    F64.clamp (F64.as_secs_f64 elapsed / interval_secs) (F64.of_nat 0) (F64.of_nat 1 : F)
  let decision := decide w.previous w.current progress limit interval
  (if decision.allowed then { w with current := saturating_add_u64 w.current 1 } else w, decision)

end Lagos.RateLimit
