/-
A route's limiter (`ratelimit/mod.rs`): where its counts live, how it decides, and how it is
built.

The counts of a limiter are a store of windows, a sketch or a store of shared counters. The
sketch is `pingora_limits::rate::Rate`, of which a limiter reads two samples and how far
into its interval it is. The stores are bounded caches, and dropping an entry is an
operation of its own.
-/
import Lagos.Config
import Lagos.SharedCounters

set_option autoImplicit false

open RustStd

namespace Lagos.RateLimit

open Lagos.Config

/-! ## The sketch -/

/-- `pingora_limits::rate::RateComponent`, as far as it is read. -/
structure RateComponent (F : Type) where
  prev_samples : ℕ
  curr_samples : ℕ
  current_interval_fraction : F

/-- `pingora_limits::rate::Rate`. It reads the clock itself. -/
class Rate (F : outParam Type) (ρ : Type) where
  new : Duration → Instant → ρ
  rate_with : ρ → Str → Instant → ρ × RateComponent F
  observe : ρ → Str → ℕ → Instant → ρ

/-! ## Limiters -/

/-- `SharedCounterFactory`: the backend by its address, and what is read of its settings. -/
structure SharedCounterFactory where
  backend : ℕ
  key_prefix : Str
  max_keys_per_sync : ℕ
  deriving DecidableEq, Repr

/-- `Counters`. -/
inductive Counters (ρ : Type) where
  | Exact (windows : AList fun _ : Str => Window)
  | Sketch (rate : ρ)
  | Shared (backend : ℕ) (cfg : SharedConfig) (counters : SharedCounters)

/-- `Limiter`. -/
structure Limiter (ρ : Type) where
  counters : Counters ρ
  limit : ℕ
  interval : Duration
  mode : LimitMode

/-- Everything that is done to a limiter. -/
inductive Op where
  /-- `decide`, or `check` where nothing was asked of the backend: both clocks' readings, the
  identifier drawn for the entry if the key has none, and the backend's decision if it was
  asked and could answer. -/
  | decide (key : Str) (now : Instant) (wall : SystemTime) (source : Uuid)
      (answer : Option Decision)
  /-- The cache drops an entry. -/
  | evict (key : Str)
  /-- The background task takes a batch, -/
  | pending (wall : SystemTime) (order : List Str)
  /-- folds its totals back, -/
  | apply (batch : Batch) (totals : List Totals)
  /-- or puts its keys back. -/
  | put_back (batch : Batch)

namespace Limiter

/-- `Limiter::same_backend`, with `SharedCounters::same_backend`. -/
def same_backend {ρ : Type} (a b : Limiter ρ) : Bool :=
  match a.counters, b.counters with
  | .Shared p c _, .Shared q d _ => p = q && c.key_prefix = d.key_prefix && c.batch = d.batch
  | .Exact _, .Exact _ | .Sketch _, .Sketch _ => true
  | _, _ => false

/-- `Limiter::shared`. Validation admits no shared limit under a second. -/
def shared {ρ : Type} (cfg : RateLimitConfig) (factory : SharedCounterFactory)
    (h : NANOS_PER_SEC ≤ cfg.interval) : Limiter ρ where
  counters :=
    .Shared factory.backend
      { key_prefix := factory.key_prefix, interval := cfg.interval, limit := cfg.requests
        batch := factory.max_keys_per_sync, interval_ge := h } {}
  limit := cfg.requests
  interval := cfg.interval
  mode := cfg.mode

variable {F ρ : Type} [F64 F] [Rate F ρ]

/-- `Limiter::new`. A shared limit without a backend counts as a sketch. -/
def new (cfg : RateLimitConfig) (now : Instant) : Limiter ρ where
  counters :=
    match cfg.counter with
    | .Exact => .Exact ∅
    | .Sketch | .Shared => .Sketch (Rate.new cfg.interval now)
  limit := cfg.requests
  interval := cfg.interval
  mode := .Approximate

/-- `Limiter::check_sketch`. -/
def check_sketch (l : Limiter ρ) (rate : ρ) (key : Str) (now : Instant) : ρ × Decision :=
  let (rate, c) := Rate.rate_with rate key now
  let weighted : F :=
    F64.of_nat c.prev_samples * (F64.of_nat 1 - c.current_interval_fraction)
      + F64.of_nat c.curr_samples
  if F64.ge weighted (F64.of_nat l.limit) then (rate, .refuse l.limit l.interval)
  else
    (Rate.observe rate key 1 now,
      { allowed := true
        limit := l.limit
        remaining :=
          F64.to_u64 (F64.max (F64.of_nat l.limit - weighted - F64.of_nat 1) (F64.of_nat 0))
        retry_after := 0 })

/-- `Limiter::check_exact`. -/
def check_exact (F : Type) [F64 F] (l : Limiter ρ) (windows : AList fun _ : Str => Window)
    (key : Str) (now : Instant) : (AList fun _ : Str => Window) × Decision :=
  let window := (windows.lookup key).getD (Window.new now)
  let (window, decision) := window.check F now l.limit l.interval
  (windows.insert key window, decision)

/-- `Limiter::check_at`. -/
def check_at (l : Limiter ρ) (key : Str) (now : Instant) (wall : SystemTime) (source : Uuid) :
    Limiter ρ × Decision :=
  match l.counters with
  | .Exact windows =>
    let (windows, decision) := l.check_exact F windows key now
    ({ l with counters := .Exact windows }, decision)
  | .Sketch rate =>
    let (rate, decision) := l.check_sketch rate key now
    ({ l with counters := .Sketch rate }, decision)
  | .Shared backend cfg counters =>
    let (counters, decision) := counters.check_at cfg F source key wall
    ({ l with counters := .Shared backend cfg counters }, decision)

/-- `Limiter::decide`. Only an exact mode asks the backend, and where it has no answer the
limiter decides by itself. -/
def decide (l : Limiter ρ) (key : Str) (now : Instant) (wall : SystemTime) (source : Uuid)
    (answer : Option Decision) : Limiter ρ × Decision :=
  match l.mode, l.counters, answer with
  | .Exact, .Shared _ _ _, some decision => (l, decision)
  | _, _, _ => l.check_at key now wall source

/-- The store of shared counters after one of the background task's operations. -/
def on_shared (l : Limiter ρ) (f : SharedConfig → SharedCounters → SharedCounters) : Limiter ρ :=
  match l.counters with
  | .Shared backend cfg counters => { l with counters := .Shared backend cfg (f cfg counters) }
  | _ => l

/-- A limiter after an operation, and the decision if it was asked for one. -/
def operate (l : Limiter ρ) : Op → Limiter ρ × Option Decision
  | .decide key now wall source answer =>
    let (l, decision) := l.decide key now wall source answer
    (l, some decision)
  | .evict key =>
    match l.counters with
    | .Exact windows => ({ l with counters := .Exact (windows.erase key) }, none)
    | .Sketch _ => (l, none)
    | .Shared backend cfg c =>
      ({ l with counters := .Shared backend cfg { c with shards := c.shards.erase key } }, none)
  | .pending wall order => (l.on_shared fun cfg c => (c.pending cfg wall order).1, none)
  | .apply batch totals => (l.on_shared fun _ c => c.apply batch totals, none)
  | .put_back batch => (l.on_shared fun _ c => c.put_back batch, none)

end Limiter

/-! ## Counter backends -/

/-- What a limiter's counts live in. -/
inductive CounterBackend where
  | Exact
  | Sketch
  | Shared (backend : ℕ) ( key_prefix : Str) (max_keys_per_sync : ℕ)
  deriving DecidableEq, Repr

namespace Limiter

variable {F ρ : Type} [F64 F] [Rate F ρ]

/-- The backend of a limiter. -/
def backend (l : Limiter ρ) : CounterBackend :=
  match l.counters with
  | .Exact _ => .Exact
  | .Sketch _ => .Sketch
  | .Shared backend cfg _ => .Shared backend cfg.key_prefix cfg.batch

/-- `same_backend` is having the same one. -/
theorem same_backend_iff (a b : Limiter ρ) : a.same_backend b = true ↔ a.backend = b.backend := by
  unfold same_backend backend
  cases a.counters <;> cases b.counters <;> simp [and_assoc]

theorem check_at_backend (l : Limiter ρ) (key : Str) (now : Instant) (wall : SystemTime)
    (source : Uuid) : (l.check_at key now wall source).1.backend = l.backend := by
  unfold check_at backend
  cases l.counters <;> rfl

theorem on_shared_backend (l : Limiter ρ) (f : SharedConfig → SharedCounters → SharedCounters) :
    (l.on_shared f).backend = l.backend := by
  unfold on_shared backend
  cases h : l.counters <;> simp only [h]

/-- **No operation moves the counts to another backend.** -/
theorem operate_backend (l : Limiter ρ) (op : Op) : (l.operate op).1.backend = l.backend := by
  cases op with
  | decide key now wall source answer =>
    unfold operate decide
    simp only
    split
    · rfl
    · exact check_at_backend l key now wall source
  | evict key =>
    unfold operate backend
    cases h : l.counters <;> simp only [h]
  | pending wall order => exact on_shared_backend l _
  | apply batch totals => exact on_shared_backend l _
  | put_back batch => exact on_shared_backend l _

end Limiter

end Lagos.RateLimit
