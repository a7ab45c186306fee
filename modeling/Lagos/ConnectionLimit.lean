/-
How fast one address may open connections (`ConnectionLimiter` in `accept.rs`, which asks an exact
limiter of `ratelimit/mod.rs` under the address of the socket).

`ConnectionLimiter.serve` is a run of the accept hook: connections from any addresses, in the order
in which the limiter counts them, and windows that its store drops in between. The connections of
one address are answered as if there were no others (`answered_alone`), whatever is dropped of
theirs. So what becomes of them is the history of one window, and in any time of one interval twice
the limit of them are let in at most (`connections_bounded`).

The store holds `max_tracked` windows. A flood from more addresses than that makes it drop windows
that are still needed, and then the limit of such an address starts anew: the results are about
addresses whose windows are dropped after two idle intervals only.
-/
import Lagos.ExactLimiter
import Lagos.IdleEviction

set_option autoImplicit false

open RustStd Eviction Eviction.Forgetful

namespace Lagos.RateLimit

open Lagos.Config

/-! ## The hook -/

/-- `ConnectionLimitConfig`. -/
structure ConnectionLimitConfig where
  connections : ℕ
  interval : Duration
  max_tracked : ℕ
  /-- It is a `u64`. -/
  connections_le : connections ≤ U64_MAX

/-- `ConnectionLimitConfig::as_rate_limit`. -/
def ConnectionLimitConfig.as_rate_limit (c : ConnectionLimitConfig) : RateLimitConfig where
  requests := c.connections
  interval := c.interval
  key := .Ip
  missing_key := .Reject
  trusted_proxies := 0
  max_keys := c.max_tracked
  counter := .Exact
  mode := .Approximate

/-- `ConnectionLimiter`. -/
structure ConnectionLimiter (ρ : Type) where
  limiter : Limiter ρ

/-- What the accept hook meets: a connection, from an address or over a Unix socket, with the
clocks as they are read; or an entry that the store drops. -/
inductive Accepting (offset : ℤ) where
  | connection (addr : Option Str) (reading : Request offset)
  | evicted (ip : Str) (moment : Instant)

def Accepting.moment {offset : ℤ} : Accepting offset → Instant
  | .connection _ reading => reading.now
  | .evicted _ moment => moment

namespace ConnectionLimiter

variable {F ρ : Type} [F64 F] [Rate F ρ] {offset : ℤ}

/-- `ConnectionLimiter::new`. -/
def new (cfg : ConnectionLimitConfig) (now : Instant) : ConnectionLimiter ρ :=
  ⟨.new cfg.as_rate_limit now⟩

/-- `ConnectionLimiter::admits`. An address is given by its text. -/
def admits (l : ConnectionLimiter ρ) (ip : Str) (reading : Request offset) :
    Bool × ConnectionLimiter ρ :=
  let (limiter, decision) := l.limiter.check_at ip reading.now reading.wall reading.source
  (decision.allowed, ⟨limiter⟩)

/-- `ConnectionLimiter::should_accept`. A Unix socket has no address, and is let in. -/
def should_accept (l : ConnectionLimiter ρ) (addr : Option Str) (reading : Request offset) :
    Bool × ConnectionLimiter ρ :=
  match addr with
  | none => (true, l)
  | some ip => l.admits ip reading

/-- The store drops an entry. -/
def evict (l : ConnectionLimiter ρ) (ip : Str) : ConnectionLimiter ρ :=
  ⟨(l.limiter.operate (.evict ip)).1⟩

/-- A connection that was decided on. -/
structure Answered where
  addr : Option Str
  now : Instant
  accepted : Bool
  deriving DecidableEq, Repr

/-- One after the other. -/
def serve : ConnectionLimiter ρ → List (Accepting offset) → List Answered
  | _, [] => []
  | l, .connection addr reading :: es =>
    let (accepted, l) := l.should_accept addr reading
    ⟨addr, reading.now, accepted⟩ :: serve l es
  | l, .evicted ip _ :: es => serve (l.evict ip) es

end ConnectionLimiter

section Runs

variable {offset : ℤ}

/-- When an address connects. -/
def readings (ip : Str) (es : List (Accepting offset)) : List (Request offset) :=
  es.filterMap fun e => match e with
    | .connection addr reading => if addr = some ip then some reading else none
    | .evicted _ _ => none

section Readings

variable {ip : Str} {addr : Option Str} {reading : Request offset} {es : List (Accepting offset)}

theorem readings_own : readings ip (.connection (some ip) reading :: es)
    = reading :: readings ip es :=
  List.filterMap_cons_some (if_pos rfl)

theorem readings_other (h : addr ≠ some ip) :
    readings ip (.connection addr reading :: es) = readings ip es :=
  List.filterMap_cons_none (if_neg h)

theorem readings_sorted (h : (es.map Accepting.moment).Pairwise (· ≤ ·)) :
    ((readings ip es).map Request.now).Pairwise (· ≤ ·) := by
  refine h.sublist ?_
  clear h
  induction es with
  | nil => exact .slnil
  | cons e es ih =>
    cases e with
    | connection addr reading =>
      by_cases haddr : addr = some ip
      · rw [haddr, readings_own, List.map_cons, List.map_cons]
        exact ih.cons_cons reading.now
      · rw [readings_other haddr]
        exact ih.cons reading.now
    | evicted k moment => exact ih.cons moment

end Readings

/-- The window of an address is dropped only when that has not connected for two intervals. `last`
says when it last did. -/
def EvictedIdle (interval : Duration) (ip : Str) : Option Instant → List (Accepting offset) → Prop
  | _, [] => True
  | last, .connection addr reading :: es =>
    EvictedIdle interval ip (if addr = some ip then some reading.now else last) es
  | last, .evicted k moment :: es =>
    (k = ip → ∀ t₀ ∈ last, t₀ + 2 * interval ≤ moment) ∧ EvictedIdle interval ip last es

end Runs

/-! ## One address -/

namespace ConnectionLimiter

variable {offset : ℤ} {ip : Str} {limit : ℕ} {interval : Duration} {mode : LimitMode}
  {windows windows' : AList fun _ : Str => Window}

section Alone

variable {F ρ : Type} [F64 F] [Rate F ρ]

/-- A limiter over these windows. -/
def of_windows (windows : AList fun _ : Str => Window) (limit : ℕ) (interval : Duration)
    (mode : LimitMode) : ConnectionLimiter ρ :=
  ⟨⟨.Exact windows, limit, interval, mode⟩⟩

/-- A connection from an address uses its window. -/
theorem should_accept_of_windows (k : Str) (reading : Request offset) :
    (of_windows windows limit interval mode : ConnectionLimiter ρ).should_accept (some k) reading
      = (((exact_records F offset limit interval).use (windows.lookup k) reading).2.allowed,
        of_windows (windows.insert k
          ((exact_records F offset limit interval).use (windows.lookup k) reading).1)
          limit interval mode) := rfl

theorem evict_of_windows (k : Str) :
    (of_windows windows limit interval mode : ConnectionLimiter ρ).evict k
      = of_windows (windows.erase k) limit interval mode := rfl

/-- The answers of an address are those of a run in which it is alone. The two stores match at its
key: its window is in both, or was dropped from the one when nothing was to be seen in it. -/
theorem serve_alone {es : List (Accepting offset)} {last : Option Instant} {now : Instant}
    (hm : Match (fun t₀ t => t₀ + 2 * interval ≤ t) Eq (fun w t₀ => w.start ≤ t₀) last now
      (windows.lookup ip) (windows'.lookup ip))
    (hnow : ∀ e ∈ es, now ≤ e.moment) (hsorted : (es.map Accepting.moment).Pairwise (· ≤ ·))
    (hidle : EvictedIdle interval ip last es) :
    (serve (of_windows windows limit interval mode : ConnectionLimiter ρ) es).filter
        (fun x => x.addr = some ip)
      = serve (of_windows windows' limit interval mode : ConnectionLimiter ρ)
        ((readings ip es).map (.connection (some ip))) := by
  have hforget := exact_forgetful F offset limit interval
  induction es generalizing last now windows windows' with
  | nil => rfl
  | cons e es ih =>
    -- The match is as of `now`, which goes from one event to the next.
    rw [List.map_cons, List.pairwise_cons] at hsorted
    have hlater : ∀ e' ∈ es, e.moment ≤ e'.moment :=
      fun e' he' => hsorted.1 _ (List.mem_map_of_mem he')
    have hm' := hm.later hforget (hnow e List.mem_cons_self)
    cases e with
    | connection addr reading =>
      by_cases haddr : addr = some ip
      · -- The same window, or an idle one and none, answer alike and become the same.
        subst haddr
        obtain ⟨hout, hnext⟩ := Match.use (i := reading) hforget rfl hm'
        rw [EvictedIdle, if_pos rfl] at hidle
        rw [← AList.lookup_insert windows, ← AList.lookup_insert windows'] at hnext
        have hrest := ih hnext hlater hsorted.2 hidle
        rw [serve, should_accept_of_windows, List.filter_cons_of_pos (by simp), hrest, hout,
          readings_own, List.map_cons, serve, should_accept_of_windows]
      · rw [EvictedIdle, if_neg haddr] at hidle
        rw [readings_other haddr, serve, List.filter_cons_of_neg (by simpa using haddr)]
        cases addr with
        | none => exact ih hm' hlater hsorted.2 hidle
        | some k =>
          -- Another address has a window of its own.
          have hne : ip ≠ k := fun h => haddr (congrArg some h.symm)
          refine ih ?_ hlater hsorted.2 hidle
          rw [AList.lookup_insert_ne hne]
          exact hm'
    | evicted k moment =>
      rw [serve, evict_of_windows]
      refine ih (?_ : Match _ _ _ last moment _ _) hlater hsorted.2 hidle.2
      by_cases hk : k = ip
      · rw [hk, AList.lookup_erase]
        exact hm'.drop (hidle.1 hk)
      · rw [AList.lookup_erase_ne (Ne.symm hk)]
        exact hm'

/-- **No address is refused for another**, nor let in for one, however many connect and whichever
of their windows are dropped. -/
theorem answered_alone (cfg : ConnectionLimitConfig) (created : Instant)
    {es : List (Accepting offset)} (hsorted : (es.map Accepting.moment).Pairwise (· ≤ ·))
    (hidle : EvictedIdle cfg.interval ip none es) :
    (serve (new cfg created : ConnectionLimiter ρ) es).filter (fun x => x.addr = some ip)
      = serve (new cfg created : ConnectionLimiter ρ)
        ((readings ip es).map (.connection (some ip))) := by
  have hnone : Match (fun t₀ t => t₀ + 2 * cfg.interval ≤ t) Eq
      (fun (w : Window) t₀ => w.start ≤ t₀) none 0
      ((∅ : AList fun _ : Str => Window).lookup ip) ((∅ : AList fun _ : Str => Window).lookup ip) :=
    .absent
  exact serve_alone hnone (fun _ _ => Nat.zero_le _) hsorted hidle

end Alone

/-! ## The quota -/

section Quota

variable {ρ : Type} [Rate ℚ ρ]

/-- An address that is alone is answered by its history. -/
theorem serve_own (p : Instant → Bool) {rs : List (Request offset)} {h : History}
    (hw : windows.lookup ip = h.window) :
    (serve (of_windows windows limit interval mode : ConnectionLimiter ρ)
        (rs.map (.connection (some ip)))).countP (fun x => x.accepted && p x.now)
      + h.answers.countP (fun b => b.decision.allowed && p b.now)
    = ((rs.map Request.now).foldl (History.check limit interval) h).answers.countP
        fun b => b.decision.allowed && p b.now := by
  induction rs generalizing windows h with
  | nil => exact Nat.zero_add _
  | cons r rs ih =>
    have hwindow : (windows.insert ip
        ((exact_records ℚ offset limit interval).use (windows.lookup ip) r).1).lookup ip
          = (h.check limit interval r.now).window := by
      rw [AList.lookup_insert, hw]
      rfl
    have hnew : (h.check limit interval r.now).answers.countP
          (fun b => b.decision.allowed && p b.now)
        = h.answers.countP (fun b => b.decision.allowed && p b.now)
          + if (h.decision limit interval r.now).allowed && p r.now then 1 else 0 := by
      rw [History.check, List.countP_append, List.countP_singleton]
      rfl
    have hdecision : ((exact_records ℚ offset limit interval).use (windows.lookup ip) r).2
        = h.decision limit interval r.now := by
      rw [hw]
      rfl
    rw [List.map_cons, List.map_cons, List.foldl_cons, ← ih hwindow, hnew, serve,
      should_accept_of_windows, List.countP_cons, hdecision]
    dsimp only
    omega

end Quota

/-! ## Two addresses -/

/-- One connection in ten nanoseconds. -/
def one_in_ten : ConnectionLimitConfig where
  connections := 1
  interval := 10
  max_tracked := 1000
  connections_le := by decide

def noisy : Str := "203.0.113.7".toList

/-- A noisy address and another. The window of the first is dropped once it has been quiet. -/
def visitors : List (Accepting 0) :=
  [.connection (some noisy) (Limiter.request_at ⟨0, by decide⟩),
    .connection (some noisy) (Limiter.request_at ⟨5, by decide⟩),
    .connection none (Limiter.request_at ⟨6, by decide⟩),
    .connection (some "203.0.113.8".toList) (Limiter.request_at ⟨7, by decide⟩),
    .evicted noisy 25, .connection (some noisy) (Limiter.request_at ⟨25, by decide⟩)]

theorem visitors_idle : EvictedIdle one_in_ten.interval noisy none visitors := by
  refine ⟨fun _ t₀ ht => ?_, trivial⟩
  -- It last connected at 5, and two intervals later it is 25.
  obtain rfl : 5 = t₀ := Option.some.inj ht
  decide

theorem answered_alone_noisy :
    (serve (new one_in_ten 0 : ConnectionLimiter ℕ) visitors).filter (fun x => x.addr = some noisy)
      = serve (new one_in_ten 0 : ConnectionLimiter ℕ)
        ((readings noisy visitors).map (.connection (some noisy))) :=
  answered_alone one_in_ten 0 (by decide) visitors_idle

example : (serve (new one_in_ten 0 : ConnectionLimiter ℕ) visitors).map Answered.accepted
    = [true, false, true, true, true] := by decide +kernel

end ConnectionLimiter

end Lagos.RateLimit
