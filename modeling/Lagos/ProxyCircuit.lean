/-
Where the proxy asks the breaker and where it reports: `proxy_upstream_filter`
and `logging` of `proxy.rs`, under the exchange deadline of `downstream.rs`.

A trial's slot is taken in one hook and given back in another, and the two are
only tied together by Pingora calling `logging` for every request it finishes.
`request_budget` breaks that tie: when `timeouts.request_total` expires it drops
the future that runs the exchange, hooks and all, and `logging` is never called.
So an exchange ends in one of two ways here, and the second forgets its slot.

The world below is any number of upstreams and exchanges. What an exchange holds
is read off its `Ctx`, as the code does; the two counters `episode` and `lost`
are kept beside it for the proofs and never looked at by a hook. With them the
argument is one inequality, `Accounted.slots`: the slots a half-open breaker
counts are held by live trials or were lost to the deadline. So a breaker with no
live trial admits the next request as long as fewer than `max_trials` were lost
(`admits_of_spares_a_slot`), and `wedged_forever` says what happens otherwise.
-/
import Lagos.BreakerRun
import Mathlib.Logic.Function.Basic

set_option autoImplicit false

open RustStd StepRun

namespace Lagos.Proxy

open Lagos.Breaker

/-! ## The hooks -/

/-- `CircuitBreaker`: the copied configuration and the state behind the mutex. -/
structure CircuitBreaker where
  cfg : CircuitBreakerConfig
  inner : Inner
  deriving DecidableEq, Repr

/-- `self.upstreams.get(name).and_then(|u| u.breaker())`, for every name. -/
abbrev Breakers := Str → Option CircuitBreaker

/-- Write the state back behind the mutex of `name`'s breaker. -/
def store (breakers : Breakers) (name : Str) (inner : Inner) : Breakers :=
  Function.update breakers name ((breakers name).map fun b => { b with inner := inner })

/-- A concurrency slot a request will need before it goes upstream. -/
structure PendingSlot where
  key : Str
  max : ℕ
  per_caller : Bool
  deriving DecidableEq, Repr

/-- The fields of the per-request context that the two hooks read or write. -/
structure Ctx where
  upstream_name : Str
  concurrency : Option PendingSlot
  /-- Whether this request holds its concurrency slot. -/
  inflight : Bool
  /-- Upstream whose circuit must be told how this request went. -/
  breaker_upstream : Option Str
  retry_after : Option ℕ
  circuit : Option State
  status : ℕ
  deriving DecidableEq, Repr

/-- The context as `request_filter` leaves it: routed, and with nothing held. -/
def Ctx.routed (upstream_name : Str) (concurrency : Option PendingSlot) : Ctx where
  upstream_name := upstream_name
  concurrency := concurrency
  inflight := false
  breaker_upstream := none
  retry_after := none
  circuit := none
  status := 0

/-- `Gateway::circuit_cooldown`, in whole seconds. -/
def circuit_cooldown (cfg : CircuitBreakerConfig) : ℕ := max (cfg.cooldown / 1000000000) 1

/-- The concurrency half of `proxy_upstream_filter`. `free` is what `InFlight::take`
answers; a request refused here has not been admitted as a trial. -/
def take_slot (free : PendingSlot → Bool) (ctx : Ctx) : Bool × Ctx :=
  match ctx.concurrency with
  | none => (true, ctx)
  | some slot =>
    if free slot then (true, { ctx with concurrency := none, inflight := true })
    else (false, { ctx with concurrency := none, retry_after := some 1,
                            status := if slot.per_caller then 429 else 503 })

/-- `Gateway::proxy_upstream_filter`. -/
def proxy_upstream_filter (free : PendingSlot → Bool) (breakers : Breakers) (ctx : Ctx)
    (now : Instant) : Bool × Ctx × Breakers :=
  match take_slot free ctx with
  | (false, ctx) => (false, ctx, breakers)
  | (true, ctx) =>
    -- the breaker is asked last: a request that was refused a slot is no trial
    match breakers ctx.upstream_name with
    | none => (true, ctx, breakers)
    | some b =>
      match allow_at b.cfg b.inner now with
      | (false, inner) =>
        (false, { ctx with retry_after := some (circuit_cooldown b.cfg)
                           circuit := some inner.state
                           status := 503 },
          store breakers ctx.upstream_name inner)
      | (true, inner) =>
        (true, { ctx with breaker_upstream := some ctx.upstream_name },
          store breakers ctx.upstream_name inner)

/-- `pingora::ErrorSource`. -/
inductive ErrorSource where
  | Upstream
  | Downstream
  | Internal
  | Unset
  deriving DecidableEq, Repr

/-- How `logging` reads an exchange: an error that is not the upstream's says nothing
about it, any other error or a 5xx is a failure, and the rest is a success. -/
def outcome (e : Option ErrorSource) (status : ℕ) : Outcome :=
  match e with
  | none => if status ≥ 500 then .failure else .success
  | some .Upstream => .failure
  | some _ => .cancel

/-- `Gateway::logging`, the part that tells the circuit. `written` is the status of
the response that was written, if one was. -/
def logging (breakers : Breakers) (ctx : Ctx) (e : Option ErrorSource) (written : Option ℕ)
    (now : Instant) : Breakers :=
  match ctx.breaker_upstream with
  | none => breakers
  | some name =>
    -- a reload may have removed the breaker meanwhile
    match breakers name with
    | none => breakers
    | some b =>
      store breakers name (record_at b.cfg b.inner now (outcome e (written.getD ctx.status)))

@[simp] theorem store_same (breakers : Breakers) (name : Str) (inner : Inner) :
    store breakers name inner name = (breakers name).map fun b => { b with inner := inner } := by
  simp [store]

theorem store_ne {name other : Str} (h : other ≠ name) (breakers : Breakers) (inner : Inner) :
    store breakers name inner other = breakers other := by
  simp [store, h]

theorem store_self {breakers : Breakers} {name : Str} {b : CircuitBreaker}
    (h : breakers name = some b) : store breakers name b.inner = breakers := by
  rw [store, h, Option.map_some, ← h, Function.update_eq_self]

theorem take_slot_keeps (free : PendingSlot → Bool) (ctx : Ctx) :
    (take_slot free ctx).2.upstream_name = ctx.upstream_name
      ∧ (take_slot free ctx).2.breaker_upstream = ctx.breaker_upstream := by
  unfold take_slot
  split
  · exact ⟨rfl, rfl⟩
  · split <;> exact ⟨rfl, rfl⟩

/-- Everything `proxy_upstream_filter` can do to the circuits. It leaves them and the
request's own obligation as they were, or the request's breaker admits it and the
request owes that breaker a report. -/
theorem proxy_upstream_filter_cases (free : PendingSlot → Bool) (breakers : Breakers) (ctx : Ctx)
    (now : Instant) :
    ((proxy_upstream_filter free breakers ctx now).2.1.breaker_upstream = ctx.breaker_upstream
      ∧ (proxy_upstream_filter free breakers ctx now).2.2 = breakers) ∨
    ∃ b inner, breakers ctx.upstream_name = some b
      ∧ allow_at b.cfg b.inner now = (true, inner)
      ∧ (proxy_upstream_filter free breakers ctx now).2.1.breaker_upstream
          = some ctx.upstream_name
      ∧ (proxy_upstream_filter free breakers ctx now).2.2
          = store breakers ctx.upstream_name inner := by
  obtain ⟨hname, hown⟩ := take_slot_keeps free ctx
  rcases htake : take_slot free ctx with ⟨admitted, ctx'⟩
  simp only [htake] at hname hown
  simp only [proxy_upstream_filter, htake]
  cases admitted with
  | false => exact .inl ⟨hown, rfl⟩
  | true =>
    simp only [hname]
    cases hb : breakers ctx.upstream_name with
    | none => exact .inl ⟨hown, rfl⟩
    | some b =>
      rcases hr : allow_at b.cfg b.inner now with ⟨ok, inner⟩
      cases ok with
      | false =>
        -- A refusal writes back what it read.
        obtain ⟨rfl, -⟩ := allow_at_refuses _ _ _ hr
        simp only [hr]
        exact .inl ⟨hown, store_self hb⟩
      | true =>
        refine .inr ⟨b, inner, rfl, hr, ?_, ?_⟩ <;> simp only [hr]

/-- Everything `logging` can do to the circuits: nothing, for a request that owes no
breaker a report, or one report to the breaker it owes it to. -/
theorem logging_cases (breakers : Breakers) (ctx : Ctx) (e : Option ErrorSource)
    (written : Option ℕ) (now : Instant) :
    ((∀ name, ctx.breaker_upstream = some name → breakers name = none)
      ∧ logging breakers ctx e written now = breakers) ∨
    ∃ name b o, ctx.breaker_upstream = some name ∧ breakers name = some b
      ∧ logging breakers ctx e written now
          = store breakers name (record_at b.cfg b.inner now o) := by
  simp only [logging]
  cases hname : ctx.breaker_upstream with
  | none => exact .inl ⟨fun name h => (nomatch h), rfl⟩
  | some name =>
    cases hb : breakers name with
    | none =>
      refine .inl ⟨?_, ?_⟩
      · intro other h
        rw [← Option.some.inj h, hb]
      · simp only [hb]
    | some b =>
      refine .inr ⟨name, b, outcome e (written.getD ctx.status), rfl, hb, ?_⟩
      simp only [hb]

/-! ## Exchanges under a deadline -/

/-- A request being processed. -/
structure Exchange where
  id : ℕ
  started : Instant
  /-- Whether `proxy_upstream_filter` has run; it runs once. -/
  filtered : Bool
  ctx : Ctx
  /-- The half-open episode of its breaker this request was admitted to as a trial. -/
  trial_of : Option ℕ
  deriving DecidableEq, Repr

/-- The circuits and every exchange in progress. -/
structure World where
  breakers : Breakers
  clock : Instant
  /-- Exchanges so far; the next one's number. -/
  exchanges : ℕ
  live : List Exchange
  /-- Half-open episodes each breaker has begun. -/
  episode : Str → ℕ
  /-- Trials of each breaker's present episode that the deadline dropped. -/
  lost : Str → ℕ

/-- What can happen next. -/
inductive Event where
  /-- A request reaches the end of `request_filter` and will be proxied. -/
  | arrive (upstream_name : Str) (concurrency : Option PendingSlot) (now : Instant)
  /-- `proxy_upstream_filter` runs for it; `free` says whether its slot is free. -/
  | filter (x : Exchange) (free : Bool) (now : Instant)
  /-- It is over, with or without an error, and `logging` runs. -/
  | logging (x : Exchange) (e : Option ErrorSource) (written : Option ℕ) (now : Instant)
  /-- `request_budget` drops its future. No hook runs. -/
  | deadline (x : Exchange) (now : Instant)
  deriving DecidableEq, Repr

/-- The circuit of `name`, when it has one. -/
def World.state (w : World) (name : Str) : Option State :=
  (w.breakers name).map fun b => b.inner.state

/-- A live trial of the episode that `name`'s breaker is in. -/
def World.current (w : World) (name : Str) (x : Exchange) : Bool :=
  x.ctx.breaker_upstream == some name && x.trial_of == some (w.episode name)

/-- How many of them there are. -/
def World.trials (w : World) (name : Str) : ℕ := w.live.countP (w.current name)

/-- The world after `proxy_upstream_filter` has answered `x` with `r`. An open circuit
it turned half-open begins an episode, with nothing lost yet. -/
def World.filtered (w : World) (x : Exchange) (r : Bool × Ctx × Breakers) (now : Instant) :
    World :=
  let name := x.ctx.upstream_name
  let after := (r.2.2 name).map fun b => b.inner.state
  let begins := w.state name = some .Open ∧ after = some .HalfOpen
  let episode := if begins then Function.update w.episode name (w.episode name + 1) else w.episode
  { w with
    breakers := r.2.2
    clock := now
    episode := episode
    lost := if begins then Function.update w.lost name 0 else w.lost
    live :=
      { x with
        filtered := true
        ctx := r.2.1
        trial_of :=
          if r.2.1.breaker_upstream = some name ∧ after = some .HalfOpen then
            some (episode name)
          else none } :: w.live.erase x }

/-- The world after `logging` has left the circuits in `breakers`. -/
def World.logged (w : World) (x : Exchange) (breakers : Breakers) (now : Instant) : World :=
  { w with
    breakers := breakers
    clock := now
    live := w.live.erase x }

/-- The world after the deadline dropped `x`. -/
def World.dropped (w : World) (x : Exchange) (now : Instant) : World :=
  { w with
    clock := now
    live := w.live.erase x
    lost := fun name =>
      if w.state name = some .HalfOpen ∧ w.current name x = true then w.lost name + 1
      else w.lost name }

/-- One step, under an absolute exchange lifetime of `total` if there is one. -/
def step (total : Option Duration) (w : World) : Event → Option World
  | .arrive name slot now =>
    if w.clock ≤ now then
      some { w with
        clock := now
        exchanges := w.exchanges + 1
        live := ⟨w.exchanges, now, false, Ctx.routed name slot, none⟩ :: w.live }
    else none
  | .filter x free now =>
    if w.clock ≤ now ∧ x ∈ w.live ∧ x.filtered = false then
      some (w.filtered x (proxy_upstream_filter (fun _ => free) w.breakers x.ctx now) now)
    else none
  | .logging x e written now =>
    if w.clock ≤ now ∧ x ∈ w.live then
      some (w.logged x (logging w.breakers x.ctx e written now) now)
    else none
  | .deadline x now =>
    if w.clock ≤ now ∧ x ∈ w.live ∧ total.any (fun d => x.started + d ≤ now) = true then
      some (w.dropped x now)
    else none

/-- The gateway at startup: every breaker new, and no exchange. -/
def boot (circuits : Str → Option CircuitBreakerConfig) (now : Instant) : World where
  breakers := fun name => (circuits name).map fun cfg => ⟨cfg, new now⟩
  clock := now
  exchanges := 0
  live := []
  episode := fun _ => 0
  lost := fun _ => 0

/-! ## Where the slots are -/

/-- Every slot a half-open breaker counts is held by a live trial or was lost to the
deadline; and an exchange that has not been filtered owes nothing. -/
structure Accounted (w : World) : Prop where
  unfiltered : ∀ x ∈ w.live, x.filtered = false → x.ctx.breaker_upstream = none
  slots : ∀ name b, w.breakers name = some b → b.inner.state = .HalfOpen →
    b.inner.trials_in_flight.toNat ≤ w.trials name + w.lost name

theorem accounted_boot (circuits : Str → Option CircuitBreakerConfig) (now : Instant) :
    Accounted (boot circuits now) where
  unfiltered := by simp [boot]
  slots := by
    intro name b hb hs
    simp only [boot, Option.map_eq_some_iff] at hb
    obtain ⟨cfg, -, rfl⟩ := hb
    cases hs

/-- An exchange that owes `name` no report is not among its trials. -/
theorem current_eq_false {w : World} {name : Str} {x : Exchange}
    (h : x.ctx.breaker_upstream ≠ some name) : w.current name x = false := by
  simp [World.current, h]

/-- Taking an exchange out takes its own trial out of the count, if it is one. -/
theorem countP_erase_le {w : World} {name : Str} {x : Exchange} (hx : x ∈ w.live) :
    (w.live.erase x).countP (w.current name)
      = w.trials name - (if w.current name x then 1 else 0) := by
  rw [World.trials, List.countP_erase]
  simp [hx]

/-- What a report does to the slots of the breaker it is made to: a circuit that is
half-open afterwards was half-open before, and gave at least one back. -/
theorem record_at_slot {cfg : CircuitBreakerConfig} {inner : Inner} {now : Instant} {o : Outcome}
    (h : (record_at cfg inner now o).state = .HalfOpen) :
    inner.state = .HalfOpen
      ∧ (record_at cfg inner now o).trials_in_flight.toNat = inner.trials_in_flight.toNat - 1 := by
  have hs := record_at_half_open h
  have h1 : (1 : UInt32).toNat = 1 := rfl
  refine ⟨hs, ?_⟩
  cases o with
  | failure => simp [record_at, record_failure_at_half_open _ _ _ hs] at h
  | cancel => rw [record_at, cancel_half_open _ hs, toNat_saturating_sub, h1]
  | success =>
    cases hcl : closes_next cfg inner with
    | true => simp [record_at, record_success_at_closes _ _ _ hs hcl] at h
    | false =>
      rw [record_at, record_success_at_counts _ _ _ hs hcl]
      exact toNat_saturating_sub _ _

theorem accounted_logged {w : World} (hw : Accounted w) {x : Exchange} (hx : x ∈ w.live)
    (e : Option ErrorSource) (written : Option ℕ) (now : Instant) :
    Accounted (w.logged x (logging w.breakers x.ctx e written now) now) where
  unfiltered y hy := hw.unfiltered y (List.mem_of_mem_erase hy)
  slots := by
    intro name b hb hs
    show b.inner.trials_in_flight.toNat
      ≤ (w.live.erase x).countP (w.current name) + w.lost name
    change logging w.breakers x.ctx e written now name = some b at hb
    rw [countP_erase_le hx]
    -- What is reported to another breaker does not change this one's count.
    rcases logging_cases w.breakers x.ctx e written now with
      ⟨howes, hsame⟩ | ⟨other, b₀, o, hown, hb₀, hst⟩
    · -- a request that owes nothing holds no slot of this breaker
      rw [hsame] at hb
      have hne : x.ctx.breaker_upstream ≠ some name := fun h => by
        rw [howes name h] at hb
        cases hb
      rw [current_eq_false hne]
      exact hw.slots name b hb hs
    · rw [hst] at hb
      by_cases hname : name = other
      · -- its own breaker: a slot comes back, and at most one trial leaves the count
        subst hname
        rw [store_same, hb₀, Option.map_some, Option.some.injEq] at hb
        subst hb
        obtain ⟨hs₀, hslot⟩ := record_at_slot hs
        have hle := hw.slots name b₀ hb₀ hs₀
        simp only [hslot]
        split <;> omega
      · rw [store_ne hname] at hb
        have hne : x.ctx.breaker_upstream ≠ some name := by
          rw [hown]
          exact fun h => hname (Option.some.inj h).symm
        rw [current_eq_false hne]
        exact hw.slots name b hb hs

theorem accounted_dropped {w : World} (hw : Accounted w) {x : Exchange} (hx : x ∈ w.live)
    (now : Instant) : Accounted (w.dropped x now) where
  unfiltered y hy := hw.unfiltered y (List.mem_of_mem_erase hy)
  slots := by
    intro name b hb hs
    have hstate : w.state name = some .HalfOpen := by
      rw [World.state, show w.breakers name = some b from hb, Option.map_some, hs]
    have hle := hw.slots name b hb hs
    show b.inner.trials_in_flight.toNat ≤ (w.live.erase x).countP (w.current name)
      + (if w.state name = some .HalfOpen ∧ w.current name x = true then w.lost name + 1
        else w.lost name)
    rw [countP_erase_le hx]
    by_cases hcur : w.current name x = true
    · -- its slot stays taken, and moves from the live trials to the lost ones
      rw [if_pos hcur, if_pos ⟨hstate, hcur⟩]
      omega
    · rw [if_neg hcur, if_neg fun h => hcur h.2]
      omega

/-- Letting a request through a breaker that is half-open afterwards: it was open, and
this is its first trial, or it was half-open and this is one more. -/
theorem allow_at_slot {cfg : CircuitBreakerConfig} {inner inner' : Inner} {now : Instant}
    (h : allow_at cfg inner now = (true, inner')) (hs : inner'.state = .HalfOpen) :
    (inner.state = .Open ∧ inner'.trials_in_flight.toNat = 1) ∨
    (inner.state = .HalfOpen
      ∧ inner'.trials_in_flight.toNat = inner.trials_in_flight.toNat + 1) := by
  rcases allow_at_admits _ _ _ h with ⟨hs₀, rfl⟩ | ⟨hs₀, rfl⟩ | ⟨hs₀, hlt, -⟩
  · rw [hs₀] at hs
    cases hs
  · exact .inl ⟨hs₀, rfl⟩
  · obtain ⟨i, hi, -, hslot, -⟩ := allow_at_takes_slot cfg inner now hs₀ hlt
    obtain rfl : i = inner' := congrArg Prod.snd (hi.symm.trans h)
    exact .inr ⟨hs₀, hslot⟩

/-- A filter call decides about one exchange, which is filtered from then on. -/
theorem unfiltered_filtered {w : World} (hw : Accounted w) (x : Exchange)
    (r : Bool × Ctx × Breakers) (now : Instant) :
    ∀ y ∈ (w.filtered x r now).live, y.filtered = false → y.ctx.breaker_upstream = none := by
  intro y hy hyf
  simp only [World.filtered, List.mem_cons] at hy
  rcases hy with rfl | hy
  · cases hyf
  · exact hw.unfiltered y (List.mem_of_mem_erase hy) hyf

/-- Where no episode of a breaker begins, what counts as its trial stays the same. -/
theorem current_filtered {w : World} {x : Exchange} {r : Bool × Ctx × Breakers} {now : Instant}
    {name : Str} (hepisode : (w.filtered x r now).episode name = w.episode name) :
    (w.filtered x r now).current name = w.current name := by
  funext y
  simp only [World.current, hepisode]

/-- A filter call leaves the trials of a breaker alone that the exchange owes nothing. -/
theorem trials_filtered {w : World} (hw : Accounted w) {x : Exchange} (hx : x ∈ w.live)
    (hf : x.filtered = false) {r : Bool × Ctx × Breakers} {now : Instant} {name : Str}
    (hepisode : (w.filtered x r now).episode name = w.episode name)
    (hother : r.2.1.breaker_upstream ≠ some name) :
    (w.filtered x r now).trials name = w.trials name := by
  rw [World.trials, current_filtered hepisode]
  simp only [World.filtered, List.countP_cons]
  -- The exchange owed nothing before and owes nothing now.
  rw [countP_erase_le hx, current_eq_false (by rw [hw.unfiltered x hx hf]; simp),
    current_eq_false hother]
  simp

/-- A filter call that leaves the circuits alone leaves every count alone too. -/
theorem accounted_filtered_same {w : World} (hw : Accounted w) {x : Exchange} (hx : x ∈ w.live)
    (hf : x.filtered = false) (r : Bool × Ctx × Breakers) (now : Instant)
    (hown : r.2.1.breaker_upstream = x.ctx.breaker_upstream) (hsame : r.2.2 = w.breakers) :
    Accounted (w.filtered x r now) := by
  -- The circuits are the same, so no episode begins.
  have hbegins : ¬ (w.state x.ctx.upstream_name = some .Open ∧
      (r.2.2 x.ctx.upstream_name).map (fun b => b.inner.state) = some .HalfOpen) := by
    rw [hsame]
    exact fun ⟨h, h'⟩ => by
      rw [← World.state, h] at h'
      cases h'
  refine ⟨unfiltered_filtered hw x r now, fun name b hb hs => ?_⟩
  have hb' : w.breakers name = some b := by
    rw [← hsame]
    exact hb
  have hepisode : (w.filtered x r now).episode name = w.episode name := by
    simp only [World.filtered, if_neg hbegins]
  have hlost : (w.filtered x r now).lost name = w.lost name := by
    simp only [World.filtered, if_neg hbegins]
  rw [trials_filtered hw hx hf hepisode (by simp [hown, hw.unfiltered x hx hf]), hlost]
  exact hw.slots name b hb' hs

/-- A filter call whose breaker admits the request: the slot it takes is the new live
trial's. -/
theorem accounted_filtered_admitted {w : World} (hw : Accounted w) {x : Exchange}
    (hx : x ∈ w.live) (hf : x.filtered = false) (r : Bool × Ctx × Breakers) (now : Instant)
    {b₀ : CircuitBreaker} {inner : Inner} (hb₀ : w.breakers x.ctx.upstream_name = some b₀)
    (hallow : allow_at b₀.cfg b₀.inner now = (true, inner))
    (hown : r.2.1.breaker_upstream = some x.ctx.upstream_name)
    (hst : r.2.2 = store w.breakers x.ctx.upstream_name inner) :
    Accounted (w.filtered x r now) := by
  have hafter : (r.2.2 x.ctx.upstream_name).map (fun b => b.inner.state) = some inner.state := by
    rw [hst, store_same, hb₀]
    rfl
  have hbefore : w.state x.ctx.upstream_name = some b₀.inner.state := by
    rw [World.state, hb₀]
    rfl
  refine ⟨unfiltered_filtered hw x r now, fun name b hb hs => ?_⟩
  have hb' : store w.breakers x.ctx.upstream_name inner name = some b := by
    rw [← hst]
    exact hb
  by_cases hname : name = x.ctx.upstream_name
  · subst hname
    rw [store_same, hb₀, Option.map_some, Option.some.injEq] at hb'
    subst hb'
    change inner.state = .HalfOpen at hs
    show inner.trials_in_flight.toNat ≤ _
    rw [hs] at hafter
    -- the exchange just filtered is a trial of the episode the breaker is now in
    have hhead : (w.filtered x r now).trials x.ctx.upstream_name
        = (w.live.erase x).countP ((w.filtered x r now).current x.ctx.upstream_name) + 1 := by
      rw [World.trials]
      simp only [World.filtered, List.countP_cons]
      congr 1
      simp [World.current, hown, hafter]
    rw [hhead]
    rcases allow_at_slot hallow hs with ⟨-, hone⟩ | ⟨hs₀, hmore⟩
    · -- a new episode: its one slot is this trial's
      omega
    · have hbegins : ¬ (w.state x.ctx.upstream_name = some .Open ∧
          (r.2.2 x.ctx.upstream_name).map (fun b => b.inner.state) = some .HalfOpen) := by
        rw [hbefore, hs₀]
        exact fun h => nomatch h.1
      have hepisode : (w.filtered x r now).episode x.ctx.upstream_name
          = w.episode x.ctx.upstream_name := by
        simp only [World.filtered, if_neg hbegins]
      have hlost : (w.filtered x r now).lost x.ctx.upstream_name
          = w.lost x.ctx.upstream_name := by
        simp only [World.filtered, if_neg hbegins]
      -- The same episode: one more slot, and one more trial that holds it.
      have hle := hw.slots _ b₀ hb₀ hs₀
      rw [current_filtered hepisode, hlost, countP_erase_le hx,
        current_eq_false (by rw [hw.unfiltered x hx hf]; simp), hmore]
      simp only [Bool.false_eq_true, if_false]
      omega
  · -- another breaker: neither its episode nor its trials change
    rw [store_ne hname] at hb'
    have hepisode : (w.filtered x r now).episode name = w.episode name := by
      simp only [World.filtered]
      split
      · rw [Function.update_of_ne hname]
      · rfl
    have hlost : (w.filtered x r now).lost name = w.lost name := by
      simp only [World.filtered]
      split
      · rw [Function.update_of_ne hname]
      · rfl
    have hother : r.2.1.breaker_upstream ≠ some name := by
      rw [hown]
      exact fun h => hname (Option.some.inj h).symm
    rw [trials_filtered hw hx hf hepisode hother, hlost]
    exact hw.slots name b hb' hs

theorem step_accounted {total : Option Duration} {w w' : World} {e : Event} (hw : Accounted w)
    (h : step total w e = some w') : Accounted w' := by
  cases e with
  | arrive name slot now =>
    obtain ⟨-, rfl⟩ := eq_of_guarded h
    refine ⟨?_, ?_⟩
    · intro y hy hyf
      rcases List.mem_cons.mp hy with rfl | hy
      · rfl
      · exact hw.unfiltered y hy hyf
    · intro other b hb hs
      -- A new exchange can only add to the trials.
      have hle := hw.slots other b hb hs
      refine Nat.le_trans hle (Nat.add_le_add_right ?_ _)
      exact (List.sublist_cons_self _ _).countP_le
  | filter x free now =>
    obtain ⟨⟨-, hx, hf⟩, rfl⟩ := eq_of_guarded h
    rcases proxy_upstream_filter_cases (fun _ => free) w.breakers x.ctx now with
      ⟨hown, hsame⟩ | ⟨b, inner, hb, hallow, hown, hst⟩
    · exact accounted_filtered_same hw hx hf _ now hown hsame
    · exact accounted_filtered_admitted hw hx hf _ now hb hallow hown hst
  | logging x e written now =>
    obtain ⟨⟨-, hx⟩, rfl⟩ := eq_of_guarded h
    exact accounted_logged hw hx e written now
  | deadline x now =>
    obtain ⟨⟨-, hx, -⟩, rfl⟩ := eq_of_guarded h
    exact accounted_dropped hw hx now

/-! ## Losing fewer slots than there are -/

/-- The deadline leaves the episode a slot: if it drops a trial of a half-open circuit's
present episode, that trial is not the last of the `max_trials` there are to lose. -/
def spares_a_slot (w : World) : Event → Prop
  | .deadline x _ =>
    ∀ name ∈ x.ctx.breaker_upstream, ∀ b ∈ w.breakers name, b.inner.state = .HalfOpen →
      w.current name x = true → w.lost name + 1 < b.cfg.max_trials.toNat
  | _ => True

instance (w : World) (e : Event) : Decidable (spares_a_slot w e) := by
  cases e <;> unfold spares_a_slot <;> infer_instance

/-- Every configuration was accepted, and no half-open breaker has lost all its slots. -/
structure Spared (w : World) : Prop where
  accepted : ∀ name b, w.breakers name = some b → b.cfg.accepted = true
  lost_lt : ∀ name b, w.breakers name = some b → b.inner.state = .HalfOpen →
    w.lost name < b.cfg.max_trials.toNat

theorem max_trials_pos {cfg : CircuitBreakerConfig} (h : cfg.accepted = true) :
    0 < cfg.max_trials.toNat := by
  simp only [CircuitBreakerConfig.accepted, Bool.and_eq_true, Bool.not_eq_true',
    Bool.or_eq_false_iff, beq_eq_false_iff_ne] at h
  exact Nat.pos_of_ne_zero fun hz => h.2.2 (UInt32.toNat_inj.mp hz)

theorem spared_boot {circuits : Str → Option CircuitBreakerConfig}
    (hacc : ∀ name cfg, circuits name = some cfg → cfg.accepted = true) (now : Instant) :
    Spared (boot circuits now) where
  accepted := by
    intro name b hb
    simp only [boot, Option.map_eq_some_iff] at hb
    obtain ⟨cfg, hcfg, rfl⟩ := hb
    exact hacc name cfg hcfg
  lost_lt := by
    intro name b hb hs
    simp only [boot, Option.map_eq_some_iff] at hb
    obtain ⟨cfg, -, rfl⟩ := hb
    cases hs

/-- A write behind one mutex keeps every configuration. -/
theorem spared_accepted_store {w : World} (hw : Spared w) {other : Str} {inner : Inner}
    {name : Str} {b : CircuitBreaker} (hb : store w.breakers other inner name = some b) :
    b.cfg.accepted = true := by
  by_cases hname : name = other
  · subst hname
    rw [store_same, Option.map_eq_some_iff] at hb
    obtain ⟨b₀, hb₀, rfl⟩ := hb
    exact hw.accepted name b₀ hb₀
  · rw [store_ne hname] at hb
    exact hw.accepted name b hb

theorem spared_filtered {w : World} (hw : Spared w) (x : Exchange) (free : Bool)
    (now : Instant) :
    Spared (w.filtered x (proxy_upstream_filter (fun _ => free) w.breakers x.ctx now) now) := by
  -- A filter call loses nothing; it can only start an episode afresh.
  have hle : ∀ name, (w.filtered x (proxy_upstream_filter (fun _ => free) w.breakers x.ctx now)
      now).lost name ≤ w.lost name := by
    intro name
    simp only [World.filtered]
    split
    · by_cases hname : name = x.ctx.upstream_name
      · subst hname
        rw [Function.update_self]
        exact Nat.zero_le _
      · rw [Function.update_of_ne hname]
    · exact Nat.le_refl _
  rcases proxy_upstream_filter_cases (fun _ => free) w.breakers x.ctx now with
    ⟨-, hsame⟩ | ⟨b₀, inner, hb₀, hallow, -, hst⟩
  · refine ⟨?_, ?_⟩
    · intro name b hb
      exact hw.accepted name b (by rw [← hsame]; exact hb)
    · intro name b hb hs
      exact Nat.lt_of_le_of_lt (hle name) (hw.lost_lt name b (by rw [← hsame]; exact hb) hs)
  · refine ⟨?_, ?_⟩
    · intro name b hb
      exact spared_accepted_store hw (by rw [← hst]; exact hb)
    · intro name b hb hs
      have hb' : store w.breakers x.ctx.upstream_name inner name = some b := by
        rw [← hst]
        exact hb
      by_cases hname : name = x.ctx.upstream_name
      · subst hname
        rw [store_same, hb₀, Option.map_some, Option.some.injEq] at hb'
        subst hb'
        rcases allow_at_slot hallow hs with ⟨hs₀, -⟩ | ⟨hs₀, -⟩
        · -- a new episode has lost nothing yet
          have hzero : (w.filtered x (proxy_upstream_filter (fun _ => free) w.breakers x.ctx
              now) now).lost x.ctx.upstream_name = 0 := by
            simp only [World.filtered]
            rw [if_pos, Function.update_self]
            refine ⟨?_, ?_⟩
            · rw [World.state, hb₀, Option.map_some, hs₀]
            · rw [hst, store_same, hb₀, Option.map_some, Option.map_some]
              exact congrArg some hs
          rw [hzero]
          exact max_trials_pos (hw.accepted _ b₀ hb₀)
        · exact Nat.lt_of_le_of_lt (hle _) (hw.lost_lt _ b₀ hb₀ hs₀)
      · rw [store_ne hname] at hb'
        exact Nat.lt_of_le_of_lt (hle name) (hw.lost_lt name b hb' hs)

theorem spared_logged {w : World} (hw : Spared w) (x : Exchange) (e : Option ErrorSource)
    (written : Option ℕ) (now : Instant) :
    Spared (w.logged x (logging w.breakers x.ctx e written now) now) := by
  rcases logging_cases w.breakers x.ctx e written now with
    ⟨-, hsame⟩ | ⟨other, b₀, o, -, hb₀, hst⟩
  · rw [hsame]
    exact ⟨hw.accepted, hw.lost_lt⟩
  · rw [hst]
    refine ⟨fun name b hb => spared_accepted_store hw hb, ?_⟩
    intro name b hb hs
    change store w.breakers other (record_at b₀.cfg b₀.inner now o) name = some b at hb
    by_cases hname : name = other
    · subst hname
      rw [store_same, hb₀, Option.map_some, Option.some.injEq] at hb
      subst hb
      exact hw.lost_lt name b₀ hb₀ (record_at_half_open hs)
    · rw [store_ne hname] at hb
      exact hw.lost_lt name b hb hs

theorem spared_dropped {w : World} (hw : Spared w) {x : Exchange} {now : Instant}
    (hok : spares_a_slot w (.deadline x now)) : Spared (w.dropped x now) where
  accepted := hw.accepted
  lost_lt := by
    intro name b hb hs
    show (if w.state name = some .HalfOpen ∧ w.current name x = true then w.lost name + 1
      else w.lost name) < _
    split
    · rename_i hcur
      have hown : x.ctx.breaker_upstream = some name := by
        have h := hcur.2
        simp only [World.current, Bool.and_eq_true, beq_iff_eq] at h
        exact h.1
      exact hok name hown b hb hs hcur.2
    · exact hw.lost_lt name b hb hs

theorem step_spared {total : Option Duration} {w w' : World} {e : Event}
    (hw : Accounted w ∧ Spared w) (hok : spares_a_slot w e) (h : step total w e = some w') :
    Accounted w' ∧ Spared w' := by
  refine ⟨step_accounted hw.1 h, ?_⟩
  cases e with
  | arrive name slot now =>
    obtain ⟨-, rfl⟩ := eq_of_guarded h
    exact ⟨hw.2.accepted, hw.2.lost_lt⟩
  | filter x free now =>
    obtain ⟨-, rfl⟩ := eq_of_guarded h
    exact spared_filtered hw.2 x free now
  | logging x e written now =>
    obtain ⟨-, rfl⟩ := eq_of_guarded h
    exact spared_logged hw.2 x e written now
  | deadline x now =>
    obtain ⟨-, rfl⟩ := eq_of_guarded h
    exact spared_dropped hw.2 hok

theorem run_spared {total : Option Duration} {circuits : Str → Option CircuitBreakerConfig}
    (hacc : ∀ name cfg, circuits name = some cfg → cfg.accepted = true) {now : Instant}
    {es : List Event} {w : World} (hrun : run (step total) (boot circuits now) es = some w)
    (hok : Along (step total) spares_a_slot (boot circuits now) es) : Accounted w ∧ Spared w :=
  run_invariant ⟨accounted_boot circuits now, spared_boot hacc now⟩ (fun _ _ _ => step_spared)
    hrun hok

/-- With no live trial of its episode, a half-open breaker that lost fewer slots than it
has still has one to give. -/
theorem slot_free {w : World} (hw : Accounted w ∧ Spared w) {name : Str} {b : CircuitBreaker}
    (hb : w.breakers name = some b) (hs : b.inner.state = .HalfOpen)
    (hidle : ∀ x ∈ w.live, w.current name x = false) :
    b.inner.trials_in_flight < b.cfg.max_trials := by
  have hle := hw.1.slots name b hb hs
  have hlt := hw.2.lost_lt name b hb hs
  have hzero : w.trials name = 0 := by
    rw [World.trials, List.countP_eq_zero]
    intro x hx
    rw [hidle x hx]
    exact Bool.false_ne_true
  exact UInt32.lt_iff_toNat_lt.mpr (by omega)

/-! ## Making progress -/

/-- A breaker that admits can always be given a trial: a request arrives, needs no
concurrency slot, and is let through. -/
theorem trial_arrives (total : Option Duration) {w : World} {name : Str} {b : CircuitBreaker}
    {inner : Inner} (hb : w.breakers name = some b)
    (hallow : allow_at b.cfg b.inner w.clock = (true, inner)) :
    ∃ es w' x, run (step total) w es = some w' ∧ Along (step total) spares_a_slot w es
      ∧ x ∈ w'.live ∧ x.ctx.breaker_upstream = some name
      ∧ w'.breakers name = some { b with inner := inner } := by
  let x : Exchange := ⟨w.exchanges, w.clock, false, Ctx.routed name none, none⟩
  let w₁ : World := { w with exchanges := w.exchanges + 1, live := x :: w.live }
  have hfilter : proxy_upstream_filter (fun _ => true) w₁.breakers x.ctx w₁.clock
      = (true, { x.ctx with breaker_upstream := some name }, store w.breakers name inner) := by
    simp only [proxy_upstream_filter, take_slot, x, w₁, Ctx.routed, hb, hallow]
  have harrive : step total w (.arrive name none w.clock) = some w₁ := if_pos (le_refl _)
  let w₂ : World := w₁.filtered x
    (true, { x.ctx with breaker_upstream := some name }, store w.breakers name inner) w₁.clock
  have hadmit : step total w₁ (.filter x true w₁.clock) = some w₂ := by
    simp only [w₂, ← hfilter]
    exact if_pos ⟨le_refl _, List.mem_cons_self, rfl⟩
  obtain ⟨y, hy, hown⟩ : ∃ y ∈ w₂.live, y.ctx.breaker_upstream = some name :=
    ⟨_, List.mem_cons_self, rfl⟩
  refine ⟨[.arrive name none w.clock, .filter x true w₁.clock], w₂, y, ?_, ?_, hy, hown, ?_⟩
  · rw [run_cons, harrive, Option.bind_some, run_cons, hadmit, Option.bind_some, run_nil]
  · simp [spares_a_slot]
  · show store w.breakers name inner name = _
    rw [store_same, hb, Option.map_some]

/-- A live request that owes `name` a report may end with any status. -/
theorem trial_reports (total : Option Duration) {w : World} {x : Exchange} (hx : x ∈ w.live)
    {name : Str} (hown : x.ctx.breaker_upstream = some name) {b : CircuitBreaker}
    (hb : w.breakers name = some b) (status : ℕ) :
    ∃ w', step total w (.logging x none (some status) w.clock) = some w'
      ∧ w'.breakers name
          = some { b with inner := record_at b.cfg b.inner w.clock (outcome none status) } := by
  refine ⟨_, if_pos ⟨le_refl _, hx⟩, ?_⟩
  show logging w.breakers x.ctx none (some status) w.clock name = _
  simp only [logging, hown, hb, store_same, Option.map_some, Option.getD_some]

/-- The next report to a half-open circuit may be of any status: a trial is still out and
may end with it, or the circuit admits one that does. -/
theorem report_available (total : Option Duration) {w : World} (hw : Accounted w ∧ Spared w)
    {name : Str} {b : CircuitBreaker} (hb : w.breakers name = some b)
    (hs : b.inner.state = .HalfOpen) (status : ℕ) :
    ∃ es w' inner now, run (step total) w es = some w' ∧ Along (step total) spares_a_slot w es
      ∧ inner.state = .HalfOpen ∧ inner.trial_successes = b.inner.trial_successes
      ∧ w'.breakers name
          = some { b with inner := record_at b.cfg inner now (outcome none status) } := by
  by_cases hidle : ∀ x ∈ w.live, w.current name x = false
  · -- nobody is left to report, so a slot is free and a new trial reports
    obtain ⟨inner, hallow, hs', -, hsucc⟩ :=
      allow_at_takes_slot b.cfg b.inner w.clock hs (slot_free hw hb hs hidle)
    obtain ⟨es, w₁, x, hrun, hok, hx, hown, hb₁⟩ := trial_arrives total hb hallow
    obtain ⟨w₂, hstep, hb₂⟩ := trial_reports total hx hown hb₁ status
    refine ⟨es ++ [.logging x none (some status) w₁.clock], w₂, inner, w₁.clock,
      run_concat.mpr ⟨w₁, hrun, hstep⟩, ?_, hs', hsucc, hb₂⟩
    exact (along_append _).mpr ⟨hok, fun _ _ => by simp [spares_a_slot]⟩
  · -- a trial is still out, and may end with this status
    obtain ⟨x, hx, hcur⟩ := by simpa only [not_forall] using hidle
    have hown : x.ctx.breaker_upstream = some name := by
      simp only [Bool.not_eq_false, World.current, Bool.and_eq_true, beq_iff_eq] at hcur
      exact hcur.1
    obtain ⟨w', hstep, hb'⟩ := trial_reports total hx hown hb status
    refine ⟨[.logging x none (some status) w.clock], w', b.inner, w.clock, ?_, ?_, hs, rfl, hb'⟩
    · rw [run_cons, hstep, Option.bind_some, run_nil]
    · simp [spares_a_slot]

/-- A half-open circuit that kept a slot can be opened by one more failure. -/
theorem can_open (total : Option Duration) {w : World} (hw : Accounted w ∧ Spared w)
    {name : Str} {b : CircuitBreaker} (hb : w.breakers name = some b)
    (hs : b.inner.state = .HalfOpen) :
    ∃ es w', run (step total) w es = some w' ∧ w'.state name = some .Open := by
  obtain ⟨es, w', inner, now, hrun, -, hs', -, hb'⟩ := report_available total hw hb hs 500
  refine ⟨es, w', hrun, ?_⟩
  rw [World.state, hb', Option.map_some, show outcome none 500 = .failure from rfl, record_at,
    record_failure_at_half_open _ _ _ hs']

/-- And it can be closed by enough successes, one at a time. The induction is on how many
are still wanting. -/
theorem can_close (total : Option Duration) {w : World} (hw : Accounted w ∧ Spared w)
    {name : Str} {b : CircuitBreaker} (hb : w.breakers name = some b)
    (hs : b.inner.state = .HalfOpen) :
    ∃ es w', run (step total) w es = some w' ∧ w'.state name = some .Closed := by
  induction hn : b.cfg.successes_to_close.toNat - b.inner.trial_successes.toNat
    using Nat.strong_induction_on generalizing w b with
  | _ n ih =>
    obtain ⟨es, w', inner, now, hrun, hok, hs', hsucc, hb'⟩ :=
      report_available total hw hb hs 200
    rw [show outcome none 200 = .success from rfl, record_at] at hb'
    -- One more success closes the circuit or leaves fewer wanting.
    cases hc : closes_next b.cfg inner with
    | true =>
      refine ⟨es, w', hrun, ?_⟩
      rw [World.state, hb', Option.map_some, record_success_at_closes _ _ _ hs' hc]
    | false =>
      rw [record_success_at_counts _ _ _ hs' hc] at hb'
      have hw' : Accounted w' ∧ Spared w' :=
        run_invariant (I := fun w => Accounted w ∧ Spared w) hw (fun _ _ _ => step_spared)
          hrun hok
      have hmore : saturating_add inner.trial_successes 1 < b.cfg.successes_to_close := by
        simpa [closes_next, UInt32.not_le] using hc
      have hlt := UInt32.lt_iff_toNat_lt.mp hmore
      have hmax := toNat_le_max b.cfg.successes_to_close
      rw [toNat_saturating_add, hsucc, show (1 : UInt32).toNat = 1 from rfl] at hlt
      obtain ⟨es', w'', hrun', hclosed⟩ := ih _ (by
        show b.cfg.successes_to_close.toNat - (saturating_add inner.trial_successes 1).toNat < n
        rw [toNat_saturating_add, hsucc, show (1 : UInt32).toNat = 1 from rfl]
        omega) hw' hb' hs' rfl
      exact ⟨es ++ es', w'', by rw [run_append, hrun, Option.bind_some, hrun'], hclosed⟩

/-- **A half-open circuit is never wedged** in a run whose deadlines leave each episode a
slot. With no trial of its episode in progress it admits the next request, and at any time
it can still be opened and still be closed. -/
theorem admits_of_spares_a_slot (total : Option Duration)
    (circuits : Str → Option CircuitBreakerConfig)
    (hacc : ∀ name cfg, circuits name = some cfg → cfg.accepted = true) (now : Instant)
    (es : List Event) (w : World) (hrun : run (step total) (boot circuits now) es = some w)
    (hok : Along (step total) spares_a_slot (boot circuits now) es)
    (name : Str) (b : CircuitBreaker) (hb : w.breakers name = some b)
    (hs : b.inner.state = .HalfOpen) :
    ((∀ x ∈ w.live, w.current name x = false) →
        ∀ now', (allow_at b.cfg b.inner now').1 = true)
      ∧ (∃ es' w', run (step total) w es' = some w' ∧ w'.state name = some .Open)
      ∧ (∃ es' w', run (step total) w es' = some w' ∧ w'.state name = some .Closed) := by
  have hw := run_spared hacc hrun hok
  refine ⟨?_, can_open total hw hb hs, can_close total hw hb hs⟩
  intro hidle now'
  obtain ⟨inner, hallow, -⟩ :=
    allow_at_takes_slot b.cfg b.inner now' hs (slot_free hw hb hs hidle)
  rw [hallow]

/-- One upstream, whose breaker takes one trial at a time. -/
def one_upstream (name : Str) : Option CircuitBreakerConfig :=
  if name = ['u'] then some tested else none

theorem one_upstream_accepted (name : Str) (cfg : CircuitBreakerConfig)
    (h : one_upstream name = some cfg) : cfg.accepted = true := by
  simp only [one_upstream, Option.ite_none_right_eq_some, Option.some.injEq] at h
  obtain ⟨-, rfl⟩ := h
  decide

/-- An exchange deadline of a minute. -/
def minute : Option Duration := some 60000000000

/-- An exchange with that upstream, from its arrival until it is over. -/
def waiting (id : ℕ) (started : Instant) : Exchange :=
  ⟨id, started, false, Ctx.routed ['u'] none, none⟩

def admitted (id : ℕ) (started : Instant) (trial_of : Option ℕ) : Exchange :=
  ⟨id, started, true, { Ctx.routed ['u'] none with breaker_upstream := some ['u'] }, trial_of⟩

/-- A request that is admitted and answered with a 500. -/
def failed_exchange (id : ℕ) : List Event :=
  [.arrive ['u'] none 0, .filter (waiting id 0) true 0,
    .logging (admitted id 0 none) none (some 500) 0]

/-- Three failures open the circuit and, eleven seconds later, a trial goes out. -/
def trial_out_run : List Event :=
  failed_exchange 0 ++ failed_exchange 1 ++ failed_exchange 2 ++
    [.arrive ['u'] none 11000000000, .filter (waiting 3 11000000000) true 11000000000]

/-- The trial's client goes away. -/
def cancelled_run : List Event :=
  trial_out_run ++
    [.logging (admitted 3 11000000000 (some 1)) (some .Downstream) none 12000000000]

theorem admits_of_spares_a_slot_cancelled :
    ∃ w b, run (step minute) (boot one_upstream 0) cancelled_run = some w
      ∧ w.breakers ['u'] = some b ∧ b.inner.state = .HalfOpen
      ∧ (∀ x ∈ w.live, w.current ['u'] x = false)
      ∧ ∀ now', (allow_at b.cfg b.inner now').1 = true := by
  obtain ⟨w, hw⟩ : ∃ w, run (step minute) (boot one_upstream 0) cancelled_run = some w :=
    Option.isSome_iff_exists.mp (by decide)
  have hfacts : (run (step minute) (boot one_upstream 0) cancelled_run).map
      (fun w => (w.state ['u'], w.live)) = some (some .HalfOpen, []) := by decide
  rw [hw, Option.map_some, Option.some.injEq, Prod.mk.injEq] at hfacts
  obtain ⟨b, hb, hs⟩ := Option.map_eq_some_iff.mp hfacts.1
  have hidle : ∀ x ∈ w.live, w.current ['u'] x = false := by simp [hfacts.2]
  exact ⟨w, b, hw, hb, hs, hidle, (admits_of_spares_a_slot minute one_upstream
    one_upstream_accepted 0 cancelled_run w hw (by decide) ['u'] b hb hs).1 hidle⟩

/-- The trial hangs, and a minute after it arrived the deadline drops it. -/
def dropped_run : List Event :=
  trial_out_run ++ [.deadline (admitted 3 11000000000 (some 1)) 71000000000]

/-- A dropped trial's slot does not come back: a half-open circuit with no request in
progress can refuse the next one. -/
theorem admits_dropped_trial :
    ¬ ∀ (total : Option Duration) (circuits : Str → Option CircuitBreakerConfig),
      (∀ name cfg, circuits name = some cfg → cfg.accepted = true) →
      ∀ (now : Instant) (es : List Event) (w : World),
      run (step total) (boot circuits now) es = some w →
      ∀ (name : Str) (b : CircuitBreaker), w.breakers name = some b → b.inner.state = .HalfOpen →
      (∀ x ∈ w.live, w.current name x = false) →
        ∀ now', (allow_at b.cfg b.inner now').1 = true := by
  intro hall
  obtain ⟨w, hw⟩ : ∃ w, run (step minute) (boot one_upstream 0) dropped_run = some w :=
    Option.isSome_iff_exists.mp (by decide)
  have hfacts : (run (step minute) (boot one_upstream 0) dropped_run).map
      (fun w => (w.state ['u'], w.live, (w.breakers ['u']).map fun b =>
        (allow_at b.cfg b.inner 72000000000).1)) = some (some .HalfOpen, [], some false) := by
    decide
  rw [hw, Option.map_some, Option.some.injEq, Prod.mk.injEq, Prod.mk.injEq] at hfacts
  obtain ⟨hstate, hlive, hrefused⟩ := hfacts
  obtain ⟨b, hb, hs⟩ := Option.map_eq_some_iff.mp hstate
  -- The run ends half-open with nobody in progress, and the next request is refused.
  have hadmits := hall minute one_upstream one_upstream_accepted 0 dropped_run w hw ['u'] b hb hs
    (by simp [hlive]) 72000000000
  rw [hb, Option.map_some, hadmits] at hrefused
  exact absurd hrefused (by decide)

/-! ## What happens otherwise -/

/-- `name`'s breaker is `b`, half-open with its last slot given away, and no exchange
will ever report to it. -/
structure Wedged (name : Str) (b : CircuitBreaker) (w : World) : Prop where
  breaker : w.breakers name = some b
  half_open : b.inner.state = .HalfOpen
  full : b.inner.trials_in_flight ≥ b.cfg.max_trials
  unowed : ∀ x ∈ w.live, x.ctx.breaker_upstream ≠ some name

theorem allow_at_full {cfg : CircuitBreakerConfig} {inner : Inner} (hs : inner.state = .HalfOpen)
    (hfull : inner.trials_in_flight ≥ cfg.max_trials) (now : Instant) :
    allow_at cfg inner now = (false, inner) := by
  simp only [allow_at, hs]
  rw [if_pos hfull]

theorem step_wedged {total : Option Duration} {name : Str} {b : CircuitBreaker} {w w' : World}
    {e : Event} (hw : Wedged name b w) (h : step total w e = some w') : Wedged name b w' := by
  cases e with
  | arrive other slot now =>
    obtain ⟨-, rfl⟩ := eq_of_guarded h
    refine ⟨hw.breaker, hw.half_open, hw.full, ?_⟩
    intro x hx
    rcases List.mem_cons.mp hx with rfl | hx
    · exact fun h => nomatch h
    · exact hw.unowed x hx
  | filter x free now =>
    obtain ⟨⟨-, hx, -⟩, rfl⟩ := eq_of_guarded h
    rcases proxy_upstream_filter_cases (fun _ => free) w.breakers x.ctx now with
      ⟨hown, hsame⟩ | ⟨b₀, inner, hb₀, hallow, hown, hst⟩
    · refine ⟨(congrFun hsame name).trans hw.breaker, hw.half_open, hw.full, ?_⟩
      intro y hy
      rcases List.mem_cons.mp hy with rfl | hy
      · rw [hown]
        exact hw.unowed x hx
      · exact hw.unowed y (List.mem_of_mem_erase hy)
    · -- This breaker is full, so the one that admitted is another.
      have hne : name ≠ x.ctx.upstream_name := by
        rintro rfl
        obtain rfl : b = b₀ := Option.some.inj (hw.breaker.symm.trans hb₀)
        rw [allow_at_full hw.half_open hw.full] at hallow
        exact absurd (congrArg Prod.fst hallow) (by simp)
      refine ⟨?_, hw.half_open, hw.full, ?_⟩
      · show (proxy_upstream_filter (fun _ => free) w.breakers x.ctx now).2.2 name = some b
        rw [hst, store_ne hne, hw.breaker]
      · intro y hy
        rcases List.mem_cons.mp hy with rfl | hy
        · rw [hown]
          exact fun h => hne (Option.some.inj h).symm
        · exact hw.unowed y (List.mem_of_mem_erase hy)
  | logging x e written now =>
    obtain ⟨⟨-, hx⟩, rfl⟩ := eq_of_guarded h
    -- Whoever reports does not report to this breaker.
    refine ⟨?_, hw.half_open, hw.full, fun y hy => hw.unowed y (List.mem_of_mem_erase hy)⟩
    show logging w.breakers x.ctx e written now name = some b
    rcases logging_cases w.breakers x.ctx e written now with
      ⟨-, hsame⟩ | ⟨other, b₀, o, hown, -, hst⟩
    · rw [hsame, hw.breaker]
    · rw [hst, store_ne, hw.breaker]
      rintro rfl
      exact hw.unowed x hx hown
  | deadline x now =>
    obtain ⟨-, rfl⟩ := eq_of_guarded h
    exact ⟨hw.breaker, hw.half_open, hw.full,
      fun y hy => hw.unowed y (List.mem_of_mem_erase hy)⟩

/-- Once it is wedged, a breaker refuses every request of every run, until a restart. -/
theorem wedged_forever {total : Option Duration} {name : Str} {b : CircuitBreaker}
    {w w' : World} (hw : Wedged name b w) {es : List Event}
    (hrun : run (step total) w es = some w') :
    w'.breakers name = some b ∧ ∀ now, (allow_at b.cfg b.inner now).1 = false := by
  have hw' : Wedged name b w' :=
    run_invariant_always (I := Wedged name b) hw (fun _ _ _ => step_wedged) hrun
  refine ⟨hw'.breaker, ?_⟩
  intro now
  rw [allow_at_full hw.half_open hw.full]

end Lagos.Proxy
