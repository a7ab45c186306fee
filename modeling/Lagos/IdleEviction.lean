/-
Dropping an idle key (`time_to_idle` of the stores in `ratelimit/mod.rs` and
`ratelimit/shared.rs`).

Both stores may drop a key that has not been looked for during two intervals. Two intervals
is as far back as the estimate sees, on either alignment of the windows: a window that was
anchored when its key was first seen is by then two intervals old, and a bucket of the epoch
is by then at least two buckets back. So a limiter answers as if it had kept everything.

The clocks advance together: what the monotonic one reads is the wall clock's reading, up to
an offset. Nothing is being reconciled.
-/
import Lagos.Lib.Eviction
import Lagos.Limiter

set_option autoImplicit false

open RustStd Eviction

namespace Lagos.RateLimit

open Lagos.Config

/-! ## What a limiter is asked -/

/-- One request: both clocks' readings, the identifier drawn for the entry if the key has none,
and the backend's decision if it was asked and could answer. -/
structure Request (offset : ℤ) where
  now : Instant
  wall : SystemTime
  wall_eq : wall.nanos = offset + now
  source : Uuid
  answer : Option Decision

namespace Limiter

variable {F ρ : Type} [F64 F] [Rate F ρ] {offset : ℤ}

/-- The decisions of a limiter whose store drops keys. -/
def decisions (l : Limiter ρ) : List (Event Str (Request offset) Instant) → List Decision
  | [] => []
  | .use key i :: es =>
    let res := l.decide key i.now i.wall i.source i.answer
    res.2 :: decisions res.1 es
  | .drop key _ :: es => decisions (l.operate (.evict key)).1 es

/-- What a request is answered with if the limiter does not look for its key. -/
def pass (l : Limiter ρ) (i : Request offset) : Option Decision :=
  match l.counters with
  | .Exact _ => none
  | .Sketch _ => none
  | .Shared _ cfg _ =>
    match l.mode, i.answer with
    | .Exact, some decision => some decision
    | _, _ =>
      -- A request from before the epoch touches nothing.
      if (bucket_at i.wall cfg.interval).isNone then some (.allow cfg.limit (cfg.limit - 1))
      else none

end Limiter

/-! ## Windows of one process -/

section Windows

variable {F : Type} [F64 F] {w : Window} {now : Instant} {interval : Duration}

theorem Window.check_start (F : Type) [F64 F] (w : Window) (now : Instant) (limit : ℕ)
    (interval : Duration) :
    (w.check F now limit interval).1.start = (w.roll now interval).1.start := by
  unfold Window.check
  simp only
  split <;> rfl

/-- A window never starts after it was last rolled. -/
theorem Window.roll_start_le (hs : w.start ≤ now) : (w.roll now interval).1.start ≤ now := by
  unfold Window.roll saturating_duration_since
  simp only
  split
  · exact Nat.le_refl now
  · split
    · simp only
      lia
    · exact hs

/-- After two intervals the window is a new one, -/
theorem Window.roll_idle (hidle : w.start + 2 * interval ≤ now) :
    w.roll now interval = (Window.new now, 0) := by
  unfold Window.roll saturating_duration_since
  exact if_pos (by lia)

/-- which is what a new one rolls to. -/
theorem Window.roll_new : (Window.new now).roll now interval = (Window.new now, 0) := by
  unfold Window.roll saturating_duration_since Window.new
  simp only [Nat.sub_self]
  split
  · rfl
  · split
    · lia
    · rfl

/-- The windows of an exact limiter. -/
def exact_records (F : Type) [F64 F] (offset : ℤ) (limit : ℕ) (interval : Duration) :
    Records Window (Request offset) Decision Instant where
  time := Request.now
  pass _ := none
  use w i := (w.getD (Window.new i.now)).check F i.now limit interval

/-- A window that has been idle answers as a new one. -/
theorem exact_forgetful (F : Type) [F64 F] (offset : ℤ) (limit : ℕ) (interval : Duration) :
    Forgetful (exact_records F offset limit interval) (fun t₀ t => t₀ + 2 * interval ≤ t) Eq
      (fun w t₀ => w.start ≤ t₀) where
  idle_mono h hle := Nat.le_trans h hle
  refl _ := rfl
  since := by
    intro a i _ h
    have hstart : (a.getD (Window.new i.now)).start ≤ i.now := by
      cases a with
      | none => exact Nat.le_refl i.now
      | some w =>
        obtain ⟨t₀, hw, hle⟩ := h w rfl
        exact Nat.le_trans hw hle
    exact (Window.check_start F _ i.now limit interval).trans_le (Window.roll_start_le hstart)
  alike := by
    rintro s s' i - rfl
    exact ⟨rfl, rfl⟩
  forgets := by
    intro w t₀ i _ hstart hidle
    have hidle' : w.start + 2 * interval ≤ i.now :=
      Nat.le_trans (Nat.add_le_add_right hstart _) hidle
    have hroll : (Window.new i.now).roll i.now interval = w.roll i.now interval := by
      rw [Window.roll_new, Window.roll_idle hidle']
    have hcheck : (Window.new i.now).check F i.now limit interval
        = w.check F i.now limit interval := by
      unfold Window.check
      simp only [hroll]
    exact ⟨congrArg Prod.snd hcheck, congrArg Prod.fst hcheck⟩

end Windows

/-! ## Shards -/

/-- A shard by another identifier. -/
def Shard.renamed (s : Shard) (source : Uuid) : Shard := { s with source := source }

section Shards

variable {F : Type} [F64 F]

theorem Shard.renamed_roll_to (s : Shard) (source : Uuid) (b : ℕ) :
    (s.renamed source).roll_to b = (s.roll_to b).renamed source := by
  unfold Shard.roll_to Shard.renamed
  simp only
  split
  · rfl
  · split <;> rfl

/-- No decision depends on the identifier. -/
theorem Shard.renamed_check (s : Shard) (source : Uuid) (b : ℕ) (progress : F) (limit : ℕ)
    (interval : Duration) :
    (s.renamed source).check F b progress limit interval =
      ((s.check F b progress limit interval).1.renamed source,
        (s.check F b progress limit interval).2) := by
  unfold Shard.check
  rw [Shard.renamed_roll_to]
  simp only [apply_ite (Shard.renamed · source)]
  rfl

/-- A check looks at the shard in its bucket. -/
theorem Shard.check_roll_to (s : Shard) (b : ℕ) (progress : F) (limit : ℕ) (interval : Duration) :
    (s.roll_to b).check F b progress limit interval = s.check F b progress limit interval := by
  have hsame : (s.roll_to b).roll_to b = s.roll_to b :=
    Shard.roll_to_of_le (by rw [Shard.roll_to_bucket]; exact Nat.le_max_right _ _)
  unfold Shard.check
  rw [hsame]

/-- The shards of a shared limiter. -/
def shared_records (F : Type) [F64 F] (offset : ℤ) (cfg : SharedConfig)
    (pass : Request offset → Option Decision) :
    Records Shard (Request offset) Decision Instant where
  time := Request.now
  pass := pass
  use s i := (s.getD { source := i.source }).check F (clock_bucket i.wall cfg.interval)
    (progress_at F i.wall cfg.interval) cfg.limit cfg.interval

/-- A request that looks for its shard is not from before the epoch. -/
theorem clock_of_looks {offset : ℤ} {cfg : SharedConfig} {pass : Request offset → Option Decision}
    (hpass : ∀ i, pass i = none → (bucket_at i.wall cfg.interval).isSome) {i : Request offset}
    (h : pass i = none) :
    0 ≤ offset + i.now ∧
      clock_bucket i.wall cfg.interval = (offset + i.now).toNat / cfg.interval := by
  have hsome := hpass i h
  rw [clock_bucket, ← i.wall_eq]
  rw [bucket_at_eq cfg.interval_ge] at hsome ⊢
  by_cases hneg : i.wall.nanos < 0
  · rw [if_pos hneg] at hsome
    cases hsome
  · rw [if_neg hneg]
    exact ⟨not_lt.mp hneg, rfl⟩

/-- A shard that has been idle answers as a new one, up to its identifier. -/
theorem shared_forgetful (F : Type) [F64 F] (offset : ℤ) (cfg : SharedConfig)
    {pass : Request offset → Option Decision}
    (hpass : ∀ i, pass i = none → (bucket_at i.wall cfg.interval).isSome) :
    Forgetful (shared_records F offset cfg pass) (fun t₀ t => t₀ + 2 * cfg.interval ≤ t)
      (fun s s' => ∃ source, s = s'.renamed source)
      (fun s t₀ => 0 ≤ offset + t₀ ∧ s.bucket ≤ (offset + t₀).toNat / cfg.interval) where
  idle_mono h hle := Nat.le_trans h hle
  refl s := ⟨s.source, rfl⟩
  since := by
    intro s i hlooks h
    obtain ⟨hepoch, hbucket⟩ := clock_of_looks hpass hlooks
    refine ⟨hepoch, ?_⟩
    change ((s.getD { source := i.source }).check F _ _ _ _).1.bucket ≤ _
    rw [Shard.check_bucket, hbucket]
    refine Nat.max_le.mpr ⟨?_, Nat.le_refl _⟩
    cases s with
    | none => exact Nat.zero_le _
    | some s =>
      obtain ⟨t₀, ⟨-, hs⟩, hle⟩ := h s rfl
      have hle' : t₀ ≤ i.now := hle
      exact Nat.le_trans hs (Nat.div_le_div_right (by lia))
  alike := by
    rintro s s' i - ⟨source, rfl⟩
    have hcheck := Shard.renamed_check (F := F) s' source (clock_bucket i.wall cfg.interval)
      (progress_at F i.wall cfg.interval) cfg.limit cfg.interval
    exact ⟨(congrArg Prod.snd hcheck :), source, (congrArg Prod.fst hcheck :)⟩
  forgets := by
    intro s t₀ i hlooks hsince hidle
    obtain ⟨hepoch, hbucket⟩ := clock_of_looks hpass hlooks
    obtain ⟨hepoch₀, hs⟩ := hsince
    have hidle' : t₀ + 2 * cfg.interval ≤ i.now := hidle
    -- The two intervals are two buckets at least.
    have hfar : s.bucket + 2 ≤ clock_bucket i.wall cfg.interval := by
      have hpos : 0 < cfg.interval := Nat.lt_of_lt_of_le (by decide) cfg.interval_ge
      calc s.bucket + 2 ≤ (offset + t₀).toNat / cfg.interval + 2 := Nat.add_le_add_right hs 2
        _ = ((offset + t₀).toNat + 2 * cfg.interval) / cfg.interval :=
          (Nat.add_mul_div_right _ _ hpos).symm
        _ ≤ (offset + i.now).toNat / cfg.interval := Nat.div_le_div_right (by lia)
        _ = clock_bucket i.wall cfg.interval := hbucket.symm
    have hroll : ({ source := i.source } : Shard).roll_to (clock_bucket i.wall cfg.interval)
        = (s.roll_to (clock_bucket i.wall cfg.interval)).renamed i.source := by
      rw [Shard.roll_to_far (by lia), Shard.roll_to_far (by lia)]
      rfl
    have hcheck : ({ source := i.source } : Shard).check F (clock_bucket i.wall cfg.interval)
        (progress_at F i.wall cfg.interval) cfg.limit cfg.interval
          = ((s.check F (clock_bucket i.wall cfg.interval) (progress_at F i.wall cfg.interval)
              cfg.limit cfg.interval).1.renamed i.source,
            (s.check F (clock_bucket i.wall cfg.interval) (progress_at F i.wall cfg.interval)
              cfg.limit cfg.interval).2) := by
      rw [← Shard.check_roll_to, hroll, Shard.renamed_check, Shard.check_roll_to]
    exact ⟨(congrArg Prod.snd hcheck :), i.source, (congrArg Prod.fst hcheck :)⟩

end Shards

/-! ## Limiters -/

namespace Limiter

variable {F ρ : Type} [F64 F] [Rate F ρ] {offset : ℤ}

/-- A limiter that nothing was asked of yet. -/
def Fresh (l : Limiter ρ) : Prop :=
  match l.counters with
  | .Exact windows => windows = ∅
  | .Sketch _ => True
  | .Shared _ cfg counters => counters.shards = ∅ ∧ cfg.interval = l.interval

omit [F64 F] in
/-- Every limiter is built so. -/
theorem new_fresh (cfg : RateLimitConfig) (now : Instant) : (new cfg now : Limiter ρ).Fresh := by
  unfold Fresh new
  cases cfg.counter <;> trivial

theorem shared_fresh (cfg : RateLimitConfig) (factory : SharedCounterFactory)
    (h : NANOS_PER_SEC ≤ cfg.interval) : (shared cfg factory h : Limiter ρ).Fresh :=
  ⟨rfl, rfl⟩

/-- The records of a store by their keys. -/
theorem lookup_insert {V : Type} (store : AList fun _ : Str => V) (key : Str) (v : V) :
    (fun k => (store.insert key v).lookup k)
      = Function.update (fun k => store.lookup k) key (some v) := by
  funext k
  by_cases hk : k = key
  · subst hk
    rw [Function.update_self, AList.lookup_insert]
  · rw [Function.update_of_ne hk, AList.lookup_insert_ne hk]

theorem lookup_erase {V : Type} (store : AList fun _ : Str => V) (key : Str) :
    (fun k => (store.erase key).lookup k)
      = Function.update (fun k => store.lookup k) key none := by
  funext k
  by_cases hk : k = key
  · subst hk
    rw [Function.update_self, AList.lookup_erase]
  · rw [Function.update_of_ne hk, AList.lookup_erase_ne hk]

/-- A limiter of its own asks no backend. -/
theorem decide_local {l : Limiter ρ}
    (hlocal : ∀ backend cfg counters, l.counters ≠ .Shared backend cfg counters) (key : Str)
    (i : Request offset) :
    l.decide (F := F) key i.now i.wall i.source i.answer
      = l.check_at (F := F) key i.now i.wall i.source := by
  unfold decide
  split
  · rename_i hcounters _
    exact absurd hcounters (hlocal _ _ _)
  · rfl

/-- An exact limiter decides by its windows, -/
theorem decisions_exact {windows : AList fun _ : Str => Window} {limit : ℕ} {interval : Duration}
    {mode : LimitMode} (es : List (Event Str (Request offset) Instant)) :
    decisions (F := F) (⟨.Exact windows, limit, interval, mode⟩ : Limiter ρ) es
      = (exact_records F offset limit interval).outputs (fun k => windows.lookup k) es := by
  induction es generalizing windows with
  | nil => rfl
  | cons e es ih =>
    cases e with
    | use key i =>
      rw [decisions, decide_local (by simp)]
      simp only [check_at, check_exact]
      rw [ih, lookup_insert]
      rfl
    | drop key t =>
      simp only [decisions, operate]
      rw [ih, lookup_erase]
      rfl

/-- The backend decides for an exact mode, if it can. Any other request is the store's. -/
theorem decide_shared (backend : ℕ) (cfg : SharedConfig) (counters : SharedCounters)
    (limit : ℕ) (interval : Duration) (mode : LimitMode) (key : Str) (i : Request offset) :
    let l : Limiter ρ := ⟨.Shared backend cfg counters, limit, interval, mode⟩
    (∃ d, l.pass i = some d ∧
      l.decide (F := F) key i.now i.wall i.source i.answer = (l, d)) ∨
    (l.pass i = (if (bucket_at i.wall cfg.interval).isNone
        then some (.allow cfg.limit (cfg.limit - 1)) else none) ∧
      l.decide (F := F) key i.now i.wall i.source i.answer =
        (⟨.Shared backend cfg (counters.check_at cfg F i.source key i.wall).1, limit, interval,
          mode⟩, (counters.check_at cfg F i.source key i.wall).2)) := by
  cases mode with
  | Approximate => exact .inr ⟨rfl, rfl⟩
  | Exact =>
    cases hanswer : i.answer with
    | none =>
      refine .inr ⟨?_, rfl⟩
      unfold pass
      simp only [hanswer]
    | some d =>
      refine .inl ⟨d, ?_, rfl⟩
      unfold pass
      simp only [hanswer]

/-- a shared one by its shards, -/
theorem decisions_shared {backend : ℕ} {cfg : SharedConfig} {counters : SharedCounters}
    {limit : ℕ} {interval : Duration} {mode : LimitMode}
    (es : List (Event Str (Request offset) Instant)) :
    decisions (F := F) (⟨.Shared backend cfg counters, limit, interval, mode⟩ : Limiter ρ) es
      = (shared_records F offset cfg
          (⟨.Shared backend cfg counters, limit, interval, mode⟩ : Limiter ρ).pass).outputs
          (fun k => counters.shards.lookup k) es := by
  induction es generalizing counters with
  | nil => rfl
  | cons e es ih =>
    cases e with
    | use key i =>
      rw [decisions]
      obtain ⟨d, hpass, hdecide⟩ | ⟨hpass, hdecide⟩ :=
        decide_shared (F := F) (ρ := ρ) backend cfg counters limit interval mode key i
      · rw [hdecide, Records.outputs_pass hpass]
        exact congrArg (d :: ·) ih
      · cases hb : bucket_at i.wall cfg.interval with
        | none =>
          rw [hb] at hpass
          rw [hdecide, Records.outputs_pass hpass, SharedCounters.check_at_of_none hb]
          exact congrArg (_ :: ·) ih
        | some b =>
          rw [hb] at hpass
          rw [hdecide, Records.outputs_use hpass, SharedCounters.check_at_of_some hb]
          simp only [ih, lookup_insert]
          rw [← clock_bucket_of_some hb]
          rfl
    | drop key t =>
      simp only [decisions, operate]
      rw [ih, lookup_erase]
      rfl

/-- and a sketch has no keys to drop. -/
theorem decisions_sketch {rate : ρ} {limit : ℕ} {interval : Duration} {mode : LimitMode}
    (es : List (Event Str (Request offset) Instant)) :
    decisions (F := F) (⟨.Sketch rate, limit, interval, mode⟩ : Limiter ρ) es
      = decisions (F := F) (⟨.Sketch rate, limit, interval, mode⟩ : Limiter ρ) (uses es) := by
  induction es generalizing rate with
  | nil => rfl
  | cons e es ih =>
    cases e with
    | use key i =>
      rw [uses_use, decisions, decisions, decide_local (by simp)]
      simp only [check_at]
      rw [ih]
    | drop key t => exact ih

/-- **Dropping idle keys is not seen.** Whatever a limiter is asked at moments that never go
back, and whichever keys its store drops that have been idle for two intervals, it decides as
if it had dropped others, or none. -/
theorem idle_eviction_transparent {l : Limiter ρ} (hfresh : l.Fresh)
    {es es' : List (Event Str (Request offset) Instant)} (huses : uses es = uses es')
    (hsorted : (es.map (Event.moment Request.now)).Pairwise (· ≤ ·))
    (hsorted' : (es'.map (Event.moment Request.now)).Pairwise (· ≤ ·))
    (hlegal : Legal (fun i => (l.pass i).isNone) Request.now
      (fun t₀ t => t₀ + 2 * l.interval ≤ t) (fun _ => none) es)
    (hlegal' : Legal (fun i => (l.pass i).isNone) Request.now
      (fun t₀ t => t₀ + 2 * l.interval ≤ t) (fun _ => none) es') :
    l.decisions (F := F) es = l.decisions (F := F) es' := by
  obtain ⟨counters, limit, interval, mode⟩ := l
  cases counters with
  | Exact windows =>
    have hempty : (fun k => windows.lookup k) = fun _ => none := by
      rw [show windows = ∅ from hfresh]
      rfl
    have hforget := exact_forgetful F offset limit interval
    rw [decisions_exact, decisions_exact, hempty, hforget.outputs_eq hsorted hlegal,
      hforget.outputs_eq hsorted' hlegal', huses]
  | Sketch rate => rw [decisions_sketch es, decisions_sketch es', huses]
  | Shared backend cfg counters =>
    obtain ⟨hshards, hinterval⟩ := hfresh
    have hempty : (fun k => counters.shards.lookup k) = fun _ => none := by
      rw [hshards]
      rfl
    -- What is looked up in the store is a moment the clock can place.
    have hpass : ∀ i : Request offset,
        (⟨.Shared backend cfg counters, limit, interval, mode⟩ : Limiter ρ).pass i = none →
          (bucket_at i.wall cfg.interval).isSome := by
      intro i hi
      obtain ⟨d, hsome, -⟩ | ⟨hlocal, -⟩ :=
        decide_shared (F := F) (ρ := ρ) backend cfg counters limit interval mode [] i
      · rw [hi] at hsome
        cases hsome
      · rw [hi] at hlocal
        cases hb : bucket_at i.wall cfg.interval with
        | none =>
          rw [hb] at hlocal
          cases hlocal
        | some b => rfl
    subst hinterval
    have hforget := shared_forgetful F offset cfg hpass
    rw [decisions_shared, decisions_shared, hempty, hforget.outputs_eq hsorted hlegal,
      hforget.outputs_eq hsorted' hlegal', huses]

/-! ## A key that is dropped -/

/-- A sketch with one counter for every key. -/
instance tally : Rate ℚ ℕ where
  new _ _ := 0
  rate_with n _ _ := (n, ⟨0, n, 0⟩)
  observe n _ k _ := n + k

/-- An exact limiter of one request in ten nanoseconds. -/
def one_in_ten : Limiter ℕ := ⟨.Exact ∅, 1, 10, .Approximate⟩

/-- A request when both clocks read `n`. -/
def request_at (n : Fin 100) : Request 0 where
  now := n
  wall := ⟨n, by omega⟩
  wall_eq := (Int.zero_add _).symm
  source := 0
  answer := none

theorem idle_eviction_transparent_dropped :
    one_in_ten.decisions (F := ℚ) [.use ['k'] (request_at 0), .use ['k'] (request_at 5),
        .drop ['k'] 25, .use ['k'] (request_at 25)]
      = one_in_ten.decisions (F := ℚ) [.use ['k'] (request_at 0), .use ['k'] (request_at 5),
        .use ['k'] (request_at 25)] := by
  have hfresh : one_in_ten.Fresh := rfl
  refine idle_eviction_transparent hfresh rfl (by decide) (by decide) ?_ trivial
  -- The key was last looked for at 5, and two intervals later it is 25.
  refine ⟨?_, trivial⟩
  intro t₀ ht₀
  obtain rfl : t₀ = 5 := (Option.some.inj ht₀).symm
  exact Nat.le_refl 25

end Limiter

end Lagos.RateLimit
