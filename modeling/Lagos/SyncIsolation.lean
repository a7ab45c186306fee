/-
What becomes of the other keys when the backend answers the commands of one key with
errors (`SharedCounters::sync_once`, `RespBackend::reconcile`, `SharedLimitSync::start`).

A pipeline with an error reply in it is an error as a whole, and `on_backend` reports every
error as `Unavailable`, which is also what a backend that cannot be reached is reported as.
So the batch with the key in it is put back where it is taken from again, and the tick ends
without the limiters that come after.

A limiter's pass is `Lib/Visits.lean` at its own walks. What a sync does to it depends on
the pass and the walk alone, and `Visited` is all that is used of it.
-/
import Lagos.Cluster
import Lagos.Lib.Visits

set_option autoImplicit false

open RustStd

namespace Lagos.SyncIsolation

open Lagos.RateLimit SharedCounters Lagos.Cluster

/-! ## A backend with a key it answers with errors -/

/-- `BackendError`, without its texts. -/
inductive BackendError where
  | Unavailable
  | Timeout
  | Protocol
  deriving DecidableEq, Repr

/-- The hash a command is about. -/
def bucket_key : Command → BucketKey
  | .HSET key _ _ | .EXPIRE key _ | .HVALS key => key

/-- One command: the hashes after it and its reply, `none` for an error. -/
def answer (bad : Str) (hashes : Hashes) (cmd : Command) : Hashes × Option (List (List ℕ)) :=
  if (bucket_key cmd).key = bad then (hashes, none)
  else (run_command hashes cmd, some (reply_of hashes cmd))

/-- A pipeline is carried out to its end, and any error in it is the answer to all of it. -/
def run_pipeline (bad : Str) : Hashes → List Command → Hashes × Option (List (List ℕ))
  | hashes, [] => (hashes, some [])
  | hashes, cmd :: cmds =>
    let (hashes, reply) := answer bad hashes cmd
    let (hashes, replies) := run_pipeline bad hashes cmds
    (hashes, reply.bind fun reply => replies.map fun replies => reply ++ replies)

/-- `RespBackend::reconcile`. `on_backend` makes every redis error an `Unavailable`. -/
def reconcile (bad : Str) (hashes : Hashes) (batch : List Publish) :
    Hashes × Except BackendError (List Totals) :=
  if batch.isEmpty then (hashes, .ok [])
  else
    let (hashes, replies) := run_pipeline bad hashes (pipeline batch)
    (hashes,
      match replies with
      | none => .error .Unavailable
      | some replies =>
        match totals_of batch replies with
        | none => .error .Protocol
        | some totals => .ok totals)

/-- What `sync_once` leaves, and what it returns. -/
structure Synced where
  hashes : Hashes
  counters : SharedCounters
  reached : Bool
  /-- History: the keys that were published and whose totals were folded back. -/
  reconciled : List Str

/-- `SharedCounters::sync_once`. -/
def sync_once (cfg : SharedConfig) (bad : Str) (hashes : Hashes) (c : SharedCounters)
    (now : SystemTime) (order : List Str) : Synced :=
  let (c, batch) := c.pending cfg now order
  if batch.publishes.isEmpty then ⟨hashes, c, true, []⟩
  else
    let (hashes, result) := reconcile bad hashes batch.publishes
    let failed (error : BackendError) : Synced :=
      ⟨hashes, c.put_back batch, !(error = .Unavailable ∨ error = .Timeout), []⟩
    match result with
    | .ok totals =>
      if totals.length = batch.publishes.length then
        ⟨hashes, c.apply batch totals, true, batch.entries⟩
      else failed .Protocol
    | .error error => failed error

/-! ## Ticks -/

/-- One of the limiters a tick visits. Validation refuses a `max_keys_per_sync` of zero. -/
structure SyncLimiter where
  cfg : SharedConfig
  batch_pos : 0 < cfg.batch
  counters : SharedCounters
  /-- History: the keys that the last tick reconciled. -/
  reconciled : List Str := []

structure State where
  hashes : Hashes
  limiters : List SyncLimiter

/-- `sync_once` on a limiter. -/
def SyncLimiter.synced (l : SyncLimiter) (s : Synced) : SyncLimiter :=
  { l with counters := s.counters, reconciled := s.reconciled }

/-- A limiter that the tick ended before. -/
def SyncLimiter.skipped (l : SyncLimiter) : SyncLimiter := { l with reconciled := [] }

/-- One tick of `SharedLimitSync::start`: the limiters in turn, up to the first that reports
the backend out of reach. -/
def tick (bad : Str) : (ℕ → SystemTime) → (ℕ → List Str) → Hashes → List SyncLimiter →
    Hashes × List SyncLimiter
  | _, _, hashes, [] => (hashes, [])
  | clock, order, hashes, l :: ls =>
    let s := sync_once l.cfg bad hashes l.counters (clock 0) (order 0)
    if s.reached then
      let (hashes, ls) := tick bad (fun i => clock (i + 1)) (fun i => order (i + 1)) s.hashes ls
      (hashes, l.synced s :: ls)
    else (s.hashes, l.synced s :: ls.map SyncLimiter.skipped)

/-- A request on a limiter. -/
structure Request where
  limiter : ℕ
  source : Uuid
  key : Str
  now : SystemTime

/-- A tick, with the requests that come before it: for each limiter, what its clock reads and
how its store is walked. No clock reads a time before the epoch. -/
structure Round where
  requests : List Request
  clock : ℕ → SystemTime
  order : ℕ → List Str
  epoch : ∀ i, 0 ≤ (clock i).nanos

section

variable (F : Type) [F64 F]

/-- `check_at` on a limiter. -/
def SyncLimiter.check (l : SyncLimiter) (q : Request) : SyncLimiter :=
  { l with counters := (l.counters.check_at l.cfg F q.source q.key q.now).1 }

/-- The requests of a round, and its tick. -/
def State.round (bad : Str) (s : State) (r : Round) : State :=
  let limiters := r.requests.foldl
    (fun limiters q => limiters.modify q.limiter fun l => l.check F q) s.limiters
  let (hashes, limiters) := tick bad r.clock r.order s.hashes limiters
  ⟨hashes, limiters⟩

/-- The state after `n` rounds. -/
def run (bad : Str) (rounds : ℕ → Round) (s : State) : ℕ → State
  | 0 => s
  | n + 1 => (run bad rounds s n).round F bad (rounds n)

end

/-! ## Isolation -/

/-- A limiter whose pass holds keys it tracks, each once. -/
structure SyncLimiter.WellFormed (l : SyncLimiter) : Prop where
  nodup : l.counters.pass.Nodup
  tracked : ∀ key ∈ l.counters.pass, key ∈ l.counters.shards

/-- The requests of a round are for tracked keys, and its walks are of those. -/
structure Round.Fits (r : Round) (limiters : List SyncLimiter) : Prop where
  requests : ∀ q ∈ r.requests, ∀ l, limiters[q.limiter]? = some l → q.key ∈ l.counters.shards
  order : ∀ i l, limiters[i]? = some l → (r.order i).Perm l.counters.shards.keys

/-- How many keys are tracked, all limiters together. -/
def tracked (limiters : List SyncLimiter) : ℕ :=
  (limiters.map fun l => l.counters.shards.keys.length).sum

/-- Whenever one starts to count, every key but `bad` is reconciled within `bound` ticks. -/
def Isolated (F : Type) [F64 F] (bad : Str) (bound : ℕ) (s : State) : Prop :=
  ∀ rounds : ℕ → Round, (∀ n, (rounds n).Fits s.limiters) →
    ∀ (t i : ℕ) (l : SyncLimiter), s.limiters[i]? = some l →
      ∀ key ∈ l.counters.shards, cache_key l.cfg key ≠ bad →
        ∃ (n : ℕ) (l' : SyncLimiter), t < n ∧ n ≤ t + bound ∧
          (run F bad rounds s n).limiters[i]? = some l' ∧ key ∈ l'.reconciled

/-- The limiter tracks `bad`. -/
def SyncLimiter.Tracks (bad : Str) (l : SyncLimiter) : Prop :=
  ∃ key ∈ l.counters.shards, cache_key l.cfg key = bad

/-- Neither a limiter that tracks `bad` nor one that is visited after it tracks another key. -/
def NothingBehind (bad : Str) (limiters : List SyncLimiter) : Prop :=
  ∀ (j : ℕ) (m : SyncLimiter), limiters[j]? = some m → m.Tracks bad →
    ∀ (i : ℕ) (l : SyncLimiter), j ≤ i → limiters[i]? = some l →
      ∀ key ∈ l.counters.shards, cache_key l.cfg key = bad

/-! ## The pipeline -/

variable {bad : Str}

theorem run_pipeline_append (hashes : Hashes) (cmds cmds' : List Command) :
    run_pipeline bad hashes (cmds ++ cmds') =
      let first := run_pipeline bad hashes cmds
      let second := run_pipeline bad first.1 cmds'
      (second.1, first.2.bind fun r => second.2.map fun r' => r ++ r') := by
  induction cmds generalizing hashes with
  | nil => simp [run_pipeline]
  | cons cmd cmds ih =>
    simp only [List.cons_append, run_pipeline, ih]
    cases (answer bad hashes cmd).2 with
    | none => rfl
    | some reply =>
      cases (run_pipeline bad (answer bad hashes cmd).1 cmds).2 with
      | none => rfl
      | some replies => simp [Function.comp_def]

/-- One turn of the inner loop of `reconcile` is answered with one reply, or with an error. -/
theorem run_bucket_commands (hashes : Hashes) (p : Publish) (bucket own : ℕ) (writable : Bool) :
    if p.key = bad then
      (run_pipeline bad hashes (bucket_commands p bucket own writable)).2 = none
    else
      ∃ reply, (run_pipeline bad hashes (bucket_commands p bucket own writable)).2
        = some [reply] := by
  have hrest : ∀ hashes : Hashes,
      (run_pipeline bad hashes [.EXPIRE ⟨p.key, bucket⟩ (ttl_secs p.interval),
        .HVALS ⟨p.key, bucket⟩]).2
        = if p.key = bad then none
          else some [(hashes ⟨p.key, bucket⟩).entries.map Sigma.snd] := by
    intro hashes
    by_cases h : p.key = bad
    · simp [run_pipeline, answer, bucket_key, h]
    · simp [run_pipeline, answer, bucket_key, h, reply_of, run_command]
  unfold bucket_commands
  rw [run_pipeline_append]
  simp only [hrest]
  by_cases h : p.key = bad
  · simp [h]
  · rw [if_neg h]
    by_cases hown : own ≠ 0 ∧ writable = true
    · simp [run_pipeline, answer, bucket_key, h, hown, reply_of]
    · simp [run_pipeline, h, hown]

/-- A publish is answered with its two replies, or with an error. -/
theorem run_publish_commands (hashes : Hashes) (p : Publish) :
    if p.key = bad then (run_pipeline bad hashes (publish_commands p)).2 = none
    else ∃ current previous,
      (run_pipeline bad hashes (publish_commands p)).2 = some [current, previous] := by
  have hfirst := @run_bucket_commands bad hashes p p.bucket p.own_current true
  unfold publish_commands
  rw [run_pipeline_append]
  by_cases h : p.key = bad
  · rw [if_pos h] at hfirst ⊢
    simp only [hfirst, Option.bind_none]
  · rw [if_neg h] at hfirst ⊢
    obtain ⟨current, hcurrent⟩ := hfirst
    have hsecond := @run_bucket_commands bad
      (run_pipeline bad hashes (bucket_commands p p.bucket p.own_current true)).1 p (p.bucket - 1)
      p.own_previous (p.bucket > 0)
    rw [if_neg h] at hsecond
    obtain ⟨previous, hprevious⟩ := hsecond
    refine ⟨current, previous, ?_⟩
    simp only [hcurrent, hprevious, Option.bind_some, Option.map_some, List.cons_append,
      List.nil_append]

/-- **One bad key in a pipeline and there are no totals; none, and there are all of them.** -/
theorem run_pipeline_publishes (hashes : Hashes) (batch : List Publish) :
    if ∃ p ∈ batch, p.key = bad then (run_pipeline bad hashes (pipeline batch)).2 = none
    else ∃ replies totals, (run_pipeline bad hashes (pipeline batch)).2 = some replies ∧
      totals_of batch replies = some totals ∧ totals.length = batch.length := by
  induction batch generalizing hashes with
  | nil => simp [pipeline, run_pipeline, totals_of]
  | cons p batch ih =>
    have hp := @run_publish_commands bad hashes p
    have hrest := ih (run_pipeline bad hashes (publish_commands p)).1
    have hcons : pipeline (p :: batch) = publish_commands p ++ pipeline batch := rfl
    rw [hcons, run_pipeline_append]
    by_cases h : p.key = bad
    · rw [if_pos h] at hp
      rw [if_pos ⟨p, List.mem_cons_self, h⟩]
      simp only [hp, Option.bind_none]
    · rw [if_neg h] at hp
      obtain ⟨current, previous, hp⟩ := hp
      by_cases hb : ∃ p ∈ batch, p.key = bad
      · obtain ⟨q, hq, hqb⟩ := hb
        rw [if_pos ⟨q, hq, hqb⟩] at hrest
        rw [if_pos ⟨q, List.mem_cons_of_mem _ hq, hqb⟩]
        simp only [hp, hrest, Option.bind_some, Option.map_none]
      · rw [if_neg hb] at hrest
        obtain ⟨replies, totals, hr, ht, hlen⟩ := hrest
        rw [if_neg]
        · refine ⟨current :: previous :: replies,
            ⟨total_of current, if p.bucket = 0 then 0 else total_of previous⟩ :: totals, ?_, ?_, ?_⟩
          · simp only [hp, hr, Option.bind_some, Option.map_some, List.cons_append,
              List.nil_append]
          · rw [totals_of, ht, Option.map_some]
          · rw [List.length_cons, List.length_cons, hlen]
        · rintro ⟨q, hq, hqb⟩
          rcases List.mem_cons.mp hq with rfl | hq
          · exact h hqb
          · exact hb ⟨q, hq, hqb⟩

/-! ## One sync -/

/-- The keys the next sync takes. -/
def SyncLimiter.taken (l : SyncLimiter) (order : List Str) : List Str :=
  Visits.taken l.cfg.batch l.counters.pass order

/-- `bad` is among them. -/
def SyncLimiter.Blocked (bad : Str) (l : SyncLimiter) (order : List Str) : Prop :=
  ∃ key ∈ l.taken order, cache_key l.cfg key = bad

theorem pending_eq {cfg : SharedConfig} {now : SystemTime} {b : ℕ}
    (h : bucket_at now cfg.interval = some b) (c : SharedCounters) (order : List Str) :
    c.pending cfg now order =
      let res := snapshot cfg b c.shards (Visits.taken cfg.batch c.pass order)
      (⟨res.1, Visits.left cfg.batch c.pass order⟩,
        ⟨res.2, Visits.taken cfg.batch c.pass order⟩) := by
  simp only [pending, h, take_batch, List.splitAt_eq, Visits.left, Visits.taken, Visits.refill]

/-- A batch of tracked keys has a line for each of them. -/
theorem map_key_snapshot (cfg : SharedConfig) (b : ℕ) {shards : Shards} {keys : List Str}
    (h : ∀ key ∈ keys, key ∈ shards) :
    (snapshot cfg b shards keys).2.map Publish.key = keys.map (cache_key cfg) := by
  rw [snapshot_publishes]
  induction keys with
  | nil => rfl
  | cons key keys ih =>
    obtain ⟨hkey, hkeys⟩ := List.forall_mem_cons.mp h
    obtain ⟨shard, hshard⟩ := Option.isSome_iff_exists.mp (AList.lookup_isSome.mpr hkey)
    rw [List.filterMap_cons, hshard, Option.map_some, List.map_cons, List.map_cons, ih hkeys]
    rfl

theorem mem_iff_of_lookup {shards shards' : Shards} {key : Str} {f : Shard → Shard}
    (h : shards'.lookup key = (shards.lookup key).map f) : key ∈ shards' ↔ key ∈ shards := by
  rw [← AList.lookup_isSome, ← AList.lookup_isSome, h, Option.isSome_map]

theorem mem_snapshot (cfg : SharedConfig) (b : ℕ) (shards : Shards) (keys : List Str)
    (key : Str) : key ∈ (snapshot cfg b shards keys).1 ↔ key ∈ shards :=
  mem_iff_of_lookup (lookup_snapshot b shards keys key)

theorem mem_apply (c : SharedCounters) (batch : Batch) (totals : List Totals) (key : Str) :
    key ∈ (c.apply batch totals).shards ↔ key ∈ c.shards := by
  unfold SharedCounters.apply
  split
  · exact Iff.rfl
  · exact mem_iff_of_lookup (lookup_apply_lines _ c.shards key)

/-- What a sync does to a limiter, by what its pass and its walk say. -/
structure Turn (bad : Str) (l : SyncLimiter) (order : List Str) (s : Synced) : Prop where
  mem : ∀ key, key ∈ s.counters.shards ↔ key ∈ l.counters.shards
  blocked : l.Blocked bad order → s.reached = false ∧
    s.counters.pass = Visits.refill l.counters.pass order ∧ s.reconciled = []
  done : ¬ l.Blocked bad order → s.reached = true ∧
    s.counters.pass = Visits.left l.cfg.batch l.counters.pass order ∧
    s.reconciled = l.taken order

/-- **One sync.** It reconciles the batch unless `bad` is in it, and then puts it back. -/
theorem sync_once_turn {l : SyncLimiter} (hashes : Hashes) {now : SystemTime}
    (hnow : 0 ≤ now.nanos) {order : List Str}
    (htracked : ∀ key ∈ Visits.refill l.counters.pass order, key ∈ l.counters.shards) :
    Turn bad l order (sync_once l.cfg bad hashes l.counters now order) := by
  obtain ⟨b, hb⟩ : ∃ b, bucket_at now l.cfg.interval = some b := by
    rw [bucket_at_eq l.cfg.interval_ge, if_neg (by omega)]
    exact ⟨_, rfl⟩
  have htaken : ∀ key ∈ l.taken order, key ∈ l.counters.shards := by
    intro key hkey
    exact htracked key (Visits.mem_refill_of_mem_taken hkey)
  have hkeys := map_key_snapshot l.cfg b htaken
  have hmem := mem_snapshot l.cfg b l.counters.shards (l.taken order)
  unfold sync_once
  rw [pending_eq hb]
  change Turn bad l order _
  generalize hres : snapshot l.cfg b l.counters.shards (Visits.taken l.cfg.batch
    l.counters.pass order) = res
  rw [SyncLimiter.taken, hres] at hkeys hmem
  -- the batch has the keys that were taken, and `bad` is in it when the limiter is blocked
  have hblocked : (∃ p ∈ res.2, p.key = bad) ↔ l.Blocked bad order := by
    have h := congrArg (bad ∈ ·) hkeys
    simp only [List.mem_map, eq_iff_iff] at h
    exact h
  by_cases hempty : res.2.isEmpty
  · have hnil : l.taken order = [] := by
      rw [List.isEmpty_iff] at hempty
      rw [hempty] at hkeys
      exact List.map_eq_nil_iff.mp hkeys.symm
    simp only [hempty, if_true]
    refine ⟨hmem, ?_, ?_⟩
    · rintro ⟨key, hkey, -⟩
      rw [hnil] at hkey
      cases hkey
    · intro _
      exact ⟨rfl, rfl, hnil.symm⟩
  · have hrun := @run_pipeline_publishes bad hashes res.2
    by_cases h : l.Blocked bad order
    · rw [if_pos (hblocked.mpr h)] at hrun
      simp only [hempty, Bool.false_eq_true, if_false, reconcile, hrun]
      refine ⟨hmem, ?_, fun hn => absurd h hn⟩
      intro _
      refine ⟨rfl, ?_, rfl⟩
      exact Visits.left_append_taken _ _ _
    · rw [if_neg (fun hc => h (hblocked.mp hc))] at hrun
      obtain ⟨replies, totals, hr, ht, hlen⟩ := hrun
      simp only [hempty, Bool.false_eq_true, if_false, reconcile, hr, ht, hlen, if_true]
      refine ⟨?_, fun hb => absurd hb h, ?_⟩
      · intro key
        exact (mem_apply _ _ _ key).trans (hmem key)
      · intro _
        refine ⟨rfl, ?_, rfl⟩
        unfold SharedCounters.apply
        split <;> rfl

/-! ## One tick -/

/-- The tick ended before limiter `i`. -/
def Ended (bad : Str) (limiters : List SyncLimiter) (order : ℕ → List Str) (i : ℕ) : Prop :=
  ∃ j < i, ∃ m, limiters[j]? = some m ∧ m.Blocked bad (order j)

theorem ended_cons {l : SyncLimiter} {ls : List SyncLimiter} {order : ℕ → List Str} {i : ℕ} :
    Ended bad (l :: ls) order (i + 1) ↔
      l.Blocked bad (order 0) ∨ Ended bad ls (fun i => order (i + 1)) i := by
  constructor
  · rintro ⟨j, hj, m, hm, hb⟩
    cases j with
    | zero =>
      rw [List.getElem?_cons_zero, Option.some.injEq] at hm
      exact Or.inl (hm ▸ hb)
    | succ j =>
      rw [List.getElem?_cons_succ] at hm
      exact Or.inr ⟨j, by omega, m, hm, hb⟩
  · rintro (hb | ⟨j, hj, m, hm, hb⟩)
    · exact ⟨0, by omega, l, rfl, hb⟩
    · exact ⟨j + 1, by omega, m, hm, hb⟩

/-- What a tick does to limiter `i`, by what the passes and the walks say. -/
theorem tick_getElem {clock : ℕ → SystemTime} {order : ℕ → List Str} {ls : List SyncLimiter}
    (hashes : Hashes) (hclock : ∀ i, 0 ≤ (clock i).nanos)
    (htracked : ∀ i l, ls[i]? = some l →
      ∀ key ∈ Visits.refill l.counters.pass (order i), key ∈ l.counters.shards)
    {i : ℕ} {l : SyncLimiter} (hl : ls[i]? = some l) :
    ∃ l', (tick bad clock order hashes ls).2[i]? = some l' ∧
      (Ended bad ls order i → l' = l.skipped) ∧
      (¬ Ended bad ls order i → ∃ s, Turn bad l (order i) s ∧ l' = l.synced s) := by
  induction ls generalizing clock order hashes i with
  | nil => cases hl
  | cons m ls ih =>
    have hturn := @sync_once_turn bad _ hashes _ (hclock 0) _ (htracked 0 m rfl)
    rw [tick]
    cases i with
    | zero =>
      rw [List.getElem?_cons_zero, Option.some.injEq] at hl
      subst hl
      refine ⟨m.synced (sync_once m.cfg bad hashes m.counters (clock 0) (order 0)), ?_, ?_, ?_⟩
      · split <;> rfl
      · rintro ⟨j, hj, -⟩
        exact absurd hj (Nat.not_lt_zero j)
      · intro _
        exact ⟨_, hturn, rfl⟩
    | succ i =>
      rw [List.getElem?_cons_succ] at hl
      rw [ended_cons]
      by_cases hb : m.Blocked bad (order 0)
      · refine ⟨l.skipped, ?_, fun _ => rfl, fun hn => absurd (Or.inl hb) hn⟩
        simp only [(hturn.blocked hb).1, Bool.false_eq_true, if_false, List.getElem?_cons_succ,
          List.getElem?_map, hl, Option.map_some]
      · obtain ⟨l', hl', hskipped, hsynced⟩ := ih
          (sync_once m.cfg bad hashes m.counters (clock 0) (order 0)).hashes
          (fun i => hclock (i + 1)) (fun i l h => htracked (i + 1) l h) hl
        refine ⟨l', ?_, ?_, ?_⟩
        · simp only [(hturn.done hb).1, if_true, List.getElem?_cons_succ, hl']
        · intro h
          exact hskipped (h.resolve_left hb)
        · intro h
          exact hsynced (fun he => h (Or.inr he))

theorem tick_length (clock : ℕ → SystemTime) (order : ℕ → List Str) (hashes : Hashes)
    (ls : List SyncLimiter) : (tick bad clock order hashes ls).2.length = ls.length := by
  induction ls generalizing clock order hashes with
  | nil => rfl
  | cons l ls ih =>
    rw [tick]
    simp only
    split
    · rw [List.length_cons, List.length_cons, ih]
    · rw [List.length_cons, List.length_cons, List.length_map]

/-! ## The requests in between -/

/-- The limiter may have counted requests; what it tracks and has left to visit is the same. -/
structure Same (l l' : SyncLimiter) : Prop where
  cfg : l'.cfg = l.cfg
  mem : ∀ key, key ∈ l'.counters.shards ↔ key ∈ l.counters.shards
  pass : l'.counters.pass = l.counters.pass

variable {F : Type} [F64 F]

/-- A request for a tracked key adds nothing to what is tracked. -/
theorem SyncLimiter.check_same {l : SyncLimiter} {q : Request}
    (h : q.key ∈ l.counters.shards) : Same l (l.check F q) := by
  refine ⟨rfl, ?_, ?_⟩
  · intro key
    unfold SyncLimiter.check
    cases hb : bucket_at q.now l.cfg.interval with
    | none =>
      simp only [check_at_of_none hb]
    | some b =>
      simp only [check_at_of_some hb, AList.mem_insert, or_iff_right_iff_imp]
      rintro rfl
      exact h
  · unfold SyncLimiter.check
    cases hb : bucket_at q.now l.cfg.interval with
    | none => simp only [check_at_of_none hb]
    | some b => simp only [check_at_of_some hb]

theorem Same.refl (l : SyncLimiter) : Same l l := ⟨rfl, fun _ => Iff.rfl, rfl⟩

theorem Same.trans {l l' l'' : SyncLimiter} (h : Same l l') (h' : Same l' l'') : Same l l'' where
  cfg := h'.cfg.trans h.cfg
  mem key := (h'.mem key).trans (h.mem key)
  pass := h'.pass.trans h.pass

/-- The same limiters, each of them the same. -/
def SameAll (ls ls' : List SyncLimiter) : Prop := ∀ i : ℕ, Option.Rel Same ls[i]? ls'[i]?

theorem forward {α β : Type} {R : α → β → Prop} {o : Option α} {p : Option β}
    (h : Option.Rel R o p) {x : α} (hx : o = some x) : ∃ y, p = some y ∧ R x y := by
  cases h with
  | some h =>
    cases hx
    exact ⟨_, rfl, h⟩
  | none => cases hx

theorem backward {α β : Type} {R : α → β → Prop} {o : Option α} {p : Option β}
    (h : Option.Rel R o p) {y : β} (hy : p = some y) : ∃ x, o = some x ∧ R x y := by
  cases h with
  | some h =>
    cases hy
    exact ⟨_, rfl, h⟩
  | none => cases hy

theorem SameAll.trans {ls ls' ls'' : List SyncLimiter} (h : SameAll ls ls')
    (h' : SameAll ls' ls'') : SameAll ls ls'' := by
  intro i
  have hi := h i
  have hi' := h' i
  generalize ls[i]? = o at hi ⊢
  generalize ls'[i]? = p at hi hi'
  cases hi with
  | none => exact hi'
  | some h =>
    obtain ⟨y, hy, h'⟩ := forward hi' rfl
    rw [hy]
    exact .some (h.trans h')

theorem modify_sameAll {ls : List SyncLimiter} {q : Request}
    (h : ∀ l, ls[q.limiter]? = some l → q.key ∈ l.counters.shards) :
    SameAll ls (ls.modify q.limiter fun l => l.check F q) := by
  intro j
  rw [List.getElem?_modify]
  cases hm : ls[j]? with
  | none => exact .none
  | some m =>
    refine .some ?_
    simp only
    by_cases hj : q.limiter = j
    · rw [if_pos hj]
      exact SyncLimiter.check_same (h m (hj ▸ hm))
    · rw [if_neg hj]
      exact Same.refl m

theorem requests_sameAll {requests : List Request} {ls : List SyncLimiter}
    (h : ∀ q ∈ requests, ∀ l, ls[q.limiter]? = some l → q.key ∈ l.counters.shards) :
    SameAll ls (requests.foldl (fun ls q => ls.modify q.limiter fun l => l.check F q) ls) := by
  induction requests generalizing ls with
  | nil =>
    intro i
    rw [List.foldl_nil]
    cases ls[i]? with
    | none => exact .none
    | some l => exact .some (Same.refl l)
  | cons q requests ih =>
    obtain ⟨hq, hrest⟩ := List.forall_mem_cons.mp h
    have hfirst := modify_sameAll (F := F) hq
    refine hfirst.trans (ih ?_)
    intro q' hq' m' hm'
    obtain ⟨m, hm, hsame⟩ := backward (hfirst q'.limiter) hm'
    exact (hsame.mem _).mpr (hrest q' hq' m hm)

theorem Same.blocked_iff {l l' : SyncLimiter} (h : Same l l') (order : List Str) :
    l'.Blocked bad order ↔ l.Blocked bad order := by
  rw [SyncLimiter.Blocked, SyncLimiter.Blocked, SyncLimiter.taken, SyncLimiter.taken, h.cfg, h.pass]

theorem SameAll.ended_iff {ls ls' : List SyncLimiter} (h : SameAll ls ls')
    (order : ℕ → List Str) (i : ℕ) : Ended bad ls' order i ↔ Ended bad ls order i := by
  constructor
  · rintro ⟨j, hj, m', hm', hb⟩
    obtain ⟨m, hm, hs⟩ := backward (h j) hm'
    exact ⟨j, hj, m, hm, (hs.blocked_iff _).mp hb⟩
  · rintro ⟨j, hj, m, hm, hb⟩
    obtain ⟨m', hm', hs⟩ := forward (h j) hm
    exact ⟨j, hj, m', hm', (hs.blocked_iff _).mpr hb⟩

/-! ## One round -/

/-- What every round keeps of a limiter that was `l₀` at the start. -/
structure Kept (l₀ l : SyncLimiter) : Prop where
  cfg : l.cfg = l₀.cfg
  mem : ∀ key, key ∈ l.counters.shards ↔ key ∈ l₀.counters.shards
  pass : ∀ key ∈ l.counters.pass, key ∈ l₀.counters.shards
  length : l.counters.pass.length ≤ l₀.counters.shards.keys.length

theorem Kept.refl {l : SyncLimiter} (h : l.WellFormed) : Kept l l := by
  refine ⟨rfl, fun _ => Iff.rfl, h.tracked, ?_⟩
  exact (List.subperm_of_subset h.nodup h.tracked).length_le

theorem Kept.of_same {l₀ l l' : SyncLimiter} (h : Kept l₀ l) (hs : Same l l') : Kept l₀ l' where
  cfg := hs.cfg.trans h.cfg
  mem key := (hs.mem key).trans (h.mem key)
  pass := hs.pass ▸ h.pass
  length := hs.pass ▸ h.length

theorem Kept.mem_refill {l₀ l : SyncLimiter} (h : Kept l₀ l) {order : List Str}
    (ho : order.Perm l₀.counters.shards.keys) :
    ∀ key ∈ Visits.refill l.counters.pass order, key ∈ l₀.counters.shards := by
  intro key hkey
  rcases Visits.mem_refill hkey with hkey | hkey
  · exact h.pass key hkey
  · exact ho.subset hkey

/-- What a round does to limiter `i`. -/
structure After (bad : Str) (limiters : List SyncLimiter) (order : ℕ → List Str) (i : ℕ)
    (l l' : SyncLimiter) : Prop where
  ended : Ended bad limiters order i → l'.counters.pass = l.counters.pass ∧ l'.reconciled = []
  blocked : ¬ Ended bad limiters order i → l.Blocked bad (order i) →
    l'.counters.pass = Visits.refill l.counters.pass (order i) ∧ l'.reconciled = []
  done : ¬ Ended bad limiters order i → ¬ l.Blocked bad (order i) →
    l'.counters.pass = Visits.left l.cfg.batch l.counters.pass (order i) ∧
      l'.reconciled = l.taken (order i)

/-- A turn leaves a limiter within what it tracks. -/
theorem Kept.of_pass {l₀ l l' : SyncLimiter} (h : Kept l₀ l) {order : List Str}
    (ho : order.Perm l₀.counters.shards.keys) (hcfg : l'.cfg = l.cfg)
    (hmem : ∀ key, key ∈ l'.counters.shards ↔ key ∈ l.counters.shards)
    (hpass : l'.counters.pass = l.counters.pass ∨
      l'.counters.pass = Visits.refill l.counters.pass order ∨
      l'.counters.pass = Visits.left l.cfg.batch l.counters.pass order) : Kept l₀ l' := by
  have hlen := Visits.length_refill_le h.length (Nat.le_of_eq ho.length_eq)
  refine ⟨hcfg.trans h.cfg, fun key => (hmem key).trans (h.mem key), ?_, ?_⟩
  · rcases hpass with hp | hp | hp <;> rw [hp]
    · exact h.pass
    · exact h.mem_refill ho
    · intro key hkey
      exact h.mem_refill ho key (List.mem_of_mem_take hkey)
  · rcases hpass with hp | hp | hp <;> rw [hp]
    · exact h.length
    · exact hlen
    · rw [Visits.length_left]
      omega

/-- **One round.** -/
theorem round_getElem {s : State} {r : Round} {L : List SyncLimiter} (hfits : r.Fits L)
    (hkept : ∀ i : ℕ, Option.Rel Kept L[i]? s.limiters[i]?) {i : ℕ} {l₀ l : SyncLimiter}
    (hl₀ : L[i]? = some l₀) (hl : s.limiters[i]? = some l) (hk : Kept l₀ l) :
    ∃ l', (s.round F bad r).limiters[i]? = some l' ∧ Kept l₀ l' ∧
      After bad s.limiters r.order i l l' := by
  have hsame := @requests_sameAll F _ r.requests s.limiters <| by
    intro q hq m hm
    obtain ⟨m₀, hm₀, hkm⟩ := backward (hkept _) hm
    exact (hkm.mem _).mpr (hfits.requests q hq m₀ hm₀)
  unfold State.round
  simp only
  generalize r.requests.foldl (fun ls q => ls.modify q.limiter fun l => l.check F q)
    s.limiters = mid at hsame
  have htracked : ∀ (j : ℕ) (m' : SyncLimiter), mid[j]? = some m' →
      ∀ key ∈ Visits.refill m'.counters.pass (r.order j), key ∈ m'.counters.shards := by
    intro j m' hm' key hkey
    obtain ⟨m, hm, hs⟩ := backward (hsame j) hm'
    obtain ⟨m₀, hm₀, hkm⟩ := backward (hkept j) hm
    have hkm' := hkm.of_same hs
    exact (hkm'.mem key).mpr (hkm'.mem_refill (hfits.order j m₀ hm₀) key hkey)
  obtain ⟨k, hmid, hlk⟩ := forward (hsame i) hl
  obtain ⟨l', hl', hskipped, hsynced⟩ := @tick_getElem bad _ _ _ s.hashes r.epoch htracked _ _ hmid
  -- the passes and the walks are the ones from before the requests
  rw [hsame.ended_iff] at hskipped hsynced
  have hkk := hk.of_same hlk
  have ho := hfits.order i l₀ hl₀
  by_cases he : Ended bad s.limiters r.order i
  · rw [hskipped he] at hl' 
    refine ⟨_, hl', hkk.of_pass ho rfl (fun _ => Iff.rfl) (Or.inl rfl), ?_, ?_, ?_⟩
    · intro _
      exact ⟨hlk.pass, rfl⟩
    · exact fun hn => absurd he hn
    · exact fun hn => absurd he hn
  · obtain ⟨t, hturn, rfl⟩ := hsynced he
    have hblocked := @Same.blocked_iff bad _ _ hlk (r.order i)
    by_cases hb : k.Blocked bad (r.order i)
    · obtain ⟨-, hpass, hrec⟩ := hturn.blocked hb
      refine ⟨_, hl', hkk.of_pass ho rfl hturn.mem (Or.inr (Or.inl hpass)), ?_, ?_, ?_⟩
      · exact fun h => absurd h he
      · intro _ _
        exact ⟨hlk.pass ▸ hpass, hrec⟩
      · exact fun _ hn => absurd (hblocked.mp hb) hn
    · obtain ⟨-, hpass, hrec⟩ := hturn.done hb
      refine ⟨_, hl', hkk.of_pass ho rfl hturn.mem (Or.inr (Or.inr hpass)), ?_, ?_, ?_⟩
      · exact fun h => absurd h he
      · exact fun _ h => absurd (hblocked.mpr h) hb
      · intro _ _
        rw [SyncLimiter.taken, hlk.cfg, hlk.pass] at hrec
        rw [hlk.cfg, hlk.pass] at hpass
        exact ⟨hpass, hrec⟩

theorem round_length (s : State) (r : Round) :
    (s.round F bad r).limiters.length = s.limiters.length := by
  unfold State.round
  simp only [tick_length]
  induction r.requests generalizing s with
  | nil => rfl
  | cons q requests ih =>
    rw [List.foldl_cons]
    have h := ih ⟨s.hashes, s.limiters.modify q.limiter fun l => l.check F q⟩
    rwa [List.length_modify] at h

/-! ## Runs -/

section

variable {s : State} {rounds : ℕ → Round} (hwf : ∀ l ∈ s.limiters, l.WellFormed)
  (hfits : ∀ n, (rounds n).Fits s.limiters)

include hwf hfits

/-- **Every round keeps every limiter.** -/
theorem run_kept (n i : ℕ) :
    Option.Rel Kept s.limiters[i]? (run F bad rounds s n).limiters[i]? := by
  induction n generalizing i with
  | zero =>
    rw [run]
    cases hl : s.limiters[i]? with
    | none => exact .none
    | some l => exact .some (Kept.refl (hwf l (List.mem_of_getElem? hl)))
  | succ n ih =>
    rw [run]
    cases hl₀ : s.limiters[i]? with
    | none =>
      have hlen : (run F bad rounds s n).limiters.length ≤ i := by
        have h := ih i
        rw [hl₀] at h
        generalize hl : (run F bad rounds s n).limiters[i]? = o at h
        cases h with
        | none => exact List.getElem?_eq_none_iff.mp hl
      have hlen' : ((run F bad rounds s n).round F bad (rounds n)).limiters.length ≤ i := by
        rw [round_length]
        exact hlen
      rw [List.getElem?_eq_none_iff.mpr hlen']
      exact .none
    | some l₀ =>
      obtain ⟨l, hl, hk⟩ := forward (ih i) hl₀
      obtain ⟨l', hl', hk', -⟩ := @round_getElem bad F _ _ _ _ (hfits n) ih _ _ _ hl₀ hl hk
      rw [hl']
      exact .some hk'

/-- What becomes of one limiter, round by round. -/
theorem exists_history {i : ℕ} {l₀ : SyncLimiter} (hl₀ : s.limiters[i]? = some l₀) :
    ∃ l : ℕ → SyncLimiter, ∀ n, (run F bad rounds s n).limiters[i]? = some (l n) ∧
      Kept l₀ (l n) ∧
      After bad (run F bad rounds s n).limiters (rounds n).order i (l n) (l (n + 1)) := by
  have hrun : ∀ n, ∃ l, (run F bad rounds s n).limiters[i]? = some l ∧ Kept l₀ l := by
    intro n
    exact forward (run_kept hwf hfits n i) hl₀
  choose l hl hk using hrun
  refine ⟨l, fun n => ⟨hl n, hk n, ?_⟩⟩
  obtain ⟨l', hl', -, hafter⟩ :=
    @round_getElem bad F _ _ _ _ (hfits n) (run_kept hwf hfits n) _ _ _ hl₀ (hl n) (hk n)
  have heq : l' = l (n + 1) := by
    have h := hl (n + 1)
    rw [run, hl'] at h
    exact Option.some.inj h
  exact heq ▸ hafter

/-- Where nothing before or at a limiter tracks `bad`, no tick ends before it. -/
theorem not_ended {i : ℕ} (h : ∀ j < i, ∀ m, s.limiters[j]? = some m → ¬ m.Tracks bad) (n : ℕ) :
    ¬ Ended bad (run F bad rounds s n).limiters (rounds n).order i := by
  rintro ⟨j, hj, m, hm, key, hkey, hb⟩
  obtain ⟨m₀, hm₀, hk⟩ := backward (run_kept hwf hfits n j) hm
  refine h j hj m₀ hm₀ ⟨key, ?_, ?_⟩
  · exact hk.mem_refill ((hfits n).order j m₀ hm₀) key (Visits.mem_refill_of_mem_taken hkey)
  · rw [← hk.cfg]
    exact hb

/-- **Out of the bad key's reach**, every key is reconciled within two passes. -/
theorem reconciled_of_not_tracks {i : ℕ} {l₀ : SyncLimiter} (hl₀ : s.limiters[i]? = some l₀)
    (h : ∀ j ≤ i, ∀ m, s.limiters[j]? = some m → ¬ m.Tracks bad) {key : Str}
    (hkey : key ∈ l₀.counters.shards) (t : ℕ) :
    ∃ (n : ℕ) (l' : SyncLimiter), t < n ∧ n ≤ t + 2 * l₀.counters.shards.keys.length ∧
      (run F bad rounds s n).limiters[i]? = some l' ∧ key ∈ l'.reconciled := by
  obtain ⟨l, hl⟩ := @exists_history bad F _ _ _ hwf hfits _ _ hl₀
  have hdone : ∀ n, (l (n + 1)).counters.pass
        = Visits.left l₀.cfg.batch (l n).counters.pass ((rounds n).order i) ∧
      (l (n + 1)).reconciled
        = Visits.taken l₀.cfg.batch (l n).counters.pass ((rounds n).order i) := by
    intro n
    obtain ⟨-, hk, hafter⟩ := hl n
    have hne := not_ended (F := F) hwf hfits (fun j hj => h j (Nat.le_of_lt hj)) n
    have hnb : ¬ (l n).Blocked bad ((rounds n).order i) := by
      rintro ⟨k, hkt, hb⟩
      refine h i (Nat.le_refl i) l₀ hl₀ ⟨k, ?_, hk.cfg ▸ hb⟩
      exact hk.mem_refill ((hfits n).order i l₀ hl₀) k (Visits.mem_refill_of_mem_taken hkt)
    have hd := hafter.done hne hnb
    rw [SyncLimiter.taken, hk.cfg] at hd
    exact hd
  have horder : ∀ n, key ∈ (rounds n).order i ∧
      ((rounds n).order i).length ≤ l₀.counters.shards.keys.length := by
    intro n
    have ho := (hfits n).order i l₀ hl₀
    exact ⟨ho.symm.subset hkey, Nat.le_of_eq ho.length_eq⟩
  obtain ⟨m, hm, hmem⟩ := @Visits.exists_mem_taken _ _ (fun n => (l n).counters.pass) _
    l₀.batch_pos (fun n => (hdone n).1) _ _ horder t
  have hlen := (hl t).2.1.length
  refine ⟨t + m + 1, l (t + m + 1), by omega, by omega, (hl _).1, ?_⟩
  rw [(hdone (t + m)).2]
  exact hmem

/-- **The first limiter that tracks `bad` gets stuck**, and with it all that come after. -/
theorem exists_stuck {j : ℕ} {m₀ : SyncLimiter} (hm₀ : s.limiters[j]? = some m₀)
    (htracks : m₀.Tracks bad) (hfirst : ∀ k < j, ∀ m, s.limiters[k]? = some m → ¬ m.Tracks bad) :
    ∃ t, ∀ n > t, ∀ i ≥ j, ∀ l, (run F bad rounds s n).limiters[i]? = some l →
      l.reconciled = [] := by
  obtain ⟨m, hm⟩ := @exists_history bad F _ _ _ hwf hfits _ _ hm₀
  have hne := not_ended (F := F) hwf hfits hfirst
  -- unless its pass comes to the bad key, it visits all of its keys, this one too
  have hsome : ∃ t, (m t).Blocked bad ((rounds t).order j) := by
    by_contra hnone
    obtain ⟨key, hkey, hb⟩ := htracks
    have hstep : ∀ n, (m (n + 1)).counters.pass
        = Visits.left m₀.cfg.batch (m n).counters.pass ((rounds n).order j) := by
      intro n
      rw [← (hm n).2.1.cfg]
      exact ((hm n).2.2.done (hne n) (fun h => hnone ⟨n, h⟩)).1
    have horder : ∀ n, key ∈ (rounds n).order j ∧
        ((rounds n).order j).length ≤ m₀.counters.shards.keys.length := by
      intro n
      have ho := (hfits n).order j m₀ hm₀
      exact ⟨ho.symm.subset hkey, Nat.le_of_eq ho.length_eq⟩
    obtain ⟨k, -, hmem⟩ := @Visits.exists_mem_taken _ _ (fun n => (m n).counters.pass) _
      m₀.batch_pos hstep _ _ horder 0
    refine hnone ⟨0 + k, key, ?_, ?_⟩
    · rw [SyncLimiter.taken, (hm _).2.1.cfg]
      exact hmem
    · rw [(hm _).2.1.cfg]
      exact hb
  obtain ⟨t, ht⟩ := hsome
  have hstuck : ∀ n ≥ t, (m n).Blocked bad ((rounds n).order j) := by
    intro n hn
    induction n, hn using Nat.le_induction with
    | base => exact ht
    | succ n _ ih =>
      obtain ⟨hpass, -⟩ := (hm n).2.2.blocked (hne n) ih
      obtain ⟨key, hkey, hb⟩ := ih
      have hcfg : (m (n + 1)).cfg = (m n).cfg := (hm (n + 1)).2.1.cfg.trans (hm n).2.1.cfg.symm
      refine ⟨key, ?_, hcfg ▸ hb⟩
      rw [SyncLimiter.taken, hcfg, hpass, Visits.taken_put_back (List.ne_nil_of_mem hkey)]
      exact hkey
  refine ⟨t, ?_⟩
  intro n hn i hi l hl
  obtain ⟨n, rfl⟩ : ∃ k, n = k + 1 := ⟨n - 1, by omega⟩
  have hb := hstuck n (by omega)
  obtain ⟨l₀, hl₀, -⟩ := backward (@run_kept bad F _ _ _ hwf hfits (n + 1) i) hl
  obtain ⟨l', hl'⟩ := @exists_history bad F _ _ _ hwf hfits _ _ hl₀
  have heq : l = l' (n + 1) := Option.some.inj (hl.symm.trans (hl' (n + 1)).1)
  rw [heq]
  by_cases hij : i = j
  · subst hij
    have hcur : l' n = m n := Option.some.inj ((hl' n).1.symm.trans (hm n).1)
    exact ((hl' n).2.2.blocked (hne n) (hcur ▸ hb)).2
  · exact ((hl' n).2.2.ended ⟨j, by omega, m n, (hm n).1, hb⟩).2

end

/-! ## The condition -/

/-- A round without requests, at the epoch. -/
def quiet (limiters : List SyncLimiter) : Round where
  requests := []
  clock _ := UNIX_EPOCH
  order i := (limiters[i]?.map fun l => l.counters.shards.keys).getD []
  epoch _ := Int.le_refl 0

theorem quiet_fits (limiters : List SyncLimiter) : (quiet limiters).Fits limiters := by
  refine ⟨fun q hq => absurd hq List.not_mem_nil, ?_⟩
  intro i l hl
  simp only [quiet, hl, Option.map_some, Option.getD_some]
  exact List.Perm.refl _

theorem keys_length_le_tracked {limiters : List SyncLimiter} {l : SyncLimiter}
    (h : l ∈ limiters) : l.counters.shards.keys.length ≤ tracked limiters := by
  exact List.le_sum_of_mem (List.mem_map_of_mem h)

theorem not_isolated {s : State} (hwf : ∀ l ∈ s.limiters, l.WellFormed)
    (h : ¬ NothingBehind bad s.limiters) (bound : ℕ) : ¬ Isolated F bad bound s := by
  intro hiso
  unfold NothingBehind at h
  push Not at h
  obtain ⟨j, m, hm, htracks, i, l, hij, hl, key, hkey, hgood⟩ := h
  -- the first one that tracks it
  have hex : ∃ (j : ℕ) (m : SyncLimiter), s.limiters[j]? = some m ∧ m.Tracks bad :=
    ⟨j, m, hm, htracks⟩
  classical
  obtain ⟨m₀, hm₀, htracks₀⟩ := Nat.find_spec hex
  have hle : Nat.find hex ≤ j := Nat.find_min' hex ⟨m, hm, htracks⟩
  obtain ⟨t, ht⟩ := @exists_stuck _ F _ _ (fun _ => quiet s.limiters) hwf (fun _ => quiet_fits _)
    _ _ hm₀ htracks₀ (fun k hk m hm htr => Nat.find_min hex hk ⟨m, hm, htr⟩)
  obtain ⟨n, l', hn, -, hl', hmem⟩ :=
    hiso (fun _ => quiet s.limiters) (fun _ => quiet_fits _) t i l hl key hkey hgood
  rw [ht n hn i (Nat.le_trans hle hij) l' hl'] at hmem
  cases hmem

theorem isolated_of_nothingBehind {s : State} (hwf : ∀ l ∈ s.limiters, l.WellFormed)
    (h : NothingBehind bad s.limiters) : Isolated F bad (2 * tracked s.limiters) s := by
  intro rounds hfits t i l hl key hkey hgood
  obtain ⟨n, l', hn, hle, hl', hmem⟩ := reconciled_of_not_tracks (F := F) hwf hfits hl
    (fun j hj m hm htracks => hgood (h j m hm htracks i l hj hl key hkey)) hkey t
  have hlen := keys_length_le_tracked (List.mem_of_getElem? hl)
  exact ⟨n, l', hn, by omega, hl', hmem⟩

/-- **When one bad key leaves the others alone**: exactly when no limiter that tracks it, and
none that is visited after one that does, tracks another key. Elsewhere no number of ticks is
enough. -/
theorem isolated_iff {s : State} (hwf : ∀ l ∈ s.limiters, l.WellFormed) {bound : ℕ}
    (hbound : 2 * tracked s.limiters ≤ bound) :
    Isolated F bad bound s ↔ NothingBehind bad s.limiters := by
  constructor
  · intro hiso
    by_contra h
    exact not_isolated hwf h bound hiso
  · intro h rounds hfits t i l hl key hkey hgood
    obtain ⟨n, l', hn, hle, rest⟩ :=
      isolated_of_nothingBehind (F := F) hwf h rounds hfits t i l hl key hkey hgood
    exact ⟨n, l', hn, by omega, rest⟩

/-! ## Two limiters, the first with a key that fails -/

namespace Two

/-- One second, ten requests, ten keys a sync. -/
def cfg : SharedConfig := ⟨[], NANOS_PER_SEC, 10, 10, Nat.le_refl _⟩

/-- A limiter that tracks one key. -/
def tracking (key : Str) : SyncLimiter where
  cfg := cfg
  batch_pos := by decide
  counters := { shards := (∅ : Shards).insert key { source := 1 } }

def state : State := ⟨fun _ => ∅, [tracking ['a'], tracking ['b']]⟩

theorem wellFormed : ∀ l ∈ state.limiters, l.WellFormed := by
  intro l hl
  have hpass : l.counters.pass = [] := by
    simp only [state, List.mem_cons, List.not_mem_nil, or_false] at hl
    rcases hl with rfl | rfl <;> rfl
  refine ⟨hpass ▸ List.nodup_nil, ?_⟩
  intro key hkey
  rw [hpass] at hkey
  cases hkey

theorem mem_tracking (key : Str) : key ∈ (tracking key).counters.shards := by
  rw [tracking, AList.mem_insert]
  exact Or.inl rfl

end Two

/-- The witness of `isolated_iff`: two limiters with a key each. -/
theorem isolated_iff_two :
    Isolated ℚ ['b'] 4 Two.state ↔ NothingBehind ['b'] Two.state.limiters :=
  isolated_iff Two.wellFormed (by decide)

/-- The first limiter's only key fails, and the second's is never reconciled again. -/
theorem bad_key_stops_next_limiter : ¬ ∃ bound, Isolated ℚ ['a'] bound Two.state := by
  rintro ⟨bound, hiso⟩
  refine not_isolated Two.wellFormed ?_ bound hiso
  intro h
  have hb := h 0 (Two.tracking ['a']) rfl ⟨['a'], Two.mem_tracking _, rfl⟩ 1
    (Two.tracking ['b']) (by decide) rfl ['b'] (Two.mem_tracking _)
  exact absurd hb (by decide)

end Lagos.SyncIsolation
