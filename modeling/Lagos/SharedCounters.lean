/-
The bookkeeping of cluster-wide counting (`ratelimit/shared.rs`), and the commands it
turns into (`RespBackend::reconcile` in `ratelimit/resp.rs`).

A `Shard` is what one replica knows of one key: its own count in the current bucket and
the one before, and what the others had counted when it last asked. `roll_to` is the only
place where counts move between buckets.

The store is a bounded cache. Here it never drops an entry, so a key's entry is found by
its key, and the pass is the list of the keys still to visit.
-/
import Lagos.RateLimit
import Mathlib.Data.List.AList

set_option autoImplicit false

open RustStd

namespace Lagos.RateLimit

/-- A version 4 UUID, by its 128 bits. -/
abbrev Uuid := ℕ

/-- The first half of `position`: which epoch-aligned window a moment falls in. -/
def bucket_at (now : SystemTime) (interval : Duration) : Option ℕ :=
  if now.nanos < 0 then none
  else if interval = 0 then none
  else
    let bucket := now.nanos.toNat / interval
    if bucket ≤ U64_MAX then some bucket else none

/-- The second half of `position`: how far through its window a moment is. -/
def progress_at (F : Type) [F64 F] (now : SystemTime) (interval : Duration) : F :=
  F64.clamp (F64.of_nat (now.nanos.toNat % interval) / F64.of_nat interval) (F64.of_nat 0)
    (F64.of_nat 1)

/-- `position`. -/
def position (F : Type) [F64 F] (now : SystemTime) (interval : Duration) : Option (ℕ × F) :=
  (bucket_at now interval).map fun bucket => (bucket, progress_at F now interval)

/-! ## One key's cluster view -/

/-- `Shard`. -/
structure Shard where
  source : Uuid
  bucket : ℕ := 0
  own_current : ℕ := 0
  own_previous : ℕ := 0
  remote_current : ℕ := 0
  remote_previous : ℕ := 0
  deriving DecidableEq, Repr

/-- `Shard::roll_to`. -/
def Shard.roll_to (s : Shard) (bucket : ℕ) : Shard :=
  if bucket ≤ s.bucket then s
  else
    let s :=
      if bucket = saturating_add_u64 s.bucket 1 then
        { s with own_previous := s.own_current, remote_previous := s.remote_current }
      else { s with own_previous := 0, remote_previous := 0 }
    { s with own_current := 0, remote_current := 0, bucket := bucket }

/-- The part of `check_at` behind the lock: the shard in its bucket, and the decision. -/
def Shard.check (F : Type) [F64 F] (s : Shard) (bucket : ℕ) (progress : F) (limit : ℕ)
    (interval : Duration) : Shard × Decision :=
  let s := s.roll_to bucket
  let previous := saturating_add_u64 s.own_previous s.remote_previous
  let current := saturating_add_u64 s.own_current s.remote_current
  let decision := decide previous current progress limit interval
  (if decision.allowed then { s with own_current := saturating_add_u64 s.own_current 1 } else s,
    decision)

/-- `Publish`. -/
structure Publish where
  source : Uuid
  key : Str
  bucket : ℕ
  own_current : ℕ
  own_previous : ℕ
  interval : Duration
  deriving DecidableEq, Repr

/-- `Totals`. -/
structure Totals where
  current : ℕ
  previous : ℕ
  deriving DecidableEq, Repr

/-- The part of `apply` behind the lock: the totals that one publish was answered with. -/
def Shard.apply (s : Shard) (publish : Publish) (total : Totals) : Shard :=
  if s.source ≠ publish.source then s
  else if s.bucket = saturating_add_u64 publish.bucket 1 then
    -- the answer crossed a boundary: what it calls current is now the previous bucket
    { s with remote_previous := total.current - publish.own_current }
  else if s.bucket ≠ publish.bucket then s
  else
    { s with remote_current := total.current - publish.own_current
             remote_previous := total.previous - publish.own_previous }

/-! ## The store -/

/-- What a `SharedCounters` is built with. Validation admits no shared limit under a second. -/
structure SharedConfig where
  key_prefix : Str
  interval : Duration
  limit : ℕ
  /-- `max_keys_per_sync`. -/
  batch : ℕ
  interval_ge : NANOS_PER_SEC ≤ interval

/-- The entries of the store, by key. -/
abbrev Shards := AList fun _ : Str => Shard

/-- `SharedCounters`, without what it is built with. -/
structure SharedCounters where
  shards : Shards := ∅
  /-- Keys still to visit in the current pass, taken from the end. -/
  pass : List Str := []

/-- `Batch`: the publishes, and the keys they came from. -/
structure Batch where
  publishes : List Publish
  entries : List Str
  deriving DecidableEq

namespace SharedCounters

variable (cfg : SharedConfig)

/-- `SharedCounters::cache_key`. -/
def cache_key (key : Str) : Str := cfg.key_prefix ++ key

/-- `SharedCounters::check_at`. `source` is the identifier drawn for the entry if the key has
none. -/
def check_at (F : Type) [F64 F] (c : SharedCounters) (source : Uuid) (key : Str)
    (now : SystemTime) : SharedCounters × Decision :=
  match position F now cfg.interval with
  | none => (c, .allow cfg.limit (cfg.limit - 1))
  | some (bucket, progress) =>
    let shard := (c.shards.lookup key).getD { source := source }
    let (shard, decision) := shard.check F bucket progress cfg.limit cfg.interval
    ({ c with shards := c.shards.insert key shard }, decision)

/-- One line of a batch. -/
def publish_of (key : Str) (shard : Shard) : Publish where
  source := shard.source
  key := cache_key cfg key
  bucket := shard.bucket
  own_current := shard.own_current
  own_previous := shard.own_previous
  interval := cfg.interval

/-- The entries of a batch rolled to `bucket`, and their snapshots, in order. -/
def snapshot (bucket : ℕ) : Shards → List Str → Shards × List Publish
  | shards, [] => (shards, [])
  | shards, key :: keys =>
    match shards.lookup key with
    | none => snapshot bucket shards keys
    | some shard =>
      let shard := shard.roll_to bucket
      let rest := snapshot bucket (shards.insert key shard) keys
      (rest.1, publish_of cfg key shard :: rest.2)

/-- The keys of the next batch, and the pass without them. `order` is the order in which the
store is walked if the pass is to be refilled. -/
def take_batch (c : SharedCounters) (order : List Str) : List Str × List Str :=
  let pass := if c.pass.isEmpty then order else c.pass
  pass.splitAt (pass.length - cfg.batch)

/-- `SharedCounters::pending`. -/
def pending (c : SharedCounters) (now : SystemTime) (order : List Str) : SharedCounters × Batch :=
  match bucket_at now cfg.interval with
  | none => (c, ⟨[], []⟩)
  | some bucket =>
    let (pass, entries) := c.take_batch cfg order
    let (shards, publishes) := snapshot cfg bucket c.shards entries
    (⟨shards, pass⟩, ⟨publishes, entries⟩)

/-- One line of `apply`. -/
def apply_one (shards : Shards) (line : (Publish × Str) × Totals) : Shards :=
  match shards.lookup line.1.2 with
  | none => shards
  | some shard => shards.insert line.1.2 (shard.apply line.1.1 line.2)

/-- `SharedCounters::apply`. -/
def apply (c : SharedCounters) (batch : Batch) (totals : List Totals) : SharedCounters :=
  if batch.publishes.length ≠ totals.length then c
  else
    { c with shards := ((batch.publishes.zip batch.entries).zip totals).foldl apply_one c.shards }

/-- What `sync_once` does with a failure: the keys go back to the end they are taken from. -/
def put_back (c : SharedCounters) (batch : Batch) : SharedCounters :=
  { c with pass := c.pass ++ batch.entries }

end SharedCounters

/-! ## The commands -/

/-- `RespBackend::bucket_key`, before it is written out as text. -/
structure BucketKey where
  key : Str
  bucket : ℕ
  deriving DecidableEq, Repr

/-- `RespBackend::bucket_key`. -/
def BucketKey.text (k : BucketKey) : Str := k.key ++ ":shared-v2:".toList ++ Nat.toDigits 10 k.bucket

/-- `RespBackend::ttl_secs`. -/
def ttl_secs (interval : Duration) : ℕ :=
  let lifetime := 2 * interval
  max (lifetime / NANOS_PER_SEC + if lifetime % NANOS_PER_SEC ≠ 0 then 1 else 0) 2

/-- The commands of a reconciliation. -/
inductive Command where
  | HSET (key : BucketKey) (field : Uuid) (value : ℕ)
  | EXPIRE (key : BucketKey) (secs : ℕ)
  | HVALS (key : BucketKey)
  deriving DecidableEq, Repr

/-- One turn of the inner loop of `reconcile`: `own` is written when there is something to
write and the bucket exists. -/
def bucket_commands (publish : Publish) (bucket own : ℕ) (writable : Bool) : List Command :=
  let key : BucketKey := ⟨publish.key, bucket⟩
  (if own ≠ 0 ∧ writable then [.HSET key publish.source own] else [])
    ++ [.EXPIRE key (ttl_secs publish.interval), .HVALS key]

/-- What `reconcile` sends for one publish. -/
def publish_commands (publish : Publish) : List Command :=
  bucket_commands publish publish.bucket publish.own_current true
    ++ bucket_commands publish (publish.bucket - 1) publish.own_previous (publish.bucket > 0)

/-- The pipeline of `reconcile`. -/
def pipeline (publishes : List Publish) : List Command := publishes.flatMap publish_commands

/-- The sum of a reply. -/
def total_of (reply : List ℕ) : ℕ := reply.foldl saturating_add_u64 0

/-- What `reconcile` makes of the replies: two for each publish, or none of them is used. -/
def totals_of : List Publish → List (List ℕ) → Option (List Totals)
  | [], [] => some []
  | publish :: publishes, current :: previous :: replies =>
    (totals_of publishes replies).map fun totals =>
      ⟨total_of current, if publish.bucket = 0 then 0 else total_of previous⟩ :: totals
  | _, _ => none

/-! ## Buckets -/

/-- No moment is beyond the windows of a `u64`, nor near the last of them. -/
theorem bucket_lt (now : SystemTime) {interval : Duration} (hi : NANOS_PER_SEC ≤ interval) :
    now.nanos.toNat / interval + 2 < U64_MAX := by
  have hr := now.in_range
  have hb : now.nanos.toNat / interval ≤ now.nanos.toNat / 1000000000 :=
    Nat.div_le_div_left hi (by decide)
  rw [U64_MAX]
  omega

/-- From the epoch on, the window is the quotient. -/
theorem bucket_at_eq {now : SystemTime} {interval : Duration} (hi : NANOS_PER_SEC ≤ interval) :
    bucket_at now interval =
      if now.nanos < 0 then none else some (now.nanos.toNat / interval) := by
  have h0 : interval ≠ 0 := (Nat.lt_of_lt_of_le (by decide) hi).ne'
  have hb := bucket_lt now hi
  unfold bucket_at
  by_cases hn : now.nanos < 0
  · rw [if_pos hn, if_pos hn]
  · rw [if_neg hn, if_neg h0, if_neg hn]
    exact if_pos (by omega)

theorem bucket_at_lt {now : SystemTime} {interval : Duration} {b : ℕ}
    (hi : NANOS_PER_SEC ≤ interval) (h : bucket_at now interval = some b) : b + 2 < U64_MAX := by
  rw [bucket_at_eq hi] at h
  split at h
  · cases h
  · rw [← Option.some.inj h]
    exact bucket_lt now hi

/-- The window a reading of the clock falls in, the first one before the epoch. -/
def clock_bucket (now : SystemTime) (interval : Duration) : ℕ := (bucket_at now interval).getD 0

theorem clock_bucket_of_some {now : SystemTime} {interval : Duration} {b : ℕ}
    (h : bucket_at now interval = some b) : clock_bucket now interval = b := by
  rw [clock_bucket, h, Option.getD_some]

/-- Later readings fall in later windows. -/
theorem clock_bucket_mono {t now : SystemTime} {interval : Duration}
    (hi : NANOS_PER_SEC ≤ interval) (hle : t.nanos ≤ now.nanos) :
    clock_bucket t interval ≤ clock_bucket now interval := by
  rw [clock_bucket, clock_bucket, bucket_at_eq hi, bucket_at_eq hi]
  by_cases ht : t.nanos < 0
  · rw [if_pos ht]
    exact Nat.zero_le _
  · rw [if_neg ht, if_neg (by omega)]
    exact Nat.div_le_div_right (by omega)

/-! ## Rolling -/

namespace Shard

theorem roll_to_of_le {s : Shard} {b : ℕ} (h : b ≤ s.bucket) : s.roll_to b = s := by
  rw [roll_to, if_pos h]

/-- One bucket on: what was current is previous. -/
theorem roll_to_next {s : Shard} (h : s.bucket < U64_MAX) :
    s.roll_to (s.bucket + 1) =
      { source := s.source, bucket := s.bucket + 1, own_previous := s.own_current
        remote_previous := s.remote_current } := by
  have hsat : saturating_add_u64 s.bucket 1 = s.bucket + 1 := by
    rw [saturating_add_u64]
    omega
  rw [roll_to, if_neg (by omega), hsat, if_pos rfl]

/-- Two buckets or more: nothing from before is in view. -/
theorem roll_to_far {s : Shard} {b : ℕ} (h : s.bucket + 1 < b) :
    s.roll_to b = { source := s.source, bucket := b } := by
  have hsat : b ≠ saturating_add_u64 s.bucket 1 := by
    rw [saturating_add_u64]
    omega
  rw [roll_to, if_neg (by omega), if_neg hsat]

@[simp] theorem roll_to_source (s : Shard) (b : ℕ) : (s.roll_to b).source = s.source := by
  unfold roll_to
  split
  · rfl
  · split <;> rfl

@[simp] theorem roll_to_bucket (s : Shard) (b : ℕ) : (s.roll_to b).bucket = max s.bucket b := by
  unfold roll_to
  split
  · rename_i h
    exact (Nat.max_eq_left h).symm
  · rename_i h
    change b = max s.bucket b
    omega

/-- Rolling on the way changes nothing. -/
theorem roll_to_roll_to {s : Shard} {b c : ℕ} (hbc : b ≤ c) (hb : b < U64_MAX) :
    (s.roll_to b).roll_to c = s.roll_to c := by
  by_cases h : b ≤ s.bucket
  · rw [roll_to_of_le h]
  · by_cases h1 : b = s.bucket + 1
    · subst h1
      rw [roll_to_next (by omega)]
      by_cases hc : c = s.bucket + 1
      · subst hc
        rw [roll_to_next (by omega), roll_to_of_le (Nat.le_refl _)]
      · rw [roll_to_far (s := s) (by omega)]
        by_cases h2 : c = s.bucket + 1 + 1
        · subst h2
          exact roll_to_next hb
        · exact roll_to_far (by simp only; omega)
    · rw [roll_to_far (s := s) (by omega), roll_to_far (s := s) (b := c) (by omega)]
      by_cases hc : c = b
      · subst hc
        exact roll_to_of_le (Nat.le_refl _)
      · by_cases h2 : c = b + 1
        · subst h2
          exact roll_to_next hb
        · exact roll_to_far (by simp only; omega)

end Shard

/-! ## The store, key by key -/

namespace SharedCounters

variable {cfg : SharedConfig}

/-- A request from before the epoch is let through and touches nothing. -/
theorem check_at_of_none {F : Type} [F64 F] {c : SharedCounters} {source : Uuid} {key : Str}
    {now : SystemTime} (h : bucket_at now cfg.interval = none) :
    c.check_at cfg F source key now = (c, .allow cfg.limit (cfg.limit - 1)) := by
  rw [check_at, position, h, Option.map_none]

/-- Any other request is decided by the shard of its key. -/
theorem check_at_of_some {F : Type} [F64 F] {c : SharedCounters} {source : Uuid} {key : Str}
    {now : SystemTime} {b : ℕ} (h : bucket_at now cfg.interval = some b) :
    c.check_at cfg F source key now =
      let res := ((c.shards.lookup key).getD { source := source }).check F b
        (progress_at F now cfg.interval) cfg.limit cfg.interval
      ({ c with shards := c.shards.insert key res.1 }, res.2) := by
  rw [check_at, position, h, Option.map_some]

/-- Taking a batch rolls the shards of its keys and leaves the others. -/
theorem lookup_snapshot (b : ℕ) (shards : Shards) (keys : List Str) (key : Str) :
    (snapshot cfg b shards keys).1.lookup key =
      (shards.lookup key).map fun s => if key ∈ keys then s.roll_to b else s := by
  induction keys generalizing shards with
  | nil => simp [snapshot]
  | cons k keys ih =>
    rw [snapshot]
    cases hk : shards.lookup k with
    | none =>
      rw [ih]
      by_cases h : key = k
      · rw [h, hk, Option.map_none, Option.map_none]
      · simp only [List.mem_cons, h, false_or]
    | some shard =>
      simp only
      rw [ih]
      by_cases h : key = k
      · subst h
        rw [AList.lookup_insert, hk, Option.map_some, Option.map_some, if_pos List.mem_cons_self]
        split
        · rw [Shard.roll_to_of_le]
          rw [Shard.roll_to_bucket]
          exact Nat.le_max_right _ _
        · rfl
      · rw [AList.lookup_insert_ne h]
        simp only [List.mem_cons, h, false_or]

/-- The lines of a batch are the rolled shards of its keys. -/
theorem snapshot_publishes (b : ℕ) (shards : Shards) (keys : List Str) :
    (snapshot cfg b shards keys).2 = keys.filterMap fun key =>
      (shards.lookup key).map fun s => publish_of cfg key (s.roll_to b) := by
  induction keys generalizing shards with
  | nil => rfl
  | cons k keys ih =>
    rw [snapshot, List.filterMap_cons]
    cases hk : shards.lookup k with
    | none => exact ih shards
    | some shard =>
      simp only [Option.map_some]
      rw [ih]
      congr 1
      refine List.filterMap_congr ?_
      intro key _
      by_cases h : key = k
      · subst h
        rw [AList.lookup_insert, hk, Option.map_some, Option.map_some, Shard.roll_to_of_le]
        rw [Shard.roll_to_bucket]
        exact Nat.le_max_right _ _
      · rw [AList.lookup_insert_ne h]

/-- An answer changes the shards of its lines, each by the lines of its key in turn. -/
theorem lookup_apply_lines (lines : List ((Publish × Str) × Totals)) (shards : Shards)
    (key : Str) :
    (lines.foldl apply_one shards).lookup key = (shards.lookup key).map fun s =>
      lines.foldl (fun s line => if line.1.2 = key then s.apply line.1.1 line.2 else s) s := by
  induction lines generalizing shards with
  | nil => simp
  | cons line lines ih =>
    rw [List.foldl_cons, ih, apply_one]
    cases hk : shards.lookup line.1.2 with
    | none =>
      by_cases h : line.1.2 = key
      · rw [← h, hk, Option.map_none, Option.map_none]
      · simp only [List.foldl_cons, if_neg h]
    | some shard =>
      by_cases h : line.1.2 = key
      · rw [← h, AList.lookup_insert, hk, Option.map_some, Option.map_some, List.foldl_cons,
          if_pos rfl]
      · rw [AList.lookup_insert_ne (Ne.symm h)]
        simp only [List.foldl_cons, if_neg h]

end SharedCounters

@[simp] theorem Shard.check_bucket {F : Type} [F64 F] (s : Shard) (b : ℕ) (progress : F)
    (limit : ℕ) (interval : Duration) :
    (s.check F b progress limit interval).1.bucket = max s.bucket b := by
  unfold Shard.check
  simp only
  split <;> exact Shard.roll_to_bucket s b

/-- An answer leaves what is the replica's own. -/
theorem Shard.apply_own (s : Shard) (p : Publish) (t : Totals) :
    (s.apply p t).source = s.source ∧ (s.apply p t).own_current = s.own_current ∧
      (s.apply p t).own_previous = s.own_previous := by
  unfold Shard.apply
  split
  · exact ⟨rfl, rfl, rfl⟩
  · split
    · exact ⟨rfl, rfl, rfl⟩
    · split <;> exact ⟨rfl, rfl, rfl⟩

@[simp] theorem Shard.apply_bucket (s : Shard) (p : Publish) (t : Totals) :
    (s.apply p t).bucket = s.bucket := by
  unfold Shard.apply
  split
  · rfl
  · split
    · rfl
    · split <;> rfl

/-! ## Totals -/

/-- A reply is summed as a `u64`. -/
theorem total_of_eq (reply : List ℕ) : total_of reply = min reply.sum U64_MAX := by
  have h : ∀ (l : List ℕ) (n : ℕ), l.foldl saturating_add_u64 (min n U64_MAX)
      = min (n + l.sum) U64_MAX := by
    intro l
    induction l with
    | nil =>
      intro n
      rfl
    | cons x l ih =>
      intro n
      rw [List.foldl_cons, List.sum_cons, ← Nat.add_assoc, ← ih (n + x), saturating_add_u64]
      congr 1
      omega
  have h0 := h reply 0
  rwa [Nat.zero_min, Nat.zero_add] at h0

/-! ## Keys -/

/-- **No two windows share a hash.** The text of a key and a bucket is that of no other. -/
theorem BucketKey.text_injective : Function.Injective BucketKey.text := by
  intro k l h
  have hdigits : ∀ n, ':' ∉ Nat.toDigits 10 n := by
    intro n hn
    have := Nat.isDigit_of_mem_toDigits (by decide) (by decide) hn
    revert this
    decide
  -- From the right, the digits end at the first colon.
  have hsplit : ∀ m : BucketKey, m.text.reverse
      = (Nat.toDigits 10 m.bucket).reverse ++ ':' :: ("2v-derahs:".toList ++ m.key.reverse) := by
    intro m
    simp [BucketKey.text]
  have hcut : ∀ m : BucketKey, split_once ':' m.text.reverse
      = some ((Nat.toDigits 10 m.bucket).reverse, "2v-derahs:".toList ++ m.key.reverse) := by
    intro m
    rw [hsplit]
    exact split_once_append (fun hm => hdigits _ (List.mem_reverse.mp hm)) _
  have heq := (hcut k).symm.trans ((congrArg (split_once ':' ·.reverse) h).trans (hcut l))
  rw [Option.some.injEq, Prod.mk.injEq] at heq
  have hbucket : k.bucket = l.bucket := by
    have := congrArg (fun d => Nat.ofDigitChars 10 d 0) (List.reverse_injective heq.1)
    simpa only [Nat.ofDigitChars_ten_toDigits] using this
  have hkey : k.key = l.key := List.reverse_injective (List.append_cancel_left heq.2)
  cases k
  cases l
  exact BucketKey.mk.injEq .. ▸ ⟨hkey, hbucket⟩

end Lagos.RateLimit
