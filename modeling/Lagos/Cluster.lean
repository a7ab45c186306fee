/-
A cluster of replicas that keep one limit through one backend (`ratelimit/shared.rs`,
`ratelimit/resp.rs`).

Every replica has its own store and its own clock, which only moves forward; two replicas'
clocks may differ by anything. A sync takes a batch and sends its pipeline, the backend
carries the commands of one replica out in order and those of several in any interleaving,
and the sync ends with the answer or with a failure. After a failure the commands that are
still on their way may be carried out late, though before those of the replica's next
sync, or be lost.

Next to its state a replica has a history: what it has admitted, by key and bucket, and the
publishes of the syncs it completed. No step reads it.

`ShardOk` is what ties a shard to the history, and the invariant of the cluster is that
every shard meets it and that every replica's commands are a coherent queue of overwrites
of its own fields.
-/
import Lagos.Lib.Overwrite
import Lagos.Lib.Run
import Lagos.SharedCounters
import Mathlib.Algebra.BigOperators.Group.Finset.Basic
import Mathlib.Algebra.Order.BigOperators.Group.Finset
import Mathlib.Data.Fintype.Basic

set_option autoImplicit false

open RustStd

namespace Lagos.Cluster

open Lagos.RateLimit SharedCounters

/-! ## One shard -/

/-- What a function of the bucket is in the bucket before. -/
def before (f : ℕ → ℕ) : ℕ → ℕ
  | 0 => 0
  | b + 1 => f b

/-- A shard of the replica `source` belongs to, of a key of which it has admitted `own` in
each bucket and the others `others`. -/
structure ShardOk (source : Uuid) (own others : ℕ → ℕ) (s : Shard) : Prop where
  source_eq : s.source = source
  bucket_lt : s.bucket + 2 < U64_MAX
  own_current : s.own_current = min (own s.bucket) U64_MAX
  own_previous : s.own_previous = min (before own s.bucket) U64_MAX
  own_later : ∀ b, s.bucket < b → own b = 0
  remote_current : s.remote_current ≤ others s.bucket
  remote_previous : s.remote_previous ≤ before others s.bucket

/-- A line of a batch, taken when the replica had admitted `own`. -/
structure PublishOk (source : Uuid) (own : ℕ → ℕ) (p : Publish) : Prop where
  source_eq : p.source = source
  bucket_lt : p.bucket + 2 < U64_MAX
  own_current : p.own_current = min (own p.bucket) U64_MAX
  own_previous : p.own_previous = min (before own p.bucket) U64_MAX

theorem before_mono {f g : ℕ → ℕ} (h : ∀ b, f b ≤ g b) (b : ℕ) : before f b ≤ before g b := by
  cases b with
  | zero => exact Nat.le_refl 0
  | succ b => exact h b

namespace ShardOk

variable {source : Uuid} {own others others' : ℕ → ℕ} {s : Shard}

/-- A key seen for the first time. -/
theorem fresh (h : ∀ b, own b = 0) : ShardOk source own others { source := source } where
  source_eq := rfl
  bucket_lt := show 0 + 2 < U64_MAX by decide
  own_current := by rw [h, Nat.zero_min]
  own_previous := rfl
  own_later b _ := h b
  remote_current := Nat.zero_le _
  remote_previous := Nat.zero_le _

theorem mono (h : ShardOk source own others s) (hle : ∀ b, others b ≤ others' b) :
    ShardOk source own others' s where
  source_eq := h.source_eq
  bucket_lt := h.bucket_lt
  own_current := h.own_current
  own_previous := h.own_previous
  own_later := h.own_later
  remote_current := Nat.le_trans h.remote_current (hle _)
  remote_previous := Nat.le_trans h.remote_previous (before_mono hle _)

theorem roll_to {b : ℕ} (h : ShardOk source own others s) (hb : b + 2 < U64_MAX) :
    ShardOk source own others (s.roll_to b) := by
  have hlt := h.bucket_lt
  by_cases hle : b ≤ s.bucket
  · rw [Shard.roll_to_of_le hle]
    exact h
  · by_cases hnext : b = s.bucket + 1
    · subst hnext
      rw [Shard.roll_to_next (by omega)]
      refine ⟨h.source_eq, hb, ?_, h.own_current, ?_, Nat.zero_le _, h.remote_current⟩
      · rw [h.own_later _ (Nat.lt_succ_self _), Nat.zero_min]
      · intro c hc
        exact h.own_later c (Nat.lt_of_succ_lt hc)
    · rw [Shard.roll_to_far (by omega)]
      refine ⟨h.source_eq, hb, ?_, ?_, ?_, Nat.zero_le _, Nat.zero_le _⟩
      · rw [h.own_later b (by omega), Nat.zero_min]
      · obtain ⟨c, rfl⟩ : ∃ c, b = c + 1 := ⟨b - 1, by omega⟩
        rw [before, h.own_later c (by omega), Nat.zero_min]
      · intro c hc
        exact h.own_later c (by simp only at hc; omega)

/-- A request that was admitted is counted in the bucket it fell in. -/
theorem check {F : Type} [F64 F] {b limit : ℕ} {progress : F} {interval : Duration}
    (h : ShardOk source own others s) (hb : b + 2 < U64_MAX) (hle : s.bucket ≤ b) :
    ShardOk source
      (if (s.check F b progress limit interval).2.allowed then Function.update own b (own b + 1)
        else own)
      others (s.check F b progress limit interval).1 := by
  have hr := h.roll_to hb
  have hbucket : (s.roll_to b).bucket = b := by
    rw [Shard.roll_to_bucket]
    omega
  unfold Shard.check
  simp only
  split
  · refine ⟨hr.source_eq, hr.bucket_lt, ?_, ?_, ?_, hr.remote_current, hr.remote_previous⟩
    · simp only [hbucket, Function.update_self]
      rw [hr.own_current, hbucket, saturating_add_u64]
      omega
    · have hbefore : before (Function.update own b (own b + 1)) b = before own b := by
        cases b with
        | zero => rfl
        | succ b => exact Function.update_of_ne (Nat.succ_ne_self b).symm _ _
      simp only [hbucket, hbefore]
      rw [hr.own_previous, hbucket]
    · intro c hc
      simp only [hbucket] at hc
      rw [Function.update_of_ne (by omega)]
      exact hr.own_later c (by omega)
  · exact hr

/-- An answer whose totals are this replica's own part and no more than the others admitted. -/
theorem apply {own' : ℕ → ℕ} {p : Publish} {t : Totals} (h : ShardOk source own others s)
    (hp : PublishOk source own' p) (hcurrent : t.current - p.own_current ≤ others p.bucket)
    (hprevious : t.previous - p.own_previous ≤ before others p.bucket) :
    ShardOk source own others (s.apply p t) := by
  have hlt := hp.bucket_lt
  have hsat : saturating_add_u64 p.bucket 1 = p.bucket + 1 := by
    rw [saturating_add_u64]
    omega
  unfold Shard.apply
  rw [if_neg (by rw [h.source_eq, hp.source_eq, not_not]), hsat]
  by_cases h1 : s.bucket = p.bucket + 1
  · rw [if_pos h1]
    refine ⟨h.source_eq, h.bucket_lt, h.own_current, h.own_previous, h.own_later,
      h.remote_current, ?_⟩
    simp only [h1, before]
    exact hcurrent
  · rw [if_neg h1]
    by_cases h2 : s.bucket = p.bucket
    · rw [if_neg (not_not.mpr h2)]
      refine ⟨h.source_eq, h.bucket_lt, h.own_current, h.own_previous, h.own_later, ?_, ?_⟩
      · simp only [h2]
        exact hcurrent
      · simp only [h2]
        exact hprevious
    · rw [if_pos h2]
      exact h

end ShardOk

/-! ## The cluster -/

/-- A sync that waits for its answer. -/
structure Inflight where
  batch : Batch
  /-- The commands of its pipeline that the backend has not carried out. -/
  awaited : List Command
  replies : List (List ℕ)
  /-- History: what the replica had admitted when the batch was taken. -/
  counted : BucketKey → ℕ

/-- History: a line of a sync that completed, and what its replica had admitted of the key in
each bucket when the line was taken. -/
structure Completed where
  publish : Publish
  counted : ℕ → ℕ

/-- A replica: its store, the last reading of its clock, the sync it is in, the commands of
failed syncs that may still be carried out, and its history. -/
structure Replica where
  counters : SharedCounters := {}
  clock : Option SystemTime := none
  inflight : Option Inflight := none
  stale : List Command := []
  decisions : List Decision := []
  admitted : BucketKey → ℕ := fun _ => 0
  completed : List Completed := []

/-- The hashes of the backend. One that does not exist is empty. -/
abbrev Hashes := BucketKey → AList fun _ : Uuid => ℕ

structure World (R : Type) where
  replicas : R → Replica
  hashes : Hashes

/-- What can happen, one thing at a time. -/
inductive Event (R : Type) where
  /-- `check_at` on a replica. -/
  | check (r : R) (key : Str) (now : SystemTime)
  /-- `sync_once` takes its batch and sends it. `order` is how the store is walked. -/
  | start (r : R) (now : SystemTime) (order : List Str)
  /-- The backend carries out the next command of a replica. -/
  | execute (r : R)
  /-- The sync gets its answer. -/
  | reply (r : R)
  /-- The sync ends without a usable answer. -/
  | fail (r : R)
  /-- What a failed sync left on its way is lost. -/
  | lose (r : R)
  /-- A hash expires. -/
  | expire (key : Str) (bucket : ℕ)

/-- The hashes after a command. Expiry is an event of its own. -/
def run_command (hashes : Hashes) : Command → Hashes
  | .HSET key field value => Function.update hashes key ((hashes key).insert field value)
  | .EXPIRE _ _ | .HVALS _ => hashes

/-- The reply to a command that the pipeline does not ignore. -/
def reply_of (hashes : Hashes) : Command → List (List ℕ)
  | .HVALS key => [(hashes key).entries.map Sigma.snd]
  | .HSET _ _ _ | .EXPIRE _ _ => []

/-- The sync with its next command carried out, and the rest still awaited. -/
def Inflight.carry_out (f : Inflight) (hashes : Hashes) (cmd : Command) (awaited : List Command) :
    Inflight :=
  { f with awaited := awaited, replies := f.replies ++ reply_of hashes cmd }

section

variable (F : Type) [F64 F] (cfg : SharedConfig)

/-- A request is decided, and counted in its bucket if it was admitted. -/
def Replica.check (rep : Replica) (source : Uuid) (key : Str) (now : SystemTime) : Replica :=
  let (counters, decision) := rep.counters.check_at cfg F source key now
  { rep with
    counters := counters
    clock := some now
    decisions := rep.decisions ++ [decision]
    admitted :=
      match bucket_at now cfg.interval with
      | some bucket =>
        if decision.allowed then
          Function.update rep.admitted ⟨cache_key cfg key, bucket⟩
            (rep.admitted ⟨cache_key cfg key, bucket⟩ + 1)
        else rep.admitted
      | none => rep.admitted }

/-- The first half of `sync_once`: the batch is taken and, unless it is empty, sent. -/
def Replica.start (rep : Replica) (now : SystemTime) (order : List Str) : Replica :=
  let (counters, batch) := rep.counters.pending cfg now order
  { rep with
    counters := counters
    clock := some now
    inflight :=
      if batch.publishes.isEmpty then none
      else
        some { batch := batch, awaited := pipeline batch.publishes, replies := []
               counted := rep.admitted } }

/-- The second half of `sync_once`, with the totals of its answer. -/
def Replica.finish (rep : Replica) (f : Inflight) (totals : List Totals) : Replica :=
  { rep with
    counters := rep.counters.apply f.batch totals
    inflight := none
    completed := rep.completed ++
      f.batch.publishes.map fun p => ⟨p, fun bucket => f.counted ⟨p.key, bucket⟩⟩ }

/-- The second half of `sync_once`, without an answer. -/
def Replica.give_up (rep : Replica) (f : Inflight) : Replica :=
  { rep with
    counters := rep.counters.put_back f.batch
    inflight := none
    stale := rep.stale ++ f.awaited }

/-- The clock of a replica does not run backwards. -/
def Replica.may_read (rep : Replica) (now : SystemTime) : Prop :=
  ∀ t ∈ rep.clock, t.nanos ≤ now.nanos

instance (rep : Replica) (now : SystemTime) : Decidable (rep.may_read now) :=
  inferInstanceAs (Decidable (∀ t ∈ rep.clock, _))

end

namespace World

variable {R : Type} [DecidableEq R]

/-- One replica is in another state. -/
def set (w : World R) (r : R) (rep : Replica) : World R :=
  { w with replicas := Function.update w.replicas r rep }

/-- The backend carries out the next command of `r`: one that nobody waits for, if any is left,
and then one of the sync it is in. -/
def execute (w : World R) (r : R) : Option (World R) :=
  match (w.replicas r).stale, (w.replicas r).inflight with
  | cmd :: stale, _ =>
    some { w.set r { w.replicas r with stale := stale } with
           hashes := run_command w.hashes cmd }
  | [], some f =>
    match f.awaited with
    | cmd :: awaited =>
      some { w.set r { w.replicas r with
                       inflight := some (f.carry_out w.hashes cmd awaited) } with
             hashes := run_command w.hashes cmd }
    | [] => none
  | [], none => none

/-- The answer to the sync of `r`, once every command of it was carried out. -/
def reply (w : World R) (r : R) : Option (World R) :=
  match (w.replicas r).inflight with
  | some f =>
    if (w.replicas r).stale = [] ∧ f.awaited = [] then
      (totals_of f.batch.publishes f.replies).map fun totals =>
        w.set r ((w.replicas r).finish f totals)
    else none
  | none => none

variable (F : Type) [F64 F] (cfg : SharedConfig) (source : R → Str → Uuid)

/-- What an event does, or `none` where it cannot happen. The entry that replica `r` makes for a
cache key is identified by `source r` of it. -/
def step (w : World R) : Event R → Option (World R)
  | .check r key now =>
    if (w.replicas r).may_read now then
      some (w.set r ((w.replicas r).check F cfg (source r (cache_key cfg key)) key now))
    else none
  | .start r now order =>
    if (w.replicas r).may_read now ∧ (w.replicas r).inflight = none
        ∧ order.Perm (w.replicas r).counters.shards.keys then
      some (w.set r ((w.replicas r).start cfg now order))
    else none
  | .execute r => w.execute r
  | .reply r => w.reply r
  | .fail r => (w.replicas r).inflight.map fun f => w.set r ((w.replicas r).give_up f)
  | .lose r =>
    if (w.replicas r).inflight = none then some (w.set r { w.replicas r with stale := [] })
    else none
  | .expire key bucket =>
    some { w with hashes := Function.update w.hashes ⟨cache_key cfg key, bucket⟩ ∅ }

end World

end Lagos.Cluster
