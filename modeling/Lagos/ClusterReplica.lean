/-
The invariant of one replica of a cluster.

It has two halves. `StoreOk` ties the replica's entries to its history and bounds what
they hold of the others by what the others have admitted. `WireOk` says of its commands
that they are a coherent queue of overwrites of its own fields, and of the replies so far
that each is its own part, as it was sent, and no more than the others have admitted.

Each thing the replica does keeps both. What others do changes them only through what they
have admitted, and an expiry only lowers the replica's fields.
-/
import Lagos.Cluster

set_option autoImplicit false

open RustStd

namespace Lagos.Cluster

open Lagos.RateLimit SharedCounters Overwrite

/-! ## Commands -/

/-- A command, as an operation on its replica's own field. -/
def op_of : Command → Option (Op BucketKey)
  | .HSET key _ value => some (.write key value)
  | .HVALS key => some (.read key)
  | .EXPIRE _ _ => none

/-- The hash whose values a command asks for. -/
def read_key : Command → Option BucketKey
  | .HVALS key => some key
  | .HSET _ _ _ | .EXPIRE _ _ => none

/-- The hashes that the answer to a batch is read from, in order. -/
def reads (publishes : List Publish) : List BucketKey :=
  publishes.flatMap fun p => [⟨p.key, p.bucket⟩, ⟨p.key, p.bucket - 1⟩]

theorem filterMap_read_key_pipeline (publishes : List Publish) :
    (pipeline publishes).filterMap read_key = reads publishes := by
  rw [pipeline, List.filterMap_flatMap, reads]
  refine List.flatMap_congr ?_
  intro p _
  rw [publish_commands, List.filterMap_append, bucket_commands, bucket_commands]
  split <;> split <;> rfl

theorem ops_bucket_commands (p : Publish) (b own : ℕ) :
    (bucket_commands p b own true).filterMap op_of =
      (if own = 0 then [] else [.write ⟨p.key, b⟩ own]) ++ [.read ⟨p.key, b⟩] := by
  simp only [bucket_commands, and_true]
  by_cases h : own = 0
  · rw [if_neg (not_not.mpr h), if_pos h]
    rfl
  · rw [if_pos h, if_neg h]
    rfl

theorem ops_bucket_commands_unwritable (p : Publish) (b own : ℕ) :
    (bucket_commands p b own false).filterMap op_of = [.read ⟨p.key, b⟩] := by
  simp only [bucket_commands, Bool.false_eq_true, and_false, if_false]
  rfl

/-- A batch whose lines carry the whole counts of their buckets is one that fits. -/
theorem fits_pipeline {publishes : List Publish} {counts : BucketKey → ℕ}
    (h : ∀ p ∈ publishes, p.own_current = counts ⟨p.key, p.bucket⟩ ∧
      p.own_previous = before (fun b => counts ⟨p.key, b⟩) p.bucket) :
    Fits counts ((pipeline publishes).filterMap op_of) := by
  rw [pipeline, List.filterMap_flatMap]
  refine Fits.flatMap ?_
  intro p hp
  obtain ⟨hcurrent, hprevious⟩ := h p hp
  rw [publish_commands, List.filterMap_append, ops_bucket_commands, hcurrent, hprevious]
  cases hb : p.bucket with
  | zero =>
    -- There is no bucket before: the same hash is read once more and nothing is written.
    rw [decide_eq_false (Nat.lt_irrefl 0), ops_bucket_commands_unwritable, List.append_assoc]
    exact fits_write_reads counts ⟨p.key, 0⟩ 2
  | succ b =>
    rw [decide_eq_true (Nat.succ_pos b), ops_bucket_commands]
    exact (fits_write_reads counts ⟨p.key, b + 1⟩ 1).append
      (fits_write_reads counts ⟨p.key, b⟩ 1)

/-! ## Answers -/

/-- Every reply so far answers the read it stands for as `P` says. -/
def Answered (P : BucketKey → List ℕ → Prop) (f : Inflight) : Prop :=
  ∃ keys, reads f.batch.publishes = keys ++ f.awaited.filterMap read_key
    ∧ List.Forall₂ P keys f.replies

/-- The totals of a line, from the replies to its two reads. -/
def LineAnswered (P : BucketKey → List ℕ → Prop) (p : Publish) (t : Totals) : Prop :=
  ∃ current previous, P ⟨p.key, p.bucket⟩ current ∧ P ⟨p.key, p.bucket - 1⟩ previous
    ∧ t = ⟨total_of current, if p.bucket = 0 then 0 else total_of previous⟩

namespace Answered

variable {P Q : BucketKey → List ℕ → Prop} {f : Inflight}

theorem start (f : Inflight) (h : f.awaited = pipeline f.batch.publishes) (h0 : f.replies = []) :
    Answered P f := by
  refine ⟨[], ?_, ?_⟩
  · rw [h, filterMap_read_key_pipeline, List.nil_append]
  · rw [h0]
    exact .nil

theorem mono (h : Answered P f) (hPQ : ∀ key reply, P key reply → Q key reply) :
    Answered Q f := by
  obtain ⟨keys, hkeys, hall⟩ := h
  exact ⟨keys, hkeys, hall.imp hPQ⟩

/-- The next command is carried out. -/
theorem exec {hashes : Hashes} {cmd : Command} {awaited : List Command} (h : Answered P f)
    (hf : f.awaited = cmd :: awaited)
    (hcmd : ∀ key, cmd = .HVALS key → P key ((hashes key).entries.map Sigma.snd)) :
    Answered P (f.carry_out hashes cmd awaited) := by
  unfold Inflight.carry_out
  obtain ⟨keys, hkeys, hall⟩ := h
  rw [hf] at hkeys
  cases cmd with
  | HSET key field value =>
    refine ⟨keys, hkeys, ?_⟩
    simp only [reply_of, List.append_nil]
    exact hall
  | EXPIRE key secs =>
    refine ⟨keys, hkeys, ?_⟩
    simp only [reply_of, List.append_nil]
    exact hall
  | HVALS key =>
    refine ⟨keys ++ [key], ?_, ?_⟩
    · rw [hkeys, List.append_assoc]
      rfl
    · exact List.rel_append hall (.cons (hcmd key rfl) .nil)

/-- Once nothing is awaited, every line has its totals. -/
theorem totals {totals : List Totals} (h : Answered P f) (hf : f.awaited = [])
    (ht : totals_of f.batch.publishes f.replies = some totals) :
    List.Forall₂ (LineAnswered P) f.batch.publishes totals := by
  obtain ⟨keys, hkeys, hall⟩ := h
  rw [hf, List.filterMap_nil, List.append_nil] at hkeys
  rw [← hkeys] at hall
  clear hkeys hf
  generalize f.batch.publishes = publishes at *
  generalize f.replies = replies at *
  induction publishes generalizing replies totals with
  | nil =>
    cases hall
    cases ht
    exact .nil
  | cons p publishes ih =>
    obtain ⟨current, rest, hcurrent, hrest, rfl⟩ := List.forall₂_cons_left_iff.mp hall
    obtain ⟨previous, rest', hprevious, hrest', rfl⟩ := List.forall₂_cons_left_iff.mp hrest
    rw [totals_of, Option.map_eq_some_iff] at ht
    obtain ⟨totals', ht', rfl⟩ := ht
    exact .cons ⟨current, previous, hcurrent, hprevious, rfl⟩ (ih rest' ht' hrest')

end Answered

/-! ## The invariant of a replica -/

/-- The bucket the clock of a replica has reached. -/
def Replica.now (cfg : SharedConfig) (rep : Replica) : ℕ :=
  (rep.clock.map fun t => clock_bucket t cfg.interval).getD 0

/-- The bucket a replica has reached as far as a key is concerned. -/
def Replica.view (cfg : SharedConfig) (rep : Replica) (key : Str) : ℕ :=
  match rep.counters.shards.lookup key with
  | some s => s.bucket
  | none => rep.now cfg

/-- What a replica has admitted, as a `u64`. -/
def Replica.count (rep : Replica) (bk : BucketKey) : ℕ := min (rep.admitted bk) U64_MAX

/-- What the batch of the sync a replica is in was taken from. -/
def Replica.sent (rep : Replica) (bk : BucketKey) : ℕ :=
  match rep.inflight with
  | some f => min (f.counted bk) U64_MAX
  | none => 0

/-- The commands of the sync a replica is in that were not carried out. -/
def Replica.awaited (rep : Replica) : List Command :=
  match rep.inflight with
  | some f => f.awaited
  | none => []

/-- The store of a replica, of which the others have admitted `others`. -/
structure StoreOk (cfg : SharedConfig) (source : Str → Uuid) (others : BucketKey → ℕ)
    (rep : Replica) : Prop where
  shards : ∀ key s, rep.counters.shards.lookup key = some s →
    ShardOk (source (cache_key cfg key)) (fun b => rep.admitted ⟨cache_key cfg key, b⟩)
      (fun b => others ⟨cache_key cfg key, b⟩) s ∧ s.bucket ≤ rep.now cfg
  absent : ∀ key, rep.counters.shards.lookup key = none →
    ∀ b, rep.admitted ⟨cache_key cfg key, b⟩ = 0
  pass : ∀ key ∈ rep.counters.pass, key ∈ rep.counters.shards
  entries : ∀ f ∈ rep.inflight, ∀ key ∈ f.batch.entries, key ∈ rep.counters.shards

/-- The reply to a read: the replica's own part, which is what it sent, and no more than the
others have admitted. -/
def ReplyOk (live : BucketKey → Prop) (sent field others : BucketKey → ℕ) (bk : BucketKey)
    (reply : List ℕ) : Prop :=
  ∃ own rest, reply.sum = own + rest ∧ Reads live sent bk own ∧ (live bk → sent bk ≤ field bk)
    ∧ rest ≤ others bk

/-- The commands of a replica whose fields in the backend are `field`. -/
structure WireOk (cfg : SharedConfig) (source : Str → Uuid) (live : BucketKey → Prop)
    (field others : BucketKey → ℕ) (rep : Replica) : Prop where
  own_field : ∀ key f v, Command.HSET key f v ∈ rep.stale ++ rep.awaited → f = source key.key
  coherent : Coherent live field (rep.stale.filterMap op_of) (rep.awaited.filterMap op_of)
    rep.sent rep.count
  lines : ∀ f ∈ rep.inflight, List.Forall₂ (fun p key => p.key = cache_key cfg key ∧
    PublishOk (source p.key) (fun b => f.counted ⟨p.key, b⟩) p) f.batch.publishes f.batch.entries
  answered : ∀ f ∈ rep.inflight, Answered (ReplyOk live rep.sent field others) f
  counted_le : ∀ f ∈ rep.inflight, ∀ bk, f.counted bk ≤ rep.admitted bk
  completed : ∀ c ∈ rep.completed, ∀ b, b = c.publish.bucket ∨ b + 1 = c.publish.bucket →
    live ⟨c.publish.key, b⟩ → min (c.counted b) U64_MAX ≤ field ⟨c.publish.key, b⟩

theorem ReplyOk.mono {live live' : BucketKey → Prop} {sent field others others' : BucketKey → ℕ}
    {bk : BucketKey} {reply : List ℕ} (h : ReplyOk live sent field others bk reply)
    (hlive : live' bk → live bk) (hothers : others bk ≤ others' bk) :
    ReplyOk live' sent field others' bk reply := by
  obtain ⟨own, rest, hsum, hown, hfield, hrest⟩ := h
  exact ⟨own, rest, hsum, ⟨hown.1, fun hl => hown.2 (hlive hl)⟩, fun hl => hfield (hlive hl),
    Nat.le_trans hrest hothers⟩

/-! ### The store -/

namespace StoreOk

variable {cfg : SharedConfig} {source : Str → Uuid} {others others' : BucketKey → ℕ}
  {rep : Replica}

theorem mono (h : StoreOk cfg source others rep) (hle : ∀ bk, others bk ≤ others' bk) :
    StoreOk cfg source others' rep where
  shards key s hs := ⟨(h.shards key s hs).1.mono fun _ => hle _, (h.shards key s hs).2⟩
  absent := h.absent
  pass := h.pass
  entries := h.entries

/-- The clock moves on. -/
theorem now_le_of_may_read {now : SystemTime} (hread : rep.may_read now) :
    rep.now cfg ≤ clock_bucket now cfg.interval := by
  unfold Replica.now
  cases hc : rep.clock with
  | none => exact Nat.zero_le _
  | some t => exact clock_bucket_mono cfg.interval_ge (hread t hc)

/-- The entry of a key, or the one made for it, meets the invariant. -/
theorem entry (h : StoreOk cfg source others rep) (key : Str) :
    ShardOk (source (cache_key cfg key)) (fun b => rep.admitted ⟨cache_key cfg key, b⟩)
        (fun b => others ⟨cache_key cfg key, b⟩)
        ((rep.counters.shards.lookup key).getD { source := source (cache_key cfg key) })
      ∧ ((rep.counters.shards.lookup key).getD { source := source (cache_key cfg key) }).bucket
        ≤ rep.now cfg := by
  cases hs : rep.counters.shards.lookup key with
  | none =>
    rw [Option.getD_none]
    exact ⟨ShardOk.fresh (h.absent key hs), Nat.zero_le _⟩
  | some s =>
    rw [Option.getD_some]
    exact h.shards key s hs

theorem cache_key_ne {key key' : Str} (h : key ≠ key') : cache_key cfg key ≠ cache_key cfg key' :=
  fun heq => h (List.append_cancel_left heq)

/-- What a request leaves of the other keys' history. -/
theorem admitted_of_ne {key key' : Str} (h : key' ≠ key) (admitted : BucketKey → ℕ) (b n : ℕ)
    (b' : ℕ) : Function.update admitted ⟨cache_key cfg key, b⟩ n ⟨cache_key cfg key', b'⟩
      = admitted ⟨cache_key cfg key', b'⟩ := by
  refine Function.update_of_ne ?_ _ _
  intro heq
  exact cache_key_ne h (BucketKey.mk.inj heq).1

/-- What a request leaves of its own key's history. -/
theorem admitted_of_eq (key : Str) (admitted : BucketKey → ℕ) (b n : ℕ) :
    (fun b' => Function.update admitted ⟨cache_key cfg key, b⟩ n ⟨cache_key cfg key, b'⟩)
      = Function.update (fun b' => admitted ⟨cache_key cfg key, b'⟩) b n := by
  funext b'
  by_cases hb : b' = b
  · rw [hb, Function.update_self, Function.update_self]
  · rw [Function.update_of_ne hb, Function.update_of_ne]
    intro heq
    exact hb (BucketKey.mk.inj heq).2

theorem check {F : Type} [F64 F] (h : StoreOk cfg source others rep) (key : Str)
    {now : SystemTime} (hread : rep.may_read now) :
    StoreOk cfg source others (rep.check F cfg (source (cache_key cfg key)) key now) := by
  have hnow := @now_le_of_may_read cfg _ _ hread
  cases hb : bucket_at now cfg.interval with
  | none =>
    unfold Replica.check
    rw [check_at_of_none hb]
    simp only [hb]
    refine ⟨?_, h.absent, h.pass, h.entries⟩
    intro k s hs
    exact ⟨(h.shards k s hs).1, Nat.le_trans (h.shards k s hs).2 hnow⟩
  | some b =>
    have hclock : clock_bucket now cfg.interval = b := clock_bucket_of_some hb
    have hcheck := @check_at_of_some cfg F _ rep.counters (source (cache_key cfg key)) key _ _ hb
    obtain ⟨hentry, hle⟩ := h.entry key
    unfold Replica.check
    rw [hcheck]
    simp only [hb]
    have hnew := @ShardOk.check _ _ _ _ F _ _ cfg.limit (progress_at F now cfg.interval)
      cfg.interval hentry (bucket_at_lt cfg.interval_ge hb) (by omega)
    refine ⟨?_, ?_, ?_, ?_⟩
    · intro k s hs
      by_cases hk : k = key
      · subst hk
        rw [AList.lookup_insert, Option.some.injEq] at hs
        subst hs
        refine ⟨?_, ?_⟩
        · split
          · rename_i hallowed
            rw [if_pos hallowed] at hnew
            rw [admitted_of_eq]
            exact hnew
          · rename_i hallowed
            rw [if_neg hallowed] at hnew
            exact hnew
        · rw [Shard.check_bucket]
          change max _ b ≤ clock_bucket now cfg.interval
          omega
      · rw [AList.lookup_insert_ne hk] at hs
        obtain ⟨hok, hbucket⟩ := h.shards k s hs
        refine ⟨?_, Nat.le_trans hbucket hnow⟩
        split
        · simp only [admitted_of_ne hk]
          exact hok
        · exact hok
    · intro k hs b'
      -- The key that was checked has an entry now, so an absent one is another.
      have hk : k ≠ key := by
        rintro rfl
        rw [AList.lookup_insert] at hs
        cases hs
      rw [AList.lookup_insert_ne hk] at hs
      split
      · exact (admitted_of_ne hk _ _ _ _).trans (h.absent k hs b')
      · exact h.absent k hs b'
    · intro k hk
      exact (AList.mem_insert _).mpr (.inr (h.pass k hk))
    · intro f hf k hk
      exact (AList.mem_insert _).mpr (.inr (h.entries f hf k hk))

/-- A request only brings its replica further. -/
theorem view_check {F : Type} [F64 F] (key : Str)
    {now : SystemTime} (hread : rep.may_read now) (k : Str) :
    rep.view cfg k ≤ (rep.check F cfg (source (cache_key cfg key)) key now).view cfg k := by
  have hnow := @now_le_of_may_read cfg _ _ hread
  cases hb : bucket_at now cfg.interval with
  | none =>
    unfold Replica.check
    rw [check_at_of_none hb]
    unfold Replica.view
    simp only
    split
    · exact Nat.le_refl _
    · exact hnow
  | some b =>
    have hclock : clock_bucket now cfg.interval = b := clock_bucket_of_some hb
    have hcheck := @check_at_of_some cfg F _ rep.counters (source (cache_key cfg key)) key _ _ hb
    unfold Replica.check
    rw [hcheck]
    unfold Replica.view
    simp only
    by_cases hk : k = key
    · subst hk
      rw [AList.lookup_insert]
      simp only [Shard.check_bucket]
      cases hs : rep.counters.shards.lookup k with
      | none =>
        simp only
        omega
      | some s => exact Nat.le_max_left _ _
    · rw [AList.lookup_insert_ne hk]
      cases hs : rep.counters.shards.lookup k with
      | none => exact hnow
      | some s => exact Nat.le_refl _

/-- The keys a batch is taken from are keys of the store. -/
theorem mem_of_mem_take_batch (h : StoreOk cfg source others rep) {order : List Str}
    (horder : ∀ k ∈ order, k ∈ rep.counters.shards) {k : Str}
    (hk : k ∈ (rep.counters.take_batch cfg order).1 ∨
      k ∈ (rep.counters.take_batch cfg order).2) : k ∈ rep.counters.shards := by
  have hpass : ∀ k ∈ (if rep.counters.pass.isEmpty then order else rep.counters.pass),
      k ∈ rep.counters.shards := by
    intro k hk
    split at hk
    · exact horder k hk
    · exact h.pass k hk
  simp only [take_batch, List.splitAt_eq] at hk
  rcases hk with hk | hk
  · exact hpass k (List.mem_of_mem_take hk)
  · exact hpass k (List.mem_of_mem_drop hk)

theorem start (h : StoreOk cfg source others rep) {now : SystemTime} {order : List Str}
    (hread : rep.may_read now) (horder : ∀ k ∈ order, k ∈ rep.counters.shards) :
    StoreOk cfg source others (rep.start cfg now order) := by
  have hnow := @now_le_of_may_read cfg _ _ hread
  cases hb : bucket_at now cfg.interval with
  | none =>
    unfold Replica.start pending
    simp only [hb]
    refine ⟨?_, h.absent, h.pass, ?_⟩
    · intro k s hs
      exact ⟨(h.shards k s hs).1, Nat.le_trans (h.shards k s hs).2 hnow⟩
    · intro f hf
      cases hf
  | some b =>
    have hclock : clock_bucket now cfg.interval = b := clock_bucket_of_some hb
    have hmem : ∀ k, k ∈ (snapshot cfg b rep.counters.shards
        (rep.counters.take_batch cfg order).2).1 ↔ k ∈ rep.counters.shards := by
      intro k
      rw [← AList.lookup_isSome, lookup_snapshot, Option.isSome_map, AList.lookup_isSome]
    unfold Replica.start pending
    simp only [hb]
    refine ⟨?_, ?_, ?_, ?_⟩
    · intro k s hs
      rw [lookup_snapshot] at hs
      obtain ⟨s₀, hs₀, rfl⟩ := Option.map_eq_some_iff.mp hs
      obtain ⟨hok, hle⟩ := h.shards k s₀ hs₀
      by_cases hk : k ∈ (take_batch cfg rep.counters order).2
      · rw [if_pos hk]
        refine ⟨hok.roll_to (bucket_at_lt cfg.interval_ge hb), ?_⟩
        rw [Shard.roll_to_bucket]
        change max _ b ≤ clock_bucket now cfg.interval
        omega
      · rw [if_neg hk]
        exact ⟨hok, Nat.le_trans hle hnow⟩
    · intro k hs
      rw [lookup_snapshot, Option.map_eq_none_iff] at hs
      exact h.absent k hs
    · intro k hk
      exact (hmem k).mpr (h.mem_of_mem_take_batch horder (.inl hk))
    · intro f hf k hk
      simp only at hf
      split at hf
      · cases hf
      · obtain rfl := Option.some.inj hf
        exact (hmem k).mpr (h.mem_of_mem_take_batch horder (.inr hk))

/-- Taking a batch only brings its replica further. -/
theorem view_start {now : SystemTime} {order : List Str} (hread : rep.may_read now) (k : Str) :
    rep.view cfg k ≤ (rep.start cfg now order).view cfg k := by
  have hnow := @now_le_of_may_read cfg _ _ hread
  unfold Replica.start pending Replica.view
  cases hb : bucket_at now cfg.interval with
  | none =>
    simp only
    split
    · exact Nat.le_refl _
    · exact hnow
  | some b =>
    simp only [lookup_snapshot]
    cases hs : rep.counters.shards.lookup k with
    | none => exact hnow
    | some s =>
      simp only [Option.map_some]
      split
      · rw [Shard.roll_to_bucket]
        exact Nat.le_max_left _ _
      · exact Nat.le_refl _

/-- What the lines of an answer do to the shard of one key keeps what each line keeps. -/
theorem lines_induction {P : Shard → Prop} {key : Str} {lines : List ((Publish × Str) × Totals)}
    {s : Shard} (h0 : P s)
    (hstep : ∀ line ∈ lines, line.1.2 = key → ∀ s, P s → P (s.apply line.1.1 line.2)) :
    P (lines.foldl (fun s line => if line.1.2 = key then s.apply line.1.1 line.2 else s) s) := by
  induction lines generalizing s with
  | nil => exact h0
  | cons line lines ih =>
    rw [List.foldl_cons]
    refine ih ?_ ?_
    · by_cases hk : line.1.2 = key
      · rw [if_pos hk]
        exact hstep line List.mem_cons_self hk s h0
      · rw [if_neg hk]
        exact h0
    · intro l hl
      exact hstep l (List.mem_cons_of_mem line hl)

/-- A line of an answer that attributes to the others no more than they have admitted. -/
def LineOk (cfg : SharedConfig) (source : Str → Uuid) (others : BucketKey → ℕ)
    (line : (Publish × Str) × Totals) : Prop :=
  ∃ own, PublishOk (source (cache_key cfg line.1.2)) own line.1.1
    ∧ line.2.current - line.1.1.own_current ≤ others ⟨cache_key cfg line.1.2, line.1.1.bucket⟩
    ∧ line.2.previous - line.1.1.own_previous
      ≤ before (fun b => others ⟨cache_key cfg line.1.2, b⟩) line.1.1.bucket

/-- What an answer does to the entry of a key. -/
theorem lookup_finish (f : Inflight) (totals : List Totals) (key : Str) :
    (rep.finish f totals).counters.shards.lookup key =
      (rep.counters.shards.lookup key).map fun s =>
        if f.batch.publishes.length ≠ totals.length then s
        else ((f.batch.publishes.zip f.batch.entries).zip totals).foldl
          (fun s line => if line.1.2 = key then s.apply line.1.1 line.2 else s) s := by
  unfold Replica.finish SharedCounters.apply
  by_cases hlen : f.batch.publishes.length ≠ totals.length
  · simp only [if_pos hlen, Option.map_id']
  · simp only [if_neg hlen]
    exact lookup_apply_lines _ _ _

/-- What each line of a key brings about holds at the end, if there is one. -/
theorem lines_establish {P Q : Shard → Prop} {key : Str}
    {lines : List ((Publish × Str) × Totals)} {s : Shard} (h0 : P s)
    (hstep : ∀ line ∈ lines, line.1.2 = key → ∀ s, P s →
      P (s.apply line.1.1 line.2) ∧ Q (s.apply line.1.1 line.2))
    (hex : ∃ line ∈ lines, line.1.2 = key) :
    Q (lines.foldl (fun s line => if line.1.2 = key then s.apply line.1.1 line.2 else s) s) := by
  induction lines generalizing s with
  | nil =>
    obtain ⟨line, hline, -⟩ := hex
    cases hline
  | cons line lines ih =>
    have hrest : ∀ l ∈ lines, l.1.2 = key → ∀ s, P s →
        P (s.apply l.1.1 l.2) ∧ Q (s.apply l.1.1 l.2) :=
      fun l hl => hstep l (List.mem_cons_of_mem line hl)
    rw [List.foldl_cons]
    by_cases hk : line.1.2 = key
    · rw [if_pos hk]
      obtain ⟨hP, hQ⟩ := hstep line List.mem_cons_self hk s h0
      by_cases hmore : ∃ l ∈ lines, l.1.2 = key
      · exact ih hP hrest hmore
      · refine lines_induction hQ ?_
        intro l hl hlk
        exact absurd ⟨l, hl, hlk⟩ hmore
    · rw [if_neg hk]
      obtain ⟨l, hl, hlk⟩ := hex
      rcases List.mem_cons.mp hl with rfl | hl
      · exact absurd hlk hk
      · exact ih h0 hrest ⟨l, hl, hlk⟩

theorem finish (h : StoreOk cfg source others rep) {f : Inflight} {totals : List Totals}
    (hlines : ∀ line ∈ (f.batch.publishes.zip f.batch.entries).zip totals,
      LineOk cfg source others line) :
    StoreOk cfg source others (rep.finish f totals) := by
  have hmem : ∀ k, k ∈ (rep.finish f totals).counters.shards ↔ k ∈ rep.counters.shards := by
    intro k
    rw [← AList.lookup_isSome, lookup_finish, Option.isSome_map, AList.lookup_isSome]
  refine ⟨?_, ?_, ?_, ?_⟩
  · intro k s hs
    rw [lookup_finish] at hs
    obtain ⟨s₀, hs₀, rfl⟩ := Option.map_eq_some_iff.mp hs
    split
    · exact h.shards k s₀ hs₀
    · refine lines_induction (P := fun s => ShardOk _ _ _ s ∧ s.bucket ≤ _) (h.shards k s₀ hs₀) ?_
      rintro line hline rfl s ⟨hok, hle⟩
      obtain ⟨own, hp, hcurrent, hprevious⟩ := hlines line hline
      refine ⟨hok.apply hp hcurrent hprevious, ?_⟩
      rw [Shard.apply_bucket]
      exact hle
  · intro k hs
    rw [lookup_finish, Option.map_eq_none_iff] at hs
    exact h.absent k hs
  · intro k hk
    refine (hmem k).mpr (h.pass k ?_)
    unfold Replica.finish SharedCounters.apply at hk
    simp only at hk
    split at hk <;> exact hk
  · intro g hg
    cases hg

theorem view_finish (f : Inflight) (totals : List Totals) (k : Str) :
    (rep.finish f totals).view cfg k = rep.view cfg k := by
  unfold Replica.view
  rw [lookup_finish]
  cases hs : rep.counters.shards.lookup k with
  | none => rfl
  | some s =>
    simp only [Option.map_some]
    split
    · rfl
    · exact lines_induction (P := fun t => t.bucket = s.bucket) rfl
        fun line _ _ t ht => (Shard.apply_bucket t _ _).trans ht

theorem give_up (h : StoreOk cfg source others rep) {f : Inflight} (hf : f ∈ rep.inflight) :
    StoreOk cfg source others (rep.give_up f) where
  shards := h.shards
  absent := h.absent
  pass k hk := by
    rcases List.mem_append.mp hk with hk | hk
    · exact h.pass k hk
    · exact h.entries f hf k hk
  entries g hg := by cases hg

end StoreOk

/-! ### The commands -/

/-- An element of the left list has a partner. -/
theorem exists_of_forall₂ {α β : Type} {S : α → β → Prop} {l : List α} {m : List β}
    (h : List.Forall₂ S l m) {a : α} (ha : a ∈ l) : ∃ b, S a b := by
  induction h with
  | nil => cases ha
  | cons hab _ ih =>
    rcases List.mem_cons.mp ha with rfl | ha
    · exact ⟨_, hab⟩
    · exact ih ha

/-- A replica's own fields after one of its commands. -/
def exec_field (field : BucketKey → ℕ) (cmd : Command) : BucketKey → ℕ :=
  match op_of cmd with
  | some op => op.exec field
  | none => field

namespace WireOk

variable {cfg : SharedConfig} {source : Str → Uuid} {live live' : BucketKey → Prop}
  {field field' others others' : BucketKey → ℕ} {rep rep' : Replica}

theorem awaited_eq {f : Inflight} (hf : rep.inflight = some f) : rep.awaited = f.awaited := by
  unfold Replica.awaited
  rw [hf]

theorem count_mono (h : ∀ bk, rep.admitted bk ≤ rep'.admitted bk) (bk : BucketKey) :
    rep.count bk ≤ rep'.count bk := by
  have := h bk
  unfold Replica.count
  omega

/-- Whatever leaves the commands alone, while fewer hashes count as live and more is admitted. -/
theorem evolve (h : WireOk cfg source live field others rep) (hinflight : rep'.inflight = rep.inflight)
    (hstale : rep'.stale = rep.stale) (hcompleted : rep'.completed = rep.completed)
    (hlive : ∀ bk, live' bk → live bk) (hadmitted : ∀ bk, rep.admitted bk ≤ rep'.admitted bk)
    (hothers : ∀ bk, others bk ≤ others' bk) : WireOk cfg source live' field others' rep' := by
  have hawaited : rep'.awaited = rep.awaited := by
    unfold Replica.awaited
    rw [hinflight]
  have hsent : rep'.sent = rep.sent := by
    unfold Replica.sent
    rw [hinflight]
  refine ⟨?_, ?_, ?_, ?_, ?_, ?_⟩
  · rw [hstale, hawaited]
    exact h.own_field
  · rw [hstale, hawaited, hsent]
    exact h.coherent.mono hlive (count_mono hadmitted)
  · rw [hinflight]
    exact h.lines
  · rw [hinflight, hsent]
    intro f hf
    exact (h.answered f hf).mono fun bk _ hr => hr.mono (hlive bk) (hothers bk)
  · rw [hinflight]
    intro f hf bk
    exact Nat.le_trans (h.counted_le f hf bk) (hadmitted bk)
  · rw [hcompleted]
    intro c hc b hb hl
    exact h.completed c hc b hb (hlive _ hl)

/-- What a replica has in the backend it has admitted. -/
theorem field_le (h : WireOk cfg source live field others rep) (bk : BucketKey) :
    field bk ≤ rep.count bk := h.coherent.cells_le bk

/-- A failed sync. -/
theorem give_up (h : WireOk cfg source live field others rep) {f : Inflight}
    (hf : f ∈ rep.inflight) : WireOk cfg source live field others (rep.give_up f) := by
  have hawaited := awaited_eq (Option.mem_def.mp hf)
  refine ⟨?_, ?_, ?_, ?_, ?_, h.completed⟩
  · intro key g v hm
    simp only [Replica.give_up, Replica.awaited, List.append_nil] at hm
    rw [← hawaited] at hm
    exact h.own_field key g v hm
  · have hc := h.coherent.give_up (rep.give_up f).sent
    rw [hawaited, ← List.filterMap_append] at hc
    exact hc
  · intro g hg
    cases hg
  · intro g hg
    cases hg
  · intro g hg
    cases hg

/-- What a failed sync left on its way is lost. -/
theorem lose (h : WireOk cfg source live field others rep) (hf : rep.inflight = none) :
    WireOk cfg source live field others { rep with stale := [] } := by
  have hawaited : ({ rep with stale := [] } : Replica).awaited = [] := by
    unfold Replica.awaited
    simp only [hf]
  refine ⟨?_, ?_, h.lines, h.answered, h.counted_le, h.completed⟩
  · intro key g v hm
    rw [hawaited] at hm
    cases hm
  · rw [hawaited]
    exact Coherent.of_nil h.field_le

theorem before_min (f : ℕ → ℕ) (n b : ℕ) : before (fun b => min (f b) n) b = min (before f b) n := by
  cases b with
  | zero => exact (Nat.zero_min n).symm
  | succ b => rfl

/-- The line taken from an entry carries the counts of its buckets. -/
theorem publish_ok {key : Str} {s : Shard}
    (h : ShardOk (source (cache_key cfg key)) (fun b => rep.admitted ⟨cache_key cfg key, b⟩)
      (fun b => others ⟨cache_key cfg key, b⟩) s) :
    PublishOk (source (cache_key cfg key)) (fun b => rep.admitted ⟨cache_key cfg key, b⟩)
      (publish_of cfg key s) :=
  ⟨h.source_eq, h.bucket_lt, h.own_current, h.own_previous⟩

/-- Every key of a batch has an entry, and its line is that entry rolled. -/
theorem snapshot_forall₂ {b : ℕ} {entries : List Str}
    (hmem : ∀ k ∈ entries, k ∈ rep.counters.shards) :
    List.Forall₂ (fun p key => ∃ s, rep.counters.shards.lookup key = some s ∧
        p = publish_of cfg key (s.roll_to b))
      (snapshot cfg b rep.counters.shards entries).2 entries := by
  rw [snapshot_publishes]
  induction entries with
  | nil => exact .nil
  | cons k entries ih =>
    obtain ⟨s, hs⟩ := Option.isSome_iff_exists.mp
      (AList.lookup_isSome.mpr (hmem k List.mem_cons_self))
    rw [List.filterMap_cons, hs, Option.map_some]
    refine .cons ⟨s, hs, rfl⟩ (ih ?_)
    intro j hj
    exact hmem j (List.mem_cons_of_mem k hj)

theorem snapshot_lines (hstore : StoreOk cfg source others rep) {b : ℕ} (hb : b + 2 < U64_MAX)
    {entries : List Str} (hmem : ∀ k ∈ entries, k ∈ rep.counters.shards) :
    List.Forall₂ (fun p key => p.key = cache_key cfg key ∧
        PublishOk (source p.key) (fun b => rep.admitted ⟨p.key, b⟩) p)
      (snapshot cfg b rep.counters.shards entries).2 entries := by
  refine (snapshot_forall₂ hmem).imp ?_
  rintro p key ⟨s, hs, rfl⟩
  exact ⟨rfl, publish_ok ((hstore.shards key s hs).1.roll_to hb)⟩

/-- The commands of such a batch carry the whole counts of the replica. -/
theorem fits_batch {publishes : List Publish}
    (hok : ∀ p ∈ publishes, PublishOk (source p.key) (fun b => rep.admitted ⟨p.key, b⟩) p) :
    Fits rep.count ((pipeline publishes).filterMap op_of) := by
  refine fits_pipeline ?_
  intro p hp
  refine ⟨(hok p hp).own_current, ?_⟩
  rw [(hok p hp).own_previous, ← before_min]
  rfl

/-- Every write of a pipeline goes to the field of its key. -/
theorem own_field_pipeline {publishes : List Publish}
    (hok : ∀ p ∈ publishes, p.source = source p.key) {key : BucketKey} {f v : ℕ}
    (h : Command.HSET key f v ∈ pipeline publishes) : f = source key.key := by
  obtain ⟨p, hp, hm⟩ := List.mem_flatMap.mp h
  have hcmd : ∀ b own writable, Command.HSET key f v ∈ bucket_commands p b own writable →
      f = p.source ∧ key.key = p.key := by
    intro b own writable hc
    rcases List.mem_append.mp hc with hc | hc
    · split at hc
      · obtain ⟨rfl, rfl, rfl⟩ := Command.HSET.inj (List.mem_singleton.mp hc)
        exact ⟨rfl, rfl⟩
      · cases hc
    · simp at hc
  obtain ⟨rfl, hkey⟩ : f = p.source ∧ key.key = p.key := by
    rcases List.mem_append.mp hm with hm | hm
    · exact hcmd _ _ _ hm
    · exact hcmd _ _ _ hm
  rw [hkey]
  exact hok p hp

/-- The batch of a sync is sent. -/
theorem send (h : WireOk cfg source live field others rep) (hidle : rep.inflight = none)
    {f : Inflight} (hinflight : rep'.inflight = some f) (hstale : rep'.stale = rep.stale)
    (hcompleted : rep'.completed = rep.completed) (hadmitted : rep'.admitted = rep.admitted)
    (hcounted : f.counted = rep.admitted) (hawaited : f.awaited = pipeline f.batch.publishes)
    (hreplies : f.replies = [])
    (hlines : List.Forall₂ (fun p key => p.key = cache_key cfg key ∧
      PublishOk (source p.key) (fun b => rep.admitted ⟨p.key, b⟩) p)
      f.batch.publishes f.batch.entries) :
    WireOk cfg source live field others rep' := by
  have hok : ∀ p ∈ f.batch.publishes,
      PublishOk (source p.key) (fun b => rep.admitted ⟨p.key, b⟩) p := by
    intro p hp
    obtain ⟨_, -, hok⟩ := exists_of_forall₂ hlines hp
    exact hok
  have haw : rep.awaited = [] := by
    unfold Replica.awaited
    rw [hidle]
  have haw' : rep'.awaited = pipeline f.batch.publishes := by
    unfold Replica.awaited
    rw [hinflight, ← hawaited]
  have hsent : rep'.sent = rep.count := by
    unfold Replica.sent Replica.count
    simp only [hinflight, hcounted]
  have hcount : rep'.count = rep.count := by
    unfold Replica.count
    rw [hadmitted]
  refine ⟨?_, ?_, ?_, ?_, ?_, ?_⟩
  · intro key g v hm
    rw [hstale, haw'] at hm
    rcases List.mem_append.mp hm with hm | hm
    · exact h.own_field key g v (List.mem_append_left _ hm)
    · exact own_field_pipeline (fun p hp => (hok p hp).source_eq) hm
  · have hc := h.coherent
    rw [haw] at hc
    rw [hstale, haw', hsent, hcount]
    exact hc.send (fits_batch hok)
  · intro g hg
    obtain rfl := Option.some.inj (hinflight.symm.trans hg)
    rw [hcounted]
    exact hlines
  · intro g hg
    obtain rfl := Option.some.inj (hinflight.symm.trans hg)
    exact .start _ hawaited hreplies
  · intro g hg bk
    obtain rfl := Option.some.inj (hinflight.symm.trans hg)
    rw [hcounted, hadmitted]
  · rw [hcompleted]
    exact h.completed

/-- The batch of a sync is taken and, unless it is empty, sent. -/
theorem start (h : WireOk cfg source live field others rep) (hstore : StoreOk cfg source others rep)
    (hidle : rep.inflight = none) {now : SystemTime} {order : List Str}
    (horder : ∀ k ∈ order, k ∈ rep.counters.shards) :
    WireOk cfg source live field others (rep.start cfg now order) := by
  unfold Replica.start pending
  cases hb : bucket_at now cfg.interval with
  | none =>
    refine h.evolve ?_ rfl rfl (fun _ hl => hl) (fun _ => Nat.le_refl _) fun _ => Nat.le_refl _
    exact hidle.symm
  | some b =>
    by_cases hempty : (snapshot cfg b rep.counters.shards
        (rep.counters.take_batch cfg order).2).2.isEmpty
    · refine h.evolve ?_ rfl rfl (fun _ hl => hl) (fun _ => Nat.le_refl _) fun _ => Nat.le_refl _
      simp only [hempty, if_true]
      exact hidle.symm
    · refine h.send hidle (f := _) (by simp only [hempty]; rfl) rfl rfl rfl rfl rfl rfl ?_
      refine snapshot_lines hstore (bucket_at_lt cfg.interval_ge hb) ?_
      intro k hk
      exact hstore.mem_of_mem_take_batch horder (.inr hk)

/-- The batch a sync was begun with. -/
theorem start_batch (hstore : StoreOk cfg source others rep) {now : SystemTime}
    {order : List Str} (horder : ∀ k ∈ order, k ∈ rep.counters.shards) {f : Inflight}
    (hf : (rep.start cfg now order).inflight = some f) :
    f.counted = rep.admitted ∧ f.awaited = pipeline f.batch.publishes ∧ f.replies = [] ∧
      ∀ line ∈ f.batch.publishes.zip f.batch.entries,
        line.1.bucket = (rep.start cfg now order).view cfg line.2 := by
  unfold Replica.start pending at hf ⊢
  cases hb : bucket_at now cfg.interval with
  | none =>
    rw [hb] at hf
    cases hf
  | some b =>
    rw [hb] at hf
    simp only at hf ⊢
    split at hf
    · cases hf
    · obtain rfl := Option.some.inj hf
      refine ⟨rfl, rfl, rfl, ?_⟩
      rintro ⟨p, key⟩ hline
      have hkey := (List.of_mem_zip hline).2
      have hmem : ∀ k ∈ (rep.counters.take_batch cfg order).2, k ∈ rep.counters.shards :=
        fun k hk => hstore.mem_of_mem_take_batch horder (.inr hk)
      obtain ⟨s, hs, rfl⟩ := List.forall₂_zip (snapshot_forall₂ hmem) hline
      unfold Replica.view
      simp only [lookup_snapshot, hs, Option.map_some, if_pos hkey]
      rfl

/-- The lines of an answer, once every command was carried out. -/
theorem lines_answered (h : WireOk cfg source live field others rep) {f : Inflight}
    (hf : rep.inflight = some f) (hawaited : f.awaited = []) {totals : List Totals}
    (ht : totals_of f.batch.publishes f.replies = some totals) :
    List.Forall₂ (LineAnswered (ReplyOk live rep.sent field others)) f.batch.publishes totals :=
  (h.answered f hf).totals hawaited ht

/-- The totals of a line are its own part and no more than the others have admitted. -/
theorem line_bounds {f : Inflight} (hf : rep.inflight = some f) {p : Publish} {t : Totals}
    (hp : PublishOk (source p.key) (fun b => f.counted ⟨p.key, b⟩) p)
    (h : LineAnswered (ReplyOk live rep.sent field others) p t) :
    t.current - p.own_current ≤ others ⟨p.key, p.bucket⟩ ∧
      t.previous - p.own_previous ≤ before (fun b => others ⟨p.key, b⟩) p.bucket := by
  obtain ⟨current, previous, hcurrent, hprevious, rfl⟩ := h
  have hbound : ∀ {bk reply own}, ReplyOk live rep.sent field others bk reply →
      own = min (f.counted bk) U64_MAX → total_of reply - own ≤ others bk := by
    rintro bk reply own ⟨mine, rest, hsum, hown, -, hrest⟩ rfl
    have hle := hown.1
    simp only [Replica.sent, hf] at hle
    rw [total_of_eq]
    omega
  refine ⟨hbound hcurrent hp.own_current, ?_⟩
  cases hb : p.bucket with
  | zero =>
    rw [if_pos rfl]
    exact Nat.le_of_eq (Nat.zero_sub _)
  | succ b =>
    rw [if_neg (Nat.succ_ne_zero b)]
    rw [hb] at hprevious
    refine hbound hprevious ?_
    rw [hp.own_previous, hb]
    rfl

/-- A completed sync. -/
theorem finish (h : WireOk cfg source live field others rep) {f : Inflight}
    (hf : rep.inflight = some f) (hstale : rep.stale = []) (hawaited : f.awaited = [])
    {totals : List Totals} (ht : totals_of f.batch.publishes f.replies = some totals) :
    WireOk cfg source live field others (rep.finish f totals) := by
  refine ⟨?_, ?_, ?_, ?_, ?_, ?_⟩
  · intro key g v hm
    change Command.HSET key g v ∈ rep.stale ++ [] at hm
    rw [hstale] at hm
    cases hm
  · change Coherent live field (rep.stale.filterMap op_of) [] _ rep.count
    rw [hstale]
    exact Coherent.of_nil h.field_le
  · intro g hg
    cases hg
  · intro g hg
    cases hg
  · intro g hg
    cases hg
  · intro c hc b hb hl
    rcases List.mem_append.mp hc with hc | hc
    · exact h.completed c hc b hb hl
    · obtain ⟨p, hp, rfl⟩ := List.mem_map.mp hc
      obtain ⟨t, current, previous, hcurrent, hprevious, -⟩ :
          ∃ t, LineAnswered (ReplyOk live rep.sent field others) p t :=
        exists_of_forall₂ (h.lines_answered hf hawaited ht) hp
      have hsent : ∀ bk, rep.sent bk = min (f.counted bk) U64_MAX := by
        intro bk
        simp only [Replica.sent, hf]
      rcases hb with rfl | hb
      · obtain ⟨-, -, -, -, hfield, -⟩ := hcurrent
        rw [← hsent]
        exact hfield hl
      · obtain rfl : b = p.bucket - 1 := by
          simp only at hb
          omega
        obtain ⟨-, -, -, -, hfield, -⟩ := hprevious
        rw [← hsent]
        exact hfield hl

theorem le_exec_field {cmd : Command} (h : ∀ bk v, op_of cmd = some (.write bk v) → field bk ≤ v)
    (bk : BucketKey) : field bk ≤ exec_field field cmd bk := by
  unfold exec_field
  cases cmd with
  | EXPIRE key secs => exact Nat.le_refl _
  | HVALS key => exact Nat.le_refl _
  | HSET key f v =>
    simp only [op_of, Op.exec]
    by_cases hbk : bk = key
    · rw [hbk, Function.update_self]
      exact h key v rfl
    · rw [Function.update_of_ne hbk]

theorem le_exec_stale (h : WireOk cfg source live field others rep) {cmd : Command}
    {stale : List Command} (hstale : rep.stale = cmd :: stale) (bk : BucketKey) :
    field bk ≤ exec_field field cmd bk := by
  have hc := h.coherent
  rw [hstale, List.filterMap_cons] at hc
  refine le_exec_field ?_ bk
  intro bk v hop
  rw [hop] at hc
  exact hc.write_stale

theorem le_exec_awaited (h : WireOk cfg source live field others rep) {f : Inflight}
    (hf : rep.inflight = some f) (hstale : rep.stale = []) {cmd : Command}
    {awaited : List Command} (hawaited : f.awaited = cmd :: awaited) (bk : BucketKey) :
    field bk ≤ exec_field field cmd bk := by
  have hc := h.coherent
  rw [hstale, awaited_eq hf, hawaited, List.filterMap_cons, List.filterMap_nil] at hc
  refine le_exec_field ?_ bk
  intro bk v hop
  rw [hop] at hc
  exact hc.write_awaited

/-- A command that nobody waits for is carried out. -/
theorem exec_stale (h : WireOk cfg source live field others rep) {cmd : Command}
    {stale : List Command} (hstale : rep.stale = cmd :: stale) :
    WireOk cfg source live (exec_field field cmd) others { rep with stale := stale } := by
  have hc := h.coherent
  rw [hstale, List.filterMap_cons] at hc
  have hle := h.le_exec_stale hstale
  refine ⟨?_, ?_, h.lines, ?_, h.counted_le, ?_⟩
  · intro key g v hm
    refine h.own_field key g v ?_
    rw [hstale]
    exact List.mem_cons_of_mem cmd hm
  · change Coherent live (exec_field field cmd) (stale.filterMap op_of)
      (rep.awaited.filterMap op_of) rep.sent rep.count
    unfold exec_field
    cases hop : op_of cmd with
    | none =>
      rw [hop] at hc
      exact hc
    | some op =>
      rw [hop] at hc
      exact hc.exec_stale
  · intro f hf
    refine (h.answered f hf).mono ?_
    rintro bk reply ⟨own, rest, hsum, hown, hfield, hrest⟩
    exact ⟨own, rest, hsum, hown, fun hl => Nat.le_trans (hfield hl) (hle bk), hrest⟩
  · intro c hcm b hb hl
    exact Nat.le_trans (h.completed c hcm b hb hl) (hle _)

/-- A command of the sync a replica is in is carried out. -/
theorem exec_awaited (h : WireOk cfg source live field others rep) {hashes : Hashes} {f : Inflight}
    (hf : rep.inflight = some f) (hstale : rep.stale = []) {cmd : Command}
    {awaited : List Command} (hawaited : f.awaited = cmd :: awaited)
    (hreply : ∀ key, cmd = .HVALS key → ∃ rest,
      ((hashes key).entries.map Sigma.snd).sum = field key + rest ∧ rest ≤ others key) :
    WireOk cfg source live (exec_field field cmd) others
      { rep with inflight := some (f.carry_out hashes cmd awaited) } := by
  have hc := h.coherent
  have haw : rep.awaited = cmd :: awaited := (awaited_eq hf).trans hawaited
  have hsent : ({ rep with inflight := some (f.carry_out hashes cmd awaited) } : Replica).sent
      = rep.sent := by
    unfold Replica.sent
    simp only [hf, Inflight.carry_out]
  rw [hstale, haw, List.filterMap_cons, List.filterMap_nil] at hc
  have hle := h.le_exec_awaited hf hstale hawaited
  refine ⟨?_, ?_, ?_, ?_, ?_, ?_⟩
  · intro key g v hm
    refine h.own_field key g v ?_
    rw [haw]
    rcases List.mem_append.mp hm with hm | hm
    · exact List.mem_append_left _ hm
    · exact List.mem_append_right _ (List.mem_cons_of_mem cmd hm)
  · change Coherent live (exec_field field cmd) (rep.stale.filterMap op_of)
      (awaited.filterMap op_of) _ rep.count
    rw [hsent, hstale]
    unfold exec_field
    -- Only a write moves a field, and what was awaited has it first.
    cases hop : op_of cmd with
    | none =>
      rw [hop] at hc
      exact hc
    | some op =>
      rw [hop] at hc
      exact hc.exec_awaited
  · intro g hg
    obtain rfl := Option.some.inj hg
    exact h.lines f hf
  · intro g hg
    obtain rfl := Option.some.inj hg
    rw [hsent]
    refine Answered.exec (f := f) ((h.answered f hf).mono ?_) hawaited ?_
    · rintro bk reply ⟨own, rest, hsum, hown, hfield, hrest⟩
      exact ⟨own, rest, hsum, hown, fun hl => Nat.le_trans (hfield hl) (hle bk), hrest⟩
    · rintro key rfl
      obtain ⟨rest, hsum, hrest⟩ := hreply key rfl
      have hread : Reads live rep.sent key (field key) := hc.read_awaited
      exact ⟨field key, rest, hsum, hread, fun hl => Nat.le_of_eq (hread.2 hl).symm, hrest⟩
  · intro g hg
    obtain rfl := Option.some.inj hg
    exact h.counted_le f hf
  · intro c hcm b hb hl
    exact Nat.le_trans (h.completed c hcm b hb hl) (hle _)

/-- Hashes are dropped that no longer count as live. -/
theorem drop (h : WireOk cfg source live field others rep) (hle : ∀ bk, field' bk ≤ field bk)
    (hlive : ∀ bk, live bk → field' bk = field bk) :
    WireOk cfg source live field' others rep := by
  refine ⟨h.own_field, h.coherent.drop hle hlive, h.lines, ?_, h.counted_le, ?_⟩
  · intro f hf
    refine (h.answered f hf).mono ?_
    rintro bk reply ⟨own, rest, hsum, hown, hfield, hrest⟩
    refine ⟨own, rest, hsum, hown, ?_, hrest⟩
    intro hl
    rw [hlive bk hl]
    exact hfield hl
  · intro c hc b hb hl
    rw [hlive _ hl]
    exact h.completed c hc b hb hl

end WireOk

end Lagos.Cluster
