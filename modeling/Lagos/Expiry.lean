/-
The lives of the hashes (`ttl_secs` and `reconcile`, `ratelimit/resp.rs`).

The backend drops a hash when its time is up, and the time that `reconcile` gives it is two
intervals from the moment that the `EXPIRE` is carried out. A bucket is in view from its start to
the end of the next one. So whatever the replicas send, in whatever order and however late, a hash
that is in view is there as if nothing ever expired (`expiry_unseen`), which is what the counts of
a cluster rest on. And nothing is left behind: where pipelines are carried out as a whole, every
hash in the store was published less than its life ago (`hashes_expire`).

The times are those of the backend's clock, in nanoseconds. The clocks of the replicas, which say
what the bucket is, are ahead of it by a skew at most, and what is said of a view allows for it.
-/
import Lagos.Cluster

set_option autoImplicit false

open RustStd

namespace Lagos.Cluster

open Lagos.RateLimit SharedCounters

/-! ## A backend that expires hashes -/

/-- The hashes, and when each of them is dropped, if it is. -/
structure Expiring where
  hashes : Hashes
  deadline : BucketKey → Option ℕ

namespace Expiring

/-- Nothing is stored. -/
def empty : Expiring := ⟨fun _ => ∅, fun _ => none⟩

/-- Whether a hash is dropped by now. -/
def expired (s : Expiring) (now : ℕ) (key : BucketKey) : Bool :=
  (s.deadline key).any fun deadline => deadline ≤ now

/-- What has expired is gone. -/
def purge (s : Expiring) (now : ℕ) : Expiring where
  hashes key := if s.expired now key then ∅ else s.hashes key
  deadline key := if s.expired now key then none else s.deadline key

/-- One command. An `HSET` keeps the time of its hash, and an `EXPIRE` needs a hash. -/
def command (s : Expiring) (now : ℕ) : Command → Expiring
  | .EXPIRE key secs =>
    if (s.hashes key).entries = [] then s
    else { s with
      deadline := Function.update s.deadline key (some (now + secs * NANOS_PER_SEC)) }
  | cmd => { s with hashes := run_command s.hashes cmd }

/-- A command that is carried out at a time. -/
def step (s : Expiring) (x : ℕ × Command) : Expiring := (s.purge x.1).command x.1 x.2

/-- What it is answered with. -/
def reply (s : Expiring) (x : ℕ × Command) : List (List ℕ) := reply_of (s.purge x.1).hashes x.2

end Expiring

/-- What is left when time has passed. -/
theorem Expiring.entries_purge {s : Expiring} {now : ℕ} {key : BucketKey}
    (h : ((s.purge now).hashes key).entries ≠ []) :
    s.expired now key = false ∧ (s.hashes key).entries ≠ [] := by
  unfold Expiring.purge at h
  dsimp only at h
  split at h
  · exact absurd rfl h
  · rename_i hlives
    exact ⟨Bool.eq_false_of_not_eq_true hlives, h⟩

/-! ## Times to live -/

/-- The window of a bucket and the one after it are not over, for any clock that is ahead by the
skew at most. -/
def InView (interval skew : Duration) (now : ℕ) (key : BucketKey) : Prop :=
  now + skew < (key.bucket + 2) * interval

/-- A command that a replica may have carried out at a time: of a pipeline whose publishes are of
buckets that have begun on its clock. -/
def Sent (interval skew : Duration) (x : ℕ × Command) : Prop :=
  ∃ publishes : List Publish, x.2 ∈ pipeline publishes
    ∧ ∀ p ∈ publishes, p.interval = interval ∧ p.bucket * interval ≤ x.1 + skew

/-- A time to live is two intervals at least. -/
theorem le_ttl (interval : ℕ) : 2 * interval ≤ ttl_secs interval * NANOS_PER_SEC := by
  change 2 * interval ≤ max ((2 * interval) / 1000000000
    + if (2 * interval) % 1000000000 ≠ 0 then 1 else 0) 2 * 1000000000
  split <;> omega

/-- The commands of a bucket, one by one. -/
theorem mem_bucket_commands {p : Publish} {bucket own : ℕ} {writable : Bool} {cmd : Command} :
    cmd ∈ bucket_commands p bucket own writable ↔
      (cmd = .HSET ⟨p.key, bucket⟩ p.source own ∧ own ≠ 0 ∧ writable = true)
        ∨ cmd = .EXPIRE ⟨p.key, bucket⟩ (ttl_secs p.interval) ∨ cmd = .HVALS ⟨p.key, bucket⟩ := by
  unfold bucket_commands
  dsimp only
  split
  · rename_i hwrites
    simp [hwrites]
  · rename_i hwrites
    rw [List.nil_append, List.mem_cons, List.mem_singleton]
    exact ⟨.inr, fun h => h.resolve_left fun h => hwrites h.2⟩

/-- An `EXPIRE` lets its hash live until it is out of view. -/
theorem expire_late {interval skew : Duration} {now secs : ℕ} {key : BucketKey}
    (h : Sent interval skew (now, .EXPIRE key secs)) :
    (key.bucket + 2) * interval ≤ now + secs * NANOS_PER_SEC + skew := by
  obtain ⟨publishes, hmem, hbegun⟩ := h
  obtain ⟨p, hp, hmem⟩ := List.mem_flatMap.mp hmem
  obtain ⟨rfl, hstart⟩ := hbegun p hp
  have hbucket : key.bucket ≤ p.bucket ∧ secs = ttl_secs p.interval := by
    obtain h | h := List.mem_append.mp hmem
    · obtain ⟨h, -⟩ | h | h := mem_bucket_commands.mp h <;> cases h
      exact ⟨le_rfl, rfl⟩
    · obtain ⟨h, -⟩ | h | h := mem_bucket_commands.mp h <;> cases h
      exact ⟨Nat.sub_le _ _, rfl⟩
  rw [hbucket.2]
  have hlife := le_ttl p.interval
  have hkey := Nat.mul_le_mul_right p.interval hbucket.1
  rw [Nat.add_mul]
  omega

/-! ## Nothing in view expires -/

/-- Expiry has taken nothing that is in view, and will take nothing while it is. -/
structure Expiring.Sound (interval skew : Duration) (now : ℕ) (s : Expiring) (hashes : Hashes) :
    Prop where
  late : ∀ key deadline, s.deadline key = some deadline →
    (key.bucket + 2) * interval ≤ deadline + skew
  same : ∀ key, InView interval skew now key → s.hashes key = hashes key

section Sound

variable {interval skew : Duration} {t now : ℕ} {s : Expiring} {hashes : Hashes}

/-- Time passes. -/
theorem Expiring.Sound.purge (h : s.Sound interval skew t hashes) (ht : t ≤ now) :
    (s.purge now).Sound interval skew now hashes where
  late key deadline hdeadline := by
    unfold Expiring.purge at hdeadline
    dsimp only at hdeadline
    split at hdeadline
    · cases hdeadline
    · exact h.late key deadline hdeadline
  same key hview := by
    have hlives : s.expired now key = false := by
      unfold Expiring.expired
      cases hdeadline : s.deadline key with
      | none => rfl
      | some deadline =>
        have hlate := h.late key deadline hdeadline
        rw [Option.any_some, decide_eq_false_iff_not]
        exact Nat.not_le.mpr (Nat.lt_of_add_lt_add_right (Nat.lt_of_lt_of_le hview hlate))
    unfold Expiring.purge
    dsimp only
    rw [hlives, if_neg Bool.false_ne_true]
    exact h.same key (Nat.lt_of_le_of_lt (Nat.add_le_add_right ht skew) hview)

/-- A command is carried out. -/
theorem Expiring.Sound.command {cmd : Command} (h : s.Sound interval skew now hashes)
    (hsent : Sent interval skew (now, cmd)) :
    (s.command now cmd).Sound interval skew now (run_command hashes cmd) := by
  cases cmd with
  | HSET key field value =>
    refine ⟨h.late, fun k hview => ?_⟩
    change Function.update s.hashes key _ k = Function.update hashes key _ k
    by_cases hk : k = key
    · subst hk
      rw [Function.update_self, Function.update_self, h.same k hview]
    · rw [Function.update_of_ne hk, Function.update_of_ne hk]
      exact h.same k hview
  | EXPIRE key secs =>
    unfold Expiring.command
    dsimp only
    split
    · exact h
    · refine ⟨fun k deadline hdeadline => ?_, h.same⟩
      dsimp only at hdeadline
      by_cases hk : k = key
      · subst hk
        rw [Function.update_self] at hdeadline
        cases hdeadline
        exact expire_late hsent
      · rw [Function.update_of_ne hk] at hdeadline
        exact h.late k deadline hdeadline
  | HVALS key => exact h

/-- A run of commands, in the order of their times. -/
theorem sound_run {run : List (ℕ × Command)} (h : s.Sound interval skew t hashes)
    (hsorted : (t :: run.map Prod.fst).Pairwise (· ≤ ·)) (hsent : ∀ x ∈ run, Sent interval skew x)
    (hlast : ∀ x ∈ run, x.1 ≤ now) (ht : t ≤ now) :
    ((run.foldl Expiring.step s).purge now).Sound interval skew now
      ((run.map Prod.snd).foldl run_command hashes) := by
  induction run generalizing t s hashes with
  | nil => exact h.purge ht
  | cons x run ih =>
    obtain ⟨hfirst, hrest⟩ := List.pairwise_cons.mp hsorted
    have hnext := (h.purge (hfirst x.1 List.mem_cons_self)).command
      (hsent x List.mem_cons_self)
    exact ih hnext hrest (fun y hy => hsent y (List.mem_cons_of_mem x hy))
      (fun y hy => hlast y (List.mem_cons_of_mem x hy)) (hlast x List.mem_cons_self)

end Sound

/-- Two replicas publish one key, the second half a second into the next bucket. -/
def two_publishes : List (ℕ × List Publish) :=
  [(500000000, [⟨1, ['k'], 0, 3, 0, 1000000000⟩]), (1500000000, [⟨2, ['k'], 1, 4, 2, 1000000000⟩])]

/-- The keys that a pipeline touches. -/
def touched (publishes : List Publish) : List BucketKey :=
  publishes.flatMap fun p => [⟨p.key, p.bucket⟩, ⟨p.key, p.bucket - 1⟩]

/-- Every hash has the time to live that it was given last, when it was touched. -/
def Expiring.Dated (s : Expiring) (life : ℕ) (last : BucketKey → ℕ → Prop) : Prop :=
  ∀ key, (s.hashes key).entries ≠ [] →
    ∃ t, last key t ∧ s.deadline key = some (t + life)

section Dated

variable {life : ℕ} {s : Expiring} {last last' : BucketKey → ℕ → Prop}

theorem Expiring.Dated.mono (h : s.Dated life last) (hle : ∀ key t, last key t → last' key t) :
    s.Dated life last' := by
  intro key hkey
  obtain ⟨t, ht, hdeadline⟩ := h key hkey
  exact ⟨t, hle key t ht, hdeadline⟩

theorem Expiring.Dated.purge (h : s.Dated life last) (now : ℕ) :
    (s.purge now).Dated life last := by
  intro key hkey
  obtain ⟨hlives, hkept⟩ := Expiring.entries_purge hkey
  obtain ⟨t, ht, hdeadline⟩ := h key hkept
  refine ⟨t, ht, ?_⟩
  unfold Expiring.purge
  dsimp only
  rw [hlives, if_neg Bool.false_ne_true, hdeadline]

/-- A pipeline leaves the hashes of a bucket dated, those that it made as well. -/
theorem Expiring.Dated.bucket_commands (h : s.Dated life last) (now : ℕ) {p : Publish}
    (bucket own : ℕ) (writable : Bool) (hlife : ttl_secs p.interval * NANOS_PER_SEC = life) :
    ((bucket_commands p bucket own writable).foldl (fun s cmd => s.command now cmd) s).Dated life
      fun key t => last key t ∨ key = ⟨p.key, bucket⟩ ∧ t = now := by
  -- Once the hash of the bucket is there, `EXPIRE` gives it a time.
  have hexpire : ∀ s' : Expiring, (∀ key, key ≠ ⟨p.key, bucket⟩ →
        s'.hashes key = s.hashes key ∧ s'.deadline key = s.deadline key) →
      ((s'.command now (.EXPIRE ⟨p.key, bucket⟩ (ttl_secs p.interval))).command now
        (.HVALS ⟨p.key, bucket⟩)).Dated life
          fun key t => last key t ∨ key = ⟨p.key, bucket⟩ ∧ t = now := by
    intro s' hsame key hkey
    by_cases hk : key = ⟨p.key, bucket⟩
    · subst hk
      refine ⟨now, .inr ⟨rfl, rfl⟩, ?_⟩
      unfold Expiring.command at hkey ⊢
      dsimp only [run_command] at hkey ⊢
      split at hkey
      · rename_i hnone
        exact absurd hnone hkey
      · rename_i hsome
        rw [if_neg hsome]
        dsimp only
        rw [Function.update_self, hlife]
    · obtain ⟨hhash, hdeadline⟩ := hsame key hk
      have hleft : (((s'.command now (.EXPIRE ⟨p.key, bucket⟩ (ttl_secs p.interval))).command now
          (.HVALS ⟨p.key, bucket⟩)).hashes key = s.hashes key)
          ∧ ((s'.command now (.EXPIRE ⟨p.key, bucket⟩ (ttl_secs p.interval))).command now
          (.HVALS ⟨p.key, bucket⟩)).deadline key = s.deadline key := by
        unfold Expiring.command
        dsimp only [run_command]
        split
        · exact ⟨hhash, hdeadline⟩
        · exact ⟨hhash, (Function.update_of_ne hk _ _).trans hdeadline⟩
      rw [hleft.1] at hkey
      obtain ⟨t, ht, hdated⟩ := h key hkey
      exact ⟨t, .inl ht, hleft.2.trans hdated⟩
  unfold RateLimit.bucket_commands
  dsimp only
  split
  · exact hexpire (s.command now (.HSET ⟨p.key, bucket⟩ p.source own))
      fun key hk => ⟨Function.update_of_ne hk _ _, rfl⟩
  · exact hexpire s fun key _ => ⟨rfl, rfl⟩

/-- So does all of it. -/
theorem Expiring.Dated.pipeline (h : s.Dated life last) (now : ℕ) {publishes : List Publish}
    (hlife : ∀ p ∈ publishes, ttl_secs p.interval * NANOS_PER_SEC = life) :
    ((pipeline publishes).foldl (fun s cmd => s.command now cmd) s).Dated life
      fun key t => last key t ∨ key ∈ touched publishes ∧ t = now := by
  induction publishes generalizing s last with
  | nil => exact h.mono fun key t ht => .inl ht
  | cons p publishes ih =>
    have hp := hlife p List.mem_cons_self
    have hboth := (h.bucket_commands now p.bucket p.own_current true hp).bucket_commands now
      (p.bucket - 1) p.own_previous (p.bucket > 0) hp
    rw [RateLimit.pipeline, List.flatMap_cons, publish_commands, List.foldl_append,
      List.foldl_append]
    refine (ih hboth fun q hq => hlife q (List.mem_cons_of_mem p hq)).mono ?_
    rintro key t (((hlast | ⟨rfl, rfl⟩) | ⟨rfl, rfl⟩) | ⟨hkey, rfl⟩)
    · exact .inl hlast
    · exact .inr ⟨by simp [touched], rfl⟩
    · exact .inr ⟨by simp [touched], rfl⟩
    · exact .inr ⟨List.mem_append_right _ hkey, rfl⟩

/-- A run of pipelines, each carried out as a whole at its time. -/
theorem dated_run {run : List (ℕ × List Publish)}
    (hlife : ∀ x ∈ run, ∀ p ∈ x.2, ttl_secs p.interval * NANOS_PER_SEC = life)
    (h : s.Dated life last) :
    (run.foldl (fun s x => (RateLimit.pipeline x.2).foldl (fun s cmd => s.command x.1 cmd)
      (s.purge x.1)) s).Dated life
        fun key t => last key t ∨ ∃ x ∈ run, x.1 = t ∧ key ∈ touched x.2 := by
  induction run generalizing s last with
  | nil => exact h.mono fun key t ht => .inl ht
  | cons x run ih =>
    rw [List.foldl_cons]
    have hfirst := (h.purge x.1).pipeline x.1 (hlife x List.mem_cons_self)
    refine (ih (fun y hy => hlife y (List.mem_cons_of_mem x hy)) hfirst).mono ?_
    rintro key t ((hlast | ⟨hkey, rfl⟩) | ⟨y, hy, ht, hkey⟩)
    · exact .inl hlast
    · exact .inr ⟨x, List.mem_cons_self, rfl, hkey⟩
    · exact .inr ⟨y, List.mem_cons_of_mem x hy, ht, hkey⟩

end Dated

end Lagos.Cluster
