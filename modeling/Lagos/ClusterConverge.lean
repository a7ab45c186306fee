/-
What a cluster's shared counters amount to: no hash ever holds more than was admitted, no
replica ever takes its own requests for the others', and once everybody has published a
bucket a further sync shows each replica the cluster's total.

A publish counts for a bucket only while the bucket is the current or the previous one of
the replica that makes it: the bookkeeping carries no older bucket. The same goes for the
sync that reads the total back.
-/
import Lagos.ClusterRun

set_option autoImplicit false

open RustStd

namespace Lagos.Cluster

open Lagos.RateLimit SharedCounters Overwrite

variable {R : Type} [Fintype R] [DecidableEq R]

/-! ## Runs -/

/-- Nothing has happened. -/
def World.init : World R := ⟨fun _ => {}, fun _ => ∅⟩

/-- A sync that `r` begins in `w₀` and completes with the step to `w₃`. -/
structure Syncs (F : Type) [F64 F] (cfg : SharedConfig) (source : R → Str → Uuid)
    (w₀ w₁ w₂ w₃ : World R) (r : R) (mid : List (Event R)) : Prop where
  start : ∃ now order, w₀.step F cfg source (.start r now order) = some w₁
  run : StepRun.run (World.step F cfg source) w₁ mid = some w₂
  lasts : StepRun.Along (World.step F cfg source) (Lasts cfg) w₁ mid
  same : ∀ e ∈ mid, ∀ now order, e ≠ .start r now order
  reply : w₂.step F cfg source (.reply r) = some w₃

/-- A replica has completed a publish of the key since the last request it admitted in the
bucket. -/
def World.Published (w : World R) (r : R) (bk : BucketKey) : Prop :=
  ∃ c ∈ (w.replicas r).completed, c.publish.key = bk.key ∧
    c.counted bk.bucket = (w.replicas r).admitted bk

/-- The same, by a publish made while the bucket was the replica's current or previous one. -/
def World.PublishedInView (w : World R) (r : R) (bk : BucketKey) : Prop :=
  ∃ c ∈ (w.replicas r).completed, c.publish.key = bk.key ∧
    (bk.bucket = c.publish.bucket ∨ bk.bucket + 1 = c.publish.bucket) ∧
    c.counted bk.bucket = (w.replicas r).admitted bk

/-- The bucket is the replica's current or previous one of the key. -/
def Replica.InView (cfg : SharedConfig) (rep : Replica) (key : Str) (b : ℕ) : Prop :=
  rep.view cfg key = b ∨ rep.view cfg key = b + 1

/-- Convergence: when every replica that admitted anything in a bucket has `published` it, a
further sync of the key, begun by a replica that `sees` the bucket, leaves that replica with
the cluster's total, as a `u64`, for as long as nothing more is admitted in the bucket. -/
def Converges (F : Type) [F64 F] (cfg : SharedConfig) (source : R → Str → Uuid)
    (published : World R → R → BucketKey → Prop) (sees : Replica → Str → ℕ → Prop) : Prop :=
  ∀ (key : Str) (b : ℕ) (pre mid : List (Event R)) (w₀ w₁ w₂ w₃ : World R) (r : R),
    StepRun.run (World.step F cfg source) World.init pre = some w₀ →
    StepRun.Along (World.step F cfg source) (Lasts cfg) World.init pre →
    (∀ r', (w₀.replicas r').admitted ⟨cache_key cfg key, b⟩ = 0 ∨
      published w₀ r' ⟨cache_key cfg key, b⟩) →
    Syncs F cfg source w₀ w₁ w₂ w₃ r mid →
    (∃ f ∈ (w₁.replicas r).inflight, key ∈ f.batch.entries) →
    sees (w₁.replicas r) key b →
    (∀ r', (w₃.replicas r').admitted ⟨cache_key cfg key, b⟩ =
      (w₀.replicas r').admitted ⟨cache_key cfg key, b⟩) →
    ∀ s, (w₃.replicas r).counters.shards.lookup key = some s →
      (s.bucket = b → s.own_current + s.remote_current =
        min (w₃.total ⟨cache_key cfg key, b⟩) U64_MAX) ∧
      (s.bucket = b + 1 → s.own_previous + s.remote_previous =
        min (w₃.total ⟨cache_key cfg key, b⟩) U64_MAX)

section

variable {cfg : SharedConfig} {source : R → Str → Uuid} {F : Type} [F64 F]

theorem worldOk_init {strict : Prop} : WorldOk strict cfg source (World.init : World R) where
  store r := by
    refine ⟨?_, fun _ _ _ => rfl, ?_, ?_⟩
    · intro key s hs
      cases hs
    · intro key hk
      cases hk
    · intro f hf
      cases hf
  wire r := by
    refine ⟨?_, Coherent.of_nil ?_, ?_, ?_, ?_, ?_⟩
    · intro key f v hm
      cases hm
    · intro bk
      exact Nat.zero_le _
    · intro f hf
      cases hf
    · intro f hf
      cases hf
    · intro f hf
      cases hf
    · intro c hc
      cases hc
  writers bk s hs := absurd hs (AList.notMem_empty s)

/-- The bounds hold along every run. -/
theorem worldOk_run (hsource : ∀ key, Function.Injective fun r => source r key)
    {es : List (Event R)} {w : World R}
    (hrun : StepRun.run (World.step F cfg source) World.init es = some w) :
    WorldOk False cfg source w :=
  StepRun.run_invariant_always worldOk_init
    (fun _ _ _ h hstep => h.step hsource (fun hf => hf.elim) hstep) hrun

/-- Where hashes last, the rest of the invariant does as well. -/
theorem worldOk_run_lasts (hsource : ∀ key, Function.Injective fun r => source r key)
    {es : List (Event R)} {w : World R}
    (hrun : StepRun.run (World.step F cfg source) World.init es = some w)
    (hlasts : StepRun.Along (World.step F cfg source) (Lasts cfg) World.init es) :
    WorldOk True cfg source w :=
  StepRun.run_invariant worldOk_init
    (fun _ _ _ h hl hstep => h.step hsource (fun _ => hl) hstep) hrun hlasts

/-! ## No subtraction wraps -/

/-- The subtractions that `apply` makes for one line. -/
def subtractions (s : Shard) (p : Publish) (t : Totals) : List (ℕ × ℕ) :=
  if s.source ≠ p.source then []
  else if s.bucket = saturating_add_u64 p.bucket 1 then [(t.current, p.own_current)]
  else if s.bucket ≠ p.bucket then []
  else [(t.current, p.own_current), (t.previous, p.own_previous)]

/-- The others' counts after a line are the results of these subtractions, where there are any. -/
theorem apply_remote (s : Shard) (p : Publish) (t : Totals) :
    match subtractions s p t with
    | [c, d] => (s.apply p t).remote_current = c.1 - c.2 ∧ (s.apply p t).remote_previous = d.1 - d.2
    | [c] => (s.apply p t).remote_current = s.remote_current
        ∧ (s.apply p t).remote_previous = c.1 - c.2
    | _ => s.apply p t = s := by
  unfold subtractions Shard.apply
  by_cases h1 : s.source ≠ p.source
  · rw [if_pos h1, if_pos h1]
  · rw [if_neg h1, if_neg h1]
    by_cases h2 : s.bucket = saturating_add_u64 p.bucket 1
    · rw [if_pos h2, if_pos h2]
      exact ⟨rfl, rfl⟩
    · rw [if_neg h2, if_neg h2]
      by_cases h3 : s.bucket ≠ p.bucket
      · rw [if_pos h3, if_pos h3]
      · rw [if_neg h3, if_neg h3]
        exact ⟨rfl, rfl⟩

/-- A line of an answer that is used is used as it was sent: its totals hold its own part. -/
theorem WorldOk.no_wrap {w : World R} (h : WorldOk True cfg source w) {r : R} {f : Inflight}
    (hf : (w.replicas r).inflight = some f) (hawaited : f.awaited = []) {totals : List Totals}
    (ht : totals_of f.batch.publishes f.replies = some totals) {line : (Publish × Str) × Totals}
    (hline : line ∈ (f.batch.publishes.zip f.batch.entries).zip totals) {s : Shard}
    (hs : (w.replicas r).counters.shards.lookup line.1.2 = some s) :
    ∀ x ∈ subtractions s line.1.1 line.2, x.2 ≤ x.1 := by
  obtain ⟨⟨hkey, hp⟩, current, previous, hcurrent, hprevious, htotals⟩ :=
    forall₂_zip_zip ((h.wire r).lines f hf) ((h.wire r).lines_answered hf hawaited ht) line hline
  generalize line.1.1 = p at *
  generalize line.1.2 = key at *
  generalize line.2 = t at *
  subst htotals
  have hview : (w.replicas r).view cfg key = s.bucket := by
    unfold Replica.view
    rw [hs]
  have hlive : ∀ b, s.bucket < b + 2 → w.live True cfg ⟨p.key, b⟩ := by
    intro b hb
    refine ⟨trivial, key, hkey, fun hpassed => ?_⟩
    have := hpassed r
    simp only at this
    omega
  have hbound : ∀ {b reply own}, ReplyOk (w.live True cfg) (w.replicas r).sent
      (w.field source r) (w.others r) ⟨p.key, b⟩ reply → s.bucket < b + 2 →
      own = min (f.counted ⟨p.key, b⟩) U64_MAX → own ≤ total_of reply := by
    rintro b reply own ⟨mine, rest, hsum, hown, -, -⟩ hb rfl
    have hmine := hown.2 (hlive b hb)
    simp only [Replica.sent, hf] at hmine
    rw [total_of_eq]
    omega
  have hlt := hp.bucket_lt
  intro x hx
  unfold subtractions at hx
  split at hx
  · cases hx
  · split at hx
    · rename_i hb
      rw [saturating_add_u64] at hb
      rw [List.mem_singleton.mp hx]
      exact hbound hcurrent (by omega) hp.own_current
    · split at hx
      · cases hx
      · rename_i hb
        rw [not_not] at hb
        rcases List.mem_cons.mp hx with rfl | hx
        · exact hbound hcurrent (by omega) hp.own_current
        · rw [List.mem_singleton.mp hx]
          have hprev := hp.own_previous
          cases hb0 : p.bucket with
          | zero =>
            rw [hb0] at hprev
            simp only [before, Nat.zero_min] at hprev
            rw [hprev]
            exact Nat.zero_le _
          | succ b =>
            rw [hb0] at hprevious hprev
            simp only [Nat.succ_ne_zero, if_false]
            exact hbound hprevious (by omega) hprev

/-! ## Convergence -/

/-- What a further sync of `r` finds while nothing more is admitted in a bucket: every field
holds the whole count `n` of its replica, and a reply read from the bucket is the total. -/
structure Settling (source : R → Str → Uuid) (r : R) (bk : BucketKey) (n : R → ℕ) (batch : Batch)
    (counted : BucketKey → ℕ) (w : World R) : Prop where
  field : ∀ r', w.field source r' bk = min (n r') U64_MAX
  inflight : (w.replicas r).inflight = none ∨ ∃ f, (w.replicas r).inflight = some f ∧
    f.batch = batch ∧ f.counted = counted ∧
    Answered (fun bk' reply => bk' = bk → total_of reply = min (∑ r', n r') U64_MAX) f

omit [DecidableEq R] in
/-- A sum of counts, each cut off, is cut off where the sum is. -/
theorem min_sum_min (n : R → ℕ) (m : ℕ) : min (∑ r, min (n r) m) m = min (∑ r, n r) m := by
  by_cases h : ∃ r, m < n r
  · obtain ⟨r, hr⟩ := h
    have h1 : min (n r) m ≤ ∑ r, min (n r) m :=
      Finset.single_le_sum (f := fun r => min (n r) m) (fun _ _ => Nat.zero_le _)
        (Finset.mem_univ r)
    have h2 : n r ≤ ∑ r, n r :=
      Finset.single_le_sum (fun _ _ => Nat.zero_le _) (Finset.mem_univ r)
    omega
  · have : ∀ r, min (n r) m = n r := by
      intro r
      exact Nat.min_eq_left (Nat.le_of_not_lt fun hr => h ⟨r, hr⟩)
    simp only [this]

/-- The fields of a bucket in which nothing more is admitted stay as they are. -/
theorem Settling.step {w w' : World R} {r : R} {bk : BucketKey} {n : R → ℕ} {batch : Batch}
    {counted : BucketKey → ℕ} {e : Event R} (h : Settling source r bk n batch counted w)
    (hw : WorldOk True cfg source w) (hw' : WorldOk True cfg source w')
    (hsource : ∀ key, Function.Injective fun r => source r key)
    (hadmitted : ∀ r', (w'.replicas r').admitted bk = n r')
    (hexpire : ∀ key b, e = .expire key b → bk ≠ ⟨cache_key cfg key, b⟩)
    (hsame : ∀ now order, e ≠ .start r now order) (hstep : w.step F cfg source e = some w') :
    Settling source r bk n batch counted w' := by
  refine ⟨?_, ?_⟩
  · intro r'
    have hle := field_le_step hw hsource hexpire hstep r'
    have hge := (hw'.wire r').field_le bk
    rw [Replica.count, hadmitted] at hge
    rw [h.field] at hle
    omega
  · rcases inflight_step hsame hstep with heq | hnone | ⟨f, cmd, awaited, hf, hawaited, heq⟩
    · rw [heq]
      exact h.inflight
    · exact .inl hnone
    · rcases h.inflight with hn | ⟨g, hg, hbatch, hcounted, hanswered⟩
      · rw [hf] at hn
        cases hn
      · obtain rfl := Option.some.inj (hf.symm.trans hg)
        refine .inr ⟨_, heq, hbatch, hcounted, hanswered.exec hawaited ?_⟩
        rintro key - rfl
        rw [total_of_eq, hw.sum_hash hsource]
        simp only [h.field]
        exact min_sum_min n U64_MAX

/-- One line of such a sync, applied. -/
theorem apply_exact {s : Shard} {p : Publish} {t : Totals} {b n total : ℕ}
    (hsource : s.source = p.source) (hlt : p.bucket + 2 < U64_MAX)
    (hp : p.bucket = b ∨ p.bucket = b + 1) (hle : p.bucket ≤ s.bucket) (hn : n ≤ total)
    (hcurrent : p.bucket = b → p.own_current = n ∧ t.current = total)
    (hprevious : p.bucket = b + 1 → p.own_previous = n ∧ t.previous = total)
    (hown : s.bucket = b → s.own_current = n) (hown' : s.bucket = b + 1 → s.own_previous = n) :
    (s.bucket = b → (s.apply p t).own_current + (s.apply p t).remote_current = total) ∧
      (s.bucket = b + 1 → (s.apply p t).own_previous + (s.apply p t).remote_previous = total) := by
  have hsat : saturating_add_u64 p.bucket 1 = p.bucket + 1 := by
    rw [saturating_add_u64]
    omega
  unfold Shard.apply
  rw [if_neg (not_not.mpr hsource), hsat]
  refine ⟨?_, ?_⟩
  · intro hs
    obtain ⟨hpn, ht⟩ := hcurrent (by omega)
    rw [if_neg (by omega), if_neg (by omega)]
    simp only [hown hs, hpn, ht]
    omega
  · intro hs
    rcases hp with hp | hp
    · obtain ⟨hpn, ht⟩ := hcurrent hp
      rw [if_pos (by omega)]
      simp only [hown' hs, hpn, ht]
      omega
    · obtain ⟨hpn, ht⟩ := hprevious hp
      rw [if_neg (by omega), if_neg (by omega)]
      simp only [hown' hs, hpn, ht]
      omega

/-- What was published while a bucket was in view is in the backend as long as some replica may
still see the bucket. -/
theorem WorldOk.field_of_published {w : World R} (h : WorldOk True cfg source w) {key : Str}
    {b : ℕ} (hview : ¬ w.Passed cfg key b) {r : R}
    (hpub : (w.replicas r).admitted ⟨cache_key cfg key, b⟩ = 0 ∨
      w.PublishedInView r ⟨cache_key cfg key, b⟩) :
    w.field source r ⟨cache_key cfg key, b⟩ =
      min ((w.replicas r).admitted ⟨cache_key cfg key, b⟩) U64_MAX := by
  have hle := (h.wire r).field_le ⟨cache_key cfg key, b⟩
  unfold Replica.count at hle
  rcases hpub with h0 | ⟨c, hc, hkey, hb, hcounted⟩
  · omega
  · have hge := (h.wire r).completed c hc b hb ⟨trivial, key, hkey, hview⟩
    rw [hkey, hcounted] at hge
    simp only at hge
    omega

/-- The key of some line is any key of the batch. -/
theorem exists_line {publishes : List Publish} {entries : List Str} {totals : List Totals}
    (he : publishes.length = entries.length) (ht : publishes.length = totals.length) {key : Str}
    (hkey : key ∈ entries) : ∃ line ∈ (publishes.zip entries).zip totals, line.1.2 = key := by
  have hkeys : (((publishes.zip entries).zip totals).map Prod.fst).map Prod.snd = entries := by
    rw [List.map_fst_zip (by rw [List.length_zip]; omega), List.map_snd_zip (by omega)]
  rw [← hkeys, List.map_map] at hkey
  obtain ⟨line, hline, rfl⟩ := List.mem_map.mp hkey
  exact ⟨line, hline, rfl⟩

/-- The answer that a sync gets while the bucket is in view. -/
theorem Settling.answer {w : World R} {r : R} {key : Str} {b : ℕ} {n : R → ℕ} {f : Inflight}
    {totals : List Totals} {view : ℕ}
    (h : Settling source r ⟨cache_key cfg key, b⟩ n f.batch f.counted w)
    (hw : WorldOk True cfg source w) (hf : (w.replicas r).inflight = some f)
    (hdone : f.awaited = []) (ht : totals_of f.batch.publishes f.replies = some totals)
    (hcounted : f.counted ⟨cache_key cfg key, b⟩ = n r)
    (hadmitted : (w.replicas r).admitted ⟨cache_key cfg key, b⟩ = n r)
    (hkey : key ∈ f.batch.entries) (hview : view = b ∨ view = b + 1)
    (hbuckets : ∀ line ∈ f.batch.publishes.zip f.batch.entries, line.2 = key →
      line.1.bucket = view)
    {s₀ : Shard} (hs₀ : (w.replicas r).counters.shards.lookup key = some s₀)
    (hle : view ≤ s₀.bucket) {s : Shard}
    (hs : ((w.replicas r).finish f totals).counters.shards.lookup key = some s) :
    (s.bucket = b → s.own_current + s.remote_current = min (∑ r', n r') U64_MAX) ∧
      (s.bucket = b + 1 → s.own_previous + s.remote_previous = min (∑ r', n r') U64_MAX) := by
  have hlines := (hw.wire r).lines f hf
  have hlen := ((hw.wire r).lines_answered hf hdone ht).length_eq
  obtain ⟨hok, -⟩ := (hw.store r).shards key s₀ hs₀
  rw [StoreOk.lookup_finish, hs₀, Option.map_some, if_neg (not_not.mpr hlen),
    Option.some.injEq] at hs
  subst hs
  rcases h.inflight with hn | ⟨g, hg, -, -, hanswered⟩
  · rw [hf] at hn
    cases hn
  obtain rfl := Option.some.inj (hf.symm.trans hg)
  have hle_total : min (n r) U64_MAX ≤ min (∑ r', n r') U64_MAX := by
    have : n r ≤ ∑ r', n r' :=
      Finset.single_le_sum (fun _ _ => Nat.zero_le _) (Finset.mem_univ r)
    omega
  refine StoreOk.lines_establish (P := fun s => s.source = s₀.source ∧ s.bucket = s₀.bucket ∧
      s.own_current = s₀.own_current ∧ s.own_previous = s₀.own_previous)
    (Q := fun s => (s.bucket = b → s.own_current + s.remote_current = _) ∧
      (s.bucket = b + 1 → s.own_previous + s.remote_previous = _)) ⟨rfl, rfl, rfl, rfl⟩ ?_
    (exists_line hlines.length_eq hlen hkey)
  rintro line hline rfl s ⟨hsource, hbucket, hcurrent, hprevious⟩
  obtain ⟨hown, hown', hown''⟩ := s.apply_own line.1.1 line.2
  refine ⟨⟨hown.trans hsource, (Shard.apply_bucket s _ _).trans hbucket, hown'.trans hcurrent,
    hown''.trans hprevious⟩, ?_⟩
  obtain ⟨⟨hpkey, hp⟩, c, d, hc, hd, htotals⟩ :=
    forall₂_zip_zip hlines (hanswered.totals hdone ht) line hline
  have hpb := hbuckets line.1 (List.of_mem_zip hline).1 rfl
  rw [Shard.apply_bucket]
  refine apply_exact (n := min (n r) U64_MAX) ?_ hp.bucket_lt (by omega) (by omega) hle_total
    ?_ ?_ ?_ ?_
  · rw [hsource, hok.source_eq, hp.source_eq, hpkey]
  · intro hb
    rw [hp.own_current, hb, htotals, hpkey]
    refine ⟨by rw [hcounted], hc ?_⟩
    rw [hb, hpkey]
  · intro hb
    rw [hp.own_previous, hb, htotals, hpkey]
    simp only [before, hb, Nat.succ_ne_zero, if_false]
    refine ⟨by rw [hcounted], hd ?_⟩
    rw [hb, hpkey]
    rfl
  · intro hb
    rw [hcurrent, hok.own_current, ← hbucket, hb, hadmitted]
  · intro hb
    rw [hprevious, hok.own_previous, ← hbucket, hb, before, hadmitted]

/-- What holds of the cluster while a further sync of `r` is under way: until the replica has
left the bucket behind, and unless more is admitted, the sync finds what it found when it
began, in `w₁`. -/
structure UnderWay (cfg : SharedConfig) (source : R → Str → Uuid) (r : R) (key : Str) (b : ℕ)
    (n : R → ℕ) (f : Inflight) (w₁ w : World R) : Prop where
  ok : WorldOk True cfg source w
  admitted_ge : ∀ r', n r' ≤ (w.replicas r').admitted ⟨cache_key cfg key, b⟩
  view_ge : (w₁.replicas r).view cfg key ≤ (w.replicas r).view cfg key
  settling : (∀ r', (w.replicas r').admitted ⟨cache_key cfg key, b⟩ = n r') →
    b + 2 ≤ (w.replicas r).view cfg key ∨
      Settling source r ⟨cache_key cfg key, b⟩ n f.batch f.counted w

theorem UnderWay.step {r : R} {key : Str} {b : ℕ} {n : R → ℕ} {f : Inflight}
    {w₁ w w' : World R} {e : Event R} (h : UnderWay cfg source r key b n f w₁ w)
    (hsource : ∀ key, Function.Injective fun r => source r key) (hlasts : Lasts cfg w e)
    (hsame : ∀ now order, e ≠ .start r now order) (hstep : w.step F cfg source e = some w') :
    UnderWay cfg source r key b n f w₁ w' := by
  have hw' := h.ok.step hsource (fun _ => hlasts) hstep
  have hgrows := grows_step hstep
  refine ⟨hw', fun r' => Nat.le_trans (h.admitted_ge r') ((hgrows r').admitted _),
    Nat.le_trans h.view_ge ((hgrows r).view key), ?_⟩
  intro hadm'
  have hadm : ∀ r', (w.replicas r').admitted ⟨cache_key cfg key, b⟩ = n r' := by
    intro r'
    have h1 := h.admitted_ge r'
    have h2 := (hgrows r').admitted ⟨cache_key cfg key, b⟩
    have h3 := hadm' r'
    omega
  rcases h.settling hadm with hgone | hsettled
  · exact .inl (Nat.le_trans hgone ((hgrows r).view key))
  · by_cases he : e = .expire key b
    · -- The hash expires only when this replica has left the bucket behind as well.
      rw [he] at hlasts
      exact .inl (Nat.le_trans (hlasts r) ((hgrows r).view key))
    · refine .inr (hsettled.step h.ok hw' hsource hadm' ?_ hsame hstep)
      rintro key' b' rfl heq
      obtain ⟨hk, rfl⟩ := BucketKey.mk.inj heq
      exact he (by rw [List.append_cancel_left hk])

/-- A sync that begins where every replica has published the bucket is under way. -/
theorem UnderWay.start {r : R} {key : Str} {b : ℕ} {n : R → ℕ} {w₀ w₁ : World R}
    (hw₀ : WorldOk True cfg source w₀) (hw₁ : WorldOk True cfg source w₁)
    (hpassed : ¬ w₀.Passed cfg key b)
    (hpub : ∀ r', (w₀.replicas r').admitted ⟨cache_key cfg key, b⟩ = 0 ∨
      w₀.PublishedInView r' ⟨cache_key cfg key, b⟩)
    (hadm : ∀ r', (w₀.replicas r').admitted ⟨cache_key cfg key, b⟩ = n r')
    {now : SystemTime} {order : List Str}
    (hw₁_eq : w₁ = w₀.set r ((w₀.replicas r).start cfg now order)) {f : Inflight}
    (hf : (w₁.replicas r).inflight = some f) (hawaited : f.awaited = pipeline f.batch.publishes)
    (hreplies : f.replies = []) : UnderWay cfg source r key b n f w₁ w₁ := by
  have hadm₁ : ∀ r', (w₁.replicas r').admitted ⟨cache_key cfg key, b⟩ = n r' := by
    intro r'
    rw [hw₁_eq, ← hadm]
    by_cases hr : r' = r
    · rw [hr, World.set_self]
      rfl
    · rw [World.set_other _ hr]
  refine ⟨hw₁, fun r' => Nat.le_of_eq (hadm₁ r').symm, Nat.le_refl _, ?_⟩
  intro _
  refine .inr ⟨?_, .inr ⟨f, hf, rfl, rfl, .start f hawaited hreplies⟩⟩
  intro r'
  rw [hw₁_eq, ← hadm]
  exact hw₀.field_of_published hpassed (hpub r')

omit [Fintype R] in
/-- An answer admits nothing. -/
theorem World.admitted_finish (w : World R) (r : R) (f : Inflight) (totals : List Totals)
    (r' : R) : ((w.set r ((w.replicas r).finish f totals)).replicas r').admitted
      = (w.replicas r').admitted := by
  by_cases hr : r' = r
  · rw [hr, World.set_self]
    rfl
  · rw [World.set_other _ hr]

omit [DecidableEq R] in
/-- The sync that is answered is the one that was followed. -/
theorem Settling.inflight_eq {w : World R} {r : R} {bk : BucketKey} {n : R → ℕ} {batch : Batch}
    {counted : BucketKey → ℕ} {f : Inflight} (h : Settling source r bk n batch counted w)
    (hf : (w.replicas r).inflight = some f) : f.batch = batch ∧ f.counted = counted := by
  rcases h.inflight with hnone | ⟨g, hg, hbatch, hcounted, -⟩
  · rw [hf] at hnone
    cases hnone
  · obtain rfl := Option.some.inj (hf.symm.trans hg)
    exact ⟨hbatch, hcounted⟩

/-- **Convergence.** Once every replica has published a bucket while it saw it, a further sync
that sees the bucket brings the cluster's total. -/
theorem converges_in_view (hsource : ∀ key, Function.Injective fun r => source r key) :
    Converges F cfg source World.PublishedInView (Replica.InView cfg) := by
  intro key b pre mid w₀ w₁ w₂ w₃ r hpre hlasts hpub hsync hentry hsees hadm s hs
  generalize hn : (fun r' => (w₀.replicas r').admitted ⟨cache_key cfg key, b⟩) = n
  have hn' : ∀ r', (w₀.replicas r').admitted ⟨cache_key cfg key, b⟩ = n r' := by
    intro r'
    rw [← hn]
  have hw₀ := worldOk_run_lasts hsource hpre hlasts
  obtain ⟨now, order, hstart⟩ := hsync.start
  have hw₁ := hw₀.step hsource (e := .start r now order) (fun _ => trivial) hstart
  obtain ⟨f₁, hf₁, hkey₁⟩ := hentry
  have hpassed : ¬ w₀.Passed cfg key b := by
    intro hp
    have hle := (grows_step hstart r).view key
    have := hp r
    rcases hsees with hv | hv <;> omega
  obtain ⟨⟨hread, hidle, hperm⟩, hw₁_eq⟩ := StepRun.eq_of_guarded hstart
  have hself : w₁.replicas r = (w₀.replicas r).start cfg now order := by
    rw [hw₁_eq, World.set_self]
  obtain ⟨hcounted, hawaited, hreplies, hbuckets⟩ := WireOk.start_batch (hw₀.store r)
    (fun k hk => AList.mem_keys.mpr (hperm.mem_iff.mp hk)) (hself ▸ hf₁)
  rw [← hself] at hbuckets
  have hbegun : UnderWay cfg source r key b n f₁ w₁ w₁ :=
    .start hw₀ hw₁ hpassed hpub hn' hw₁_eq hf₁ hawaited hreplies
  have hend : UnderWay cfg source r key b n f₁ w₁ w₂ :=
    StepRun.run_invariant hbegun
      (fun _ _ _ h hok hstep => h.step hsource hok.1 hok.2 hstep) hsync.run
      (hsync.lasts.and_forall hsync.same)
  obtain ⟨f, totals, hf, -, hdone, ht, rfl⟩ := World.reply_cases hsync.reply
  have hadm₂ : ∀ r', (w₂.replicas r').admitted ⟨cache_key cfg key, b⟩ = n r' := by
    intro r'
    rw [← w₂.admitted_finish r f totals r', hadm r', hn']
  have htotal : World.total (w₂.set r ((w₂.replicas r).finish f totals)) ⟨cache_key cfg key, b⟩
      = ∑ r', n r' := by
    refine Finset.sum_congr rfl ?_
    intro r' _
    rw [hadm r', hn']
  rw [World.set_self] at hs
  rw [htotal]
  have hview_eq := @StoreOk.view_finish cfg (w₂.replicas r) f totals key
  have hv : ((w₂.replicas r).finish f totals).view cfg key = s.bucket := by
    unfold Replica.view
    rw [hs]
  have hge := hend.view_ge
  rcases hend.settling hadm₂ with hgone | hsettled
  · -- The replica has gone past the bucket, and sees it no longer.
    refine ⟨?_, ?_⟩
    · intro hb
      omega
    · intro hb
      omega
  · obtain ⟨hbatch, hcounted'⟩ := hsettled.inflight_eq hf
    rw [← hbatch, ← hcounted'] at hsettled
    obtain ⟨s₀, hs₀⟩ : ∃ s₀, (w₂.replicas r).counters.shards.lookup key = some s₀ := by
      rw [StoreOk.lookup_finish] at hs
      obtain ⟨s₀, hs₀, -⟩ := Option.map_eq_some_iff.mp hs
      exact ⟨s₀, hs₀⟩
    refine hsettled.answer hend.ok hf hdone ht ?_ (hadm₂ r) (hbatch ▸ hkey₁) hsees ?_ hs₀ ?_ hs
    · rw [hcounted', hcounted, hn']
    · rintro line hline rfl
      rw [hbatch] at hline
      exact hbuckets line hline
    · unfold Replica.view at hge
      rw [hs₀] at hge
      exact hge

end

/-! ## A pair of replicas, and a publish that comes too late -/

instance (w : World R) (r : R) (bk : BucketKey) : Decidable (w.Published r bk) :=
  inferInstanceAs (Decidable (∃ c ∈ _, _))

instance (w : World R) (r : R) (bk : BucketKey) : Decidable (w.PublishedInView r bk) :=
  inferInstanceAs (Decidable (∃ c ∈ _, _))

namespace Pair

/-- One second, ten requests. -/
def cfg : SharedConfig := ⟨[], NANOS_PER_SEC, 10, 10, Nat.le_refl _⟩

/-- Two replicas, each with its own identifier. -/
def source (r : Bool) (_ : Str) : Uuid := if r then 1 else 0

theorem source_injective (key : Str) : Function.Injective fun r => source r key := by
  intro r r' h
  cases r <;> cases r' <;> first | rfl | cases h

/-- Some second after the epoch. -/
def second (n : Fin 10) : SystemTime := ⟨n * 1000000000, by omega⟩

/-- Both replicas admit a request in bucket 0 and complete a sync after it, the one while its
clock is in the bucket, the other at second `n` by a pipeline of so many `commands`. -/
def before_sync (n : Fin 10) (commands : ℕ) : List (Event Bool) :=
  [.check false ['k'] (second 0), .check true ['k'] (second 0), .start true (second 0) [['k']]]
    ++ List.replicate 5 (.execute true) ++ [.reply true, .start false (second n) [['k']]]
    ++ List.replicate commands (.execute false) ++ [.reply false]

/-- The first replica, whose clock is still in bucket 0, syncs once more. -/
def sync : Event Bool := .start true (second 0) [['k']]

def answer : List (Event Bool) := List.replicate 5 (.execute true)

/-- A run of the pair. -/
abbrev run (es : List (Event Bool)) : Option (World Bool) :=
  StepRun.run (World.step ℚ cfg source) World.init es

/-- Nothing expires in it. -/
theorem lasts (n : Fin 10) (commands : ℕ) :
    StepRun.Along (World.step ℚ cfg source) (Lasts cfg) World.init (before_sync n commands) := by
  refine StepRun.along_of_forall ?_
  intro e he w
  simp only [before_sync, List.cons_append, List.nil_append, List.mem_cons, List.mem_append,
    List.mem_replicate, List.not_mem_nil, or_false] at he
  rcases he with rfl | rfl | rfl | ((⟨-, rfl⟩ | rfl | rfl) | ⟨-, rfl⟩) | rfl <;> trivial

/-- The states of a run that goes through. -/
theorem states {n : Fin 10} {commands : ℕ}
    (h : (run (before_sync n commands ++ (sync :: answer) ++ [.reply true])).isSome) :
    ∃ w₀ w₁ w₂ w₃, run (before_sync n commands) = some w₀ ∧
      run (before_sync n commands ++ [sync]) = some w₁ ∧
      run (before_sync n commands ++ (sync :: answer) ++ [.reply true]) = some w₃ ∧
      Syncs ℚ cfg source w₀ w₁ w₂ w₃ true answer := by
  obtain ⟨w₃, h₃⟩ := Option.isSome_iff_exists.mp h
  obtain ⟨w₂, h₂, hreply⟩ := StepRun.run_concat.mp h₃
  rw [StepRun.run_append] at h₂
  obtain ⟨w₀, h₀, hsync⟩ := Option.bind_eq_some_iff.mp h₂
  obtain ⟨w₁, h₁, hanswer⟩ := Option.bind_eq_some_iff.mp hsync
  refine ⟨w₀, w₁, w₂, w₃, h₀, StepRun.run_concat.mpr ⟨w₀, h₀, h₁⟩, h₃, ⟨_, _, h₁⟩, hanswer, ?_,
    ?_, hreply⟩
  · refine StepRun.along_of_forall ?_
    intro e he w
    rw [(List.mem_replicate.mp he).2]
    trivial
  · intro e he now order
    rw [(List.mem_replicate.mp he).2]
    intro hc
    cases hc

end Pair

end Lagos.Cluster
