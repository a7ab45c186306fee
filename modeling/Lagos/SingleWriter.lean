/-
A cluster of one replica: the backend is transparent to it.

Whatever becomes of its syncs, everything the replica reads back is its own, so what it
holds of the others stays zero and every decision is the one it would make with no backend
at all. A sync rolls the shards it takes, which requests alone would not; `Ahead` says that
this is all it does, and rolling on the way to a later bucket changes nothing.
-/
import Lagos.ClusterConverge
import Mathlib.Data.Option.Basic

set_option autoImplicit false

open RustStd

namespace Lagos.Cluster

open Lagos.RateLimit SharedCounters

section

variable (F : Type) [F64 F] (cfg : SharedConfig) (source : Unit → Str → Uuid)

/-- The run with no backend: the requests alone, and what was decided. -/
def alone (state : SharedCounters × List Decision) : Event Unit → SharedCounters × List Decision
  | .check r key now =>
    let (counters, decision) :=
      state.1.check_at cfg F (source r (cache_key cfg key)) key now
    (counters, state.2 ++ [decision])
  | _ => state

end

/-- A shard that differs from `s` by having been rolled on. -/
def RolledOn (s s' : Shard) : Prop := s.bucket ≤ s'.bucket ∧ s' = s.roll_to s'.bucket

/-- A store whose shards differ from those of `c` by having been rolled on. -/
def Ahead (c c' : SharedCounters) : Prop :=
  ∀ key, Option.Rel RolledOn (c.shards.lookup key) (c'.shards.lookup key)

variable {F : Type} [F64 F] {cfg : SharedConfig} {source : Unit → Str → Uuid}

/-- Nobody else is there. -/
theorem others_eq_zero (w : World Unit) (r : Unit) (bk : BucketKey) : w.others r bk = 0 := by
  refine Finset.sum_eq_zero ?_
  intro r' hr'
  exact absurd rfl (Finset.ne_of_mem_erase hr')

/-- **Nothing is ever taken for another replica's.** -/
theorem WorldOk.remote_eq_zero {w : World Unit} (h : WorldOk False cfg source w) {r : Unit}
    {key : Str} {s : Shard} (hs : (w.replicas r).counters.shards.lookup key = some s) :
    s.remote_current = 0 ∧ s.remote_previous = 0 := by
  obtain ⟨hok, -⟩ := (h.store r).shards key s hs
  have hcurrent := hok.remote_current
  have hprevious := hok.remote_previous
  simp only [others_eq_zero] at hcurrent hprevious
  refine ⟨Nat.le_zero.mp hcurrent, Nat.le_zero.mp ?_⟩
  cases hb : s.bucket with
  | zero =>
    rw [hb] at hprevious
    exact hprevious
  | succ b =>
    rw [hb] at hprevious
    exact hprevious

/-! ## Rolling on -/

theorem RolledOn.refl (s : Shard) : RolledOn s s :=
  ⟨Nat.le_refl _, (Shard.roll_to_of_le (Nat.le_refl _)).symm⟩

/-- Rolled to the same later bucket, the two are the same. -/
theorem RolledOn.roll_to_eq {s s' : Shard} (h : RolledOn s s') {b : ℕ} (hb : s'.bucket ≤ b)
    (hlt : s'.bucket < U64_MAX) : s'.roll_to b = s.roll_to b := by
  rw [h.2, Shard.roll_to_roll_to hb hlt]

theorem RolledOn.roll_to {s s' : Shard} (h : RolledOn s s') (b : ℕ) (hlt : s'.bucket < U64_MAX) :
    RolledOn s (s'.roll_to b) := by
  by_cases hb : b ≤ s'.bucket
  · rw [Shard.roll_to_of_le hb]
    exact h
  · refine ⟨?_, ?_⟩
    · rw [Shard.roll_to_bucket]
      exact Nat.le_trans h.1 (Nat.le_max_left _ _)
    · rw [Shard.roll_to_bucket, Nat.max_eq_right (by omega)]
      exact h.roll_to_eq (by omega) hlt

/-- A request in a bucket that neither has passed is decided the same. -/
theorem RolledOn.check {s s' : Shard} (h : RolledOn s s') {b : ℕ} (hb : s'.bucket ≤ b)
    (hlt : s'.bucket < U64_MAX) (progress : F) (limit : ℕ) (interval : Duration) :
    s'.check F b progress limit interval = s.check F b progress limit interval := by
  unfold Shard.check
  rw [h.roll_to_eq hb hlt]

namespace Ahead

variable {c c' : SharedCounters}

theorem lookup_none (h : Ahead c c') {key : Str} (hk : c'.shards.lookup key = none) :
    c.shards.lookup key = none := by
  have := h key
  rw [hk] at this
  cases hc : c.shards.lookup key with
  | none => rfl
  | some s =>
    rw [hc] at this
    cases this

theorem lookup_some (h : Ahead c c') {key : Str} {s' : Shard}
    (hk : c'.shards.lookup key = some s') :
    ∃ s, c.shards.lookup key = some s ∧ RolledOn s s' := by
  have := h key
  rw [hk] at this
  cases hc : c.shards.lookup key with
  | none =>
    rw [hc] at this
    cases this
  | some s =>
    rw [hc] at this
    cases this with
    | some hr => exact ⟨s, rfl, hr⟩

/-- A store in which every shard is what it was, rolled on. -/
theorem of_lookup (h : Ahead c c') {c'' : SharedCounters}
    (hlookup : ∀ key, Option.Rel RolledOn (c'.shards.lookup key) (c''.shards.lookup key))
    (hlt : ∀ key s, c''.shards.lookup key = some s → s.bucket < U64_MAX) : Ahead c c'' := by
  intro key
  have h2 := hlookup key
  cases hk'' : c''.shards.lookup key with
  | none =>
    rw [hk''] at h2
    cases hk' : c'.shards.lookup key with
    | none =>
      rw [h.lookup_none hk']
      exact .none
    | some s' =>
      rw [hk'] at h2
      cases h2
  | some s'' =>
    rw [hk''] at h2
    cases hk' : c'.shards.lookup key with
    | none =>
      rw [hk'] at h2
      cases h2
    | some s' =>
      rw [hk'] at h2
      obtain ⟨s, hs, hr⟩ := h.lookup_some hk'
      rw [hs]
      cases h2 with
      | some hr' =>
        have hb := hlt key s'' hk''
        refine .some ⟨Nat.le_trans hr.1 hr'.1, ?_⟩
        exact hr'.2.trans (hr.roll_to_eq hr'.1 (Nat.lt_of_le_of_lt hr'.1 hb))

end Ahead

/-! ## The run with a backend and the run without -/

/-- The run with no backend, next to the cluster of one. -/
structure Tracks (cfg : SharedConfig) (source : Unit → Str → Uuid)
    (state : SharedCounters × List Decision) (w : World Unit) : Prop where
  ok : WorldOk False cfg source w
  ahead : Ahead state.1 (w.replicas ()).counters
  decisions : state.2 = (w.replicas ()).decisions

theorem tracks_init : Tracks cfg source ({}, []) World.init where
  ok := worldOk_init
  ahead _ := .none
  decisions := rfl

namespace Tracks

variable {state : SharedCounters × List Decision} {w w' : World Unit}

theorem bucket_lt (h : WorldOk False cfg source w) {r : Unit} {key : Str} {s : Shard}
    (hs : (w.replicas r).counters.shards.lookup key = some s) : s.bucket < U64_MAX := by
  have := ((h.store r).shards key s hs).1.bucket_lt
  omega

/-- A request is decided the same with a backend and without. -/
theorem check (h : Tracks cfg source state w) (key : Str) {now : SystemTime}
    (hread : (w.replicas ()).may_read now)
    (hok : WorldOk False cfg source
      (w.set () ((w.replicas ()).check F cfg (source () (cache_key cfg key)) key now))) :
    Tracks cfg source (alone F cfg source state (.check () key now))
      (w.set () ((w.replicas ()).check F cfg (source () (cache_key cfg key)) key now)) := by
  have hnow := @StoreOk.now_le_of_may_read cfg _ _ hread
  cases hb : bucket_at now cfg.interval with
  | none =>
    refine ⟨hok, ?_, ?_⟩
    · rw [World.set_self]
      simp only [alone, Replica.check, check_at_of_none hb]
      exact h.ahead
    · rw [World.set_self]
      simp only [alone, Replica.check, check_at_of_none hb, h.decisions]
  | some b =>
    have hclock : clock_bucket now cfg.interval = b := clock_bucket_of_some hb
    have hcheck : ((w.replicas ()).counters.shards.lookup key |>.getD
          { source := source () (cache_key cfg key) }).check F b (progress_at F now cfg.interval)
          cfg.limit cfg.interval =
        (state.1.shards.lookup key |>.getD { source := source () (cache_key cfg key) }).check F b
          (progress_at F now cfg.interval) cfg.limit cfg.interval := by
      cases hs : (w.replicas ()).counters.shards.lookup key with
      | none => rw [h.ahead.lookup_none hs]
      | some s' =>
        obtain ⟨s, hs₀, hr⟩ := h.ahead.lookup_some hs
        obtain ⟨-, hle⟩ := (h.ok.store ()).shards key s' hs
        rw [hs₀, Option.getD_some, Option.getD_some]
        exact hr.check (by omega) (bucket_lt h.ok hs) _ _ _
    refine ⟨hok, ?_, ?_⟩
    · rw [World.set_self]
      simp only [alone, Replica.check, check_at_of_some hb, hcheck]
      intro k
      by_cases hk : k = key
      · rw [hk, AList.lookup_insert, AList.lookup_insert]
        exact .some (RolledOn.refl _)
      · rw [AList.lookup_insert_ne hk, AList.lookup_insert_ne hk]
        exact h.ahead k
    · rw [World.set_self]
      simp only [alone, Replica.check, check_at_of_some hb, hcheck, h.decisions]

/-- A store that keeps its shards, or rolls them on, stays ahead. -/
theorem of_lookup (h : Tracks cfg source state w) (hok : WorldOk False cfg source w')
    (hlookup : ∀ key, Option.Rel RolledOn ((w.replicas ()).counters.shards.lookup key)
      ((w'.replicas ()).counters.shards.lookup key))
    (hdecisions : (w'.replicas ()).decisions = (w.replicas ()).decisions) :
    Tracks cfg source state w' where
  ok := hok
  ahead := h.ahead.of_lookup hlookup fun _ _ hs => bucket_lt hok hs
  decisions := h.decisions.trans hdecisions.symm

theorem rel_refl (o : Option Shard) : Option.Rel RolledOn o o := by
  cases o with
  | none => exact .none
  | some s => exact .some (RolledOn.refl s)

/-- An answer changes nothing: what it says of the others is what the replica knew. -/
theorem lookup_finish_eq (h : WorldOk False cfg source w) {f : Inflight} {totals : List Totals}
    (hok : WorldOk False cfg source (w.set () ((w.replicas ()).finish f totals))) (key : Str) :
    ((w.replicas ()).finish f totals).counters.shards.lookup key =
      (w.replicas ()).counters.shards.lookup key := by
  cases hs : (w.replicas ()).counters.shards.lookup key with
  | none => rw [StoreOk.lookup_finish, hs, Option.map_none]
  | some s =>
    obtain ⟨s', hs'⟩ : ∃ s', ((w.replicas ()).finish f totals).counters.shards.lookup key
        = some s' := by
      rw [StoreOk.lookup_finish, hs]
      exact ⟨_, rfl⟩
    have hzero := h.remote_eq_zero hs
    have hzero' := @WorldOk.remote_eq_zero _ _ _ hok () key s' (by
      rw [World.set_self]
      exact hs')
    rw [hs', Option.some.injEq]
    rw [StoreOk.lookup_finish, hs, Option.map_some, Option.some.injEq] at hs'
    have hown : s'.source = s.source ∧ s'.bucket = s.bucket ∧ s'.own_current = s.own_current ∧
        s'.own_previous = s.own_previous := by
      rw [← hs']
      split
      · exact ⟨rfl, rfl, rfl, rfl⟩
      · refine StoreOk.lines_induction (P := fun t => t.source = s.source ∧ t.bucket = s.bucket ∧
          t.own_current = s.own_current ∧ t.own_previous = s.own_previous) ⟨rfl, rfl, rfl, rfl⟩ ?_
        rintro line - - t ⟨h1, h2, h3, h4⟩
        obtain ⟨g1, g3, g4⟩ := t.apply_own line.1.1 line.2
        exact ⟨g1.trans h1, (Shard.apply_bucket t _ _).trans h2, g3.trans h3, g4.trans h4⟩
    clear hs'
    obtain ⟨h1, h2, h3, h4⟩ := hown
    cases s
    cases s'
    simp only at *
    simp only [h1, h2, h3, h4, hzero, hzero']

/-- **One step.** -/
theorem step {e : Event Unit} (h : Tracks cfg source state w)
    (hstep : w.step F cfg source e = some w') :
    Tracks cfg source (alone F cfg source state e) w' := by
  have hok := h.ok.step (fun _ _ _ _ => rfl) (fun hf => hf.elim) hstep
  cases e with
  | check r key now =>
    obtain ⟨hread, rfl⟩ := StepRun.eq_of_guarded hstep
    exact h.check key hread hok
  | start r now order =>
    obtain ⟨-, rfl⟩ := StepRun.eq_of_guarded hstep
    refine h.of_lookup hok ?_ ?_
    · intro key
      rw [World.set_self]
      unfold Replica.start pending
      cases hb : bucket_at now cfg.interval with
      | none => exact rel_refl _
      | some b =>
        simp only [lookup_snapshot]
        cases hs : (w.replicas ()).counters.shards.lookup key with
        | none => exact .none
        | some s =>
          refine .some ?_
          split
          · exact (RolledOn.refl s).roll_to b (bucket_lt h.ok hs)
          · exact RolledOn.refl s
    · rw [World.set_self]
      rfl
  | execute r =>
    rcases World.execute_cases hstep with ⟨_, _, -, rfl⟩ | ⟨_, _, _, -, -, -, rfl⟩
    · refine h.of_lookup hok ?_ ?_
      · intro key
        rw [World.set_self]
        exact rel_refl _
      · rw [World.set_self]
    · refine h.of_lookup hok ?_ ?_
      · intro key
        rw [World.set_self]
        exact rel_refl _
      · rw [World.set_self]
  | reply r =>
    obtain ⟨f, totals, -, -, -, -, rfl⟩ := World.reply_cases hstep
    refine h.of_lookup hok ?_ ?_
    · intro key
      rw [World.set_self, lookup_finish_eq h.ok hok]
      exact rel_refl _
    · rw [World.set_self]
      rfl
  | fail r =>
    obtain ⟨f, -, rfl⟩ := Option.map_eq_some_iff.mp hstep
    refine h.of_lookup hok ?_ ?_
    · intro key
      rw [World.set_self]
      exact rel_refl _
    · rw [World.set_self]
      rfl
  | lose r =>
    obtain ⟨-, rfl⟩ := StepRun.eq_of_guarded hstep
    refine h.of_lookup hok ?_ ?_
    · intro key
      rw [World.set_self]
      exact rel_refl _
    · rw [World.set_self]
  | expire key b =>
    obtain rfl := Option.some.inj hstep
    refine h.of_lookup hok ?_ rfl
    intro k
    exact rel_refl _

end Tracks

/-- **A single writer.** Whatever becomes of its syncs and of the hashes, a replica that is the
only one never holds anything of others, decides every request as it would with no backend,
and has no more in any hash than it has admitted. -/
theorem single_writer_transparent (F : Type) [F64 F] (cfg : SharedConfig)
    (source : Unit → Str → Uuid) (es : List (Event Unit)) (w : World Unit)
    (hrun : StepRun.run (World.step F cfg source) World.init es = some w) :
    (∀ key s, (w.replicas ()).counters.shards.lookup key = some s →
      s.remote_current = 0 ∧ s.remote_previous = 0) ∧
    (w.replicas ()).decisions = (es.foldl (alone F cfg source) ({}, [])).2 ∧
    ∀ key b, ((w.hashes ⟨cache_key cfg key, b⟩).entries.map Sigma.snd).sum
      ≤ (w.replicas ()).admitted ⟨cache_key cfg key, b⟩ := by
  have htracks : Tracks cfg source (es.foldl (alone F cfg source) ({}, [])) w := by
    refine @StepRun.run_induction _ _ _ (fun _ _ => True) _
      (fun es w => Tracks cfg source (es.foldl (alone F cfg source) ({}, [])) w)
      tracks_init ?_ _ _ hrun (StepRun.along_of_forall fun _ _ _ => trivial)
    intro es e s t _ h _ hstep
    rw [List.foldl_append]
    exact h.step hstep
  refine ⟨?_, htracks.decisions.symm, ?_⟩
  · intro key s hs
    exact htracks.ok.remote_eq_zero hs
  · intro key b
    have hsum := htracks.ok.sum_hash_le (fun _ _ _ _ => rfl) ⟨cache_key cfg key, b⟩
    rw [World.total, Fintype.sum_unique] at hsum
    exact hsum

/-- A request, a sync that is answered in the next bucket, and a second request there. -/
theorem single_writer_across_a_boundary :
    ∃ w, StepRun.run (World.step ℚ Pair.cfg fun _ _ => 1) World.init
        ([.check () ['k'] (Pair.second 0), .start () (Pair.second 0) [['k']]]
          ++ List.replicate 5 (.execute ())
          ++ [.check () ['k'] (Pair.second 1), .reply (), .check () ['k'] (Pair.second 1)]) = some w ∧
      ∀ s, (w.replicas ()).counters.shards.lookup ['k'] = some s →
        s.remote_current = 0 ∧ s.remote_previous = 0 := by
  obtain ⟨w, hw⟩ := Option.isSome_iff_exists.mp (show (StepRun.run
    (World.step ℚ Pair.cfg fun _ _ => 1) World.init
    ([.check () ['k'] (Pair.second 0), .start () (Pair.second 0) [['k']]]
      ++ List.replicate 5 (.execute ())
      ++ [.check () ['k'] (Pair.second 1), .reply (),
        .check () ['k'] (Pair.second 1)])).isSome by decide +kernel)
  exact ⟨w, hw, (single_writer_transparent ℚ Pair.cfg _ _ w hw).1 ['k']⟩

end Lagos.Cluster
