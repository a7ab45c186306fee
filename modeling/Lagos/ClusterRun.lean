/-
Runs of a cluster: what replicas that count into one backend know of each other.

The invariant is that every replica meets its own. `strict` says whether hashes last as
long as some replica still sees them: without it the bounds hold, and with it the answers
are exact as well.
-/
import Lagos.ClusterReplica

set_option autoImplicit false

open RustStd

namespace Lagos.Cluster

open Lagos.RateLimit SharedCounters Overwrite

variable {R : Type} [Fintype R] [DecidableEq R]

/-! ## What a replica has in the backend, and what the others have admitted -/

/-- The field of a replica in a hash. -/
def World.field (source : R → Str → Uuid) (w : World R) (r : R) (bk : BucketKey) : ℕ :=
  ((w.hashes bk).lookup (source r bk.key)).getD 0

/-- What the others have admitted. -/
def World.others (w : World R) (r : R) (bk : BucketKey) : ℕ :=
  ∑ r' ∈ Finset.univ.erase r, (w.replicas r').admitted bk

/-- What the cluster has admitted. -/
def World.total (w : World R) (bk : BucketKey) : ℕ := ∑ r, (w.replicas r).admitted bk

/-- Every replica has left the bucket behind, and the one after it. -/
def World.Passed (cfg : SharedConfig) (w : World R) (key : Str) (b : ℕ) : Prop :=
  ∀ r, b + 2 ≤ (w.replicas r).view cfg key

/-- Hashes do not expire while a replica may still see them. -/
def Lasts (cfg : SharedConfig) (w : World R) : Event R → Prop
  | .expire key b => w.Passed cfg key b
  | _ => True

/-- The hashes that some replica may still see. -/
def World.live (strict : Prop) (cfg : SharedConfig) (w : World R) (bk : BucketKey) : Prop :=
  strict ∧ ∃ key, bk.key = cache_key cfg key ∧ ¬ w.Passed cfg key bk.bucket

structure WorldOk (strict : Prop) (cfg : SharedConfig) (source : R → Str → Uuid) (w : World R) :
    Prop where
  store : ∀ r, StoreOk cfg (source r) (w.others r) (w.replicas r)
  wire : ∀ r, WireOk cfg (source r) (w.live strict cfg) (w.field source r) (w.others r)
    (w.replicas r)
  writers : ∀ bk s, s ∈ w.hashes bk → ∃ r, s = source r bk.key

/-! ## Sums over the cluster -/

/-- The values of a hash whose fields are those of an injective family are its fields'. -/
theorem sum_values {source : R → Uuid} (hsource : Function.Injective source)
    (h : AList fun _ : Uuid => ℕ) (hkeys : ∀ s ∈ h, ∃ r, s = source r) :
    (h.entries.map Sigma.snd).sum = ∑ r, (h.lookup (source r)).getD 0 := by
  induction h using AList.insertRec with
  | H0 => simp
  | IH a v h ha ih =>
    obtain ⟨r, rfl⟩ := hkeys a ((AList.mem_insert h).mpr (.inl rfl))
    have hrest : ∀ r' ∈ Finset.univ.erase r,
        ((h.insert (source r) v).lookup (source r')).getD 0 = (h.lookup (source r')).getD 0 := by
      intro r' hr'
      rw [AList.lookup_insert_ne fun heq => Finset.ne_of_mem_erase hr' (hsource heq)]
    rw [AList.entries_insert_of_notMem ha, List.map_cons, List.sum_cons,
      ih fun s hs => hkeys s ((AList.mem_insert h).mpr (.inr hs)),
      ← Finset.add_sum_erase _ _ (Finset.mem_univ r),
      ← Finset.add_sum_erase _ (fun r' => ((h.insert (source r) v).lookup (source r')).getD 0)
        (Finset.mem_univ r),
      AList.lookup_eq_none.mpr ha, AList.lookup_insert, Finset.sum_congr rfl hrest]
    simp

section

variable {strict : Prop} {cfg : SharedConfig} {source : R → Str → Uuid} {w w' : World R}

/-- The sum of a hash is every replica's field. -/
theorem WorldOk.sum_hash (h : WorldOk strict cfg source w)
    (hsource : ∀ key, Function.Injective fun r => source r key) (bk : BucketKey) :
    ((w.hashes bk).entries.map Sigma.snd).sum = ∑ r, w.field source r bk :=
  sum_values (hsource bk.key) _ (h.writers bk)

/-- A hash holds no more than was admitted. -/
theorem WorldOk.sum_hash_le (h : WorldOk strict cfg source w)
    (hsource : ∀ key, Function.Injective fun r => source r key) (bk : BucketKey) :
    ((w.hashes bk).entries.map Sigma.snd).sum ≤ w.total bk := by
  rw [h.sum_hash hsource]
  refine Finset.sum_le_sum ?_
  intro r _
  have := (h.wire r).field_le bk
  unfold Replica.count at this
  omega

/-- What the others have in a hash they have admitted. -/
theorem WorldOk.sum_others (h : WorldOk strict cfg source w) (r : R) (bk : BucketKey) :
    ∑ r' ∈ Finset.univ.erase r, w.field source r' bk ≤ w.others r bk := by
  refine Finset.sum_le_sum ?_
  intro r' _
  have := (h.wire r').field_le bk
  unfold Replica.count at this
  omega

/-! ## The invariant along a step -/

omit [Fintype R] in
/-- What a replica has left behind stays behind. -/
theorem live_of_view {r : R} (hreplicas : ∀ r', r' ≠ r → w'.replicas r' = w.replicas r')
    (hview : ∀ key, (w.replicas r).view cfg key ≤ (w'.replicas r).view cfg key) (bk : BucketKey)
    (hl : w'.live strict cfg bk) : w.live strict cfg bk := by
  obtain ⟨hs, key, hkey, hpassed⟩ := hl
  refine ⟨hs, key, hkey, fun hp => hpassed ?_⟩
  intro r'
  by_cases hr : r' = r
  · rw [hr]
    exact Nat.le_trans (hp r) (hview key)
  · rw [hreplicas r' hr]
    exact hp r'

/-- One replica takes a step that leaves the others' fields alone. -/
theorem WorldOk.of_step (h : WorldOk strict cfg source w) (r : R)
    (hreplicas : ∀ r', r' ≠ r → w'.replicas r' = w.replicas r')
    (hadmitted : ∀ bk, (w.replicas r).admitted bk ≤ (w'.replicas r).admitted bk)
    (hview : ∀ key, (w.replicas r).view cfg key ≤ (w'.replicas r).view cfg key)
    (hfield : ∀ r', r' ≠ r → w'.field source r' = w.field source r')
    (hstore : StoreOk cfg (source r) (w.others r) (w'.replicas r))
    (hwire : WireOk cfg (source r) (w.live strict cfg) (w'.field source r) (w.others r)
      (w'.replicas r))
    (hwriters : ∀ bk s, s ∈ w'.hashes bk → ∃ r, s = source r bk.key) :
    WorldOk strict cfg source w' := by
  have hlive := @live_of_view _ _ strict _ _ _ _ hreplicas hview
  have hothers : ∀ r' bk, w.others r' bk ≤ w'.others r' bk := by
    intro r' bk
    refine Finset.sum_le_sum ?_
    intro r'' _
    by_cases hr : r'' = r
    · rw [hr]
      exact hadmitted bk
    · rw [hreplicas r'' hr]
  have hself : w'.others r = w.others r := by
    funext bk
    refine Finset.sum_congr rfl ?_
    intro r' hr'
    rw [hreplicas r' (Finset.ne_of_mem_erase hr')]
  refine ⟨?_, ?_, hwriters⟩
  · intro r'
    by_cases hr : r' = r
    · rw [hr, hself]
      exact hstore
    · rw [hreplicas r' hr]
      exact (h.store r').mono (hothers r')
  · intro r'
    by_cases hr : r' = r
    · rw [hr, hself]
      exact hwire.evolve rfl rfl rfl hlive (fun _ => Nat.le_refl _) fun _ => Nat.le_refl _
    · rw [hreplicas r' hr, hfield r' hr]
      exact (h.wire r').evolve rfl rfl rfl hlive (fun _ => Nat.le_refl _) (hothers r')

/-- The same, where nothing reaches the backend. -/
theorem WorldOk.set (h : WorldOk strict cfg source w) {r : R} {rep : Replica}
    (hadmitted : ∀ bk, (w.replicas r).admitted bk ≤ rep.admitted bk)
    (hview : ∀ key, (w.replicas r).view cfg key ≤ rep.view cfg key)
    (hstore : StoreOk cfg (source r) (w.others r) rep)
    (hwire : WireOk cfg (source r) (w.live strict cfg) (w.field source r) (w.others r) rep) :
    WorldOk strict cfg source (w.set r rep) := by
  have hself : (w.set r rep).replicas r = rep := Function.update_self ..
  refine h.of_step r (fun r' hr => Function.update_of_ne hr _ _) ?_ ?_ (fun _ _ => rfl) ?_ ?_
    h.writers
  · rw [hself]
    exact hadmitted
  · rw [hself]
    exact hview
  · rw [hself]
    exact hstore
  · rw [hself]
    exact hwire

end

/-! ## Inversion of the steps that involve the backend -/

section

omit [Fintype R]

variable {w w' : World R} {r : R}

/-- What the backend carries out next. -/
theorem World.execute_cases (h : w.execute r = some w') :
    (∃ cmd stale, (w.replicas r).stale = cmd :: stale ∧
      w' = ⟨(w.set r { w.replicas r with stale := stale }).replicas,
        run_command w.hashes cmd⟩) ∨
    (∃ f cmd awaited, (w.replicas r).stale = [] ∧ (w.replicas r).inflight = some f ∧
      f.awaited = cmd :: awaited ∧
      w' = ⟨(w.set r { w.replicas r with
          inflight := some (f.carry_out w.hashes cmd awaited) }).replicas,
        run_command w.hashes cmd⟩) := by
  unfold World.execute at h
  cases hstale : (w.replicas r).stale with
  | cons cmd stale =>
    rw [hstale] at h
    exact .inl ⟨cmd, stale, rfl, (Option.some.inj h).symm⟩
  | nil =>
    cases hf : (w.replicas r).inflight with
    | none =>
      rw [hstale, hf] at h
      cases h
    | some f =>
      rw [hstale, hf] at h
      simp only at h
      cases hawaited : f.awaited with
      | nil =>
        rw [hawaited] at h
        cases h
      | cons cmd awaited =>
        rw [hawaited] at h
        exact .inr ⟨f, cmd, awaited, rfl, rfl, hawaited, (Option.some.inj h).symm⟩

/-- What an answer is. -/
theorem World.reply_cases (h : w.reply r = some w') :
    ∃ f totals, (w.replicas r).inflight = some f ∧ (w.replicas r).stale = [] ∧ f.awaited = [] ∧
      totals_of f.batch.publishes f.replies = some totals ∧
      w' = w.set r ((w.replicas r).finish f totals) := by
  unfold World.reply at h
  cases hf : (w.replicas r).inflight with
  | none =>
    rw [hf] at h
    cases h
  | some f =>
    rw [hf] at h
    simp only at h
    split at h
    · rename_i hdone
      obtain ⟨totals, ht, hw⟩ := Option.map_eq_some_iff.mp h
      exact ⟨f, totals, rfl, hdone.1, hdone.2, ht, hw.symm⟩
    · cases h

/-- The state of the replica that is set. -/
theorem World.set_self (rep : Replica) : (w.set r rep).replicas r = rep := Function.update_self ..

theorem World.set_other (rep : Replica) {r' : R} (hr : r' ≠ r) :
    (w.set r rep).replicas r' = w.replicas r' := Function.update_of_ne hr _ _

end

/-! ## Commands on the fields -/

section

omit [Fintype R] [DecidableEq R]

variable {source : R → Str → Uuid} {w : World R} {r : R} {cmd : Command}
  {replicas : R → Replica}

/-- A replica's command, on its own fields. -/
theorem field_run_self (hcmd : ∀ key f v, cmd = .HSET key f v → f = source r key.key) :
    World.field source ⟨replicas, run_command w.hashes cmd⟩ r
      = exec_field (w.field source r) cmd := by
  funext bk
  cases cmd with
  | EXPIRE key secs => rfl
  | HVALS key => rfl
  | HSET key f v =>
    obtain rfl := hcmd key f v rfl
    unfold World.field exec_field
    simp only [run_command, op_of, Op.exec]
    by_cases hbk : bk = key
    · subst hbk
      rw [Function.update_self, Function.update_self, AList.lookup_insert, Option.getD_some]
    · rw [Function.update_of_ne hbk, Function.update_of_ne hbk]

/-- A replica's command, on the fields of another. -/
theorem field_run_other (hsource : ∀ key, Function.Injective fun r => source r key)
    (hcmd : ∀ key f v, cmd = .HSET key f v → f = source r key.key) {r' : R} (hr : r' ≠ r) :
    World.field source ⟨replicas, run_command w.hashes cmd⟩ r' = w.field source r' := by
  funext bk
  cases cmd with
  | EXPIRE key secs => rfl
  | HVALS key => rfl
  | HSET key f v =>
    obtain rfl := hcmd key f v rfl
    unfold World.field
    simp only [run_command]
    by_cases hbk : bk = key
    · subst hbk
      rw [Function.update_self, AList.lookup_insert_ne fun heq => hr (hsource _ heq)]
    · rw [Function.update_of_ne hbk]

/-- A replica's command, on who has fields at all. -/
theorem writers_run (h : ∀ bk s, s ∈ w.hashes bk → ∃ r, s = source r bk.key)
    (hcmd : ∀ key f v, cmd = .HSET key f v → f = source r key.key) (bk : BucketKey) (s : Uuid)
    (hs : s ∈ run_command w.hashes cmd bk) : ∃ r, s = source r bk.key := by
  cases cmd with
  | EXPIRE key secs => exact h bk s hs
  | HVALS key => exact h bk s hs
  | HSET key f v =>
    obtain rfl := hcmd key f v rfl
    simp only [run_command] at hs
    by_cases hbk : bk = key
    · subst hbk
      rw [Function.update_self, AList.mem_insert] at hs
      rcases hs with rfl | hs
      · exact ⟨r, rfl⟩
      · exact h bk s hs
    · rw [Function.update_of_ne hbk] at hs
      exact h bk s hs

end

/-! ## Every step keeps the invariant -/

section

variable {strict : Prop} {cfg : SharedConfig} {source : R → Str → Uuid} {w w' : World R}

/-- Nothing of the store changes. -/
theorem view_le_of_eq {rep rep' : Replica} (hshards : rep'.counters.shards = rep.counters.shards)
    (hclock : rep'.clock = rep.clock) (key : Str) : rep.view cfg key ≤ rep'.view cfg key := by
  unfold Replica.view Replica.now
  rw [hshards, hclock]

/-- A late command writes only its replica's own field. -/
theorem WorldOk.own_field_stale (h : WorldOk strict cfg source w) {r : R} {cmd : Command}
    {stale : List Command} (hstale : (w.replicas r).stale = cmd :: stale) :
    ∀ key f v, cmd = .HSET key f v → f = source r key.key := by
  rintro key f v rfl
  refine (h.wire r).own_field key f v ?_
  rw [hstale]
  exact List.mem_cons_self

/-- So does a command of the sync the replica is in. -/
theorem WorldOk.own_field_awaited (h : WorldOk strict cfg source w) {r : R} {f : Inflight}
    {cmd : Command} {awaited : List Command} (hf : (w.replicas r).inflight = some f)
    (hawaited : f.awaited = cmd :: awaited) :
    ∀ key g v, cmd = .HSET key g v → g = source r key.key := by
  rintro key g v rfl
  refine (h.wire r).own_field key g v (List.mem_append_right _ ?_)
  unfold Replica.awaited
  rw [hf]
  simp only [hawaited]
  exact List.mem_cons_self

/-- The backend carries out a command. -/
theorem WorldOk.execute (h : WorldOk strict cfg source w)
    (hsource : ∀ key, Function.Injective fun r => source r key) {r : R}
    (hstep : w.execute r = some w') : WorldOk strict cfg source w' := by
  rcases World.execute_cases hstep with ⟨cmd, stale, hstale, rfl⟩ |
    ⟨f, cmd, awaited, hstale, hf, hawaited, rfl⟩
  · have hcmd := h.own_field_stale hstale
    refine h.of_step r (fun r' hr => World.set_other _ hr) ?_
      ?_ (fun r' hr => field_run_other hsource hcmd hr) ?_ ?_ (writers_run h.writers hcmd)
    · rw [World.set_self]
      exact fun _ => Nat.le_refl _
    · rw [World.set_self]
      exact view_le_of_eq rfl rfl
    · rw [World.set_self]
      exact ⟨(h.store r).shards, (h.store r).absent, (h.store r).pass, (h.store r).entries⟩
    · rw [World.set_self, field_run_self hcmd]
      exact (h.wire r).exec_stale hstale
  · have hcmd := h.own_field_awaited hf hawaited
    refine h.of_step r (fun r' hr => World.set_other _ hr) ?_
      ?_ (fun r' hr => field_run_other hsource hcmd hr) ?_ ?_ (writers_run h.writers hcmd)
    · rw [World.set_self]
      exact fun _ => Nat.le_refl _
    · rw [World.set_self]
      exact view_le_of_eq rfl rfl
    · rw [World.set_self]
      refine ⟨(h.store r).shards, (h.store r).absent, (h.store r).pass, ?_⟩
      intro g hg
      obtain rfl := Option.some.inj hg
      exact (h.store r).entries f hf
    · rw [World.set_self, field_run_self hcmd]
      refine @WireOk.exec_awaited _ _ _ _ _ _ (h.wire r) w.hashes _ hf hstale _ _ hawaited ?_
      intro key _
      refine ⟨∑ r' ∈ Finset.univ.erase r, w.field source r' key, ?_, h.sum_others r key⟩
      rw [h.sum_hash hsource]
      exact (Finset.add_sum_erase _ _ (Finset.mem_univ r)).symm

/-- Two statements about the lines of a batch, line by line of an answer. -/
theorem forall₂_zip_zip {α β γ : Type} {S : α → β → Prop} {T : α → γ → Prop} {l : List α}
    {m : List β} {n : List γ} (hm : List.Forall₂ S l m) (hn : List.Forall₂ T l n) :
    ∀ x ∈ (l.zip m).zip n, S x.1.1 x.1.2 ∧ T x.1.1 x.2 := by
  induction hm generalizing n with
  | nil =>
    intro x hx
    cases hx
  | cons hab _ ih =>
    obtain ⟨c, n', hac, hn', rfl⟩ := List.forall₂_cons_left_iff.mp hn
    intro x hx
    rcases List.mem_cons.mp hx with rfl | hx
    · exact ⟨hab, hac⟩
    · exact ih hn' x hx

/-- The lines of an answer attribute to the others no more than they have admitted. -/
theorem WorldOk.lines_ok (h : WorldOk strict cfg source w) {r : R} {f : Inflight}
    (hf : (w.replicas r).inflight = some f) (hawaited : f.awaited = []) {totals : List Totals}
    (ht : totals_of f.batch.publishes f.replies = some totals) :
    ∀ line ∈ (f.batch.publishes.zip f.batch.entries).zip totals,
      StoreOk.LineOk cfg (source r) (w.others r) line := by
  intro line hline
  obtain ⟨⟨hkey, hp⟩, hanswer⟩ := forall₂_zip_zip ((h.wire r).lines f hf)
    ((h.wire r).lines_answered hf hawaited ht) line hline
  have hbounds := WireOk.line_bounds hf hp hanswer
  rw [hkey] at hp hbounds
  exact ⟨_, hp, hbounds⟩

/-- The answer to a sync. -/
theorem WorldOk.reply (h : WorldOk strict cfg source w) {r : R}
    (hstep : w.reply r = some w') : WorldOk strict cfg source w' := by
  obtain ⟨f, totals, hf, hstale, hawaited, ht, rfl⟩ := World.reply_cases hstep
  refine h.set (fun _ => Nat.le_refl _) ?_ ((h.store r).finish (h.lines_ok hf hawaited ht))
    ((h.wire r).finish hf hstale hawaited ht)
  intro key
  exact Nat.le_of_eq (StoreOk.view_finish f totals key).symm

/-- A hash expires. -/
theorem WorldOk.expire (h : WorldOk strict cfg source w) {key : Str} {b : ℕ}
    (hlasts : strict → w.Passed cfg key b) :
    WorldOk strict cfg source
      { w with hashes := Function.update w.hashes ⟨cache_key cfg key, b⟩ ∅ } := by
  refine ⟨h.store, ?_, ?_⟩
  · intro r
    refine (h.wire r).drop ?_ ?_
    · intro bk
      simp only [World.field]
      by_cases hbk : bk = ⟨cache_key cfg key, b⟩
      · rw [hbk, Function.update_self, AList.lookup_empty]
        exact Nat.zero_le _
      · rw [Function.update_of_ne hbk]
    · rintro bk ⟨hs, key', hkey, hpassed⟩
      simp only [World.field]
      by_cases hbk : bk = ⟨cache_key cfg key, b⟩
      · -- A live hash is one that some replica still sees, and that one does not expire.
        subst hbk
        obtain rfl := List.append_cancel_left hkey
        exact absurd (hlasts hs) hpassed
      · rw [Function.update_of_ne hbk]
  · intro bk s hs
    by_cases hbk : bk = ⟨cache_key cfg key, b⟩
    · rw [hbk] at hs
      simp only [Function.update_self] at hs
      exact absurd hs (AList.notMem_empty s)
    · simp only [Function.update_of_ne hbk] at hs
      exact h.writers bk s hs

/-- A request takes nothing back. -/
theorem Replica.admitted_le_check {F : Type} [F64 F] (rep : Replica) (source : Uuid) (key : Str)
    (now : SystemTime) (bk : BucketKey) :
    rep.admitted bk ≤ (rep.check F cfg source key now).admitted bk := by
  unfold Replica.check
  cases hb : bucket_at now cfg.interval with
  | none => exact Nat.le_refl _
  | some b =>
    simp only
    split
    · by_cases hbk : bk = ⟨cache_key cfg key, b⟩
      · rw [hbk, Function.update_self]
        exact Nat.le_succ _
      · rw [Function.update_of_ne hbk]
    · exact Nat.le_refl _

/-- **Every step keeps the invariant.** -/
theorem WorldOk.step {F : Type} [F64 F] (h : WorldOk strict cfg source w)
    (hsource : ∀ key, Function.Injective fun r => source r key) {e : Event R}
    (hlasts : strict → Lasts cfg w e) (hstep : w.step F cfg source e = some w') :
    WorldOk strict cfg source w' := by
  cases e with
  | check r key now =>
    obtain ⟨hread, rfl⟩ := StepRun.eq_of_guarded hstep
    refine h.set (Replica.admitted_le_check _ _ key now) (StoreOk.view_check key hread)
      ((h.store r).check key hread) ?_
    exact (h.wire r).evolve rfl rfl rfl (fun _ hl => hl) (Replica.admitted_le_check _ _ key now)
      fun _ => Nat.le_refl _
  | start r now order =>
    obtain ⟨⟨hread, hidle, hperm⟩, rfl⟩ := StepRun.eq_of_guarded hstep
    have horder : ∀ k ∈ order, k ∈ (w.replicas r).counters.shards := by
      intro k hk
      exact AList.mem_keys.mpr (hperm.mem_iff.mp hk)
    exact h.set (fun _ => Nat.le_refl _) (StoreOk.view_start hread)
      ((h.store r).start hread horder) ((h.wire r).start (h.store r) hidle horder)
  | execute r => exact h.execute hsource hstep
  | reply r => exact h.reply hstep
  | fail r =>
    obtain ⟨f, hf, rfl⟩ := Option.map_eq_some_iff.mp hstep
    exact h.set (fun _ => Nat.le_refl _) (view_le_of_eq rfl rfl) ((h.store r).give_up hf)
      ((h.wire r).give_up hf)
  | lose r =>
    obtain ⟨hf, rfl⟩ := StepRun.eq_of_guarded hstep
    refine h.set (fun _ => Nat.le_refl _) (view_le_of_eq rfl rfl) ?_ ((h.wire r).lose hf)
    exact ⟨(h.store r).shards, (h.store r).absent, (h.store r).pass, (h.store r).entries⟩
  | expire key b =>
    obtain rfl := Option.some.inj hstep
    exact h.expire hlasts

/-! ## What only grows -/

variable {F : Type} [F64 F]

/-- A replica comes further and takes nothing back. -/
structure Replica.Grows (cfg : SharedConfig) (rep rep' : Replica) : Prop where
  view : ∀ key, rep.view cfg key ≤ rep'.view cfg key
  admitted : ∀ bk, rep.admitted bk ≤ rep'.admitted bk

theorem Replica.Grows.of_eq {rep rep' : Replica}
    (hshards : rep'.counters.shards = rep.counters.shards) (hclock : rep'.clock = rep.clock)
    (hadmitted : rep'.admitted = rep.admitted) : rep.Grows cfg rep' where
  view := view_le_of_eq hshards hclock
  admitted bk := by rw [hadmitted]

omit [Fintype R] in
theorem grows_set {r : R} {rep : Replica} (h : (w.replicas r).Grows cfg rep) (r' : R) :
    (w.replicas r').Grows cfg ((w.set r rep).replicas r') := by
  by_cases hr : r' = r
  · rw [hr, World.set_self]
    exact h
  · rw [World.set_other rep hr]
    exact .of_eq rfl rfl rfl

omit [Fintype R] in
theorem grows_step {e : Event R} (hstep : w.step F cfg source e = some w') (r' : R) :
    (w.replicas r').Grows cfg (w'.replicas r') := by
  cases e with
  | check r key now =>
    obtain ⟨hread, rfl⟩ := StepRun.eq_of_guarded hstep
    exact grows_set ⟨StoreOk.view_check key hread, Replica.admitted_le_check _ _ key now⟩ r'
  | start r now order =>
    obtain ⟨⟨hread, -⟩, rfl⟩ := StepRun.eq_of_guarded hstep
    exact @grows_set _ _ _ _ _ ((w.replicas r).start cfg now order)
      ⟨StoreOk.view_start hread, fun _ => Nat.le_refl _⟩ r'
  | execute r =>
    rcases World.execute_cases hstep with ⟨_, _, -, rfl⟩ | ⟨_, _, _, -, -, -, rfl⟩
    · refine grows_set ?_ r'
      exact .of_eq rfl rfl rfl
    · refine grows_set ?_ r'
      exact .of_eq rfl rfl rfl
  | reply r =>
    obtain ⟨f, totals, -, -, -, -, rfl⟩ := World.reply_cases hstep
    refine @grows_set _ _ _ _ _ ((w.replicas r).finish f totals) ⟨?_, fun _ => Nat.le_refl _⟩ r'
    intro k
    exact Nat.le_of_eq (StoreOk.view_finish f totals k).symm
  | fail r =>
    obtain ⟨f, -, rfl⟩ := Option.map_eq_some_iff.mp hstep
    refine grows_set ?_ r'
    exact .of_eq rfl rfl rfl
  | lose r =>
    obtain ⟨-, rfl⟩ := StepRun.eq_of_guarded hstep
    refine grows_set ?_ r'
    exact .of_eq rfl rfl rfl
  | expire key b =>
    obtain rfl := Option.some.inj hstep
    exact .of_eq rfl rfl rfl

omit [Fintype R] in
/-- A write of a replica raises its field and leaves the others' alone. -/
theorem field_le_run (hsource : ∀ key, Function.Injective fun r => source r key) {r : R}
    {cmd : Command} {replicas : R → Replica}
    (hcmd : ∀ key f v, cmd = .HSET key f v → f = source r key.key)
    (hle : ∀ bk, w.field source r bk ≤ exec_field (w.field source r) cmd bk) (r' : R)
    (bk : BucketKey) :
    w.field source r' bk ≤ World.field source ⟨replicas, run_command w.hashes cmd⟩ r' bk := by
  by_cases hr : r' = r
  · rw [hr, field_run_self hcmd]
    exact hle bk
  · rw [field_run_other hsource hcmd hr]

/-- No field is lowered but by the expiry of its hash. -/
theorem field_le_step (h : WorldOk strict cfg source w)
    (hsource : ∀ key, Function.Injective fun r => source r key) {e : Event R} {bk : BucketKey}
    (he : ∀ key b, e = .expire key b → bk ≠ ⟨cache_key cfg key, b⟩)
    (hstep : w.step F cfg source e = some w') (r' : R) :
    w.field source r' bk ≤ w'.field source r' bk := by
  cases e with
  | check r key now =>
    obtain ⟨-, rfl⟩ := StepRun.eq_of_guarded hstep
    exact Nat.le_refl _
  | start r now order =>
    obtain ⟨-, rfl⟩ := StepRun.eq_of_guarded hstep
    exact Nat.le_refl _
  | execute r =>
    rcases World.execute_cases hstep with ⟨cmd, stale, hstale, rfl⟩ |
      ⟨f, cmd, awaited, hstale, hf, hawaited, rfl⟩
    · exact field_le_run hsource (h.own_field_stale hstale) ((h.wire r).le_exec_stale hstale) r' bk
    · exact field_le_run hsource (h.own_field_awaited hf hawaited)
        ((h.wire r).le_exec_awaited hf hstale hawaited) r' bk
  | reply r =>
    obtain ⟨f, totals, -, -, -, -, rfl⟩ := World.reply_cases hstep
    exact Nat.le_refl _
  | fail r =>
    obtain ⟨f, -, rfl⟩ := Option.map_eq_some_iff.mp hstep
    exact Nat.le_refl _
  | lose r =>
    obtain ⟨-, rfl⟩ := StepRun.eq_of_guarded hstep
    exact Nat.le_refl _
  | expire key b =>
    obtain rfl := Option.some.inj hstep
    simp only [World.field]
    rw [Function.update_of_ne (he key b rfl)]

omit [Fintype R] in
/-- What may become of the sync a replica is in, short of the next one. -/
theorem inflight_step {e : Event R} {r : R} (he : ∀ now order, e ≠ .start r now order)
    (hstep : w.step F cfg source e = some w') :
    (w'.replicas r).inflight = (w.replicas r).inflight ∨ (w'.replicas r).inflight = none ∨
      ∃ f cmd awaited, (w.replicas r).inflight = some f ∧ f.awaited = cmd :: awaited ∧
        (w'.replicas r).inflight = some (f.carry_out w.hashes cmd awaited) := by
  -- Only the replica that takes the step can have its sync changed.
  have hother : ∀ {r' rep}, r ≠ r' →
      ((w.set r' rep).replicas r).inflight = (w.replicas r).inflight := by
    intro r' rep hr
    rw [World.set_other rep hr]
  cases e with
  | check r' key now =>
    obtain ⟨-, rfl⟩ := StepRun.eq_of_guarded hstep
    left
    by_cases hr : r = r'
    · rw [hr, World.set_self]
      rfl
    · exact hother hr
  | start r' now order =>
    obtain ⟨-, rfl⟩ := StepRun.eq_of_guarded hstep
    left
    refine hother ?_
    rintro rfl
    exact he now order rfl
  | execute r' =>
    by_cases hr : r = r'
    · subst hr
      rcases World.execute_cases hstep with ⟨cmd, stale, hstale, rfl⟩ |
        ⟨f, cmd, awaited, hstale, hf, hawaited, rfl⟩
      · left
        rw [World.set_self]
      · right
        right
        refine ⟨f, cmd, awaited, hf, hawaited, ?_⟩
        rw [World.set_self]
    · left
      rcases World.execute_cases hstep with ⟨cmd, stale, -, rfl⟩ | ⟨f, cmd, awaited, -, -, -, rfl⟩
      · exact hother hr
      · exact hother hr
  | reply r' =>
    obtain ⟨f, totals, -, -, -, -, rfl⟩ := World.reply_cases hstep
    by_cases hr : r = r'
    · right
      left
      rw [hr, World.set_self]
      rfl
    · exact .inl (hother hr)
  | fail r' =>
    obtain ⟨f, -, rfl⟩ := Option.map_eq_some_iff.mp hstep
    by_cases hr : r = r'
    · right
      left
      rw [hr, World.set_self]
      rfl
    · exact .inl (hother hr)
  | lose r' =>
    obtain ⟨-, rfl⟩ := StepRun.eq_of_guarded hstep
    left
    by_cases hr : r = r'
    · rw [hr, World.set_self]
    · exact hother hr
  | expire key b =>
    obtain rfl := Option.some.inj hstep
    exact .inl rfl

end

end Lagos.Cluster
