/-
The pass of a shared limiter, over any interleaving (`SharedCounters::pending`, `sync_once`).

A reconciliation takes its batch, waits for the backend, and folds the answer back in or
returns the keys. Requests go on while it waits, and track new keys; another reconciliation does
not begin, since `sync_lock` is held throughout. So it is two events here, with the batch in
flight between them.

`Lib/WorkList.lean` says what the log of such batches is. What is proved here is that the log of
a pass is one that began with the keys tracked when the pass did: a tracked key stays tracked, so
a batch has a line for each of its keys, and what is tracked later is not in the pass.
-/
import Lagos.SyncIsolation
import Lagos.Lib.Run
import Lagos.Lib.WorkList

set_option autoImplicit false

open RustStd

namespace Lagos.SyncPass

open Lagos.RateLimit SharedCounters StepRun WorkList

/-! ## The limiter and its reconciliations -/

/-- A reconciliation that is over: the keys it published, and whether it succeeded. -/
abbrev Tick := List Str × Bool

/-- A limiter. The ticks are history. -/
structure State where
  counters : SharedCounters := {}
  in_flight : Option Batch := none
  ticks : List Tick := []

/-- A request, and the two halves of `sync_once`. `order` is how the store is walked if the pass
is to be refilled, `reply` what the backend makes of the batch. -/
inductive Event where
  | check (source : Uuid) (key : Str) (now : SystemTime)
  | start (now : SystemTime) (order : List Str)
  | finish (reply : Option (List Totals))

/-- `sync_once` up to the call of the backend. It is not called for an empty batch. -/
def State.start (cfg : SharedConfig) (s : State) (now : SystemTime) (order : List Str) : State :=
  let (counters, batch) := s.counters.pending cfg now order
  { s with counters := counters
           in_flight := if batch.publishes.isEmpty then none else some batch }

/-- The rest of `sync_once`. -/
def State.finish (s : State) (batch : Batch) (reply : Option (List Totals)) : State :=
  let keys := batch.publishes.map Publish.key
  let failed : State := ⟨s.counters.put_back batch, none, s.ticks ++ [(keys, false)]⟩
  match reply with
  | none => failed
  | some totals =>
    if totals.length = batch.publishes.length then
      ⟨s.counters.apply batch totals, none, s.ticks ++ [(keys, true)]⟩
    else failed

variable (F : Type) [F64 F] (cfg : SharedConfig)

def step (s : State) : Event → Option State
  | .check source key now =>
    some { s with counters := (s.counters.check_at cfg F source key now).1 }
  | .start now order =>
    if s.in_flight.isNone ∧ order.Perm s.counters.shards.keys then some (s.start cfg now order)
    else none
  | .finish reply => s.in_flight.map fun batch => s.finish batch reply

variable {F cfg}

/-! ## What one event does -/

/-- The keys of the pass that are not done: those still to visit, and those in flight. -/
def State.outstanding (s : State) : List Str :=
  s.counters.pass ++ (s.in_flight.map Batch.entries).getD []

/-- Only tracked keys are visited, and a batch in flight has a line for each of its keys. -/
structure Tracked (cfg : SharedConfig) (s : State) : Prop where
  pass : ∀ key ∈ s.outstanding, key ∈ s.counters.shards
  lines : ∀ batch ∈ s.in_flight, batch.publishes.map Publish.key
    = batch.entries.map (cache_key cfg)

/-- The same holds of a pass that is refilled. -/
theorem Tracked.refill {s : State} (hs : Tracked cfg s) {order : List Str}
    (horder : order.Perm s.counters.shards.keys) :
    ∀ key ∈ Visits.refill s.counters.pass order, key ∈ s.counters.shards := by
  intro key hkey
  obtain hpass | hwalk := Visits.mem_refill hkey
  · exact hs.pass key (List.mem_append_left _ hpass)
  · exact AList.mem_keys.mpr (horder.mem_iff.mp hwalk)

/-- A request leaves the pass, and tracks its key. -/
theorem check_at_pass (c : SharedCounters) (source : Uuid) (key : Str) (now : SystemTime) :
    (c.check_at cfg F source key now).1.pass = c.pass ∧
      ∀ k ∈ c.shards, k ∈ (c.check_at cfg F source key now).1.shards := by
  cases hb : bucket_at now cfg.interval with
  | none =>
    rw [check_at_of_none hb]
    exact ⟨rfl, fun _ hk => hk⟩
  | some b =>
    rw [check_at_of_some hb]
    exact ⟨rfl, fun k hk => AList.mem_insert _ |>.mpr (Or.inr hk)⟩

/-- A reconciliation that has something to send takes it from the pass, or from the walk. -/
theorem start_cases {s : State} (now : SystemTime) {order : List Str} (hbatch : 0 < cfg.batch)
    (htracked : ∀ key ∈ Visits.refill s.counters.pass order, key ∈ s.counters.shards) :
    (∀ key, key ∈ (s.start cfg now order).counters.shards ↔ key ∈ s.counters.shards) ∧
      (s.start cfg now order).ticks = s.ticks ∧
      (((s.start cfg now order).in_flight = none ∧
          (s.start cfg now order).counters.pass = s.counters.pass) ∨
        ∃ b, (s.start cfg now order).in_flight = some b ∧
          b.publishes.map Publish.key = b.entries.map (cache_key cfg) ∧
          b.entries = batch cfg.batch (Visits.refill s.counters.pass order) ∧
          (s.start cfg now order).counters.pass
            = rest cfg.batch (Visits.refill s.counters.pass order)) := by
  unfold State.start
  cases hb : bucket_at now cfg.interval with
  | none =>
    rw [pending, hb]
    exact ⟨fun _ => Iff.rfl, rfl, Or.inl ⟨rfl, rfl⟩⟩
  | some bucket =>
    rw [SyncIsolation.pending_eq hb]
    set refilled := Visits.refill s.counters.pass order with hrefilled
    have htaken : ∀ key ∈ batch cfg.batch refilled, key ∈ s.counters.shards := by
      intro key hkey
      exact htracked key (List.mem_of_mem_drop hkey)
    have hlines := SyncIsolation.map_key_snapshot cfg bucket htaken
    refine ⟨SyncIsolation.mem_snapshot cfg bucket s.counters.shards _, rfl, ?_⟩
    by_cases hempty : (snapshot cfg bucket s.counters.shards (batch cfg.batch refilled)).2.isEmpty
    · -- Nothing to send: there is nothing to visit, and so nothing was left of a pass either.
      left
      refine ⟨if_pos hempty, ?_⟩
      rw [List.isEmpty_iff.mp hempty] at hlines
      have hnil : refilled = [] := batch_eq_nil hbatch (List.map_eq_nil_iff.mp hlines.symm)
      change rest cfg.batch refilled = s.counters.pass
      by_cases hpass : s.counters.pass = []
      · rw [hnil, hpass]
        exact List.take_nil
      · rw [Visits.refill_of_ne_nil hpass] at hrefilled
        exact absurd (hrefilled.symm.trans hnil) hpass
    · right
      exact ⟨_, if_neg hempty, hlines, rfl, rfl⟩

/-- A reconciliation that is over has returned its keys, unless it succeeded. -/
theorem finish_cases (s : State) (b : Batch) (reply : Option (List Totals)) :
    (∀ key, key ∈ (s.finish b reply).counters.shards ↔ key ∈ s.counters.shards) ∧
      (s.finish b reply).in_flight = none ∧
      ∃ ok, (s.finish b reply).ticks = s.ticks ++ [(b.publishes.map Publish.key, ok)] ∧
        (s.finish b reply).counters.pass
          = if ok then s.counters.pass else s.counters.pass ++ b.entries := by
  unfold State.finish
  cases reply with
  | none => exact ⟨fun _ => Iff.rfl, rfl, false, rfl, rfl⟩
  | some totals =>
    by_cases hlen : totals.length = b.publishes.length
    · simp only [hlen, if_true]
      refine ⟨SyncIsolation.mem_apply s.counters b totals, trivial, true, rfl, ?_⟩
      rw [if_pos rfl, SharedCounters.apply]
      split <;> rfl
    · simp only [hlen, if_false]
      exact ⟨fun _ => Iff.rfl, trivial, false, rfl, rfl⟩

/-! ## Every run -/

/-- **Only tracked keys are visited**, on every run. -/
theorem run_tracked (hbatch : 0 < cfg.batch) {es : List Event} {s : State}
    (hrun : run (step F cfg) {} es = some s) : Tracked cfg s := by
  refine run_invariant_always (I := Tracked cfg) ⟨by simp [State.outstanding], by simp⟩ ?_ hrun
  intro s e t hs hstep
  cases e with
  | check source key now =>
    cases hstep
    obtain ⟨hpass, hmem⟩ := @check_at_pass F _ cfg s.counters source key now
    refine ⟨?_, hs.lines⟩
    intro k hk
    rw [State.outstanding, hpass] at hk
    exact hmem k (hs.pass k hk)
  | start now order =>
    obtain ⟨⟨hnone, horder⟩, rfl⟩ := eq_of_guarded hstep
    have hrefill := hs.refill horder
    obtain ⟨hmem, -, ⟨hflight, hpass⟩ | ⟨b, hflight, hlines, hentries, hpass⟩⟩ :=
      start_cases now hbatch hrefill
    · refine ⟨?_, by simp [hflight]⟩
      intro key hkey
      rw [State.outstanding, hflight, hpass] at hkey
      refine (hmem key).mpr (hs.pass key (List.mem_append_left _ ?_))
      simpa using hkey
    · refine ⟨?_, ?_⟩
      · intro key hkey
        rw [State.outstanding, hflight, hpass, Option.map_some, Option.getD_some, hentries,
          rest_append_batch] at hkey
        exact (hmem key).mpr (hrefill key hkey)
      · intro b' hb'
        rw [hflight] at hb'
        cases hb'
        exact hlines
  | finish reply =>
    obtain ⟨b, hflight, rfl⟩ := Option.map_eq_some_iff.mp hstep
    obtain ⟨hmem, hnone, ok, -, hpass⟩ := finish_cases s b reply
    refine ⟨?_, by simp [hnone]⟩
    intro key hkey
    refine (hmem key).mpr (hs.pass key ?_)
    rw [State.outstanding, hnone, hpass] at hkey
    rw [State.outstanding, hflight]
    cases ok with
    | false => simpa using hkey
    | true => exact List.mem_append_left _ (by simpa using hkey)

/-! ## One pass -/

/-- Where a pass over `walk` has got to, by its log. -/
structure Passing (cfg : SharedConfig) (walk : List Str) (log : List Tick) (s : State) : Prop where
  follows : Follows cfg.batch (walk.map (cache_key cfg)) log
  /-- As long as a key is not done, what is outstanding is what is left of the walk. -/
  left_eq : successes log * cfg.batch < walk.length →
    s.outstanding = left cfg.batch walk (successes log) ∧
      ∀ b ∈ s.in_flight, b.entries = batch cfg.batch (left cfg.batch walk (successes log))
  /-- The last batch leaves the pass empty. -/
  cleared : s.in_flight = none → log.getLast?.any Prod.snd = true →
    successes log = rounds cfg.batch walk.length → s.counters.pass = []

/-- A pass is where it was if what is in flight and what is to be visited are what they were. -/
theorem Passing.of_pass {walk : List Str} {log : List Tick} {s t : State}
    (h : Passing cfg walk log s) (hflight : t.in_flight = s.in_flight)
    (hpass : t.counters.pass = s.counters.pass) : Passing cfg walk log t := by
  refine ⟨h.follows, ?_, ?_⟩
  · rw [State.outstanding, hflight, hpass]
    exact h.left_eq
  · rw [hflight, hpass]
    exact h.cleared

/-- A tick begins: the next batch of the walk is taken, if there is one. -/
theorem Passing.start (hbatch : 0 < cfg.batch) {walk : List Str} {log : List Tick} {s : State}
    (hs : Tracked cfg s) (h : Passing cfg walk log s) (hnone : s.in_flight = none)
    {order : List Str} (horder : order.Perm s.counters.shards.keys) (now : SystemTime) :
    Passing cfg walk log (s.start cfg now order) := by
  have hout : s.outstanding = s.counters.pass := by
    rw [State.outstanding, hnone]
    exact List.append_nil _
  obtain ⟨-, -, ⟨hflight, hpass⟩ | ⟨b, hflight, -, hentries, hpass⟩⟩ :=
    start_cases now hbatch (hs.refill horder)
  · exact h.of_pass (hflight.trans hnone.symm) hpass
  · refine ⟨h.follows, ?_, ?_⟩
    · intro hlt
      -- The pass is not over, so it is not refilled.
      obtain ⟨hleft, -⟩ := h.left_eq hlt
      rw [hout] at hleft
      have hne : s.counters.pass ≠ [] := by
        rw [hleft]
        refine List.ne_nil_of_length_pos ?_
        rw [left_length]
        omega
      rw [Visits.refill_of_ne_nil hne, hleft] at hentries hpass
      rw [State.outstanding, hflight, hpass]
      refine ⟨?_, ?_⟩
      · rw [Option.map_some, Option.getD_some, hentries]
        exact rest_append_batch _ _
      · intro b' hb'
        cases hb'
        exact hentries
    · rw [hflight]
      intro hno
      cases hno

/-- What is in flight while a pass is not over, and what is to be visited after it. -/
theorem Passing.in_flight {walk : List Str} {log : List Tick} {s : State} {b : Batch}
    (h : Passing cfg walk log s) (hflight : s.in_flight = some b)
    (hlt : successes log * cfg.batch < walk.length) :
    b.entries = batch cfg.batch (left cfg.batch walk (successes log)) ∧
      s.counters.pass = rest cfg.batch (left cfg.batch walk (successes log)) := by
  obtain ⟨hleft, hentries⟩ := h.left_eq hlt
  refine ⟨hentries b hflight, ?_⟩
  rw [State.outstanding, hflight, Option.map_some, Option.getD_some, hentries b hflight] at hleft
  exact List.append_cancel_right (hleft.trans (rest_append_batch _ _).symm)

/-- A tick ends: its batch is done, or is the next one again. -/
theorem Passing.finish (hbatch : 0 < cfg.batch) {walk : List Str} {log : List Tick} {s : State}
    {b : Batch} (hs : Tracked cfg s) (h : Passing cfg walk log s) (hflight : s.in_flight = some b)
    (reply : Option (List Totals)) :
    ∃ ok, (s.finish b reply).ticks = s.ticks ++ [(b.publishes.map Publish.key, ok)] ∧
      Passing cfg walk (log ++ [(b.publishes.map Publish.key, ok)]) (s.finish b reply) := by
  obtain ⟨-, hnone, ok, hticks, hpass⟩ := finish_cases s b reply
  have hlines := hs.lines b hflight
  have hsucc : successes (log ++ [(b.publishes.map Publish.key, ok)])
      = successes log + if ok then 1 else 0 := by
    rw [successes, List.countP_append, List.countP_singleton]
    rfl
  refine ⟨ok, hticks, h.follows.concat ?_, ?_, ?_⟩
  · intro hlt
    rw [List.length_map] at hlt
    rw [hlines, (h.in_flight hflight hlt).1, left_map, batch_map]
  · rw [hsucc, State.outstanding, hnone, hpass]
    intro hlt
    refine ⟨?_, by simp⟩
    cases ok with
    | false =>
      obtain ⟨hentries, hrest⟩ := h.in_flight hflight hlt
      simp only [Bool.false_eq_true, if_false, Option.map_none, Option.getD_none, List.append_nil,
        Nat.add_zero]
      rw [hrest, hentries, rest_append_batch]
    | true =>
      rw [if_pos rfl, Nat.succ_mul] at hlt
      obtain ⟨-, hrest⟩ := h.in_flight hflight (by omega)
      simp only [if_true, Option.map_none, Option.getD_none, List.append_nil]
      rw [hrest, left_succ]
  · -- The log ends in a success that was the last of the walk.
    intro _ hlast hcount
    rw [List.getLast?_concat] at hlast
    obtain rfl : ok = true := hlast
    rw [hsucc, if_pos rfl] at hcount
    have hlt : successes log * cfg.batch < walk.length :=
      (lt_rounds_iff hbatch).mp (by omega)
    have hnot := mt (lt_rounds_iff (n := walk.length) (k := successes log + 1) hbatch).mpr
      (by omega)
    rw [hpass, if_pos rfl, (h.in_flight hflight hlt).2, left_succ]
    refine List.eq_nil_of_length_eq_zero ?_
    rw [left_length]
    omega

theorem step_passing (hbatch : 0 < cfg.batch) {walk : List Str} {log : List Tick} {s t : State}
    {e : Event} (hs : Tracked cfg s) (h : Passing cfg walk log s)
    (hstep : step F cfg s e = some t) :
    ∃ more, t.ticks = s.ticks ++ more ∧ Passing cfg walk (log ++ more) t := by
  cases e with
  | check source key now =>
    cases hstep
    refine ⟨[], (List.append_nil _).symm, ?_⟩
    rw [List.append_nil]
    exact h.of_pass rfl (@check_at_pass F _ cfg s.counters source key now).1
  | start now order =>
    obtain ⟨⟨hnone, horder⟩, rfl⟩ := eq_of_guarded hstep
    obtain ⟨-, hticks, -⟩ := start_cases now hbatch (hs.refill horder)
    refine ⟨[], hticks.trans (List.append_nil _).symm, ?_⟩
    rw [List.append_nil]
    exact h.start hbatch hs (Option.isNone_iff_eq_none.mp hnone) horder now
  | finish reply =>
    obtain ⟨b, hflight, rfl⟩ := Option.map_eq_some_iff.mp hstep
    obtain ⟨ok, hticks, hpassing⟩ := h.finish hbatch hs hflight reply
    exact ⟨_, hticks, hpassing⟩

/-! ## Fairness -/

/-- What the log of a pass that began with the keys `tracked` is, and where it has led. -/
structure Fair (cfg : SharedConfig) (tracked : List Str) (log : List Tick) (s : State) : Prop where
  distinct : (tracked.map (cache_key cfg)).Nodup
  /-- While every tick succeeds, no fewer than `rounds` publish all the keys, and these publish
  each of them once. -/
  all_succeed : ∀ m ≤ log.length, (∀ t ∈ log.take m, t.2 = true) →
    (m < rounds cfg.batch tracked.length →
      ((log.take m).flatMap Prod.fst).length < tracked.length) ∧
    (m = rounds cfg.batch tracked.length →
      ((log.take m).flatMap Prod.fst).Perm (tracked.map (cache_key cfg)))
  /-- The tick after one that failed publishes the same keys. -/
  failed : ∀ before t u after, log = before ++ t :: u :: after →
    successes before < rounds cfg.batch tracked.length → t.2 = false → u.1 = t.1
  /-- No key is published twice successfully, nor one that is not of the pass, -/
  once : ∀ m ≤ log.length, successes (log.take m) ≤ rounds cfg.batch tracked.length →
    ∃ todo, (done (log.take m) ++ todo).Perm (tracked.map (cache_key cfg))
  /-- and none is lost: it is done, in flight, or still to visit. -/
  kept : successes log < rounds cfg.batch tracked.length →
    (done log ++ s.outstanding.map (cache_key cfg)).Perm (tracked.map (cache_key cfg))
  /-- The last tick leaves nothing to visit. -/
  cleared : s.in_flight = none → log.getLast?.any Prod.snd = true →
    successes log = rounds cfg.batch tracked.length → s.counters.pass = []

theorem cache_key_injective (cfg : SharedConfig) : Function.Injective (cache_key cfg) :=
  fun _ _ h => List.append_cancel_left h

theorem Passing.fair (hbatch : 0 < cfg.batch) {walk tracked : List Str} {log : List Tick}
    {s : State} (hperm : walk.Perm tracked) (hnodup : tracked.Nodup)
    (h : Passing cfg walk log s) : Fair cfg tracked log s := by
  have hlen : (walk.map (cache_key cfg)).length = tracked.length := by
    rw [List.length_map, hperm.length_eq]
  -- What is done and what is left, at any point of the pass.
  have hpart : ∀ m, successes (log.take m) ≤ rounds cfg.batch tracked.length →
      (done (log.take m) ++ left cfg.batch (walk.map (cache_key cfg)) (successes (log.take m))).Perm
        (tracked.map (cache_key cfg)) := by
    intro m hle
    have hfollows : Follows cfg.batch (walk.map (cache_key cfg)) (log.take m) := by
      have hall : Follows cfg.batch (walk.map (cache_key cfg)) (log.take m ++ log.drop m) := by
        rw [List.take_append_drop]
        exact h.follows
      exact hall.append_left
    refine (hfollows.perm ?_).trans (hperm.map _)
    intro k hk
    rw [hlen]
    exact (lt_rounds_iff hbatch).mp (Nat.lt_of_lt_of_le hk hle)
  refine ⟨hnodup.map (cache_key_injective cfg), ?_, ?_, fun m _ hle => ⟨_, hpart m hle⟩, ?_, ?_⟩
  · intro m hm hall
    obtain ⟨hcount, hdone⟩ := of_all_succeed hall
    rw [List.length_take, Nat.min_eq_left hm] at hcount
    have hpart := hpart m
    rw [hcount, hdone] at hpart
    constructor
    · intro hlt
      have hlength := (hpart (Nat.le_of_lt hlt)).length_eq
      have hmore := (lt_rounds_iff hbatch).mp hlt
      rw [List.length_append, left_length, hlen, List.length_map] at hlength
      omega
    · intro heq
      have hnone : left cfg.batch (walk.map (cache_key cfg)) m = [] := by
        refine List.eq_nil_of_length_eq_zero ?_
        have hnot := mt (lt_rounds_iff (k := m) hbatch).mpr (Nat.not_lt.mpr heq.ge)
        rw [left_length, hlen]
        omega
      have hall := hpart heq.le
      rwa [hnone, List.append_nil] at hall
  · intro before t u after hlog hlt hfailed
    have hfollows := h.follows
    rw [hlog] at hfollows
    refine hfollows.again ?_ hfailed
    rw [hlen]
    exact (lt_rounds_iff hbatch).mp hlt
  · intro hlt
    have hpart := hpart log.length
    rw [List.take_length] at hpart
    obtain ⟨hleft, -⟩ := h.left_eq (by
      rw [hperm.length_eq]
      exact (lt_rounds_iff hbatch).mp hlt)
    rw [hleft, ← left_map]
    exact hpart (Nat.le_of_lt hlt)
  · rw [← hperm.length_eq]
    exact h.cleared

/-- **A pass is fair.** A reconciliation that finds the pass empty and has something to send
begins one, and whatever is tracked, fails or succeeds from there on, its log is fair to the keys
that were tracked then. -/
theorem sync_pass_fair (hbatch : 0 < cfg.batch) {es more : List Event} {s begun t : State}
    {now : SystemTime} {order : List Str} (hrun : run (step F cfg) {} es = some s)
    (hpass : s.counters.pass = []) (hbegin : step F cfg s (.start now order) = some begun)
    (hflight : begun.in_flight ≠ none) (hmore : run (step F cfg) begun more = some t) :
    ∃ log, t.ticks = s.ticks ++ log ∧ Fair cfg s.counters.shards.keys log t := by
  have hs := run_tracked hbatch hrun
  have hbegun : run (step F cfg) {} (es ++ [.start now order]) = some begun :=
    run_concat.mpr ⟨s, hrun, hbegin⟩
  obtain ⟨⟨hnone, horder⟩, rfl⟩ := eq_of_guarded hbegin
  have hkept := start_cases now hbatch (hs.refill horder)
  rw [hpass, Visits.refill_nil] at hkept
  obtain ⟨-, hticks, ⟨hno, -⟩ | ⟨b, hb, -, hentries, hrest⟩⟩ := hkept
  · exact absurd hno hflight
  have hbegan : Passing cfg order [] (s.start cfg now order) := by
    refine ⟨trivial, ?_, ?_⟩
    · intro _
      rw [State.outstanding, hb, hrest, successes_nil, left_zero]
      refine ⟨?_, ?_⟩
      · rw [Option.map_some, Option.getD_some, hentries]
        exact rest_append_batch _ _
      · intro b' hb'
        cases hb'
        exact hentries
    · intro hno
      exact absurd hno hflight
  -- The rest of the run, with the log so far.
  obtain ⟨log, hlog, hpassing⟩ : ∃ log, t.ticks = s.ticks ++ log ∧ Passing cfg order log t := by
    have hany : Along (step F cfg) (fun _ _ => True) (s.start cfg now order) more :=
      along_of_forall fun _ _ _ => trivial
    refine run_induction
      (P := fun _ t => ∃ log, t.ticks = s.ticks ++ log ∧ Passing cfg order log t)
      ⟨[], ?_, hbegan⟩ ?_ hmore hany
    · rw [hticks, List.append_nil]
    · rintro fs e u v hu ⟨log, hlog, hpassing⟩ - hstep
      have hru : run (step F cfg) {} (es ++ [.start now order] ++ fs) = some u := by
        rw [run_append, hbegun]
        exact hu
      obtain ⟨more, hmore, hpassing⟩ := step_passing hbatch (run_tracked hbatch hru) hpassing hstep
      refine ⟨log ++ more, ?_, hpassing⟩
      rw [hmore, hlog, List.append_assoc]
  exact ⟨log, hlog, hpassing.fair hbatch horder s.counters.shards.nodupKeys⟩

/-! ## A pass of three keys -/

/-- Two keys a tick. -/
def two_a_tick : SharedConfig := ⟨"p:".toList, NANOS_PER_SEC, 10, 2, Nat.le_refl _⟩

/-- The keys of the limiter. -/
def three_keys : List Str := [['a'], ['b'], ['c']]

/-- What the clock reads throughout. -/
def moment : SystemTime := UNIX_EPOCH

/-- A request for each of the keys. -/
def three_requests : List Event := three_keys.map fun key => .check 0 key moment

/-- The first tick is misaligned, the second and the third succeed, and a key is first seen
while the first waits. -/
def three_ticks : List Event :=
  [.check 1 ['d'] moment, .finish (some []), .start moment [['d'], ['c'], ['b'], ['a']],
    .finish (some [⟨1, 0⟩, ⟨1, 0⟩]), .start moment [['d'], ['c'], ['b'], ['a']],
    .finish (some [⟨1, 0⟩])]

/-- The limiter before the pass, when it has begun, and in the end. -/
def before_pass : State where
  counters := three_keys.foldl (fun c key => (c.check_at two_a_tick ℚ 0 key moment).1) {}

def in_pass : State := before_pass.start two_a_tick moment three_keys

def after_pass : State := (run (step ℚ two_a_tick) in_pass three_ticks).getD in_pass

theorem sync_pass_fair_three_keys :
    after_pass.ticks = [([['p', ':', 'b'], ['p', ':', 'c']], false),
        ([['p', ':', 'b'], ['p', ':', 'c']], true), ([['p', ':', 'a']], true)] ∧
      ∃ log, after_pass.ticks = before_pass.ticks ++ log
        ∧ Fair two_a_tick before_pass.counters.shards.keys log after_pass := by
  have hrun : run (step ℚ two_a_tick) {} three_requests = some before_pass := rfl
  have hbegin : step ℚ two_a_tick before_pass (.start moment three_keys) = some in_pass := rfl
  have hmore : run (step ℚ two_a_tick) in_pass three_ticks = some after_pass := rfl
  exact ⟨rfl, sync_pass_fair (by decide) hrun rfl hbegin (Option.some_ne_none _) hmore⟩

end Lagos.SyncPass
