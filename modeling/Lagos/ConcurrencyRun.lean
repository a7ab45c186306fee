/-
That the caps of `concurrency.rs` hold, over any interleaving of requests, drops and reloads.

For a route the claim is that its count is of its outstanding slots. It rests on the wiring: the
counters of two keys are different ones, and a request that has a counter has that of its key
(`Exact`), also where two requests asked for it first at once. For a caller it is that a slot was
within the cap, together with those that had been taken before it (`Ticketed`); a slot that is
dropped can only leave fewer.
-/
import Lagos.Concurrency

set_option autoImplicit false

open RustStd

namespace Lagos.Concurrency

open Lagos.Config Lagos.Proxy Permits StepRun

variable {σ : Type} {sk : Sketch σ}

/-! ## Route counters -/

/-- The counters of the keys are different ones. -/
structure Routed (f : InFlight σ) : Prop where
  injective : ∀ k k' i, f.routes k = some i → f.routes k' = some i → k = k'
  bound : ∀ k i, f.routes k = some i → i < f.counters.length

/-- The count of a key is in its counter. -/
theorem InFlight.count_eq {f : InFlight σ} {key : Str} {i n : ℕ} (hroute : f.routes key = some i)
    (hn : f.counters[i]? = some n) : f.count key = n := by
  rw [InFlight.count, hroute, Option.bind_some, hn, Option.getD_some]

/-- A write to the counter of a key is to the count of this key. -/
theorem Routed.count_set {f : InFlight σ} (h : Routed f) {key : Str} {i n : ℕ}
    (hroute : f.routes key = some i) :
    ({ f with counters := f.counters.set i n } : InFlight σ).count
      = Function.update f.count key n := by
  funext k
  by_cases hk : k = key
  · rw [hk, Function.update_self]
    refine InFlight.count_eq hroute ?_
    exact List.getElem?_set_self (h.bound key i hroute)
  · rw [Function.update_of_ne hk]
    unfold InFlight.count
    cases hother : f.routes k with
    | none => rfl
    | some i' =>
      have hne : i ≠ i' := by
        intro hii
        exact hk (h.injective k key i' hother (hii ▸ hroute))
      rw [Option.bind_some, Option.bind_some, List.getElem?_set_ne hne]

/-- A new counter is zero, as the key's count was. -/
theorem Routed.create {f : InFlight σ} (h : Routed f) {key : Str} (hnone : f.routes key = none) :
    let f' : InFlight σ :=
      { f with routes := Function.update f.routes key (some f.counters.length)
               counters := f.counters ++ [0] }
    Routed f' ∧ f'.count = f.count := by
  refine ⟨⟨?_, ?_⟩, ?_⟩
  · intro k k' i hk hk'
    simp only at hk hk'
    by_cases hkey : k = key
    · by_cases hkey' : k' = key
      · rw [hkey, hkey']
      · rw [hkey, Function.update_self] at hk
        rw [Function.update_of_ne hkey'] at hk'
        have := h.bound k' i hk'
        cases hk
        exact absurd this (Nat.lt_irrefl _)
    · rw [Function.update_of_ne hkey] at hk
      by_cases hkey' : k' = key
      · rw [hkey', Function.update_self] at hk'
        have := h.bound k i hk
        cases hk'
        exact absurd this (Nat.lt_irrefl _)
      · rw [Function.update_of_ne hkey'] at hk'
        exact h.injective k k' i hk hk'
  · intro k i hk
    simp only at hk ⊢
    rw [List.length_append, List.length_singleton]
    by_cases hkey : k = key
    · rw [hkey, Function.update_self] at hk
      cases hk
      exact Nat.lt_succ_self _
    · rw [Function.update_of_ne hkey] at hk
      exact Nat.lt_succ_of_lt (h.bound k i hk)
  · funext k
    unfold InFlight.count
    simp only
    by_cases hkey : k = key
    · rw [hkey, Function.update_self, hnone, Option.bind_some, Option.bind_none,
        List.getElem?_append_right (Nat.le_refl _), Nat.sub_self]
      rfl
    · rw [Function.update_of_ne hkey]
      cases hk : f.routes k with
      | none => rfl
      | some i =>
        rw [Option.bind_some, Option.bind_some, List.getElem?_append_left (h.bound k i hk)]

/-- The count of every key is of its slots, and every request has the counter of its key. -/
structure Exact (f : InFlight σ) (tasks : List Task) : Prop extends Routed f where
  wired : ∀ t ∈ tasks, ∀ i, t.phase.counter = some i → f.routes t.slot.key = some i
  count : f.count = held Phase.holds_route tasks

section Exact

variable {f f' : InFlight σ} {tasks : List Task} {j : ℕ} {t : Task} {p : Phase}

/-- The counter that a request has holds the count of its key. -/
theorem Exact.counter (h : Exact f tasks) (hj : tasks[j]? = some t) {i : ℕ}
    (hi : t.phase.counter = some i) :
    f.routes t.slot.key = some i ∧ f.counters[i]? = some (f.count t.slot.key) := by
  have hroute := h.wired t (List.mem_of_getElem? hj) i hi
  obtain ⟨n, hn⟩ : ∃ n, f.counters[i]? = some n :=
    ⟨_, List.getElem?_eq_getElem (h.bound _ i hroute)⟩
  exact ⟨hroute, (InFlight.count_eq hroute hn).symm ▸ hn⟩

/-- A step that touches no counter. -/
theorem Exact.quiet (h : Exact f tasks) (hj : tasks[j]? = some t) (callers : σ)
    (hp : p.holds_route = t.phase.holds_route)
    (hw : p.counter = none ∨ f.routes t.slot.key = p.counter) :
    Exact { f with callers := callers } (tasks.set j { t with phase := p }) where
  injective := h.injective
  bound := h.bound
  wired := by
    refine forall_mem_set h.wired ?_
    intro i hi
    obtain hnone | hroute := hw
    · cases hnone.symm.trans hi
    · exact hroute.trans hi
  count := by
    rw [held_set_same hj hp]
    exact h.count

/-- A step that writes the counter of its key. -/
theorem Exact.write (h : Exact f tasks) (hj : tasks[j]? = some t) {i n : ℕ}
    (hi : t.phase.counter = some i) (hw : p.counter = none ∨ p.counter = some i)
    (hn : Function.update f.count t.slot.key n
      = held Phase.holds_route (tasks.set j { t with phase := p })) :
    Exact { f with counters := f.counters.set i n } (tasks.set j { t with phase := p }) := by
  obtain ⟨hroute, -⟩ := h.counter hj hi
  refine ⟨⟨h.injective, ?_⟩, ?_, ?_⟩
  · intro k c hc
    rw [List.length_set]
    exact h.bound k c hc
  · refine forall_mem_set h.wired ?_
    intro k hk
    obtain hnone | hsome := hw
    · cases hnone.symm.trans hk
    · rw [← hk]
      exact hroute.trans hsome.symm
  · rw [h.count_set hroute]
    exact hn

/-- **One step of a request.** It takes a slot, or leaves every count. -/
theorem Exact.advance (h : Exact f tasks) (hj : tasks[j]? = some t) (hmax : t.slot.max ≤ U64_MAX)
    {ticket : ℕ} (hadv : Advance sk f ticket t.slot t.phase f' p) :
    Exact f' (tasks.set j { t with phase := p }) ∧
      if p.holds_route then
        f'.count = Function.update f.count t.slot.key (f.count t.slot.key + 1) ∧
          f'.count t.slot.key ≤ t.slot.max
      else f'.count = f.count := by
  generalize hphase : t.phase = q at hadv
  cases hadv with
  | grant _ => exact ⟨h.quiet hj _ (by rw [hphase]; rfl) (.inl rfl), rfl⟩
  | exceeded => exact ⟨h.quiet hj _ (by rw [hphase]; rfl) (.inl rfl), rfl⟩
  | lookup hroute =>
    exact ⟨h.quiet hj _ (by rw [hphase]; rfl) (.inr hroute), rfl⟩
  | miss => exact ⟨h.quiet hj _ (by rw [hphase]; rfl) (.inl rfl), rfl⟩
  | again hroute =>
    exact ⟨h.quiet hj _ (by rw [hphase]; rfl) (.inr hroute), rfl⟩
  | create hnone =>
    -- The count of a key without a counter is zero too, so nothing changes.
    obtain ⟨hrouted, hcount⟩ := h.toRouted.create hnone
    refine ⟨⟨hrouted, forall_mem_set ?_ ?_, ?_⟩, hcount⟩
    · -- No other request has a counter of this key yet.
      intro u hu i hi
      have hroute := h.wired u hu i hi
      have hne : u.slot.key ≠ t.slot.key := by
        intro hkey
        rw [hkey, hnone] at hroute
        cases hroute
      simp only
      rw [Function.update_of_ne hne]
      exact hroute
    · intro i hi
      cases hi
      exact Function.update_self ..
    · rw [hcount, held_set_same hj (by rw [hphase]; rfl)]
      exact h.count
  | load i n =>
    obtain ⟨hroute, -⟩ := h.counter (i := i) hj (by rw [hphase]; rfl)
    exact ⟨h.quiet hj _ (by rw [hphase]; rfl) (.inr hroute), rfl⟩
  | retry i n now =>
    obtain ⟨hroute, -⟩ := h.counter (i := i) hj (by rw [hphase]; rfl)
    exact ⟨h.quiet hj _ (by rw [hphase]; rfl) (.inr hroute), rfl⟩
  | refuse i n => exact ⟨h.quiet hj _ (by rw [hphase]; rfl) (.inl rfl), rfl⟩
  | @swap i n hlt hn =>
    -- What was read is what is there, whatever happened in between.
    obtain ⟨hroute, hcount⟩ := h.counter (i := i) hj (by rw [hphase]; rfl)
    obtain rfl : n = f.count t.slot.key := Option.some.inj (hn.symm.trans hcount)
    have hsat : saturating_add_u64 (f.count t.slot.key) 1 = f.count t.slot.key + 1 := by
      rw [saturating_add_u64]
      omega
    have hset := h.count_set (n := f.count t.slot.key + 1) hroute
    rw [hsat]
    refine ⟨h.write hj (by rw [hphase]; rfl) (.inr rfl) ?_, ?_⟩
    · rw [held_set_up hj (by rw [hphase]; rfl) rfl, h.count]
    · refine ⟨hset, ?_⟩
      rw [hset, Function.update_self]
      exact hlt
  | give_back => exact ⟨h.quiet hj _ (by rw [hphase]; rfl) (.inl rfl), rfl⟩

/-- **A drop** gives the slot back that was held. -/
theorem Exact.release (h : Exact f tasks) (hj : tasks[j]? = some t)
    (hrel : release sk f t.slot t.phase = some f') :
    Exact f' (tasks.set j { t with phase := .done }) ∧
      if t.phase.holds_route then
        f.count = Function.update f'.count t.slot.key (f'.count t.slot.key + 1)
      else f'.count = f.count := by
  obtain ⟨i, n, hphase, hn, rfl⟩ | ⟨ticket, hphase, rfl⟩ | ⟨hphase, rfl⟩ := release_cases hrel
  · obtain ⟨hroute, hcount⟩ := h.counter (i := i) hj (by rw [hphase]; rfl)
    obtain rfl : n = f.count t.slot.key := Option.some.inj (hn.symm.trans hcount)
    -- The request's own slot is one of those counted.
    have hdown := held_set_down (P := Phase.holds_route) (p := .done) hj (by rw [hphase]; rfl) rfl
    rw [← h.count] at hdown
    have hone := congrFun hdown t.slot.key
    rw [Function.update_self] at hone
    have hsub : fetch_sub (f.count t.slot.key) = f.count t.slot.key - 1 := by
      rw [fetch_sub, if_neg (by omega)]
    have hset := h.count_set (n := f.count t.slot.key - 1) hroute
    have heq : Function.update f.count t.slot.key (f.count t.slot.key - 1)
        = held Phase.holds_route (tasks.set j { t with phase := .done }) := by
      rw [hdown, Function.update_self, Nat.add_sub_cancel, Function.update_idem,
        Function.update_eq_self]
    rw [hsub, hphase]
    refine ⟨h.write hj (by rw [hphase]; rfl) (.inl rfl) heq, ?_⟩
    simp only [Phase.holds_route, if_true]
    rw [hset, heq]
    exact hdown
  · rw [hphase]
    exact ⟨h.quiet hj _ (by rw [hphase]; rfl) (.inl rfl), rfl⟩
  · have hno : t.phase.holds_route = false := by
      obtain hphase | hphase := hphase <;> rw [hphase] <;> rfl
    rw [hno]
    exact ⟨h.quiet hj f'.callers hno.symm (.inl rfl), rfl⟩

end Exact

/-! ## Callers -/

section Callers

variable {f f' : InFlight σ} {tasks : List Task} {j : ℕ} {t : Task} {p : Phase}

/-- The guards that are out of the sketch are those of the requests. -/
theorem Advance.reached (h : sk.Reached f.callers (held Phase.guarded tasks))
    (hj : tasks[j]? = some t) {ticket : ℕ}
    (hadv : Advance sk f ticket t.slot t.phase f' p) :
    sk.Reached f'.callers (held Phase.guarded (tasks.set j { t with phase := p })) := by
  generalize hphase : t.phase = q at hadv
  have hup (hp : p.guarded = true) (hq : t.phase.guarded = false) :
      sk.Reached (sk.incr f.callers t.slot.key).1
        (held Phase.guarded (tasks.set j { t with phase := p })) := by
    rw [held_set_up hj hq hp]
    exact .incr t.slot.key h
  have hsame (hp : p.guarded = t.phase.guarded) :
      sk.Reached f.callers (held Phase.guarded (tasks.set j { t with phase := p })) := by
    rw [held_set_same hj hp]
    exact h
  cases hadv with
  | grant _ => exact hup rfl (by rw [hphase]; rfl)
  | exceeded => exact hup rfl (by rw [hphase]; rfl)
  | lookup _ => exact hsame (by rw [hphase]; rfl)
  | miss => exact hsame (by rw [hphase]; rfl)
  | again _ => exact hsame (by rw [hphase]; rfl)
  | create _ => exact hsame (by rw [hphase]; rfl)
  | load _ _ => exact hsame (by rw [hphase]; rfl)
  | retry _ _ _ => exact hsame (by rw [hphase]; rfl)
  | refuse _ _ => exact hsame (by rw [hphase]; rfl)
  | swap _ _ => exact hsame (by rw [hphase]; rfl)
  | give_back =>
    rw [held_set_down (p := .refused) hj (by rw [hphase]; rfl) rfl] at h
    exact .drop t.slot.key h

theorem release_reached (h : sk.Reached f.callers (held Phase.guarded tasks))
    (hj : tasks[j]? = some t) (hrel : release sk f t.slot t.phase = some f') :
    sk.Reached f'.callers (held Phase.guarded (tasks.set j { t with phase := .done })) := by
  have hsame (hp : t.phase.guarded = false) :
      sk.Reached f.callers (held Phase.guarded (tasks.set j { t with phase := .done })) := by
    rw [held_set_same hj hp.symm]
    exact h
  obtain ⟨i, n, hphase, -, rfl⟩ | ⟨ticket, hphase, rfl⟩ | ⟨hphase, rfl⟩ := release_cases hrel
  · exact hsame (by rw [hphase]; rfl)
  · rw [held_set_down (p := .done) hj (by rw [hphase]; rfl) rfl] at h
    exact .drop t.slot.key h
  · refine hsame ?_
    obtain hphase | hphase := hphase <;> rw [hphase] <;> rfl

/-- A caller's slot is numbered by the step it was taken at, and was within the cap with those
taken before it. -/
structure Ticketed (tasks : List Task) (steps : ℕ) : Prop where
  below : ∀ t ∈ tasks, ∀ n, t.phase = .caller n → n < steps
  capped : ∀ t ∈ tasks, ∀ n, t.phase = .caller n →
    held (Phase.before (n + 1)) tasks t.slot.key ≤ t.slot.max

/-- A request that goes on without a caller's slot. -/
theorem Ticketed.quiet {steps : ℕ} (h : Ticketed tasks steps) (hj : tasks[j]? = some t)
    (hp : p.holds_caller = false) : Ticketed (tasks.set j { t with phase := p }) (steps + 1) := by
  have hno : ∀ n, p ≠ .caller n := by
    intro n hn
    rw [hn] at hp
    cases hp
  have hle : ∀ n key, held (Phase.before n) (tasks.set j { t with phase := p }) key
      ≤ held (Phase.before n) tasks key := by
    intro n key
    have hset := held_set (P := Phase.before n) (p := p) hj key
    rw [Phase.before_of_not_caller hp n] at hset
    simp only [Bool.false_eq_true, and_false, if_false] at hset
    omega
  refine ⟨forall_mem_set ?_ ?_, forall_mem_set ?_ ?_⟩
  · intro u hu n hn
    exact Nat.lt_succ_of_lt (h.below u hu n hn)
  · intro n hn
    exact absurd hn (hno n)
  · intro u hu n hn
    exact Nat.le_trans (hle _ _) (h.capped u hu n hn)
  · intro n hn
    exact absurd hn (hno n)

/-- A caller is admitted: the count it was given is of every slot of its key. -/
theorem Ticketed.grant (hsk : sk.NeverUndercounts) {steps : ℕ} (h : Ticketed tasks steps)
    (hreached : sk.Reached f.callers (held Phase.guarded tasks)) (hj : tasks[j]? = some t)
    (hphase : t.phase = .pending)
    (hle : (sk.incr f.callers t.slot.key).2.toNat ≤ t.slot.max) :
    Ticketed (tasks.set j { t with phase := .caller steps }) (steps + 1) := by
  have hcount := hsk _ _ hreached t.slot.key
  refine ⟨forall_mem_set ?_ ?_, forall_mem_set ?_ ?_⟩
  · intro u hu n hn
    exact Nat.lt_succ_of_lt (h.below u hu n hn)
  · intro n hn
    cases hn
    exact Nat.lt_succ_self _
  · -- The new slot is none of those that came before.
    intro u hu n hn
    have hn' := h.below u hu n hn
    rw [held_set_same hj]
    · exact h.capped u hu n hn
    · rw [hphase]
      simp only [Phase.before, decide_eq_false_iff_not]
      omega
  · intro n hn
    cases hn
    have hup := held_set_up (P := Phase.guarded) (p := .caller steps) hj (by rw [hphase]; rfl) rfl
    have hall : held (Phase.before (steps + 1)) (tasks.set j { t with phase := .caller steps })
          t.slot.key
        ≤ held Phase.guarded (tasks.set j { t with phase := .caller steps }) t.slot.key :=
      held_mono (fun _ _ => Phase.guarded_of_before) t.slot.key
    rw [hup, Function.update_self] at hall
    simp only at hall ⊢
    omega

theorem Advance.ticketed (hsk : sk.NeverUndercounts) {steps : ℕ} (h : Ticketed tasks steps)
    (hreached : sk.Reached f.callers (held Phase.guarded tasks)) (hj : tasks[j]? = some t)
    (hadv : Advance sk f steps t.slot t.phase f' p) :
    Ticketed (tasks.set j { t with phase := p }) (steps + 1) := by
  generalize hphase : t.phase = q at hadv
  cases hadv with
  | grant hle => exact h.grant hsk hreached hj hphase hle
  | _ => exact h.quiet hj rfl

/-- **No more are held than the cap**, of slots that were all taken under it. -/
theorem Ticketed.held_le {steps : ℕ} (h : Ticketed tasks steps) {key : Str} {m : ℕ}
    (hm : ∀ t ∈ tasks, t.slot.key = key → t.phase.holds_caller = true → t.slot.max ≤ m) :
    held Phase.holds_caller tasks key ≤ m := by
  -- By the steps at which they were taken, one after the other.
  have hbefore : ∀ n, held (Phase.before n) tasks key ≤ m := by
    intro n
    induction n with
    | zero =>
      refine Nat.le_trans (Nat.le_of_eq ?_) (Nat.zero_le m)
      refine List.countP_eq_zero.mpr ?_
      intro t _
      cases t.phase <;> simp [Phase.before]
    | succ n ih =>
      by_cases hex : ∃ t ∈ tasks, t.slot.key = key ∧ t.phase = .caller n
      · -- The last slot was granted under the cap, with all those before it.
        obtain ⟨t, ht, hkey, hn⟩ := hex
        rw [← hkey]
        exact Nat.le_trans (h.capped t ht n hn) (hm t ht hkey (by rw [hn]; rfl))
      · -- That slot is given back, and does not count.
        refine Nat.le_trans ?_ ih
        unfold held
        refine List.countP_mono_left ?_
        intro t ht hp
        simp only [decide_eq_true_eq] at hp ⊢
        refine ⟨hp.1, ?_⟩
        obtain ⟨hkey, hp⟩ := hp
        cases hphase : t.phase with
        | caller k =>
          have hne : k ≠ n := by
            intro hk
            exact hex ⟨t, ht, hkey, by rw [hphase, hk]⟩
          rw [hphase] at hp
          simp only [Phase.before, decide_eq_true_eq] at hp ⊢
          omega
        | _ =>
          rw [hphase] at hp
          cases hp
  refine Nat.le_trans (held_mono ?_ key) (hbefore steps)
  intro t ht hp
  cases hphase : t.phase with
  | caller k =>
    have := h.below t ht k hphase
    simpa [Phase.before] using this
  | _ =>
    rw [hphase] at hp
    cases hp

end Callers

/-! ## Every run -/

structure Inv (sk : Sketch σ) (s : State σ) : Prop where
  exact : Exact s.inflight s.tasks
  reached : sk.Reached s.inflight.callers (held Phase.guarded s.tasks)
  ticketed : Ticketed s.tasks s.steps
  max_le : ∀ t ∈ s.tasks, t.slot.max ≤ U64_MAX

theorem inv_start (caps : List (Str × ConcurrencyConfig)) : Inv sk (start sk caps) := by
  refine ⟨⟨⟨?_, ?_⟩, ?_, rfl⟩, ?_, ⟨?_, ?_⟩, ?_⟩
  · intro k k' i hk
    cases hk
  · intro k i hk
    cases hk
  · exact List.forall_mem_nil _
  · exact .new
  · exact List.forall_mem_nil _
  · exact List.forall_mem_nil _
  · exact List.forall_mem_nil _

/-- What a step may do to the counts of the routes. An admission adds one to its key's and leaves
it within the cap; a drop takes one away where a slot was held; nothing else is written, by a
refused request least of all. -/
def Counts (s s' : State σ) : Event → Prop
  | .reload _ => s'.inflight = s.inflight ∧ s'.tasks = s.tasks
  | .arrive _ _ => s'.inflight = s.inflight
  | .advance j _ => ∀ t, s'.tasks[j]? = some t →
    if t.phase.holds_route then
      s'.inflight.count = Function.update s.inflight.count t.slot.key
          (s.inflight.count t.slot.key + 1) ∧
        s'.inflight.count t.slot.key ≤ t.slot.max
    else s'.inflight.count = s.inflight.count
  | .drop j => ∀ t, s.tasks[j]? = some t →
    if t.phase.holds_route then
      s.inflight.count = Function.update s'.inflight.count t.slot.key
        (s'.inflight.count t.slot.key + 1)
    else s'.inflight.count = s.inflight.count

/-- A request that arrives holds nothing. -/
theorem Inv.arrive {s : State σ} (h : Inv sk s) {slot : PendingSlot} (hmax : slot.max ≤ U64_MAX) :
    Inv sk { s with tasks := s.tasks ++ [⟨slot, .pending⟩] } := by
  have hforall {Q : Task → Prop} (hold : ∀ t ∈ s.tasks, Q t) (hnew : Q ⟨slot, .pending⟩) :
      ∀ t ∈ s.tasks ++ [⟨slot, .pending⟩], Q t := by
    intro t ht
    obtain ht | ht := List.mem_append.mp ht
    · exact hold t ht
    · rw [List.mem_singleton.mp ht]
      exact hnew
  refine ⟨⟨h.exact.toRouted, hforall h.exact.wired ?_, ?_⟩, ?_, ⟨hforall h.ticketed.below ?_, ?_⟩,
    hforall h.max_le hmax⟩
  · intro i hi
    cases hi
  · rw [held_append slot rfl]
    exact h.exact.count
  · rw [held_append slot rfl]
    exact h.reached
  · intro n hn
    cases hn
  · refine hforall ?_ ?_
    · intro t ht n hn
      rw [held_append slot rfl]
      exact h.ticketed.capped t ht n hn
    · intro n hn
      cases hn

/-- **One step** keeps the invariant, and does to the counts what it may. -/
theorem step_inv (hsk : sk.NeverUndercounts) {s s' : State σ} {e : Event} (h : Inv sk s)
    (hstep : step sk s e = some s') : Inv sk s' ∧ Counts s s' e := by
  cases e with
  | reload caps =>
    cases hstep
    exact ⟨⟨h.exact, h.reached, h.ticketed, h.max_le⟩, rfl, rfl⟩
  | arrive route_id key =>
    obtain ⟨cap, -, hcap⟩ := Option.bind_eq_some_iff.mp hstep
    obtain ⟨hmax, rfl⟩ := eq_of_guarded hcap
    exact ⟨h.arrive hmax, rfl⟩
  | advance j spurious =>
    obtain ⟨t, hj, hrest⟩ := Option.bind_eq_some_iff.mp hstep
    obtain ⟨⟨inflight, p⟩, hadv, rfl⟩ := Option.map_eq_some_iff.mp hrest
    have hcases := advance_cases hadv
    have hmax := h.max_le t (List.mem_of_getElem? hj)
    obtain ⟨hexact, hcount⟩ := h.exact.advance hj hmax hcases
    refine ⟨⟨hexact, hcases.reached h.reached hj, hcases.ticketed hsk h.ticketed h.reached hj,
      forall_mem_set h.max_le hmax⟩, ?_⟩
    intro t' ht'
    rw [List.getElem?_set_self (List.getElem?_eq_some_iff.mp hj).1] at ht'
    cases ht'
    exact hcount
  | drop j =>
    obtain ⟨t, hj, hrest⟩ := Option.bind_eq_some_iff.mp hstep
    obtain ⟨inflight, hrel, rfl⟩ := Option.map_eq_some_iff.mp hrest
    obtain ⟨hexact, hcount⟩ := h.exact.release hj hrel
    have hmax := h.max_le t (List.mem_of_getElem? hj)
    refine ⟨⟨hexact, release_reached h.reached hj hrel, h.ticketed.quiet hj rfl,
      forall_mem_set h.max_le hmax⟩, ?_⟩
    intro t' ht'
    obtain rfl : t = t' := Option.some.inj (hj.symm.trans ht')
    exact hcount

theorem run_inv (hsk : sk.NeverUndercounts) {caps : List (Str × ConcurrencyConfig)}
    {es : List Event} {s : State σ} (hrun : run (step sk) (start sk caps) es = some s) :
    Inv sk s :=
  run_invariant_always (inv_start caps) (fun _ _ _ h hstep => (step_inv hsk h hstep).1) hrun

/-- **Concurrency caps hold.** On every run, a route's count is of its outstanding slots, every
step does to the counts what it may, and a caller holds no more slots than its cap. -/
theorem concurrency_caps (hsk : sk.NeverUndercounts) {caps : List (Str × ConcurrencyConfig)}
    {es : List Event} {s : State σ} (hrun : run (step sk) (start sk caps) es = some s) :
    s.inflight.count = s.route_slots ∧
      (∀ e s', step sk s e = some s' → Counts s s' e) ∧
      ∀ key m, (∀ t ∈ s.tasks, t.slot.key = key → t.phase.holds_caller = true → t.slot.max ≤ m) →
        s.caller_slots key ≤ m := by
  have h := run_inv hsk hrun
  refine ⟨h.exact.count, ?_, ?_⟩
  · intro e s' hstep
    exact (step_inv hsk h hstep).2
  · intro key m hm
    exact h.ticketed.held_le hm

/-! ## Two requests at once -/

/-- A sketch without collisions: the guards that are out. -/
def exact_sketch : Sketch (List Str) where
  new := []
  incr out key := (key :: out, (key :: out).count key)
  drop out key := out.erase key

theorem exact_sketch_never_undercounts : exact_sketch.NeverUndercounts := by
  have hcount : ∀ s out, exact_sketch.Reached s out → ∀ key, s.count key = out key := by
    intro s out h
    induction h with
    | new => exact fun key => List.count_nil
    | incr key _ ih =>
      intro k
      change (key :: _).count k = _
      by_cases hk : k = key
      · rw [hk, List.count_cons_self, Function.update_self, ih]
      · rw [List.count_cons_of_ne (Ne.symm hk), Function.update_of_ne hk, ih]
    | drop key _ ih =>
      intro k
      change (List.erase _ key).count k = _
      by_cases hk : k = key
      · rw [hk, List.count_erase_self, ih, Function.update_self, Nat.add_sub_cancel]
      · rw [List.count_erase_of_ne hk, ih, Function.update_of_ne hk]
  intro s out h key
  refine Int.ofNat_le.mpr (Nat.le_of_eq ?_)
  rw [List.count_cons_self, hcount s out h key]

/-- A route with a cap of its own, and one with a cap for every address. -/
def one_at_once : List (Str × ConcurrencyConfig) :=
  [(['r'], ⟨1, none, .Reject, 0⟩), (['c'], ⟨1, some .Ip, .Reject, 0⟩)]

/-- Two requests find no counter, and both make it; one takes the slot, and the compare-and-swap
of the other fails. Of two requests of a caller the second is over the cap. The route is reloaded
while its slot is held. -/
def first_use : List Event :=
  [.arrive ['r'] ['r', '|'], .arrive ['r'] ['r', '|'], .advance 0 false, .advance 1 false,
    .advance 0 false, .advance 1 false, .advance 0 false, .advance 1 false, .advance 0 false,
    .advance 1 false, .advance 1 false, .arrive ['c'] ['c', '|', 'a'],
    .arrive ['c'] ['c', '|', 'a'], .advance 2 false, .advance 3 false, .advance 3 false, .reload []]

theorem concurrency_caps_first_use :
    ∃ s, run (step exact_sketch) (start exact_sketch one_at_once) first_use = some s ∧
      s.tasks.map Task.phase = [.route 0, .refused, .caller 9, .refused] ∧
      (s.inflight.count = s.route_slots ∧
        (∀ e s', step exact_sketch s e = some s' → Counts s s' e) ∧
        ∀ key m, (∀ t ∈ s.tasks, t.slot.key = key → t.phase.holds_caller = true →
          t.slot.max ≤ m) → s.caller_slots key ≤ m) := by
  have hphases : (run (step exact_sketch) (start exact_sketch one_at_once) first_use).map
      (fun s => s.tasks.map Task.phase) = some [.route 0, .refused, .caller 9, .refused] := by
    decide
  obtain ⟨s, hs, htasks⟩ := Option.map_eq_some_iff.mp hphases
  exact ⟨s, hs, htasks, concurrency_caps exact_sketch_never_undercounts hs⟩

end Lagos.Concurrency
