/-
That chains of hooks keep to their budgets, over any interleaving of the chains of a registry.

What is so of one chain is said by what it called so far (`Chain.Orderly`) and by where it is
(`Chain.Sound`): it goes on to the next hook only after the last one returned well and in time, so
it returns well exactly if all of them did. What is so of all of them is said of the gate (`Gate`):
its permits are there or with chains that were let in and are not over, so a chain that is over has
given its permit back, however it ended.
-/
import Lagos.Extensions
import Lagos.Lib.Permits

set_option autoImplicit false

open RustStd

namespace Lagos.Extensions

open Lagos.Error Lagos.Routes StepRun Permits

/-! ## One chain -/

/-- A hook returned well, before its own deadline and the chain's. -/
def HookRun.InTime (r : HookRun) (call : Call) (begun : Option Instant) : Prop :=
  ∃ b ∈ begun, ∃ t, r.ending = some (.returned t (.ok ()))
    ∧ t < r.started + call.hook_budget ∧ t < b + call.chain_budget

/-- Every hook of the route did. -/
def Chain.Served (c : Chain) : Prop :=
  c.runs.map HookRun.name = c.call.route.extensions ∧ ∀ r ∈ c.runs, r.InTime c.call c.begun

/-- Hooks were called in the order of the route, none after one that did not return well and in
time, and none after the chain's deadline. -/
structure Chain.Orderly (c : Chain) : Prop where
  in_order : c.runs.map HookRun.name <+: c.call.route.extensions
  after_success : c.runs.Pairwise fun earlier _ => earlier.InTime c.call c.begun
  before_deadline : ∀ r ∈ c.runs, ∃ b ∈ c.begun, r.started < b + c.call.chain_budget

/-- Some hooks of a call were served, and these are the others. -/
structure Through (call : Call) (begun : Option Instant) (runs : List HookRun)
    (chain_deadline : Instant) (rest : List Str) : Prop where
  deadline : ∃ b ∈ begun, chain_deadline = b + call.chain_budget
  names : runs.map HookRun.name ++ rest = call.route.extensions
  served : ∀ r ∈ runs, r.InTime call begun

/-- What is known of a chain in a phase. -/
def Chain.At (last_instant : Instant) (c : Chain) : Phase → Prop
  | .called => c.runs = []
  | .initialised | .admitted _ => c.runs = [] ∧ c.call.route.extensions ≠ []
  | .looping _ chain_deadline rest => Through c.call c.begun c.runs chain_deadline rest
  | .awaiting _ chain_deadline rest deadline _ =>
    ∃ done r, c.runs = done ++ [r] ∧ r.ending = none
      ∧ Through c.call c.begun done chain_deadline (r.name :: rest)
      ∧ ∀ t ≤ last_instant, t < deadline ↔ t < r.started + c.call.hook_budget ∧ t < chain_deadline
  | .returned result => result = .ok () ↔ c.Served
  | .cancelled => True

/-- What is known of a chain. -/
structure Chain.Sound (last_instant : Instant) (c : Chain) : Prop extends c.Orderly where
  at_phase : c.At last_instant c.phase

section One

variable {last_instant now : Instant} {admission admission' : Option ExecutionAdmission}
  {c c' : Chain}

/-- The deadline that a hook is awaited under is the earlier of the two, also where its own one
cannot be represented. -/
theorem lt_deadline {d : Duration} {chain_deadline t : Instant} (ht : t ≤ last_instant) :
    t < min ((checked_add last_instant now d).getD chain_deadline) chain_deadline
      ↔ t < now + d ∧ t < chain_deadline := by
  unfold checked_add
  split
  · rw [Option.getD_some]
    lia
  · rw [Option.getD_none, Nat.min_self]
    lia

theorem runs_conclude {done : List HookRun} {r : HookRun} (h : c.runs = done ++ [r])
    (ending : Ending) :
    (c.conclude ending).runs = done ++ [{ r with ending := some ending }] := by
  rw [Chain.conclude, h]
  exact List.modifyLast_concat _ _ _

/-- Nothing is served of a chain that called nothing. -/
theorem not_served (hruns : c.runs = []) (hsome : c.call.route.extensions ≠ []) : ¬ c.Served := by
  rintro ⟨hnames, -⟩
  rw [hruns] at hnames
  exact hsome hnames.symm

theorem served_of_empty (hruns : c.runs = []) (hnone : c.call.route.extensions = []) :
    c.Served := by
  refine ⟨?_, ?_⟩
  · rw [hruns, hnone]
    rfl
  · rw [hruns]
    nofun

/-- A hook that failed was not in time. -/
theorem not_inTime_of_fails {call : Call} {begun : Option Instant} {deadline : Instant}
    {ending : Ending} {r : HookRun} (hfails : ending.Fails now deadline)
    (hdeadline : now < r.started + call.hook_budget
      ∧ (∃ b ∈ begun, now < b + call.chain_budget) → now < deadline) :
    ¬ ({ r with ending := some ending } : HookRun).InTime call begun := by
  rintro ⟨b, hb, t, hending, hown, hchain⟩
  cases hending
  obtain ⟨rfl, hlate⟩ := hfails
  exact absurd (hdeadline ⟨hown, b, hb, hchain⟩) (Nat.not_lt.mpr hlate)

/-- **Where a chain is, is known of what it called.** -/
theorem Moves.at_phase (hmoves : Moves last_instant now admission c admission' c')
    (hnow : now ≤ last_instant) (h : c.At last_instant c.phase) :
    c'.At last_instant c'.phase := by
  cases hmoves with
  | idle hphase hnone =>
    rw [hphase] at h
    exact iff_of_true rfl (@served_of_empty (c.go _) h hnone)
  | refuse rejection hphase hsome =>
    obtain hphase | hphase := hphase
    · rw [hphase] at h
      exact iff_of_false nofun (@not_served (c.go _) h (hsome hphase))
    · rw [hphase] at h
      exact iff_of_false nofun (@not_served (c.go _) h.1 h.2)
  | initialise hphase hsome =>
    rw [hphase] at h
    exact ⟨h, hsome⟩
  | enter hphase _ _ _ =>
    rw [hphase] at h
    exact h
  | take hphase _ _ _ =>
    rw [hphase] at h
    exact h
  | begin_ hphase hlast =>
    rw [hphase] at h
    obtain ⟨hruns, -⟩ := h
    refine ⟨⟨now, rfl, rfl⟩, ?_, ?_⟩
    · rw [hruns]
      rfl
    · rw [hruns]
      nofun
  | give_up rejection hphase =>
    obtain hphase | ⟨chain_deadline, rest, hphase, hrest⟩ := hphase
    · rw [hphase] at h
      exact iff_of_false nofun (@not_served (c.go _) h.1 h.2)
    · rw [hphase] at h
      refine iff_of_false nofun fun hserved => hrest ?_
      exact List.append_right_eq_self.mp (h.names.trans hserved.1.symm)
  | finish hphase =>
    rw [hphase] at h
    exact iff_of_true rfl ⟨(List.append_nil _).symm.trans h.names, h.served⟩
  | @start permit chain_deadline name rest reason hphase hbefore =>
    rw [hphase] at h
    exact ⟨c.runs, ⟨name, now, none⟩, rfl, rfl, h, fun t ht => lt_deadline ht⟩
  | on_time hphase htime =>
    rw [hphase] at h
    obtain ⟨done, r, hruns, -, hthrough, hdeadline⟩ := h
    -- The deadline it was awaited under is the earlier of the two, so it kept to both.
    obtain ⟨hown, hchain⟩ := (hdeadline now hnow).mp htime
    have hconcluded := runs_conclude hruns (.returned now (.ok ()))
    obtain ⟨b, hb, rfl⟩ := hthrough.deadline
    change Through c.call c.begun (c.conclude _).runs _ _
    rw [hconcluded]
    refine ⟨⟨b, hb, rfl⟩, ?_, ?_⟩
    · rw [List.map_append, List.append_assoc]
      exact hthrough.names
    · intro r' hr'
      obtain hr' | hr' := List.mem_append.mp hr'
      · exact hthrough.served r' hr'
      · rw [List.mem_singleton.mp hr']
        exact ⟨b, hb, now, rfl, hown, hchain⟩
  | fail ending rejection hphase hfails =>
    rw [hphase] at h
    obtain ⟨done, r, hruns, -, hthrough, hdeadline⟩ := h
    -- The hook that failed is the last that was called, and not in time.
    refine iff_of_false nofun fun hserved => ?_
    have hlast : { r with ending := some ending } ∈ (c.conclude ending).runs := by
      rw [runs_conclude hruns]
      exact List.mem_append_right _ (List.mem_singleton_self _)
    refine not_inTime_of_fails hfails ?_ (hserved.2 _ hlast)
    rintro ⟨hown, b, hb, hchain⟩
    obtain ⟨b', hb', rfl⟩ := hthrough.deadline
    obtain rfl : b = b' := Option.some.inj (hb.symm.trans hb')
    exact (hdeadline now hnow).mpr ⟨hown, hchain⟩
  | cancel _ => trivial

/-- A hook that ends was called when it was called. -/
theorem Chain.Orderly.conclude (h : c.Orderly) {done : List HookRun} {r : HookRun}
    (hruns : c.runs = done ++ [r]) (ending : Ending) : (c.conclude ending).Orderly := by
  obtain ⟨in_order, after_success, before_deadline⟩ := h
  rw [hruns] at in_order after_success before_deadline
  have hconcluded := runs_conclude hruns ending
  refine ⟨?_, ?_, ?_⟩
  · rw [hconcluded, List.map_append]
    rw [List.map_append] at in_order
    exact in_order
  · rw [hconcluded]
    rw [List.pairwise_append] at after_success ⊢
    obtain ⟨hdone, -, hbefore⟩ := after_success
    refine ⟨hdone, List.pairwise_singleton _ _, fun earlier hearlier _ _ => ?_⟩
    exact hbefore earlier hearlier r (List.mem_singleton_self r)
  · intro r' hr'
    rw [hconcluded] at hr'
    obtain hr' | hr' := List.mem_append.mp hr'
    · exact before_deadline r' (List.mem_append_left _ hr')
    · rw [List.mem_singleton.mp hr']
      exact before_deadline r (List.mem_append_right _ (List.mem_singleton_self r))

/-- **Hooks are called in order, and not after a failure or the deadline.** -/
theorem Moves.orderly (hmoves : Moves last_instant now admission c admission' c')
    (h : c.Sound last_instant) : c'.Orderly := by
  have hat := h.at_phase
  have hgo : ∀ phase, (c.go phase).Orderly := fun phase =>
    ⟨h.in_order, h.after_success, h.before_deadline⟩
  cases hmoves with
  | idle _ _ => exact hgo _
  | refuse _ _ _ => exact hgo _
  | initialise _ _ => exact hgo _
  | enter _ _ _ _ => exact hgo _
  | take _ _ _ _ => exact hgo _
  | give_up _ _ => exact hgo _
  | finish _ => exact hgo _
  | cancel _ => exact hgo _
  | begin_ hphase hlast =>
    rw [hphase] at hat
    obtain ⟨hruns, -⟩ := hat
    refine ⟨h.in_order, ?_, ?_⟩
    · rw [hruns]
      exact .nil
    · rw [hruns]
      nofun
  | @start permit chain_deadline name rest reason hphase hbefore =>
    rw [hphase] at hat
    obtain ⟨b, hb, rfl⟩ := hat.deadline
    refine ⟨?_, ?_, ?_⟩
    · rw [List.map_append, ← hat.names]
      exact (List.prefix_append_right_inj _).mpr (List.prefix_append [name] rest)
    · refine List.pairwise_append.mpr ⟨h.after_success, List.pairwise_singleton _ _, ?_⟩
      exact fun earlier hearlier _ _ => hat.served earlier hearlier
    · intro r hr
      obtain hr | hr := List.mem_append.mp hr
      · exact h.before_deadline r hr
      · rw [List.mem_singleton.mp hr]
        exact ⟨b, hb, hbefore⟩
  | on_time hphase htime =>
    rw [hphase] at hat
    obtain ⟨done, r, hruns, -⟩ := hat
    have hconcluded := h.toOrderly.conclude hruns (.returned now (.ok ()))
    exact ⟨hconcluded.in_order, hconcluded.after_success, hconcluded.before_deadline⟩
  | fail ending rejection hphase hfails =>
    rw [hphase] at hat
    obtain ⟨done, r, hruns, -⟩ := hat
    have hconcluded := h.toOrderly.conclude hruns ending
    exact ⟨hconcluded.in_order, hconcluded.after_success, hconcluded.before_deadline⟩

theorem Moves.sound (hmoves : Moves last_instant now admission c admission' c')
    (hnow : now ≤ last_instant) (h : c.Sound last_instant) : c'.Sound last_instant :=
  ⟨hmoves.orderly h, hmoves.at_phase hnow h.at_phase⟩

end One

/-! ## The gate -/

/-- A chain has a permit. -/
def Chain.holds (c : Chain) : Bool := c.phase.permit

/-- A chain was let in and is not over. -/
def Chain.is_inside (c : Chain) : Bool := c.phase.is_inside

/-- The gate and the chains. -/
structure Gate (admission : Option ExecutionAdmission) (chains : List Chain) : Prop where
  shape : ∀ a ∈ admission, a.available.isSome = a.configured.isSome
  /-- The gate is there once a chain has seen it. -/
  opened : ∀ c ∈ chains, c.phase = .initialised → admission.isSome
  /-- A chain was let in under the limit of the gate, with a permit if there are any. -/
  wired : ∀ c ∈ chains, c.is_inside = true →
    ∃ a ∈ admission, a.configured = c.call.max_inflight ∧ c.holds = a.available.isSome
  conserved : ∀ a ∈ admission, ∀ n left, a.configured = some n → a.available = some left →
    Conserved Chain.holds n left chains

section Chains

variable {last_instant now : Instant} {admission admission' : Option ExecutionAdmission}
  {chains : List Chain} {i : ℕ} {c c' : Chain}

theorem is_inside_of_holds (h : c.holds = true) : c.is_inside = true := by
  unfold Chain.holds Chain.is_inside at *
  cases hphase : c.phase with
  | admitted permit => rfl
  | looping permit deadline rest => rfl
  | awaiting permit deadline rest until_ reason => rfl
  | called =>
    rw [hphase] at h
    cases h
  | initialised =>
    rw [hphase] at h
    cases h
  | returned result =>
    rw [hphase] at h
    cases h
  | cancelled =>
    rw [hphase] at h
    cases h

/-- A step that leaves the gate alone. -/
theorem Gate.keep (h : Gate admission chains) (hi : chains[i]? = some c)
    (hholds : c'.holds = c.holds) (hopened : c'.phase = .initialised → admission.isSome)
    (hwired : c'.is_inside = true →
      ∃ a ∈ admission, a.configured = c'.call.max_inflight ∧ c'.holds = a.available.isSome) :
    Gate admission (chains.set i c') where
  shape := h.shape
  opened := forall_mem_set h.opened hopened
  wired := forall_mem_set h.wired hwired
  conserved := fun a ha n left hn hleft => (h.conserved a ha n left hn hleft).keep hi hholds

/-- A chain that was let in goes on, with its permit. -/
theorem Gate.go_on (h : Gate admission chains) (hi : chains[i]? = some c)
    (hholds : c.phase.permit = c'.phase.permit) (hinside : c.phase.is_inside = true)
    (hcall : c'.call = c.call) (hphase : c'.phase ≠ .initialised) :
    Gate admission (chains.set i c') := by
  refine h.keep hi hholds.symm (fun h => absurd h hphase) fun _ => ?_
  obtain ⟨a, ha, hlimit, hpermit⟩ := h.wired c (List.mem_of_getElem? hi) hinside
  exact ⟨a, ha, hcall ▸ hlimit, hholds.symm.trans hpermit⟩

/-- A chain that is over has given its permit back. -/
theorem Gate.give_back (h : Gate admission chains) (hi : chains[i]? = some c) {permit : Bool}
    (hpermit : c.holds = permit) (hover : c'.is_inside = false) (hphase : c'.phase ≠ .initialised) :
    Gate (release permit admission) (chains.set i c') := by
  have hholds : c'.holds = false := by
    by_contra hne
    rw [is_inside_of_holds (Bool.eq_true_of_not_eq_false hne)] at hover
    cases hover
  cases permit with
  | false =>
    refine h.keep hi (hholds.trans hpermit.symm) (fun h => absurd h hphase) fun hinside => ?_
    rw [hover] at hinside
    cases hinside
  | true =>
    obtain ⟨a, rfl, -, hsome⟩ := h.wired c (List.mem_of_getElem? hi) (is_inside_of_holds hpermit)
    obtain ⟨left, hleft⟩ := Option.isSome_iff_exists.mp (hsome.symm.trans hpermit)
    have hrelease : release true (some a) = some { a with available := some (left + 1) } := by
      rw [release, if_pos rfl, Option.map_some, hleft]
      rfl
    rw [hrelease]
    refine ⟨?_, ?_, ?_, ?_⟩
    · rintro _ ⟨⟩
      exact (congrArg Option.isSome hleft).symm.trans (h.shape a rfl)
    · exact forall_mem_set (fun _ _ _ => rfl) fun _ => rfl
    · refine forall_mem_set (fun other hother hinside => ?_) fun hinside => ?_
      · obtain ⟨_, ⟨⟩, hlimit, hpermit⟩ := h.wired other hother hinside
        refine ⟨_, rfl, hlimit, hpermit.trans ?_⟩
        rw [hleft]
        rfl
      · rw [hover] at hinside
        cases hinside
    · rintro _ ⟨⟩ n _ hn ⟨⟩
      exact (h.conserved a rfl n left hn hleft).give hi hpermit hholds

/-- **One step of a chain** takes a permit, gives one back, or leaves the gate. -/
theorem Gate.move (h : Gate admission chains) (hi : chains[i]? = some c)
    (hmoves : Moves last_instant now admission c admission' c') :
    Gate admission' (chains.set i c') := by
  cases hmoves with
  | idle hphase hnone =>
    refine h.keep hi ?_ nofun nofun
    rw [Chain.holds, Chain.holds, hphase]
    rfl
  | refuse rejection hphase hsome =>
    refine h.keep hi ?_ nofun nofun
    obtain hphase | hphase := hphase <;> rw [Chain.holds, Chain.holds, hphase] <;> rfl
  | initialise hphase hsome =>
    have hholds : (c.go .initialised).holds = c.holds := by
      rw [Chain.holds, Chain.holds, hphase]
      rfl
    cases admission with
    | some a => exact h.keep hi hholds (fun _ => rfl) nofun
    | none =>
      -- The gate is new: nobody was let in before, and all its permits are there.
      have hempty : ∀ other ∈ chains, other.is_inside = false := by
        intro other hother
        by_contra hinside
        obtain ⟨a, ha, -⟩ := h.wired other hother (Bool.eq_true_of_not_eq_false hinside)
        cases ha
      refine ⟨?_, fun _ _ _ => rfl, ?_, ?_⟩
      · rintro _ ⟨⟩
        rfl
      · refine forall_mem_set (fun other hother hinside => ?_) nofun
        rw [hempty other hother] at hinside
        cases hinside
      · rintro _ ⟨⟩ n left hn hleft
        have hnone : chains.countP Chain.holds = 0 := by
          rw [List.countP_eq_zero]
          intro other hother hheld
          exact Bool.false_ne_true ((hempty other hother).symm.trans (is_inside_of_holds hheld))
        obtain rfl : n = left := Option.some.inj (hn.symm.trans hleft)
        have hall : Conserved Chain.holds n n chains := by
          rw [Conserved, hnone, Nat.add_zero]
        exact hall.keep hi hholds
  | @enter a hphase ha hlimit hopen =>
    refine h.keep hi ?_ nofun fun _ => ⟨a, ha, hlimit, ?_⟩
    · rw [Chain.holds, Chain.holds, hphase]
      rfl
    · rw [hopen]
      rfl
  | @take a n hphase ha hlimit hleft =>
    subst ha
    refine ⟨?_, fun _ _ _ => rfl, ?_, ?_⟩
    · rintro _ ⟨⟩
      exact (congrArg Option.isSome hleft).symm.trans (h.shape a rfl)
    · refine forall_mem_set (fun other hother hinside => ?_) fun _ => ⟨_, rfl, hlimit, rfl⟩
      obtain ⟨_, ⟨⟩, hsame, hpermit⟩ := h.wired other hother hinside
      refine ⟨_, rfl, hsame, hpermit.trans ?_⟩
      rw [hleft]
      rfl
    · rintro _ ⟨⟩ m _ hm ⟨⟩
      refine (h.conserved a rfl m (n + 1) hm hleft).take hi ?_ rfl
      rw [Chain.holds, hphase]
      rfl
  | begin_ hphase hlast => exact h.go_on hi (by rw [hphase]; rfl) (by rw [hphase]; rfl) rfl nofun
  | give_up rejection hphase =>
    refine h.give_back hi ?_ rfl nofun
    obtain hphase | ⟨_, _, hphase, -⟩ := hphase <;> rw [Chain.holds, hphase] <;> rfl
  | finish hphase =>
    refine h.give_back hi ?_ rfl nofun
    rw [Chain.holds, hphase]
    rfl
  | start reason hphase hbefore =>
    exact h.go_on hi (by rw [hphase]; rfl) (by rw [hphase]; rfl) rfl nofun
  | on_time hphase htime =>
    exact h.go_on hi (by rw [hphase]; rfl) (by rw [hphase]; rfl) rfl nofun
  | fail ending rejection hphase hfails =>
    refine h.give_back hi ?_ rfl nofun
    rw [Chain.holds, hphase]
    rfl
  | cancel hphase => exact h.give_back hi rfl rfl nofun

end Chains

/-! ## Every run -/

/-- What is so of a registry. -/
structure State.Sound (last_instant : Instant) (s : State) : Prop where
  clock : s.now ≤ last_instant
  chains : ∀ c ∈ s.chains, c.Sound last_instant
  gate : Gate s.admission s.chains

section Registry

variable {last_instant now : Instant} {s s' : State} {c : Chain} {i : ℕ}

theorem sound_start (hnow : now ≤ last_instant) : State.Sound last_instant { now := now } where
  clock := hnow
  chains := List.forall_mem_nil _
  gate :=
    { shape := fun _ ha => nomatch ha
      opened := List.forall_mem_nil _
      wired := List.forall_mem_nil _
      conserved := fun _ ha => nomatch ha }

/-- A chain that is called has done nothing yet. -/
theorem sound_called (call : Call) : Chain.Sound last_instant { call := call } where
  in_order := List.nil_prefix
  after_success := .nil
  before_deadline := nofun
  at_phase := rfl

/-- **One step.** -/
theorem State.Sound.step {e : Event} (h : s.Sound last_instant)
    (hstep : step last_instant s e = some s') : s'.Sound last_instant := by
  obtain ⟨d, hle, rfl⟩ | ⟨call, rfl⟩ | ⟨i, c, admission, c', hi, hmoves, rfl⟩ := step_cases hstep
  · exact ⟨hle, h.chains, h.gate⟩
  · refine ⟨h.clock, ?_, ?_⟩
    · rw [List.forall_mem_append]
      exact ⟨h.chains, List.forall_mem_singleton.mpr (sound_called call)⟩
    · refine ⟨h.gate.shape, ?_, ?_, fun a ha n left hn hleft =>
        (h.gate.conserved a ha n left hn hleft).join rfl⟩
      · rw [List.forall_mem_append]
        exact ⟨h.gate.opened, List.forall_mem_singleton.mpr nofun⟩
      · rw [List.forall_mem_append]
        exact ⟨h.gate.wired, List.forall_mem_singleton.mpr nofun⟩
  · have hsound := hmoves.sound h.clock (h.chains c (List.mem_of_getElem? hi))
    exact ⟨h.clock, forall_mem_set h.chains hsound, h.gate.move hi hmoves⟩

/-- **Every run.** -/
theorem sound_of_run (hnow : now ≤ last_instant) {events : List Event}
    (h : run (step last_instant) { now := now } events = some s) : s.Sound last_instant :=
  run_invariant_always (sound_start hnow) (fun _ _ _ hs hstep => hs.step hstep) h

/-- With a limit, the chains that were let in are those with a permit. -/
theorem Gate.countP_is_inside {a : ExecutionAdmission} {chains : List Chain}
    (h : Gate (some a) chains) (hsome : a.available.isSome) :
    chains.countP Chain.is_inside = chains.countP Chain.holds := by
  refine List.countP_congr fun c hc => ⟨fun hinside => ?_, is_inside_of_holds⟩
  obtain ⟨_, ⟨⟩, -, hholds⟩ := h.wired c hc hinside
  exact hholds.trans hsome

/-- A chain whose hooks were all served returns next. -/
theorem served_returns (h : s.Sound last_instant) (hi : s.chains[i]? = some c) (hserved : c.Served)
    (hover : c.phase.is_over = false) :
    ∃ s', step last_instant s (.advance i) = some s'
      ∧ s'.chains[i]? = some (c.go (.returned (.ok ()))) := by
  have hat := (h.chains c (List.mem_of_getElem? hi)).at_phase
  have hlt := (List.getElem?_eq_some_iff.mp hi).1
  have hreturns : ∀ admission,
      c.advance last_instant s.now s.admission = some (admission, c.go (.returned (.ok ()))) →
      ∃ s', step last_instant s (.advance i) = some s'
        ∧ s'.chains[i]? = some (c.go (.returned (.ok ()))) := by
    intro admission hadvance
    refine ⟨{ s with admission := admission, chains := s.chains.set i (c.go (.returned (.ok ()))) },
      ?_, List.getElem?_set_self hlt⟩
    rw [Extensions.step, State.move, hi, Option.bind_some, hadvance, Option.map_some]
  cases hphase : c.phase with
  | called =>
    rw [hphase] at hat
    have hnone : c.call.route.extensions = [] := by
      rw [← hserved.1, show c.runs = [] from hat]
      rfl
    refine hreturns s.admission ?_
    simp only [Chain.advance, hphase, Chain.initialise, hnone, List.isEmpty_nil, if_true]
  | initialised =>
    rw [hphase] at hat
    exact absurd hserved (not_served hat.1 hat.2)
  | admitted permit =>
    rw [hphase] at hat
    exact absurd hserved (not_served hat.1 hat.2)
  | looping permit chain_deadline rest =>
    rw [hphase] at hat
    obtain rfl : rest = [] := List.append_right_eq_self.mp (hat.names.trans hserved.1.symm)
    refine hreturns (release permit s.admission) ?_
    simp only [Chain.advance, hphase, Chain.next, Chain.leave]
  | awaiting permit chain_deadline rest deadline reason =>
    rw [hphase] at hat
    obtain ⟨done, r, hruns, hending, -⟩ := hat
    obtain ⟨b, -, t, hreturned, -⟩ := hserved.2 r (by rw [hruns]; simp)
    rw [hending] at hreturned
    cases hreturned
  | returned result =>
    rw [hphase] at hover
    cases hover
  | cancelled =>
    rw [hphase] at hover
    cases hover

end Registry

/-- **Chains keep to their budgets.** -/
theorem extension_chains_bounded {last_instant now : Instant} (hnow : now ≤ last_instant)
    {events : List Event} {s : State}
    (h : run (step last_instant) { now := now } events = some s) :
    (∀ c ∈ s.chains, c.is_inside = true → ∀ n, c.call.max_inflight = some n →
        s.chains.countP Chain.is_inside ≤ n)
      ∧ (∀ a ∈ s.admission, ∀ n, a.configured = some n →
        ∃ left, a.available = some left ∧ left + s.chains.countP Chain.is_inside = n)
      ∧ (∀ c ∈ s.chains, c.Orderly)
      ∧ (∀ c ∈ s.chains, ∀ result, c.phase = .returned result → (result = .ok () ↔ c.Served))
      ∧ ∀ i c, s.chains[i]? = some c → c.Served → c.phase.is_over = false →
        ∃ s', step last_instant s (.advance i) = some s'
          ∧ s'.chains[i]? = some (c.go (.returned (.ok ()))) := by
  have hsound := sound_of_run hnow h
  have hpermits : ∀ a ∈ s.admission, ∀ n, a.configured = some n →
      ∃ left, a.available = some left ∧ left + s.chains.countP Chain.is_inside = n := by
    intro a ha n hn
    have hsome : a.available.isSome := by
      rw [hsound.gate.shape a ha, hn]
      rfl
    obtain ⟨left, hleft⟩ := Option.isSome_iff_exists.mp hsome
    refine ⟨left, hleft, ?_⟩
    rw [Gate.countP_is_inside ((Option.mem_def.mp ha) ▸ hsound.gate) hsome]
    exact hsound.gate.conserved a ha n left hn hleft
  refine ⟨?_, hpermits, fun c hc => (hsound.chains c hc).toOrderly, ?_, ?_⟩
  · intro c hc hinside n hn
    obtain ⟨a, ha, hlimit, -⟩ := hsound.gate.wired c hc hinside
    obtain ⟨left, -, hcount⟩ := hpermits a ha n (hlimit.trans hn)
    exact Conserved.holders_le hcount
  · intro c hc result hphase
    have hat := (hsound.chains c hc).at_phase
    rw [hphase] at hat
    exact hat
  · exact fun i c hi => served_returns hsound hi

/-! ## Two chains and one permit -/

namespace OnePermit

/-- One hook on a route, for up to five seconds. -/
def call : Call where
  route := RouteConfig.of_input { path_prefix := "users".toList, upstream := "users".toList
                                  extensions := ["tenant".toList] }
  hook_budget := 5000000000
  chain_budget := 5000000000
  max_inflight := some 1
  by_name := ["tenant".toList]

/-- The second chain is not let in while the first one runs, and a third one is dropped. -/
def events : List Event :=
  [.call call, .call call, .call call, .advance 0, .advance 0, .advance 1, .advance 1, .advance 0,
    .advance 0, .tick 3000000000, .return_hook 0 (.ok ()), .advance 0, .advance 2, .advance 2,
    .advance 2, .advance 2, .cancel 2]

end OnePermit

open OnePermit in
/-- The first chain is served, and the permit is back. -/
theorem extension_chains_bounded_one :
    ∃ s, run (step 1000000000000) { now := 0 } events = some s
      ∧ (∃ c, s.chains[0]? = some c ∧ c.Served)
      ∧ s.admission.bind (fun a => a.available) = some 1 := by
  obtain ⟨s, c, a, hrun, hc, hphase, ha, hlimit, hinside⟩ : ∃ s c a,
      run (step 1000000000000) { now := 0 } events = some s ∧ s.chains[0]? = some c
        ∧ c.phase = .returned (.ok ()) ∧ s.admission = some a ∧ a.configured = some 1
        ∧ s.chains.countP Chain.is_inside = 0 := ⟨_, _, _, rfl, rfl, rfl, rfl, rfl, rfl⟩
  obtain ⟨-, hpermits, -, hserved, -⟩ := extension_chains_bounded (Nat.zero_le _) hrun
  refine ⟨s, hrun, ⟨c, hc, (hserved c (List.mem_of_getElem? hc) _ hphase).mp rfl⟩, ?_⟩
  obtain ⟨left, hleft, hall⟩ := hpermits a ha 1 hlimit
  rw [hinside, Nat.add_zero] at hall
  rw [ha, Option.bind_some, hleft, hall]

end Lagos.Extensions
