/-
What a reloader keeps, and what it converges to (`RouteReloader` in `runtime.rs`).

Three facts about runs, each with its own invariant: what the handles ever held is the boot
table and what was published (`Held`); with no more writes, what a tick has loaded since is
the file (`Settled`); and where every write comes with a new modification time, a handle
serves the file whenever the time remembered is the file's (`Remembers`).
-/
import Lagos.ReloadQuota
import Lagos.Reloader

set_option autoImplicit false

open RustStd

namespace Lagos.Reload

open Lagos.Config Lagos.Routes
open Lagos.RateLimit (F64 Rate SharedCounterFactory Uuid)

variable {F ρ : Type} [F64 F] [Rate F ρ]
variable {self : RouteReloader} {parse : Str → Option RouteFile} {draw draw' : ℕ → Uuid}

/-! ## What a step can do -/

/-- Every step, by its event. -/
inductive Stepped (self : RouteReloader) (parse : Str → Option RouteFile) (draw draw' : ℕ → Uuid)
    (s : State ρ) : Event → State ρ → Prop
  | write (file : Option File) : Stepped self parse draw draw' s (.write file) (s.write file)
  | unchanged (readable : Bool) (hphase : s.phase = .Idle) (hm : mtime s readable = s.last) :
    Stepped self parse draw draw' s (.tick readable) s
  | stale (readable : Bool) (hphase : s.phase = .Idle) (hm : mtime s readable ≠ s.last) :
    Stepped self parse draw draw' s (.tick readable)
      { s with phase := .Stale (mtime s readable) }
  | open (current : Option SystemTime) (hphase : s.phase = .Stale current) :
    Stepped self parse draw draw' s .open { s with phase := .Loading current true }
  | loaded (f : RouteFile) (cache_namespace : ℕ) (now : Instant) (current : Option SystemTime)
      (clean : Bool) (hphase : s.phase = .Loading current clean)
      (hclean : clean = true → may_load parse s.file (some f)) :
    Stepped self parse draw draw' s (.loaded (some f) cache_namespace now)
      { s with phase := .Loaded current cache_namespace f now }
  | failed (cache_namespace : ℕ) (now : Instant) (current : Option SystemTime) (clean : Bool)
      (hphase : s.phase = .Loading current clean) :
    Stepped self parse draw draw' s (.loaded none cache_namespace now)
      { s with phase := .Idle }
  | published (probe : Except String (String × Bool)) (current : Option SystemTime)
      (cache_namespace : ℕ) (f : RouteFile) (now : Instant)
      (hphase : s.phase = .Loaded current cache_namespace f now)
      (h : self.check (self.build cache_namespace f) probe = .ok ()) :
    Stepped self parse draw draw' s (.checked probe)
      (s.publish self draw current now (self.build cache_namespace f)
        (sound_of_valid (check_valid h)))
  | rejected (probe : Except String (String × Bool)) (current : Option SystemTime)
      (cache_namespace : ℕ) (f : RouteFile) (now : Instant)
      (hphase : s.phase = .Loaded current cache_namespace f now)
      (h : self.check (self.build cache_namespace f) probe ≠ .ok ()) :
    Stepped self parse draw draw' s (.checked probe) { s with phase := .Idle }
  | finish (current : Option SystemTime) (machine : LoadedTable)
      (hphase : s.phase = .Storing current machine) :
    Stepped self parse draw draw' s .finish
      { s with
        machine := s.machine.map fun m => m.store draw' machine
        last := current
        phase := .Idle }

theorem stepped {s s' : State ρ} {e : Event} (h : step self parse draw draw' s e = some s') :
    Stepped self parse draw draw' s e s' := by
  cases e with
  | write file =>
    simp only [step, Option.some.injEq] at h
    subst h
    exact .write file
  | tick readable =>
    cases hphase : s.phase with
    | Idle =>
      simp only [step, hphase, Option.some.injEq] at h
      subst h
      by_cases hm : mtime s readable = s.last
      · rw [if_pos hm]
        exact .unchanged readable hphase hm
      · rw [if_neg hm]
        exact .stale readable hphase hm
    | Stale _ | Loading _ _ | Loaded _ _ _ _ | Storing _ _ => simp [step, hphase] at h
  | «open» =>
    cases hphase : s.phase with
    | Stale current =>
      simp only [step, hphase, Option.some.injEq] at h
      subst h
      exact .open current hphase
    | Idle | Loading _ _ | Loaded _ _ _ _ | Storing _ _ => simp [step, hphase] at h
  | loaded outcome cache_namespace now =>
    cases hphase : s.phase with
    | Loading current clean =>
      simp only [step, hphase, Option.ite_none_right_eq_some, Option.some.injEq] at h
      obtain ⟨hclean, rfl⟩ := h
      cases outcome with
      | none => exact .failed cache_namespace now current clean hphase
      | some f => exact .loaded f cache_namespace now current clean hphase hclean
    | Idle | Stale _ | Loaded _ _ _ _ | Storing _ _ => simp [step, hphase] at h
  | checked probe =>
    cases hphase : s.phase with
    | Loaded current cache_namespace f now =>
      simp only [step, hphase] at h
      by_cases hc : self.check (self.build cache_namespace f) probe = .ok ()
      · rw [dif_pos hc, Option.some.injEq] at h
        subst h
        exact .published probe current cache_namespace f now hphase hc
      · rw [dif_neg hc, Option.some.injEq] at h
        subst h
        exact .rejected probe current cache_namespace f now hphase hc
    | Idle | Stale _ | Loading _ _ | Storing _ _ => simp [step, hphase] at h
  | finish =>
    cases hphase : s.phase with
    | Storing current machine =>
      simp only [step, hphase, Option.some.injEq] at h
      subst h
      exact .finish current machine hphase
    | Idle | Stale _ | Loading _ _ | Loaded _ _ _ _ => simp [step, hphase] at h

/-! ## What the handles ever held -/

/-- Every table a handle ever held. -/
def shown (handle : SharedRoutes ρ) : List RouteTable := handle.loaded.map LoadedTable.table

theorem shown_store (handle : SharedRoutes ρ) (t : LoadedTable) :
    shown (handle.store draw t) = shown handle ++ [t.table] := by
  rw [shown, SharedRoutes.store_loaded, List.map_append, shown]
  rfl

/-- The tick is between its two stores. -/
def Phase.storing : Phase → Bool
  | .Storing _ _ => true
  | _ => false

@[simp] theorem Phase.storing_dirtied (phase : Phase) : phase.dirtied.storing = phase.storing := by
  cases phase <;> rfl

/-- The tables that both handles have got. -/
def finished (s : State ρ) : List RouteTable :=
  if s.phase.storing then s.published.dropLast else s.published

/-- The handles have held the boot table and what was published, and nothing else. -/
structure Held (reloader : RouteReloader) (boot : RouteTable) (s : State ρ) : Prop where
  «public» : shown s.public = (boot :: s.published).map fun t => t.partition_by_listener.1
  machine : ∀ m, s.machine = some m →
    shown m = (boot :: finished s).map fun t => t.partition_by_listener.2
  storing : ∀ current machine, s.phase = .Storing current machine → ∃ before t,
    s.published = before ++ [t] ∧ machine.table = t.partition_by_listener.2
  checked : ∀ t ∈ s.published, ∃ probe, reloader.check t probe = .ok ()

/-- A step that publishes nothing. -/
theorem Held.of_eq {boot : RouteTable} {s s' : State ρ} (h : Held self boot s)
    (hpublic : s'.public = s.public) (hmachine : s'.machine = s.machine)
    (hpublished : s'.published = s.published) (hstoring : s'.phase.storing = s.phase.storing)
    (hphase : ∀ current machine, s'.phase = .Storing current machine →
      s.phase = .Storing current machine) : Held self boot s' := by
  have hfinished : finished s' = finished s := by
    rw [finished, finished, hstoring, hpublished]
  refine ⟨?_, ?_, ?_, ?_⟩
  · rw [hpublic, hpublished]
    exact h.public
  · rw [hmachine, hfinished]
    exact h.machine
  · intro current machine hs
    rw [hpublished]
    exact h.storing current machine (hphase current machine hs)
  · rw [hpublished]
    exact h.checked

theorem Held.step {boot : RouteTable} {s s' : State ρ} {e : Event} (h : Held self boot s)
    (hs : Stepped self parse draw draw' s e s') : Held self boot s' := by
  cases hs with
  | write file =>
    refine h.of_eq rfl rfl rfl (Phase.storing_dirtied _) ?_
    intro current machine hw
    cases hp : s.phase with
    | Storing c m =>
      simp only [State.write, hp, Phase.dirtied] at hw
      exact hw
    | Idle | Stale _ | Loading _ _ | Loaded _ _ _ _ =>
      simp only [State.write, hp, Phase.dirtied] at hw
      cases hw
  | unchanged readable hphase hm => exact h
  | stale readable hphase hm =>
    exact h.of_eq rfl rfl rfl (by rw [hphase]; rfl) (fun _ _ hc => nomatch hc)
  | «open» current hphase =>
    exact h.of_eq rfl rfl rfl (by rw [hphase]; rfl) (fun _ _ hc => nomatch hc)
  | loaded f ns now current clean hphase hclean =>
    exact h.of_eq rfl rfl rfl (by rw [hphase]; rfl) (fun _ _ hc => nomatch hc)
  | failed ns now current clean hphase =>
    exact h.of_eq rfl rfl rfl (by rw [hphase]; rfl) (fun _ _ hc => nomatch hc)
  | rejected probe current ns f now hphase hc =>
    exact h.of_eq rfl rfl rfl (by rw [hphase]; rfl) (fun _ _ hc => nomatch hc)
  | published probe current ns f now hphase hc =>
    have hfinished : finished s = s.published := by
      rw [finished, hphase]
      rfl
    refine ⟨?_, ?_, ?_, ?_⟩
    · rw [State.publish, shown_store, h.public, ← List.cons_append, List.map_append]
      rfl
    · intro m hm
      rw [h.machine m hm, hfinished, finished]
      simp only [State.publish, Phase.storing, if_true, List.dropLast_concat]
    · intro current' machine hst
      cases hst
      exact ⟨s.published, self.build ns f, rfl, rfl⟩
    · intro t ht
      rcases List.mem_append.mp ht with ht | ht
      · exact h.checked t ht
      · rw [List.mem_singleton.mp ht]
        exact ⟨probe, hc⟩
  | finish current machine hphase =>
    obtain ⟨before, t, hpublished, htable⟩ := h.storing current machine hphase
    have hfinished : finished s = before := by
      rw [finished, hphase, hpublished]
      exact List.dropLast_concat
    refine ⟨h.public, ?_, (fun _ _ hc => nomatch hc), h.checked⟩
    intro m hm
    obtain ⟨m₀, hm₀, rfl⟩ := Option.map_eq_some_iff.mp hm
    rw [shown_store, h.machine m₀ hm₀, hfinished, finished]
    simp only [Phase.storing, Bool.false_eq_true, if_false, hpublished, htable, List.map_cons,
      List.map_append, List.map_nil, List.cons_append]

theorem held_init (file : Option File) (now : Instant) (boot : RouteTable) (h : Sound boot) :
    Held self boot (init self draw draw' file now boot h : State ρ) := by
  refine ⟨rfl, ?_, (fun _ _ hc => nomatch hc), fun t ht => absurd ht List.not_mem_nil⟩
  intro m hm
  obtain ⟨addr, -, rfl⟩ := Option.map_eq_some_iff.mp hm
  rfl

/-! ## A tick that does not finish -/

/-- **A failed or rejected reload changes nothing**: neither handle nor the time remembered, in
however many ticks. -/
theorem unfinished_unchanged {s s' : State ρ} {es : List Event}
    (hrun : StepRun.run (step self parse draw draw') s es = some s') (hidle : s'.phase = .Idle)
    (hes : .finish ∉ es) :
    s'.public = s.public ∧ s'.machine = s.machine ∧ s'.last = s.last := by
  -- once the public handle has a table, only the machine handle's store ends the tick
  have hinv : s'.phase.storing = true ∨
      (s'.public = s.public ∧ s'.machine = s.machine ∧ s'.last = s.last) := by
    refine @StepRun.run_invariant _ _ _ (fun _ e => e ≠ .finish) _
      (fun t : State ρ => t.phase.storing = true ∨
        (t.public = s.public ∧ t.machine = s.machine ∧ t.last = s.last))
      (Or.inr ⟨rfl, rfl, rfl⟩) ?_ _ _ hrun ?_
    · intro t e t' ht he hstep
      cases stepped hstep with
      | write file =>
        rcases ht with ht | ht
        · exact Or.inl ((Phase.storing_dirtied _).trans ht)
        · exact Or.inr ht
      | unchanged readable hphase hm => exact ht
      | stale readable hphase hm =>
        rw [hphase] at ht
        exact Or.inr (ht.resolve_left Bool.false_ne_true)
      | «open» current hphase =>
        rw [hphase] at ht
        exact Or.inr (ht.resolve_left Bool.false_ne_true)
      | loaded f ns now current clean hphase hclean =>
        rw [hphase] at ht
        exact Or.inr (ht.resolve_left Bool.false_ne_true)
      | failed ns now current clean hphase =>
        rw [hphase] at ht
        exact Or.inr (ht.resolve_left Bool.false_ne_true)
      | rejected probe current ns f now hphase hc =>
        rw [hphase] at ht
        exact Or.inr (ht.resolve_left Bool.false_ne_true)
      | published probe current ns f now hphase hc => exact Or.inl rfl
      | finish current machine hphase => exact absurd rfl he
    · refine StepRun.along_of_forall ?_
      rintro e he t rfl
      exact hes he
  rw [hidle] at hinv
  exact hinv.resolve_left Bool.false_ne_true

/-! ## With no more writes -/

/-- What the provider makes of the file as it is now. -/
def content (parse : Str → Option RouteFile) (s : State ρ) : Option RouteFile :=
  s.file.bind fun file => parse file.text

/-- The public handle serves a route file. -/
def ServesPublic (reloader : RouteReloader) (s : State ρ) (f : RouteFile) : Prop :=
  ∃ ns, s.public.active.loaded.table = (reloader.build ns f).partition_by_listener.1

/-- Both handles serve a route file, each the half of its listener. -/
def Serves (reloader : RouteReloader) (s : State ρ) (f : RouteFile) : Prop :=
  ServesPublic reloader s f ∧ ∀ m, s.machine = some m →
    ∃ ns, m.active.loaded.table = (reloader.build ns f).partition_by_listener.2

/-- What the tick has in hand is the file. -/
def Settled (reloader : RouteReloader) (parse : Str → Option RouteFile) (s : State ρ) : Prop :=
  match s.phase with
  | .Idle | .Stale _ => True
  | .Loading _ clean => clean = true
  | .Loaded _ _ f _ => content parse s = some f
  | .Storing _ machine => ∃ f, content parse s = some f ∧ ServesPublic reloader s f ∧
      ∃ ns, machine.table = (reloader.build ns f).partition_by_listener.2

/-- Both handles serve the file. -/
def Converged (reloader : RouteReloader) (parse : Str → Option RouteFile) (s : State ρ) : Prop :=
  ∃ f, content parse s = some f ∧ Serves reloader s f

/-- Nobody writes. -/
def Event.quiet : Event → Prop
  | .write _ => False
  | _ => True

/-- A load that begins now reads the file as it is. -/
theorem settled_of_open {s s' : State ρ} (hs : Stepped self parse draw draw' s .open s') :
    Settled self parse s' := by
  cases hs with
  | «open» current hphase => exact rfl

theorem Settled.step {s s' : State ρ} {e : Event} (h : Settled self parse s) (he : e.quiet)
    (hs : Stepped self parse draw draw' s e s') : Settled self parse s' := by
  cases hs with
  | write file => exact he.elim
  | unchanged readable hphase hm => exact h
  | stale readable hphase hm => exact trivial
  | «open» current hphase => exact rfl
  | loaded f ns now current clean hphase hclean =>
    simp only [Settled, hphase] at h
    rcases hclean h with hnone | hsome
    · cases hnone
    · exact hsome.symm
  | failed ns now current clean hphase => exact trivial
  | rejected probe current ns f now hphase hc => exact trivial
  | published probe current ns f now hphase hc =>
    simp only [Settled, hphase] at h
    exact ⟨f, h, ⟨ns, rfl⟩, ns, rfl⟩
  | finish current machine hphase => exact trivial

/-- The end of a tick that has the file in hand. -/
theorem Settled.converged {s s' : State ρ} (h : Settled self parse s)
    (hs : Stepped self parse draw draw' s .finish s') : Converged self parse s' := by
  cases hs with
  | finish current machine hphase =>
    simp only [Settled, hphase] at h
    obtain ⟨f, hf, hpublic, ns, hmachine⟩ := h
    refine ⟨f, hf, hpublic, ?_⟩
    intro m hm
    obtain ⟨m₀, -, rfl⟩ := Option.map_eq_some_iff.mp hm
    exact ⟨ns, hmachine⟩

/-- From then on both handles serve the file. -/
theorem Converged.step {s s' : State ρ} {e : Event} (h : Converged self parse s)
    (hsettled : Settled self parse s) (he : e.quiet)
    (hs : Stepped self parse draw draw' s e s') : Converged self parse s' := by
  have hstep := hs
  cases hs with
  | write file => exact he.elim
  | unchanged readable hphase hm => exact h
  | stale readable hphase hm => exact h
  | «open» current hphase => exact h
  | loaded f ns now current clean hphase hclean => exact h
  | failed ns now current clean hphase => exact h
  | rejected probe current ns f now hphase hc => exact h
  | published probe current ns f now hphase hc =>
    obtain ⟨f', hf', hpublic, hmachine⟩ := h
    simp only [Settled, hphase] at hsettled
    have heq : f = f' := Option.some.inj (hsettled.symm.trans hf')
    exact ⟨f', hf', ⟨ns, heq ▸ rfl⟩, hmachine⟩
  | finish current machine hphase => exact hsettled.converged hstep

theorem settled_run {s s' : State ρ} {es : List Event} (h : Settled self parse s)
    (hes : ∀ e ∈ es, e.quiet)
    (hrun : StepRun.run (step self parse draw draw') s es = some s') :
    Settled self parse s' ∧ (Converged self parse s → Converged self parse s') := by
  refine @StepRun.run_invariant _ _ _ (fun _ e => e.quiet) _
    (fun t => Settled self parse t ∧ (Converged self parse s → Converged self parse t))
    ⟨h, id⟩ ?_ _ _ hrun (StepRun.along_of_forall fun e he _ => hes e he)
  intro t e t' ht he hstep
  have hst := stepped hstep
  exact ⟨ht.1.step he hst, fun hc => (ht.2 hc).step ht.1 he hst⟩

/-- **Convergence.** With no more writes, once a tick that began to load since has finished, both
handles serve the file. -/
theorem converged_of_finish {s s' : State ρ} {es₁ es₂ es₃ : List Event}
    (hes : ∀ e ∈ es₁ ++ .open :: es₂ ++ .finish :: es₃, e.quiet)
    (hrun : StepRun.run (step self parse draw draw') s
      (es₁ ++ .open :: es₂ ++ .finish :: es₃) = some s') :
    Converged self parse s' := by
  rw [List.append_assoc, StepRun.run_append] at hrun
  obtain ⟨s₁, -, hrun⟩ := Option.bind_eq_some_iff.mp hrun
  rw [List.cons_append, StepRun.run_cons] at hrun
  obtain ⟨s₂, hopen, hrun⟩ := Option.bind_eq_some_iff.mp hrun
  rw [StepRun.run_append] at hrun
  obtain ⟨s₃, hrun₂, hrun⟩ := Option.bind_eq_some_iff.mp hrun
  rw [StepRun.run_cons] at hrun
  obtain ⟨s₄, hfinish, hrun₃⟩ := Option.bind_eq_some_iff.mp hrun
  have hquiet₂ : ∀ e ∈ es₂, e.quiet := by
    intro e he
    exact hes e (by simp [he])
  have hquiet₃ : ∀ e ∈ es₃, e.quiet := by
    intro e he
    exact hes e (by simp [he])
  obtain ⟨hsettled₃, -⟩ := settled_run (settled_of_open (stepped hopen)) hquiet₂ hrun₂
  have hconverged := hsettled₃.converged (stepped hfinish)
  have hsettled₄ := hsettled₃.step (e := .finish) trivial (stepped hfinish)
  exact (settled_run hsettled₄ hquiet₃ hrun₃).2 hconverged

/-! ## Modification times -/

/-- The time the tick has read. -/
def Phase.current : Phase → Option SystemTime
  | .Idle => none
  | .Stale current | .Loading current _ | .Loaded current _ _ _ | .Storing current _ => current

@[simp] theorem Phase.current_dirtied (phase : Phase) : phase.dirtied.current = phase.current := by
  cases phase <;> rfl

/-- Every write comes with a new modification time. -/
def NewTime (s : State ρ) : Event → Prop
  | .write (some file) => file.modified ∉ s.modified
  | _ => True

instance (s : State ρ) : ∀ e, Decidable (NewTime s e)
  | .write (some file) => inferInstanceAs (Decidable (file.modified ∉ s.modified))
  | .write none | .tick _ | .open | .loaded _ _ _ | .checked _ | .finish => isTrue trivial

/-- The invariant of the time that is remembered. -/
structure Remembers (reloader : RouteReloader) (parse : Str → Option RouteFile) (s : State ρ) :
    Prop where
  file_known : ∀ file, s.file = some file → file.modified ∈ s.modified
  last_known : ∀ m, s.last = some m → m ∈ s.modified
  current_known : ∀ m, s.phase.current = some m → m ∈ s.modified
  /-- Both handles serve the file if the time remembered is the file's. -/
  converged : ∀ file, s.file = some file → s.last = some file.modified →
    Converged reloader parse s
  /-- What the tick has in hand is the file if either time is the file's. -/
  settled : ∀ file, s.file = some file →
    s.phase.current = some file.modified ∨ s.last = some file.modified → Settled reloader parse s

theorem mtime_known {s : State ρ} (h : Remembers self parse s) {readable : Bool} {m : SystemTime}
    (hm : mtime s readable = some m) : m ∈ s.modified := by
  unfold mtime at hm
  split at hm
  · obtain ⟨file, hfile, rfl⟩ := Option.map_eq_some_iff.mp hm
    exact h.file_known file hfile
  · cases hm

theorem Remembers.step {s s' : State ρ} {e : Event} (h : Remembers self parse s)
    (he : NewTime s e) (hs : Stepped self parse draw draw' s e s') : Remembers self parse s' := by
  have hstep := hs
  cases hs with
  | write file =>
    -- the new time is neither the one remembered nor the one the tick read
    have hnew : ∀ f, file = some f →
        s.last ≠ some f.modified ∧ s.phase.current ≠ some f.modified := by
      rintro f rfl
      exact ⟨fun hl => he (h.last_known _ hl), fun hc => he (h.current_known _ hc)⟩
    refine ⟨?_, ?_, ?_, ?_, ?_⟩
    · intro f hf
      simp only [State.write] at hf ⊢
      subst hf
      simp
    · intro m hm
      exact List.mem_append_left _ (h.last_known m hm)
    · intro m hm
      exact List.mem_append_left _ (h.current_known m ((Phase.current_dirtied _).symm.trans hm))
    · intro f hf hl
      exact absurd hl (hnew f hf).1
    · intro f hf hc
      rcases hc with hc | hl
      · exact absurd ((Phase.current_dirtied _).symm.trans hc) (hnew f hf).2
      · exact absurd hl (hnew f hf).1
  | unchanged readable hphase hm => exact h
  | stale readable hphase hm =>
    refine ⟨h.file_known, h.last_known, ?_, h.converged, fun _ _ _ => trivial⟩
    intro m hm
    exact mtime_known h hm
  | «open» current hphase =>
    refine ⟨h.file_known, h.last_known, ?_, h.converged, fun _ _ _ => rfl⟩
    intro m hm
    exact h.current_known m (hphase ▸ hm)
  | loaded f ns now current clean hphase hclean =>
    refine ⟨h.file_known, h.last_known, ?_, h.converged, ?_⟩
    · intro m hm
      exact h.current_known m (hphase ▸ hm)
    · intro file hf hc
      have hquiet : Event.quiet (.loaded (some f) ns now) := trivial
      exact (h.settled file hf (hphase ▸ hc)).step hquiet hstep
  | failed ns now current clean hphase =>
    exact ⟨h.file_known, h.last_known, (fun _ hm => nomatch hm), h.converged,
      fun _ _ _ => trivial⟩
  | rejected probe current ns f now hphase hc =>
    exact ⟨h.file_known, h.last_known, (fun _ hm => nomatch hm), h.converged,
      fun _ _ _ => trivial⟩
  | published probe current ns f now hphase hc =>
    have hquiet : Event.quiet (.checked probe) := trivial
    refine ⟨h.file_known, h.last_known, ?_, ?_, ?_⟩
    · intro m hm
      exact h.current_known m (hphase ▸ hm)
    · intro file hf hl
      exact (h.converged file hf hl).step (h.settled file hf (Or.inr hl)) hquiet hstep
    · intro file hf hc
      exact (h.settled file hf (hphase ▸ hc)).step hquiet hstep
  | finish current machine hphase =>
    refine ⟨h.file_known, ?_, (fun _ hm => nomatch hm), ?_, fun _ _ _ => trivial⟩
    · intro m hm
      exact h.current_known m (hphase ▸ hm)
    · intro file hf hl
      exact (h.settled file hf (Or.inl (hphase ▸ hl))).converged hstep

theorem remembers_init (file : Option File) (now : Instant) (boot : RouteTable) (h : Sound boot) :
    Remembers self parse (init self draw draw' file now boot h : State ρ) := by
  refine ⟨?_, (fun _ hm => nomatch hm), (fun _ hm => nomatch hm), (fun _ _ hl => nomatch hl),
    fun _ _ _ => trivial⟩
  intro f hf
  simp only [init] at hf ⊢
  subst hf
  simp

/-- A tick that finds a time other than the one remembered, and whose steps all go well. -/
theorem retry {s : State ρ} {file : File} {f : RouteFile} (hidle : s.phase = .Idle)
    (hfile : s.file = some file) (hparse : parse file.text = some f)
    (hlast : s.last ≠ some file.modified) (ns : ℕ) (now : Instant)
    {probe : Except String (String × Bool)} (hcheck : self.check (self.build ns f) probe = .ok ()) :
    ∃ s', StepRun.run (step self parse draw draw') s
      [.tick true, .open, .loaded (some f) ns now, .checked probe, .finish] = some s' := by
  have hload : may_load parse s.file (some f) := by
    right
    rw [hfile, Option.bind_some, hparse]
  have hm : mtime s true ≠ s.last := by
    rw [mtime, if_pos rfl, hfile, Option.map_some]
    exact Ne.symm hlast
  simp only [StepRun.run_cons, StepRun.run_nil, step, hidle, if_neg hm, Option.bind_some, hload,
    implies_true, if_true, dif_pos hcheck, State.publish]
  exact ⟨_, rfl⟩

/-! ## Atomicity and convergence -/

/-- What is so in a state `s` that a run of the events `es` leads to from `s₀`, where `boot` is
the table the gateway booted with. -/
structure Reloads (reloader : RouteReloader) (parse : Str → Option RouteFile)
    (draw draw' : ℕ → Uuid) (boot : RouteTable) (s₀ : State ρ) (es : List Event) (s : State ρ) :
    Prop where
  /-- The handles have held the halves of the boot table and of what was published. -/
  public_shown : shown s.public = (boot :: s.published).map fun t => t.partition_by_listener.1
  machine_shown : ∀ m, s.machine = some m →
    shown m = (boot :: finished s).map fun t => t.partition_by_listener.2
  checked : ∀ t ∈ boot :: s.published, ∃ probe, reloader.check t probe = .ok ()
  no_machine_route : ∀ t ∈ shown s.public, ∀ r ∈ t.routes, r.auth ≠ .Machine
  /-- What ends without finishing has changed nothing. -/
  unfinished : ∀ es' s', StepRun.run (step reloader parse draw draw') s es' = some s' →
    s'.phase = .Idle → .finish ∉ es' →
    s'.public = s.public ∧ s'.machine = s.machine ∧ s'.last = s.last
  /-- With no more writes, a tick that began to load since has only to finish. -/
  converges : ∀ es₁ es₂ es₃ s', (∀ e ∈ es₁ ++ .open :: es₂ ++ .finish :: es₃, e.quiet) →
    StepRun.run (step reloader parse draw draw') s (es₁ ++ .open :: es₂ ++ .finish :: es₃)
      = some s' → Converged reloader parse s'
  /-- A tick passes a file over only if both handles serve it. -/
  remembered : StepRun.Along (step reloader parse draw draw') NewTime s₀ es →
    ∀ file, s.file = some file → s.last = some file.modified → Converged reloader parse s
  /-- Any other tick whose steps go well finishes. -/
  retried : s.phase = .Idle → ∀ file f, s.file = some file → parse file.text = some f →
    s.last ≠ some file.modified → ∀ ns now probe, reloader.check (reloader.build ns f) probe = .ok () →
    ∃ s', StepRun.run (step reloader parse draw draw') s
      [.tick true, .open, .loaded (some f) ns now, .checked probe, .finish] = some s'

/-- **Reloading is atomic and converges**, whatever is written, loaded, answered and probed, and
whenever the ticker fires. -/
theorem reloads {ns : ℕ} {f₀ : RouteFile} {probe₀ : Except String (String × Bool)}
    (hboot : self.check (self.build ns f₀) probe₀ = .ok ()) {file : Option File} {now : Instant}
    {es : List Event} {s : State ρ}
    (hrun : StepRun.run (step self parse draw draw')
      (init self draw draw' file now (self.build ns f₀) (sound_of_valid (check_valid hboot))) es
      = some s) :
    Reloads self parse draw draw' (self.build ns f₀)
      (init self draw draw' file now (self.build ns f₀) (sound_of_valid (check_valid hboot)))
      es s := by
  have hsound := sound_of_valid (check_valid hboot)
  have hheld : Held self (self.build ns f₀) s := by
    refine StepRun.run_invariant_always (held_init file now _ hsound) ?_ hrun
    intro s e t h hs
    exact h.step (stepped hs)
  refine ⟨hheld.public, hheld.machine, ?_, ?_, ?_, ?_, ?_, ?_⟩
  · intro t ht
    rcases List.mem_cons.mp ht with rfl | ht
    · exact ⟨probe₀, hboot⟩
    · exact hheld.checked t ht
  · intro t ht r hr
    rw [hheld.public] at ht
    obtain ⟨u, -, rfl⟩ := List.mem_map.mp ht
    exact of_decide_eq_true (List.mem_filter.mp hr).2
  · intro es' s' hrun' hidle hes
    exact unfinished_unchanged hrun' hidle hes
  · intro es₁ es₂ es₃ s' hes hrun'
    exact converged_of_finish hes hrun'
  · intro halong f hfile hlast
    have hinv : Remembers self parse s := by
      refine StepRun.run_invariant (remembers_init file now _ hsound) ?_ hrun halong
      intro s e t h he hs
      exact h.step he (stepped hs)
    exact hinv.converged f hfile hlast
  · intro hidle file f hfile hparse hlast ns now probe hcheck
    exact retry hidle hfile hparse hlast ns now hcheck

/-! ## A file that changes while it is checked -/

namespace TwoFiles

open SharedRoutes.OneRequest

def reloader : RouteReloader where
  config :=
    { upstreams := [['u']], trusted_proxy_ips := [], shared_limits := false
      shared_counters := none, cache := false, client_keys := false, machine := false
      internal_listen := none }
  extensions := []
  shared := none
  defaults := ⟨none, none, none⟩

/-- A file with one route. -/
def one : RouteFile := ⟨[], [], [{ id := ['r'], path_prefix := ['r'], upstream := ['u'] }], [], []⟩

/-- A file with none. -/
def empty : RouteFile := ⟨[], [], [], [], []⟩

def parse_text (text : Str) : Option RouteFile :=
  if text = ['1'] then some one else if text = ['0'] then some empty else none

/-- The file at its first and at its second modification time. -/
def first : File := ⟨['1'], ⟨1, by decide⟩⟩

def second : File := ⟨['0'], ⟨2, by decide⟩⟩

theorem boot_checked : reloader.check (reloader.build 0 one) (.ok ("", false)) = .ok () := by
  decide +kernel

/-- Booted with the first file. -/
def booted : State Unit :=
  init reloader id id (some first) 0 (reloader.build 0 one)
    (sound_of_valid (check_valid boot_checked))

/-- The first file is loaded, and the second written while it waits to be checked. -/
def stale : List Event :=
  [.tick true, .open, .loaded (some one) 1 0, .write (some second)]

/-- The tick goes on and finishes. -/
def completion : List Event := [.checked (.ok ("", false)), .finish]

end TwoFiles

/-- The witness of `reloads`: after the first file, the second. -/
theorem reloads_two_files :
    ∃ s, StepRun.run (step TwoFiles.reloader TwoFiles.parse_text id id) TwoFiles.booted
        (TwoFiles.stale ++ TwoFiles.completion ++ [.tick true, .open]) = some s ∧
      Reloads TwoFiles.reloader TwoFiles.parse_text id id (TwoFiles.reloader.build 0 TwoFiles.one)
        TwoFiles.booted (TwoFiles.stale ++ TwoFiles.completion ++ [.tick true, .open]) s := by
  have hsome : (StepRun.run (step TwoFiles.reloader TwoFiles.parse_text id id) TwoFiles.booted
      (TwoFiles.stale ++ TwoFiles.completion ++ [.tick true, .open])).isSome = true := by
    decide +kernel
  obtain ⟨s, hs⟩ := Option.isSome_iff_exists.mp hsome
  exact ⟨s, hs, reloads TwoFiles.boot_checked hs⟩

/-- Convergence once any tick has finished, whenever it began to load. -/
def ConvergesOnceFinished (reloader : RouteReloader) (parse : Str → Option RouteFile)
    (draw draw' : ℕ → Uuid) (s₀ : State ρ) : Prop :=
  ∀ es es' s s', StepRun.Along (step reloader parse draw draw') NewTime s₀ es →
    StepRun.run (step reloader parse draw draw') s₀ es = some s →
    (∃ file f ns probe, s.file = some file ∧ parse file.text = some f ∧
      reloader.check (reloader.build ns f) probe = .ok ()) →
    (∀ e ∈ es', e.quiet) → .finish ∈ es' →
    StepRun.run (step reloader parse draw draw') s es' = some s' → Converged reloader parse s'

/-- A tick that loaded before the last write finishes after it, and publishes what it loaded. -/
theorem stale_load_finishes :
    ¬ ConvergesOnceFinished TwoFiles.reloader TwoFiles.parse_text id id TwoFiles.booted := by
  intro h
  have hsome : ((StepRun.run (step TwoFiles.reloader TwoFiles.parse_text id id) TwoFiles.booted
      TwoFiles.stale).bind fun s =>
        (StepRun.run (step TwoFiles.reloader TwoFiles.parse_text id id) s TwoFiles.completion).map
          fun s' => (s.file, s'.file, s'.public.active.loaded.table.routes.length))
      = some (some TwoFiles.second, some TwoFiles.second, 1) := by
    decide +kernel
  obtain ⟨s, hs, hsome⟩ := Option.bind_eq_some_iff.mp hsome
  obtain ⟨s', hs', hroutes⟩ := Option.map_eq_some_iff.mp hsome
  simp only [Prod.mk.injEq] at hroutes
  obtain ⟨hfile, hfile', hlen⟩ := hroutes
  have halong : StepRun.Along (step TwoFiles.reloader TwoFiles.parse_text id id) NewTime
      TwoFiles.booted TwoFiles.stale := by
    decide +kernel
  obtain ⟨f, hf, ⟨ns, hpublic⟩, -⟩ := h TwoFiles.stale TwoFiles.completion s s' halong hs
    ⟨TwoFiles.second, TwoFiles.empty, 0, .ok ("", false), hfile, by decide, by decide +kernel⟩
    (by simp [TwoFiles.completion, Event.quiet]) (by simp [TwoFiles.completion]) hs'
  have hempty : f = TwoFiles.empty := by
    rw [content, hfile'] at hf
    exact (Option.some.inj hf).symm
  rw [hpublic, hempty] at hlen
  cases hlen

end Lagos.Reload
