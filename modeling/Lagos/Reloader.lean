/-
The background task that reloads a route file (`RouteReloader` in `runtime.rs`,
`FileRouteProvider` in `routes/file.rs`).

A tick reads the modification time, and if it is not the one it remembers it loads the file,
checks the table and publishes it to one handle and then the other. The file may be written
at any moment in between. What a load that overlaps with a write reads is anything; a load
during which nobody writes reads the file.

A table that passes the checks is a `LoadedTable`, and so is either half of it.
-/
import Lagos.RoutesValidate
import Lagos.SharedRoutes
import Mathlib.Data.List.Destutter

set_option autoImplicit false

open RustStd

namespace Lagos.Reload

open Lagos.Config Lagos.Routes
open Lagos.RateLimit (F64 Rate SharedCounterFactory Uuid)

/-! ## The route file -/

/-- What a route file parses to. -/
structure RouteFile where
  internal : List Str
  machine : List RouteInput
  «public» : List RouteInput
  optional : List RouteInput
  authenticated : List RouteInput
  deriving DecidableEq

/-- `RouteGroups`, deserialized. -/
def RouteFile.groups (f : RouteFile) : RouteGroups where
  internal := f.internal
  machine := f.machine.map RouteConfig.of_input
  «public» := f.public.map RouteConfig.of_input
  optional := f.optional.map RouteConfig.of_input
  authenticated := f.authenticated.map RouteConfig.of_input

/-! ## The checks -/

/-- `ExtensionRegistry::missing`. The order of two names is that of their characters. -/
def missing (by_name referenced : List Str) : List Str :=
  ((referenced.filter fun n => n ∉ by_name).mergeSort fun a b => !(b < a)).destutter (· ≠ ·)

/-- `ExtensionRegistry::validate`. -/
def validate_extensions (by_name : List Str) (table : RouteTable) : Except String Unit :=
  let missing := missing by_name (table.routes.flatMap RouteConfig.extensions)
  if missing ≠ [] then
    .error ("routes reference extensions that are not registered: "
      ++ ", ".intercalate (missing.map text))
  else .ok ()

/-- `verify_shared_counters`. `probe` is what the backend answers if it is asked: who it is,
and whether it can decide exactly. -/
def verify_shared_counters (table : RouteTable) (probe : Except String (String × Bool)) :
    Except String Unit :=
  let needs (mode : RateLimitConfig → Bool) :=
    table.routes.any fun r => r.rate_limit.any fun rl => rl.counter = .Shared && mode rl
  if !needs (fun _ => true) then .ok ()
  else
    let needs_exact := needs fun rl => rl.mode = .Exact
    match probe with
    | .ok (server, supports_exact) =>
      if needs_exact && !supports_exact then
        .error ("a route sets `rate_limit.mode: exact`, which needs Recached's RLCHECK, "
          ++ s!"but shared_counters.url answered as {server}. RLCHECK has no Redis or "
          ++ "Valkey equivalent and cannot be emulated without EVAL, which Recached "
          ++ "does not implement either. Use `mode: approximate`, or point "
          ++ "shared_counters at Recached.")
      else .ok ()
    | .error e =>
      if needs_exact then
        .error ("a route sets `rate_limit.mode: exact`, but the shared counter store could "
          ++ s!"not be reached: {e}")
      else .ok ()

/-- What a `RouteReloader` and its provider are given at boot. -/
structure RouteReloader where
  config : ResolvedConfig
  /-- The names of the registered extensions. -/
  extensions : List Str
  shared : Option SharedCounterFactory
  defaults : RouteDefaults

namespace RouteReloader

variable (self : RouteReloader)

/-- The table of a route file. -/
def build (cache_namespace : ℕ) (f : RouteFile) : RouteTable :=
  .build_with cache_namespace f.groups self.defaults self.shared.isSome

/-- The checks of `RouteReloader::publish`. -/
def check (table : RouteTable) (probe : Except String (String × Bool)) : Except String Unit := do
  (self.config.validate_table table).mapError ConfigError.message
  validate_extensions self.extensions table
  match self.shared with
  | some _ => verify_shared_counters table probe
  | none => .ok ()

end RouteReloader

/-! ## What passes can be loaded -/

/-- What `LoadedTable` asks of a table. -/
structure Sound (t : RouteTable) : Prop where
  nodup : (t.routes.map RouteConfig.id).Nodup
  shared_interval : ∀ r ∈ t.routes, ∀ l, r.limiter = some l → l.shared = true →
    NANOS_PER_SEC ≤ l.config.interval

/-- Either half of such a table is one. -/
theorem Sound.filter {t half : RouteTable} (h : Sound t) {p : RouteConfig → Bool}
    (hp : half.routes = t.routes.filter p) : Sound half := by
  refine ⟨?_, ?_⟩
  · rw [hp]
    exact h.nodup.sublist (List.filter_sublist.map _)
  · intro r hr
    rw [hp] at hr
    exact h.shared_interval r (List.mem_of_mem_filter hr)

/-- What a route inherits is not its limiter. -/
theorem resolve_route_limiter (defaults : RouteDefaults) (r : RouteConfig) :
    (resolve_route defaults r).limiter = r.limiter := by
  unfold resolve_route
  simp only
  split <;> split <;> split <;> split <;> rfl

/-- The limiter of a route from a file is built from its rate limit. -/
theorem limiter_of_mem_build {self : RouteReloader} {ns : ℕ} {f : RouteFile} {r : RouteConfig}
    (hr : r ∈ (self.build ns f).routes) {l : Limiter} (hl : r.limiter = some l) :
    r.rate_limit = some l.config ∧ (l.shared = true → l.config.counter = .Shared) := by
  have hmem : r ∈ f.groups.declared.map fun r =>
      (derive_route self.shared.isSome (resolve_route self.defaults r)).1 := by
    have := (List.mem_insertionSort _).mp hr
    rwa [List.map_map] at this
  obtain ⟨r₀, hr₀, rfl⟩ := List.mem_map.mp hmem
  -- a route of the file has no limiter yet
  have hnone : r₀.limiter = none := by
    simp only [RouteGroups.declared, RouteFile.groups, List.mem_filter, List.mem_append,
      List.mem_map, exists_exists_and_eq_and] at hr₀
    obtain ⟨((⟨i, -, rfl⟩ | ⟨i, -, rfl⟩) | ⟨i, -, rfl⟩) | ⟨i, -, rfl⟩, -⟩ := hr₀ <;> rfl
  have hresolved := (resolve_route_limiter self.defaults r₀).trans hnone
  simp only [derive_route, build_limiter] at hl
  change (resolve_route self.defaults r₀).rate_limit = _ ∧ _
  cases hrate : (resolve_route self.defaults r₀).rate_limit with
  | none =>
    rw [hrate] at hl
    simp only [hresolved] at hl
    cases hl
  | some rl =>
    rw [hrate] at hl
    by_cases hzero : rl.requests = 0
    · simp only [if_pos hzero, hresolved] at hl
      cases hl
    · simp only [if_neg hzero, Option.some.injEq] at hl
      subst hl
      refine ⟨rfl, ?_⟩
      intro hs
      simp only [Bool.and_eq_true, decide_eq_true_eq] at hs
      exact hs.1

/-- **A table that passes validation can be loaded**: its ids are distinct, and a limit is
shared only over a second or more. -/
theorem sound_of_valid {self : RouteReloader} {ns : ℕ} {f : RouteFile}
    (h : self.config.validate_table (self.build ns f) = .ok ()) : Sound (self.build ns f) := by
  obtain ⟨-, haccepted⟩ := validate_table_ok.mp h
  refine ⟨haccepted.ids_unique, ?_⟩
  intro r hr l hl hs
  obtain ⟨hrate, hshared⟩ := limiter_of_mem_build hr hl
  obtain ⟨-, shared, -, hsecond, -⟩ :=
    ((haccepted.sound r hr).countable l.config hrate).shared_is_backed (hshared hs)
  exact hsecond

/-- Validation is the first of the checks. -/
theorem check_valid {self : RouteReloader} {t : RouteTable}
    {probe : Except String (String × Bool)} (h : self.check t probe = .ok ()) :
    self.config.validate_table t = .ok () := by
  unfold RouteReloader.check at h
  cases hv : self.config.validate_table t with
  | ok u => rfl
  | error e =>
    rw [hv] at h
    cases h

/-! ## The two handles -/

/-- A table that can be loaded, with what its limiters are built from. -/
def load (self : RouteReloader) (now : Instant) (t : RouteTable) (h : Sound t) : LoadedTable where
  table := t
  -- without a backend no limiter is shared
  factory := self.shared.getD ⟨0, [], 0⟩
  now := now
  nodup := h.nodup
  shared_interval := h.shared_interval

theorem Sound.public {t : RouteTable} (h : Sound t) : Sound t.partition_by_listener.1 :=
  h.filter rfl

theorem Sound.machine {t : RouteTable} (h : Sound t) : Sound t.partition_by_listener.2 :=
  h.filter rfl

/-- The file, as it is now. -/
structure File where
  text : Str
  modified : SystemTime
  deriving DecidableEq

/-- How far a tick has come. `current` is the modification time it read. -/
inductive Phase where
  | Idle
  /-- The time differs from the one remembered. -/
  | Stale (current : Option SystemTime)
  /-- The provider is loading. `clean`: nobody has written since it began. -/
  | Loading (current : Option SystemTime) (clean : Bool)
  /-- It has loaded, and the checks are next. -/
  | Loaded (current : Option SystemTime) (cache_namespace : ℕ) (f : RouteFile) (now : Instant)
  /-- The public handle has its half, the machine handle is next. -/
  | Storing (current : Option SystemTime) (machine : LoadedTable)

/-- The same phase, after somebody wrote. -/
def Phase.dirtied : Phase → Phase
  | .Loading current _ => .Loading current false
  | phase => phase

/-- The reloader, its file and the handles. -/
structure State (ρ : Type) where
  file : Option File
  last : Option SystemTime
  phase : Phase
  «public» : SharedRoutes ρ
  machine : Option (SharedRoutes ρ)
  /-- History: the tables `publish_reload` was called with. -/
  published : List RouteTable
  /-- History: every modification time the file has had. -/
  modified : List SystemTime

/-- What happens, one thing at a time. -/
inductive Event where
  /-- Somebody writes the file, or removes it. -/
  | write (file : Option File)
  /-- The ticker fires and the modification time is read; `readable` is whether it can be. -/
  | tick (readable : Bool)
  | open
  /-- The provider has loaded, `none` if it failed. -/
  | loaded (outcome : Option RouteFile) (cache_namespace : ℕ) (now : Instant)
  /-- The checks; `probe` is what the backend answers if it is asked. -/
  | checked (probe : Except String (String × Bool))
  | finish

section

variable {F ρ : Type} [F64 F] [Rate F ρ]

/-- The file is written. -/
def State.write (s : State ρ) (file : Option File) : State ρ :=
  { s with
    file := file
    phase := s.phase.dirtied
    modified := s.modified ++ file.toList.map File.modified }

/-- `RouteReloader::mtime`. -/
def mtime (s : State ρ) (readable : Bool) : Option SystemTime :=
  if readable then s.file.map File.modified else none

/-- What the provider may make of the file when nobody writes to it: what the text parses to, or
a failure. `parse` is the expansion of variables and the YAML parser. -/
def may_load (parse : Str → Option RouteFile) (file : Option File)
    (outcome : Option RouteFile) : Prop :=
  outcome = none ∨ outcome = file.bind fun file => parse file.text

instance (parse : Str → Option RouteFile) (file : Option File) (outcome : Option RouteFile) :
    Decidable (may_load parse file outcome) :=
  inferInstanceAs (Decidable (_ ∨ _))

variable (self : RouteReloader) (parse : Str → Option RouteFile) (draw draw' : ℕ → Uuid)

/-- `SharedRoutes::publish_reload`, first half, for a table that passed the checks. -/
def State.publish (s : State ρ) (current : Option SystemTime) (now : Instant) (t : RouteTable)
    (h : Sound t) : State ρ :=
  { s with
    «public» := s.public.store draw (load self now t.partition_by_listener.1 h.public)
    phase := .Storing current (load self now t.partition_by_listener.2 h.machine)
    published := s.published ++ [t] }

/-- One step, or `none` where the event cannot happen. -/
def step (s : State ρ) (e : Event) : Option (State ρ) :=
  match e, s.phase with
  | .write file, _ => some (s.write file)
  | .tick readable, .Idle =>
    let current := mtime s readable
    some (if current = s.last then s else { s with phase := .Stale current })
  | .open, .Stale current => some { s with phase := .Loading current true }
  | .loaded outcome cache_namespace now, .Loading current clean =>
    if clean = true → may_load parse s.file outcome then
      some { s with
        phase :=
          match outcome with
          | some f => .Loaded current cache_namespace f now
          | none => .Idle }
    else none
  | .checked probe, .Loaded current cache_namespace f now =>
    if h : self.check (self.build cache_namespace f) probe = .ok () then
      some (s.publish self draw current now (self.build cache_namespace f)
        (sound_of_valid (check_valid h)))
    else some { s with phase := .Idle }
  | .finish, .Storing current machine =>
    some { s with
      machine := s.machine.map fun m => m.store draw' machine
      last := current
      phase := .Idle }
  | _, _ => none

/-- The gateway as it boots: its table has passed the same checks and is split the same way, and
the reloader remembers nothing. -/
def init (file : Option File) (now : Instant) (t : RouteTable) (h : Sound t) : State ρ where
  file := file
  last := none
  phase := .Idle
  «public» := .new draw (load self now t.partition_by_listener.1 h.public)
  machine :=
    self.config.internal_listen.map fun _ =>
      .new draw' (load self now t.partition_by_listener.2 h.machine)
  published := []
  modified := file.toList.map File.modified

end

end Lagos.Reload
