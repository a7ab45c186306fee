/-
The handle that the request path reads its route table from (`SharedRoutes` in
`routes/mod.rs`), and what a reload does to the limiters.

A limiter is an object that tables refer to: requests in flight still hold the table they
were matched in, so old tables keep operating on the limiters they refer to. A reference is
the table its limiter was built for, by number, and the route. `SharedRoutes::store` hands
references on from the active table to the new one, and the rest of the module says which:
`origin` reads it off the configurations alone.
-/
import Lagos.Lib.Objects
import Lagos.Lib.Run
import Lagos.Limiter
import Lagos.Routes

set_option autoImplicit false

open RustStd

namespace Lagos.Routes

open Lagos.Config
open Lagos.RateLimit (F64 Rate SharedCounterFactory CounterBackend Op Uuid Decision)

/-! ## Tables with their limiters -/

/-- A limiter, by the number of the table it was built for and its route. -/
structure Ref where
  built : ℕ
  id : Str
  deriving DecidableEq, Repr

/-- The map `store` builds: of several routes with one id, the last. -/
def RouteTable.by_id (t : RouteTable) (id : Str) : Option RouteConfig :=
  t.routes.reverse.find? fun r => r.id = id

/-- A table that passed validation, with what the limiters of its routes are built from: the
backend of those that are shared, and when. -/
structure LoadedTable where
  table : RouteTable
  factory : SharedCounterFactory
  now : Instant
  nodup : (table.routes.map RouteConfig.id).Nodup
  shared_interval : ∀ r ∈ table.routes, ∀ l, r.limiter = some l → l.shared = true →
    NANOS_PER_SEC ≤ l.config.interval

/-- The limiter `RouteTable::build_with` makes. -/
def Limiter.build {F ρ : Type} [F64 F] [Rate F ρ] (l : Limiter) (factory : SharedCounterFactory)
    (now : Instant) (h : l.shared = true → NANOS_PER_SEC ≤ l.config.interval) :
    RateLimit.Limiter ρ :=
  if hs : l.shared = true then .shared l.config factory (h hs) else .new l.config now

/-- What its counts live in. -/
def Limiter.backend (l : Limiter) (factory : SharedCounterFactory) : CounterBackend :=
  if l.shared then .Shared factory.backend factory.key_prefix factory.max_keys_per_sync
  else
    match l.config.counter with
    | .Exact => .Exact
    | .Sketch | .Shared => .Sketch

theorem RouteTable.mem_of_by_id {t : RouteTable} {id : Str} {r : RouteConfig}
    (h : t.by_id id = some r) : r ∈ t.routes :=
  List.mem_reverse.mp (List.mem_of_find?_eq_some h)

namespace LoadedTable

/-- The limiter built for a route. -/
def build {F ρ : Type} [F64 F] [Rate F ρ] (t : LoadedTable) (id : Str) :
    Option (RateLimit.Limiter ρ) :=
  match h : t.table.by_id id with
  | none => none
  | some r =>
    match hl : r.limiter with
    | none => none
    | some l =>
      some (l.build t.factory t.now (t.shared_interval r (RouteTable.mem_of_by_id h) l hl))

/-- The backend of a route's limiter. -/
def backend (t : LoadedTable) (id : Str) : Option CounterBackend :=
  (t.table.by_id id).bind fun r => r.limiter.map fun l => l.backend t.factory

end LoadedTable

/-- A table behind a handle, with the limiter that each of its routes refers to. -/
structure LiveTable where
  loaded : LoadedTable
  cache_namespace : Uuid
  limiter : Str → Option Ref

/-- History: an operation on the limiter of a route, through the table with that number. -/
structure Checked where
  snapshot : ℕ
  id : Str
  entry : Objects.Entry Ref Op (Option Decision)

/-- `SharedRoutes`, with every table it ever held and the limiters they refer to. -/
structure SharedRoutes (ρ : Type) where
  older : List LiveTable
  active : LiveTable
  limiters : Ref → Option (RateLimit.Limiter ρ)
  log : List Checked

/-- The comparisons of `store`, but for the last. -/
def same_policy (old route : RouteConfig) : Prop :=
  old.auth = route.auth ∧ old.path_prefix = route.path_prefix ∧ old.hosts = route.hosts ∧
    old.methods = route.methods ∧ old.upstream = route.upstream ∧ old.bind = route.bind ∧
    old.extensions = route.extensions ∧ old.rate_limit = route.rate_limit

instance (old route : RouteConfig) : Decidable (same_policy old route) :=
  inferInstanceAs (Decidable (_ ∧ _))

namespace SharedRoutes

section

variable {F ρ : Type} [F64 F] [Rate F ρ]

/-- Every table so far, by number. -/
def tables (s : SharedRoutes ρ) : List LiveTable := s.older ++ [s.active]

/-- The limiters of a table's routes, as they were built for it. -/
def built (n : ℕ) (t : LoadedTable) (id : Str) : Option Ref :=
  ((t.table.by_id id).bind RouteConfig.limiter).map fun _ => ⟨n, id⟩

/-- The limiters with those built for table `n`. -/
def with_built (limiters : Ref → Option (RateLimit.Limiter ρ)) (n : ℕ) (t : LoadedTable) :
    Ref → Option (RateLimit.Limiter ρ) :=
  fun ref => if ref.built = n then t.build ref.id else limiters ref

/-- `SharedRoutes::new`. -/
def new (draw : ℕ → Uuid) (t : LoadedTable) : SharedRoutes ρ where
  older := []
  active := ⟨t, draw 0, built 0 t⟩
  limiters := with_built (fun _ => none) 0 t
  log := []

/-- The condition of `store` for the route `id`: whether it refers to the limiter that the active
table's route refers to. -/
def carries (s : SharedRoutes ρ) (limiters : Ref → Option (RateLimit.Limiter ρ)) (n : ℕ)
    (t : LoadedTable) (id : Str) : Bool :=
  match s.active.loaded.table.by_id id, t.table.by_id id with
  | some old, some route =>
    same_policy old route &&
      match (s.active.limiter id).bind limiters, (built n t id).bind limiters with
      | some a, some b => a.same_backend b
      | _, _ => false
  | _, _ => false

/-- `SharedRoutes::store`. -/
def store (draw : ℕ → Uuid) (s : SharedRoutes ρ) (t : LoadedTable) : SharedRoutes ρ :=
  let n := s.tables.length
  let limiters := with_built s.limiters n t
  { older := s.tables
    active :=
      { loaded := t
        cache_namespace := draw n
        limiter := fun id =>
          if s.carries limiters n t id then s.active.limiter id else built n t id }
    limiters := limiters
    log := s.log }

/-- What happens to a handle: a table is stored, or somebody who holds table `snapshot` operates
on the limiter of one of its routes. -/
inductive Event where
  | store (t : LoadedTable)
  | operate (snapshot : ℕ) (id : Str) (op : Op)

/-- An operation through table `snapshot`, where it has a limiter for that route. -/
def operate (s : SharedRoutes ρ) (snapshot : ℕ) (id : Str) (op : Op) : Option (SharedRoutes ρ) :=
  (s.tables[snapshot]?.bind fun t => t.limiter id).bind fun ref =>
    (s.limiters ref).map fun l =>
      let res := l.operate op
      { s with
        limiters := Function.update s.limiters ref (some res.1)
        log := s.log ++ [⟨snapshot, id, ⟨ref, op, res.2⟩⟩] }

/-- `draw` is what `Uuid::new_v4` gives for the tables in turn. -/
def step (draw : ℕ → Uuid) (s : SharedRoutes ρ) : Event → Option (SharedRoutes ρ)
  | .store t => some (s.store draw t)
  | .operate snapshot id op => s.operate snapshot id op

end

end SharedRoutes

/-! ## Where a limiter comes from -/

/-- A route that is in both tables, under the same policy and with the same counter backend. -/
def Unchanged (old new : LoadedTable) (id : Str) : Prop :=
  (∃ r ∈ old.table.by_id id, ∃ r' ∈ new.table.by_id id, same_policy r r') ∧
    (old.backend id).isSome ∧ old.backend id = new.backend id

instance (old new : LoadedTable) (id : Str) : Decidable (Unchanged old new id) :=
  inferInstanceAs (Decidable (_ ∧ _))

/-- The table since which the route has been in every table, unchanged. -/
def origin (loaded : List LoadedTable) (id : Str) : ℕ → ℕ
  | 0 => 0
  | n + 1 =>
    match loaded[n]?, loaded[n + 1]? with
    | some old, some new => if Unchanged old new id then origin loaded id n else n + 1
    | _, _ => n + 1

end Lagos.Routes
