/-
A reload neither resets nor leaks a quota (`SharedRoutes::store`).

`Ok` is what every run of stores and operations keeps: a table refers, for each of its
routes, to the limiter built for the route's origin, and every limiter is explained by the
operations on it. That the comparison of `store` carries exactly the right references is
`carried_iff`; it compares the new route's limiter with the one in use, which is the
origin's, and no operation moves a limiter to another backend.
-/
import Lagos.SharedRoutes

set_option autoImplicit false

open RustStd

namespace Lagos.Routes

open Lagos.Config
open Lagos.RateLimit (F64 Rate SharedCounterFactory CounterBackend Op Uuid Decision)

variable {F ρ : Type} [F64 F] [Rate F ρ]

/-! ## What is built for a table -/

theorem Limiter.build_backend (l : Limiter) (factory : SharedCounterFactory) (now : Instant)
    (h : l.shared = true → NANOS_PER_SEC ≤ l.config.interval) :
    (l.build factory now h : RateLimit.Limiter ρ).backend = l.backend factory := by
  unfold Limiter.build Limiter.backend
  by_cases hs : l.shared = true
  · rw [dif_pos hs, if_pos hs]
    rfl
  · rw [dif_neg hs, if_neg hs]
    unfold RateLimit.Limiter.new RateLimit.Limiter.backend
    cases l.config.counter <;> rfl

theorem LoadedTable.build_backend (t : LoadedTable) (id : Str) :
    (t.build id : Option (RateLimit.Limiter ρ)).map RateLimit.Limiter.backend = t.backend id := by
  unfold LoadedTable.build LoadedTable.backend
  split
  · rename_i h
    rw [h]
    rfl
  · rename_i r h
    split
    · rename_i hl
      rw [h, Option.bind_some, hl]
      rfl
    · rename_i l hl
      rw [Option.map_some, Limiter.build_backend, h, Option.bind_some, hl, Option.map_some]

theorem built_eq (n : ℕ) (t : LoadedTable) (id : Str) :
    SharedRoutes.built n t id = (t.backend id).map fun _ => ⟨n, id⟩ := by
  unfold SharedRoutes.built LoadedTable.backend
  cases t.table.by_id id with
  | none => rfl
  | some r =>
    rw [Option.bind_some, Option.bind_some, Option.map_map]
    rfl

/-- What each limiter was when it was built. -/
def made (loaded : List LoadedTable) (ref : Ref) : Option (RateLimit.Limiter ρ) :=
  loaded[ref.built]?.bind fun t => t.build ref.id

theorem final_backend (l : RateLimit.Limiter ρ) (ops : List Op) :
    (Objects.final RateLimit.Limiter.operate l ops).backend = l.backend := by
  induction ops generalizing l with
  | nil => rfl
  | cons op ops ih => rw [Objects.final_cons, ih, RateLimit.Limiter.operate_backend]

/-! ## Origins -/

section

variable {loaded : List LoadedTable} {id : Str}

theorem origin_le (n : ℕ) : origin loaded id n ≤ n := by
  induction n with
  | zero => exact Nat.le_refl 0
  | succ n ih =>
    rw [origin]
    split
    · split
      · omega
      · exact Nat.le_refl _
    · exact Nat.le_refl _

/-- A table that is stored later changes no origin. -/
theorem origin_append (later : List LoadedTable) {n : ℕ} (h : n < loaded.length) :
    origin (loaded ++ later) id n = origin loaded id n := by
  induction n with
  | zero => rfl
  | succ n ih =>
    rw [origin, origin, List.getElem?_append_left h, List.getElem?_append_left (by omega),
      ih (by omega)]

theorem origin_succ {n : ℕ} {old new : LoadedTable} (hold : loaded[n]? = some old)
    (hnew : loaded[n + 1]? = some new) :
    origin loaded id (n + 1) = if Unchanged old new id then origin loaded id n else n + 1 := by
  rw [origin, hold, hnew]

/-- Since its origin a route has had the same counter backend. -/
theorem origin_backend {n : ℕ} {t : LoadedTable} (h : loaded[n]? = some t) :
    ∃ t₀, loaded[origin loaded id n]? = some t₀ ∧ t₀.backend id = t.backend id := by
  induction n generalizing t with
  | zero => exact ⟨t, h, rfl⟩
  | succ n ih =>
    have hlt : n < loaded.length := by
      have := (List.getElem?_eq_some_iff.mp h).1
      omega
    have hold := List.getElem?_eq_getElem hlt
    rw [origin_succ hold h]
    by_cases hu : Unchanged loaded[n] t id
    · rw [if_pos hu, ← hu.2.2]
      exact ih hold
    · rw [if_neg hu]
      exact ⟨t, h, rfl⟩

end

/-! ## What every run keeps -/

namespace SharedRoutes

/-- The tables as they were loaded. -/
def loaded (s : SharedRoutes ρ) : List LoadedTable := s.tables.map LiveTable.loaded

/-- The invariant of a handle. -/
structure Ok (draw : ℕ → Uuid) (s : SharedRoutes ρ) : Prop where
  explained : Objects.Explained RateLimit.Limiter.operate (made s.loaded) s.limiters
    (s.log.map Checked.entry)
  limiter : ∀ (n : ℕ) (t : LiveTable), s.tables[n]? = some t → ∀ id,
    t.limiter id = (t.loaded.backend id).map fun _ => ⟨origin s.loaded id n, id⟩
  logged : ∀ e ∈ s.log, ∃ t, s.tables[e.snapshot]? = some t ∧
    t.limiter e.id = some e.entry.address
  namespace_eq : ∀ (n : ℕ) (t : LiveTable), s.tables[n]? = some t → t.cache_namespace = draw n

theorem active_eq (s : SharedRoutes ρ) : s.tables[s.older.length]? = some s.active := by
  rw [tables, List.getElem?_append_right (Nat.le_refl _), Nat.sub_self]
  rfl

theorem loaded_length (s : SharedRoutes ρ) : s.loaded.length = s.older.length + 1 := by
  rw [loaded, tables, List.length_map, List.length_append]
  rfl

theorem loaded_getElem {s : SharedRoutes ρ} {n : ℕ} {t : LiveTable}
    (h : s.tables[n]? = some t) : s.loaded[n]? = some t.loaded := by
  rw [loaded, List.getElem?_map, h, Option.map_some]

variable {draw : ℕ → Uuid} {s : SharedRoutes ρ}

/-- What a table's route refers to has the backend the table was loaded with. -/
theorem Ok.limiter_backend (h : Ok draw s) {n : ℕ} {t : LiveTable}
    (ht : s.tables[n]? = some t) (id : Str) :
    ((t.limiter id).bind s.limiters).map RateLimit.Limiter.backend = t.loaded.backend id := by
  obtain ⟨t₀, ht₀, hb⟩ := @origin_backend _ id _ _ (loaded_getElem ht)
  have hbuilt : (made s.loaded ⟨origin s.loaded id n, id⟩ : Option (RateLimit.Limiter ρ)).map
      RateLimit.Limiter.backend = t.loaded.backend id := by
    rw [made, ht₀, Option.bind_some, LoadedTable.build_backend, hb]
  rw [h.limiter n t ht id]
  cases hbackend : t.loaded.backend id with
  | none => rfl
  | some b =>
    rw [Option.map_some, Option.bind_some, h.explained.state, Option.map_map, ← hbackend, ← hbuilt]
    congr 1
    funext l
    exact final_backend l _

/-- The new limiters are behind the references that name them. -/
theorem built_bind (limiters : Ref → Option (RateLimit.Limiter ρ)) (n : ℕ) (t : LoadedTable)
    (id : Str) : (built n t id).bind (with_built limiters n t) = t.build id := by
  have hb := LoadedTable.build_backend (ρ := ρ) t id
  rw [built_eq]
  cases h : t.backend id with
  | none =>
    rw [h, Option.map_eq_none_iff] at hb
    rw [hb]
    rfl
  | some b => rw [Option.map_some, Option.bind_some, with_built, if_pos rfl]

/-- The limiters in use are not among the new ones. -/
theorem Ok.bind_with_built (h : Ok draw s) {n : ℕ} {t : LiveTable} (ht : s.tables[n]? = some t)
    (new : LoadedTable) (id : Str) :
    (t.limiter id).bind (with_built s.limiters s.tables.length new) =
      (t.limiter id).bind s.limiters := by
  have hlt := (List.getElem?_eq_some_iff.mp ht).1
  have hle := @origin_le s.loaded id n
  rw [h.limiter n t ht id]
  cases t.loaded.backend id with
  | none => rfl
  | some b =>
    rw [Option.map_some, Option.bind_some, Option.bind_some, with_built, if_neg]
    simp only
    omega

/-- **What `store` carries.** -/
theorem Ok.carries_iff (h : Ok draw s) (t : LoadedTable) (id : Str) :
    s.carries (with_built s.limiters s.tables.length t) s.tables.length t id = true ↔
      Unchanged s.active.loaded t id := by
  have hold := h.limiter_backend (active_eq s) id
  have hnew := LoadedTable.build_backend (ρ := ρ) t id
  unfold carries Unchanged
  rw [h.bind_with_built (active_eq s), built_bind, ← hold, ← hnew]
  cases s.active.loaded.table.by_id id with
  | none => simp
  | some old =>
    cases t.table.by_id id with
    | none => simp
    | some route =>
      generalize (s.active.limiter id).bind s.limiters = a
      generalize (t.build id : Option (RateLimit.Limiter ρ)) = b
      cases a with
      | none => simp
      | some a =>
        cases b with
        | none => simp
        | some b => simp [RateLimit.Limiter.same_backend_iff]

/-! ## The steps -/

theorem ok_new (draw : ℕ → Uuid) (t : LoadedTable) : Ok draw (new draw t : SharedRoutes ρ) := by
  have hmade : made [t] = (new draw t : SharedRoutes ρ).limiters := by
    funext ref
    obtain ⟨built, id⟩ := ref
    simp only [new, with_built, made]
    cases built with
    | zero => rfl
    | succ built => rfl
  have hone : ∀ (n : ℕ) (u : LiveTable), (new draw t : SharedRoutes ρ).tables[n]? = some u →
      n = 0 ∧ u = (new draw t : SharedRoutes ρ).active := by
    intro n u hu
    cases n with
    | zero => exact ⟨rfl, (Option.some.inj hu).symm⟩
    | succ n => cases hu
  refine ⟨?_, ?_, ?_, ?_⟩
  · rw [← hmade]
    exact Objects.Explained.nil
  · intro n u hu id
    obtain ⟨rfl, rfl⟩ := hone n u hu
    exact built_eq 0 t id
  · intro e he
    cases he
  · intro n u hu
    obtain ⟨rfl, rfl⟩ := hone n u hu
    rfl

theorem store_loaded (s : SharedRoutes ρ) (t : LoadedTable) :
    (s.store draw t).loaded = s.loaded ++ [t] := by
  simp only [loaded, tables, store, List.map_append, List.map_cons, List.map_nil]

theorem tables_length (s : SharedRoutes ρ) : s.tables.length = s.loaded.length := by
  rw [loaded, List.length_map]

/-- A loaded table goes behind those already there. -/
theorem store_tables (s : SharedRoutes ρ) (t : LoadedTable) :
    (s.store draw t).tables = s.tables ++ [(s.store draw t).active] := rfl

/-- A table of the new list is one of the old ones, under its number, or the one just loaded. -/
theorem store_tables_getElem {t : LoadedTable} {n : ℕ} {u : LiveTable}
    (hu : (s.store draw t).tables[n]? = some u) :
    (n < s.loaded.length ∧ s.tables[n]? = some u) ∨
      (n = s.loaded.length ∧ u = (s.store draw t).active) := by
  rw [store_tables, ← tables_length] at *
  rcases Nat.lt_or_ge n s.tables.length with hlt | hge
  · rw [List.getElem?_append_left hlt] at hu
    exact .inl ⟨hlt, hu⟩
  · have hn : n = s.tables.length := by
      have hlt := (List.getElem?_eq_some_iff.mp hu).1
      rw [List.length_append, List.length_singleton] at hlt
      omega
    rw [hn, List.getElem?_append_right (Nat.le_refl _), Nat.sub_self] at hu
    exact .inr ⟨hn, (Option.some.inj hu).symm⟩

/-- The new limiters are made, those in use are left as the checks made them. -/
theorem Ok.store_explained (h : Ok draw s) (t : LoadedTable) :
    Objects.Explained RateLimit.Limiter.operate (made (s.loaded ++ [t]))
      (with_built s.limiters s.tables.length t) (s.log.map Checked.entry) := by
  have hlen := tables_length s
  refine h.explained.make ?_ ?_
  · intro ref href
    have hlt : ref.built < s.loaded.length := by
      by_contra hge
      rw [made, List.getElem?_eq_none (by omega)] at href
      cases href
    refine ⟨?_, ?_⟩
    · rw [made, made, List.getElem?_append_left hlt]
    · rw [with_built, if_neg (by omega)]
  · intro ref href
    rw [with_built, hlen, made]
    -- What an older table made, what this one makes, and what none has made yet.
    rcases Nat.lt_trichotomy ref.built s.loaded.length with hlt | heq | hgt
    · rw [if_neg (by omega), List.getElem?_append_left hlt, h.explained.state, href]
      exact href.symm
    · rw [if_pos heq, heq, List.getElem?_append_right (Nat.le_refl _), Nat.sub_self]
      rfl
    · rw [if_neg (by omega), List.getElem?_eq_none, h.explained.state, href]
      · rfl
      · rw [List.length_append, List.length_singleton]
        omega

/-- The new table refers to the active table's limiter where the route is unchanged, and
otherwise to its own. -/
theorem Ok.store_limiter (h : Ok draw s) (t : LoadedTable) (id : Str) :
    (s.store draw t).active.limiter id = (t.backend id).map fun _ =>
      ⟨origin (s.loaded ++ [t]) id s.loaded.length, id⟩ := by
  have hold := loaded_getElem (active_eq s)
  have hlt : s.older.length < s.loaded.length := by
    rw [loaded_length]
    omega
  have hnew : (s.loaded ++ [t])[s.older.length + 1]? = some t := by
    rw [← loaded_length, List.getElem?_append_right (Nat.le_refl _), Nat.sub_self]
    rfl
  rw [loaded_length, origin_succ (by rw [List.getElem?_append_left hlt]; exact hold) hnew,
    origin_append _ hlt]
  change (if s.carries (with_built s.limiters s.tables.length t) s.tables.length t id = true
    then s.active.limiter id else built s.tables.length t id) = (t.backend id).map _
  by_cases hu : Unchanged s.active.loaded t id
  · rw [if_pos ((h.carries_iff t id).mpr hu), if_pos hu, h.limiter _ _ (active_eq s), hu.2.2]
  · rw [if_neg (fun hc => hu ((h.carries_iff t id).mp hc)), if_neg hu, built_eq, tables_length,
      loaded_length]

theorem Ok.store (h : Ok draw s) (t : LoadedTable) : Ok draw (s.store draw t) := by
  have hloaded := @store_loaded _ _ _ _ draw s t
  refine ⟨?_, ?_, ?_, ?_⟩
  · rw [hloaded]
    exact h.store_explained t
  · intro n u hu id
    rw [hloaded]
    rcases store_tables_getElem hu with ⟨hlt, hu⟩ | ⟨rfl, rfl⟩
    · rw [h.limiter n u hu id, origin_append _ hlt]
    · exact h.store_limiter t id
  · intro e he
    obtain ⟨u, hu, href⟩ := h.logged e he
    refine ⟨u, ?_, href⟩
    rw [store_tables, List.getElem?_append_left (List.getElem?_eq_some_iff.mp hu).1]
    exact hu
  · intro n u hu
    rcases store_tables_getElem hu with ⟨-, hu⟩ | ⟨rfl, rfl⟩
    · exact h.namespace_eq n u hu
    · rw [← tables_length]
      rfl

theorem Ok.operate (h : Ok draw s) {snapshot : ℕ} {id : Str} {op : Op} {s' : SharedRoutes ρ}
    (hs : s.operate snapshot id op = some s') : Ok draw s' := by
  unfold SharedRoutes.operate at hs
  obtain ⟨ref, href, hl⟩ := Option.bind_eq_some_iff.mp hs
  obtain ⟨t, ht, hid⟩ := Option.bind_eq_some_iff.mp href
  obtain ⟨l, hlim, rfl⟩ := Option.map_eq_some_iff.mp hl
  refine ⟨?_, h.limiter, ?_, h.namespace_eq⟩
  · simp only [List.map_append, List.map_cons, List.map_nil]
    exact h.explained.operate hlim op
  · intro e he
    rcases List.mem_append.mp he with he | he
    · exact h.logged e he
    · rw [List.mem_singleton.mp he]
      exact ⟨t, ht, hid⟩

/-- **Every run** keeps the invariant. -/
theorem ok_run {first : LoadedTable} {es : List Event}
    (hrun : StepRun.run (step draw) (new draw first) es = some s) : Ok draw s := by
  refine StepRun.run_invariant_always (ok_new draw first) ?_ hrun
  intro s e t h hs
  cases e with
  | store u =>
    rw [step, Option.some.injEq] at hs
    exact hs ▸ h.store u
  | operate snapshot id op => exact h.operate hs

/-! ## One limiter for each origin -/

/-- The operations on a route's limiter through the tables in which it has the origin `k`. -/
def checks (s : SharedRoutes ρ) (id : Str) (k : ℕ) : List Checked :=
  s.log.filter fun e => e.id = id ∧ origin s.loaded id e.snapshot = k

/-- They are the operations behind one reference. -/
theorem Ok.map_entry_checks (h : Ok draw s) (id : Str) (k : ℕ) :
    (s.checks id k).map Checked.entry = Objects.operations ⟨k, id⟩ (s.log.map Checked.entry) := by
  rw [Objects.operations, List.filter_map, checks]
  congr 1
  refine List.filter_congr ?_
  intro e he
  obtain ⟨t, ht, href⟩ := h.logged e he
  rw [h.limiter _ t ht] at href
  obtain ⟨b, -, haddr⟩ := Option.map_eq_some_iff.mp href
  simp only [Function.comp_apply, ← haddr, Ref.mk.injEq, decide_eq_decide]
  constructor
  · rintro ⟨rfl, hk⟩
    exact ⟨hk, rfl⟩
  · rintro ⟨hk, rfl⟩
    exact ⟨rfl, hk⟩

/-- What a handle and its history satisfy if no reload resets or leaks a quota. -/
structure QuotasKept (s : SharedRoutes ρ) : Prop where
  /-- The limiters of the tables in which a route has one origin answer as the limiter built for
  the origin does when it is given their operations, and no others, in order. -/
  one_limiter : ∀ (k : ℕ) (t : LoadedTable), s.loaded[k]? = some t →
    ∀ (id : Str) (l : RateLimit.Limiter ρ), t.build id = some l →
      (s.checks id k).map (fun e => e.entry.answer) =
        Objects.answers RateLimit.Limiter.operate l ((s.checks id k).map fun e => e.entry.input)
  /-- An origin is kept exactly where nothing that is compared changes. -/
  origin_kept : ∀ (n : ℕ) (old new : LoadedTable), s.loaded[n]? = some old →
    s.loaded[n + 1]? = some new → ∀ id, origin s.loaded id (n + 1) =
      if Unchanged old new id then origin s.loaded id n else n + 1
  /-- Every table has a cache namespace of its own. -/
  namespaces : ∀ (n m : ℕ) (t u : LiveTable), s.tables[n]? = some t → s.tables[m]? = some u →
    t.cache_namespace = u.cache_namespace → n = m

namespace OneRequest

/-- A sketch that counts nothing: the limit below is an exact one. -/
instance : Rate ℚ Unit where
  new _ _ := ()
  rate_with _ _ _ := ((), ⟨0, 0, 0⟩)
  observe _ _ _ _ := ()

/-- One request a minute, counted exactly. -/
def limit : RateLimitConfig where
  requests := 1
  interval := 60 * NANOS_PER_SEC
  key := .Route
  missing_key := .Route
  trusted_proxies := 0
  max_keys := 1000
  counter := .Exact
  mode := .Approximate

/-- A route with that limit. -/
def route : RouteConfig :=
  { RouteConfig.of_input { id := ['r'], path_prefix := ['r'], upstream := ['u'] } with
    rate_limit := some limit
    limiter := some ⟨limit, false⟩
    auth := .Public }

def table : LoadedTable where
  table := ⟨0, [], [route], none, [], rfl⟩
  factory := ⟨0, [], 1⟩
  now := 0
  nodup := List.nodup_singleton _
  shared_interval := by
    intro r hr l hl hs
    rw [List.mem_singleton.mp hr] at hl
    cases hl
    cases hs

/-- A request at the moment `now`, through table `snapshot`. -/
def request (snapshot : ℕ) (now : Instant) : Event :=
  .operate snapshot ['r'] (.decide ['r'] now UNIX_EPOCH 0 none)

/-- Requests before and after a reload of the same file, the last through the old table. -/
def run : List Event := [request 0 0, .store table, request 1 1, request 0 2]

end OneRequest

end SharedRoutes

end Lagos.Routes
