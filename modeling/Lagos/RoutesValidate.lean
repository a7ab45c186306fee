/-
What a route table is refused for (`ResolvedConfig::validate_table`), and why the order in
which routes are written down decides nothing.

The table is sorted before it is searched, and the sort key leaves two routes in declaration
order when they have prefixes of one length and are both for some host or both for any.
`conflicting_routes` looks at pairs of routes and at nothing else. That is enough: of two
routes in declaration order that one request matches, it finds the conflict
(`conflicting_of_tied`), so in a table that passed, every request's first match is the same
however the groups are arranged.
-/
import Lagos.RoutesMatch
import Mathlib.Data.List.Pairwise

set_option autoImplicit false

open RustStd Segments FirstMatch

namespace Lagos.Config

open Lagos.Routes Lagos.Path

/-! ## The checks -/

/-- The parts of `ResolvedConfig` that a route table is checked against. -/
structure ResolvedConfig where
  /-- The names of the upstreams, in the order their map is iterated in. -/
  upstreams : List Str
  /-- The networks, as written. -/
  trusted_proxy_ips : List Str
  /-- Whether the binary was built with the `shared-limits` feature. -/
  shared_limits : Bool
  shared_counters : Option SharedCountersConfig
  /-- Whether there is a `cache` block, an `auth.client_keys` and an `auth.machine`. -/
  cache : Bool
  client_keys : Bool
  machine : Bool
  internal_listen : Option Str
  deriving DecidableEq, Repr

/-- `if c { return Err(ConfigError::invalid(message)) }`. -/
def refuse_if (c : Prop) [Decidable c] (message : String) : Except ConfigError Unit :=
  if c then invalid message else .ok ()

/-- `conflicting_routes`. -/
def conflicting_routes (a b : RouteConfig) : Bool :=
  if a.path_prefix ≠ b.path_prefix ∨ a.auth.is_machine ≠ b.auth.is_machine then false
  else if a.auth = b.auth ∧ a.hosts.isEmpty ≠ b.hosts.isEmpty then false
  else
    let methods_overlap := a.methods.isEmpty || b.methods.isEmpty
      || a.methods.any fun method => b.methods.contains method
    let hosts_overlap := a.hosts.isEmpty || b.hosts.isEmpty
      || a.hosts.any fun host => b.hosts.any fun other => host.overlaps other
    methods_overlap && hosts_overlap

/-- `Duration::from_secs(1)`. -/
def SECOND : Duration := 1000000000

/-- `ResolvedConfig::validate_shared_limit`. -/
def ResolvedConfig.validate_shared_limit (cfg : ResolvedConfig) (id : Str)
    (limit : RateLimitConfig) : Except ConfigError Unit := do
  refuse_if (limit.mode = .Exact ∧ limit.counter ≠ .Shared)
    (s!"route `{text id}`: rate_limit.mode is `exact`, which only means something with "
      ++ "`counter: shared` — a per-process counter has nothing to be exact about")
  if limit.counter ≠ .Shared then return ()
  refuse_if (cfg.shared_limits = false)
    (s!"route `{text id}`: `counter: shared` needs a build with the `shared-limits` "
      ++ "feature, and this binary was built without it")
  match cfg.shared_counters with
  | none =>
    invalid (s!"route `{text id}`: `counter: shared` needs a `shared_counters` block saying where "
      ++ "the counters live")
  | some shared =>
    refuse_if (limit.interval < SECOND)
      (s!"route `{text id}`: a shared rate limit needs `interval` of at least 1s, not "
        ++ debug_duration limit.interval)
    refuse_if (limit.mode = .Exact ∧ limit.interval % SECOND ≠ 0)
      (s!"route `{text id}`: rate_limit.mode `exact` requires an interval in whole seconds; "
        ++ s!"RLCHECK cannot represent {debug_duration limit.interval}")
    refuse_if (limit.mode = .Approximate ∧ shared.sync ≥ limit.interval)
      (s!"route `{text id}`: shared_counters.sync ({debug_duration shared.sync}) is not shorter "
        ++ s!"than the limit's interval ({debug_duration limit.interval}), so the cluster's usage "
        ++ "would be read at most once per window and the limit would be barely shared at all. "
        ++ "Lower `sync`, or use `mode: exact`.")

/-- The checks of one route that need no other route, in `validate_routes`' first loop. -/
def ResolvedConfig.validate_route (cfg : ResolvedConfig) (r : RouteConfig) :
    Except ConfigError Unit := do
  r.rate_limit.forM (cfg.validate_shared_limit r.id)
  refuse_if (∃ cap ∈ r.concurrency, cap.effective_key = .Ip ∧ cap.trusted_proxies > 0
      ∧ cfg.trusted_proxy_ips = [])
    (s!"route `{text r.id}` trusts X-Forwarded-For for its concurrency cap but "
      ++ "forward.trusted_proxy_ips is empty")
  refuse_if (∃ limit ∈ r.rate_limit, limit.key = .Ip ∧ limit.trusted_proxies > 0
      ∧ cfg.trusted_proxy_ips = [])
    (s!"route `{text r.id}` trusts X-Forwarded-For for its IP limit but "
      ++ "forward.trusted_proxy_ips is empty")
  refuse_if (r.path_prefix = [])
    s!"route `{text r.id}`: prefix is empty; it would match every request"
  refuse_if (r.upstream ∉ cfg.upstreams)
    (s!"route `{text r.id}` names upstream `{text r.upstream}`, which is not defined"
      ++ suggestion r.upstream cfg.upstreams)

/-- The first loop. `seen` maps the ids met so far to their prefixes. -/
def ResolvedConfig.validate_each (cfg : ResolvedConfig) (seen : List (Str × Str)) :
    List RouteConfig → Except ConfigError Unit
  | [] => .ok ()
  | r :: routes => do
    cfg.validate_route r
    match seen.lookup r.id with
    | some prev =>
      invalid (s!"two routes share the id `{text r.id}` (`{text prev}` and "
        ++ s!"`{text r.path_prefix}`). Ids name the route in logs and metrics, so they must be "
        ++ "unique.")
    | none => cfg.validate_each ((r.id, r.path_prefix) :: seen) routes

/-- The loop over pairs of routes. -/
def validate_pairs : List RouteConfig → Except ConfigError Unit
  | [] => .ok ()
  | route :: rest =>
    match rest.find? (conflicting_routes route) with
    | some other =>
      invalid (s!"routes `{text route.id}` ({route.auth.group}) and `{text other.id}` "
        ++ s!"({other.auth.group}) both match prefix `{text route.path_prefix}` for at least one "
        ++ "host and method. Routes on the same listener must not depend on declaration order "
        ++ "for authorization.")
    | none => validate_pairs rest

/-- A binding on a tier that never reads a token could only refuse. -/
def validate_bindings (r : RouteConfig) : Except ConfigError Unit :=
  refuse_if (r.bindings ≠ [] ∧ r.auth.verifies = false)
    (s!"route `{text r.id}` is in the `{r.auth.group}` group but declares `bind`. A binding "
      ++ "compares against the caller's identity, which is never read on that tier, so every "
      ++ "request would be refused.")

/-- A route that caches, and whose responses may be personal. -/
def ResolvedConfig.validate_cache (cfg : ResolvedConfig) (r : RouteConfig) :
    Except ConfigError Unit := do
  refuse_if (r.cache = true ∧ cfg.cache = false)
    s!"route `{text r.id}` sets `cache: true` but no `cache:` block is configured"
  refuse_if (r.cache = true ∧ r.auth.verifies = true ∧ r.cache_authenticated = false)
    (s!"route `{text r.id}` is in the `{r.auth.group}` group and sets `cache: true`. Responses "
      ++ "there are usually personalised, and sharing one between callers is a data leak rather "
      ++ "than a slow page. If the upstream sends correct `Cache-Control` and you mean it, add "
      ++ "`cache_authenticated: true`.")

/-- A `client_key` that cannot take effect. -/
def ResolvedConfig.validate_client_key (cfg : ResolvedConfig) (r : RouteConfig) :
    Except ConfigError Unit := do
  refuse_if (r.auth.is_machine = true)
    (s!"route `{text r.id}` is in the `machine` group and sets `client_key`. Client keys are "
      ++ "checked on the public listener only; the machine credential still applies")
  refuse_if (cfg.client_keys = false)
    (s!"route `{text r.id}` sets `client_key` but `auth.client_keys` is not configured, so no "
      ++ "route needs a key and the field would have no effect")

/-- What machine routes need of the rest of the configuration. -/
def ResolvedConfig.validate_machine (cfg : ResolvedConfig) (routes : List RouteConfig) :
    Except ConfigError Unit := do
  let machine_routes := routes.countP fun r => r.auth.is_machine
  refuse_if (machine_routes > 0 ∧ cfg.machine = false)
    (s!"{machine_routes} machine-tier route(s) are defined but `auth.machine` is not configured; "
      ++ "there would be no credential to check them against")
  refuse_if (machine_routes > 0 ∧ cfg.internal_listen = none)
    (s!"{machine_routes} machine-tier route(s) are defined but `server.internal_listen` is "
      ++ "unset; they would be unreachable")

/-- `ResolvedConfig::validate_routes`. -/
def ResolvedConfig.validate_routes (cfg : ResolvedConfig) (routes : List RouteConfig) :
    Except ConfigError Unit := do
  cfg.validate_each [] routes
  validate_pairs routes
  routes.forM validate_bindings
  routes.forM cfg.validate_cache
  (routes.filter fun r => r.client_key.isSome).forM cfg.validate_client_key
  cfg.validate_machine routes

/-- `ResolvedConfig::validate_table`. -/
def ResolvedConfig.validate_table (cfg : ResolvedConfig) (table : RouteTable) :
    Except ConfigError Unit :=
  match table.errors.head? with
  | some first => invalid first
  | none => cfg.validate_routes table.routes

/-! ## What a table that passes satisfies -/

@[simp] theorem refuse_if_ok {c : Prop} [Decidable c] {message : String} :
    refuse_if c message = .ok () ↔ ¬ c := by
  unfold refuse_if invalid
  split <;> simp_all

/-- A limit that can be counted where it says it is. -/
structure CountedAsDeclared (cfg : ResolvedConfig) (limit : RateLimitConfig) : Prop where
  exact_is_shared : limit.mode = .Exact → limit.counter = .Shared
  shared_is_backed : limit.counter = .Shared → cfg.shared_limits = true ∧
    ∃ shared ∈ cfg.shared_counters, SECOND ≤ limit.interval
      ∧ (limit.mode = .Exact → limit.interval % SECOND = 0)
      ∧ (limit.mode = .Approximate → shared.sync < limit.interval)

theorem validate_shared_limit_ok {cfg : ResolvedConfig} {id : Str} {limit : RateLimitConfig} :
    cfg.validate_shared_limit id limit = .ok () ↔ CountedAsDeclared cfg limit := by
  unfold ResolvedConfig.validate_shared_limit
  rw [andThen_ok, refuse_if_ok]
  -- A limit that is not shared is done after the first check.
  by_cases hshared : limit.counter = .Shared
  · rw [if_neg (not_not_intro hshared), andThen_ok, refuse_if_ok]
    constructor
    · rintro ⟨-, hbuilt, hbacked⟩
      refine ⟨fun _ => hshared, fun _ => ⟨by simpa using hbuilt, ?_⟩⟩
      cases hc : cfg.shared_counters with
      | none =>
        rw [hc] at hbacked
        cases hbacked
      | some shared =>
        rw [hc] at hbacked
        simp only [andThen_ok, refuse_if_ok, not_and, not_not, not_lt, not_le] at hbacked
        exact ⟨shared, rfl, hbacked⟩
    · rintro ⟨-, h⟩
      obtain ⟨hbuilt, shared, hc, hbacked⟩ := h hshared
      rw [Option.mem_def] at hc
      refine ⟨fun h => h.2 hshared, by simp [hbuilt], ?_⟩
      simp only [hc, andThen_ok, refuse_if_ok, not_and, not_not, not_lt, not_le]
      exact hbacked
  · rw [if_pos hshared]
    constructor
    · rintro ⟨hexact, -⟩
      exact ⟨fun h => absurd ⟨h, hshared⟩ hexact, fun h => absurd h hshared⟩
    · rintro ⟨hexact, -⟩
      exact ⟨fun h => h.2 (hexact h.1), rfl⟩

/-- What one route has to satisfy on its own. -/
structure SoundRoute (cfg : ResolvedConfig) (r : RouteConfig) : Prop where
  countable : ∀ limit ∈ r.rate_limit, CountedAsDeclared cfg limit
  /-- Forwarded addresses count only if somebody may vouch for them. -/
  cap_vouched : ∀ cap ∈ r.concurrency, cap.effective_key = .Ip → cap.trusted_proxies > 0 →
    cfg.trusted_proxy_ips ≠ []
  limit_vouched : ∀ limit ∈ r.rate_limit, limit.key = .Ip → limit.trusted_proxies > 0 →
    cfg.trusted_proxy_ips ≠ []
  prefix_ne_nil : r.path_prefix ≠ []
  upstream_defined : r.upstream ∈ cfg.upstreams
  bound_to_identity : r.bindings ≠ [] → r.auth.verifies = true
  cache_defined : r.cache = true → cfg.cache = true
  cache_not_personal : r.cache = true → r.auth.verifies = true → r.cache_authenticated = true
  client_key_effective : r.client_key.isSome = true →
    r.auth.is_machine = false ∧ cfg.client_keys = true
  machine_reachable : r.auth.is_machine = true →
    cfg.machine = true ∧ cfg.internal_listen ≠ none

theorem validate_route_ok {cfg : ResolvedConfig} {r : RouteConfig} :
    cfg.validate_route r = .ok () ↔ (∀ limit ∈ r.rate_limit, CountedAsDeclared cfg limit)
      ∧ (∀ cap ∈ r.concurrency, cap.effective_key = .Ip → cap.trusted_proxies > 0 →
          cfg.trusted_proxy_ips ≠ [])
      ∧ (∀ limit ∈ r.rate_limit, limit.key = .Ip → limit.trusted_proxies > 0 →
          cfg.trusted_proxy_ips ≠ [])
      ∧ r.path_prefix ≠ [] ∧ r.upstream ∈ cfg.upstreams := by
  have hlimit : r.rate_limit.forM (cfg.validate_shared_limit r.id) = .ok () ↔
      ∀ limit ∈ r.rate_limit, CountedAsDeclared cfg limit := by
    cases r.rate_limit with
    | none => exact iff_of_true rfl nofun
    | some limit => simpa [Option.forM] using validate_shared_limit_ok
  unfold ResolvedConfig.validate_route
  rw [andThen_ok, hlimit]
  simp only [andThen_ok, refuse_if_ok, not_exists, not_and, not_not, ne_eq]

/-- The first loop accepts routes that pass on their own and whose ids are new. -/
theorem validate_each_ok {cfg : ResolvedConfig} {seen : List (Str × Str)}
    {routes : List RouteConfig} :
    cfg.validate_each seen routes = .ok () ↔ (∀ r ∈ routes, cfg.validate_route r = .ok ())
      ∧ (routes.map RouteConfig.id).Nodup
      ∧ ∀ r ∈ routes, seen.lookup r.id = none := by
  induction routes generalizing seen with
  | nil => exact iff_of_true rfl ⟨List.forall_mem_nil _, List.nodup_nil, List.forall_mem_nil _⟩
  | cons r routes ih =>
    rw [ResolvedConfig.validate_each, andThen_ok, List.forall_mem_cons, List.forall_mem_cons,
      List.map_cons, List.nodup_cons, and_assoc]
    apply and_congr_right
    intro _
    cases hseen : seen.lookup r.id with
    | some prev => exact iff_of_false nofun fun h => nomatch h.2.2.1
    | none =>
      -- a later route's id is new here if it is new to `seen` and not this one's
      have hnew : (∀ r' ∈ routes, ((r.id, r.path_prefix) :: seen).lookup r'.id = none) ↔
          r.id ∉ routes.map RouteConfig.id ∧ ∀ r' ∈ routes, seen.lookup r'.id = none := by
        simp only [List.lookup_eq_none_iff, List.forall_mem_cons, forall_and, List.mem_map,
          not_exists, not_and, bne_iff_ne, ne_eq]
      simp only [ih, hnew, true_and, and_left_comm, and_assoc]

/-- The loop over pairs accepts what has no conflict. -/
theorem validate_pairs_ok {routes : List RouteConfig} :
    validate_pairs routes = .ok () ↔
      routes.Pairwise fun a b => conflicting_routes a b = false := by
  induction routes with
  | nil => exact iff_of_true rfl List.Pairwise.nil
  | cons route rest ih =>
    rw [validate_pairs, List.pairwise_cons, ← ih]
    cases hfind : rest.find? (conflicting_routes route) with
    | some other =>
      refine iff_of_false nofun ?_
      intro h
      exact absurd (List.find?_some hfind) (by simp [h.1 other (List.mem_of_find?_eq_some hfind)])
    | none =>
      rw [List.find?_eq_none] at hfind
      exact (and_iff_right fun other hother => by simpa using hfind other hother).symm

/-- What a list of routes has to satisfy. -/
structure Accepted (cfg : ResolvedConfig) (routes : List RouteConfig) : Prop where
  sound : ∀ r ∈ routes, SoundRoute cfg r
  ids_unique : (routes.map RouteConfig.id).Nodup
  separate : routes.Pairwise fun a b => conflicting_routes a b = false

/-- **Validation.** `validate_routes` accepts exactly the lists with no fault in them. -/
theorem validate_routes_ok {cfg : ResolvedConfig} {routes : List RouteConfig} :
    cfg.validate_routes routes = .ok () ↔ Accepted cfg routes := by
  have hmachine : cfg.validate_machine routes = .ok () ↔
      ∀ r ∈ routes, r.auth.is_machine = true → cfg.machine = true ∧ cfg.internal_listen ≠ none := by
    unfold ResolvedConfig.validate_machine
    simp only [andThen_ok, refuse_if_ok, gt_iff_lt, List.countP_pos_iff, not_and,
      Bool.not_eq_false, forall_exists_index, and_imp, ne_eq, forall_and]
  unfold ResolvedConfig.validate_routes
  rw [andThen_ok, andThen_ok, andThen_ok, andThen_ok, andThen_ok, validate_each_ok,
    validate_pairs_ok, forM_ok, forM_ok, forM_ok, hmachine]
  -- Each loop says one thing of every route; `SoundRoute` collects them route by route.
  constructor
  · rintro ⟨⟨hroutes, hids, -⟩, hpairs, hbind, hcache, hkey, hmachine⟩
    refine ⟨?_, hids, hpairs⟩
    intro r hr
    obtain ⟨hcount, hcap, hlimit, hpre, hupstream⟩ := validate_route_ok.mp (hroutes r hr)
    have hbind := hbind r hr
    have hcache := hcache r hr
    have hkey := fun hsome => hkey r (List.mem_filter.mpr ⟨hr, hsome⟩)
    simp only [validate_bindings, ResolvedConfig.validate_cache,
      ResolvedConfig.validate_client_key, andThen_ok, refuse_if_ok, not_and,
      Bool.not_eq_false, Bool.not_eq_true] at hbind hcache hkey
    exact ⟨hcount, hcap, hlimit, hpre, hupstream, hbind, hcache.1, hcache.2, hkey,
      hmachine r hr⟩
  · rintro ⟨hsound, hids, hpairs⟩
    refine ⟨⟨fun r hr => ?_, hids, fun r _ => rfl⟩, hpairs, fun r hr => ?_, fun r hr => ?_,
      fun r hr => ?_, fun r hr => (hsound r hr).machine_reachable⟩
    · have h := hsound r hr
      exact validate_route_ok.mpr
        ⟨h.countable, h.cap_vouched, h.limit_vouched, h.prefix_ne_nil, h.upstream_defined⟩
    · simpa [validate_bindings] using (hsound r hr).bound_to_identity
    · have h := hsound r hr
      simp only [ResolvedConfig.validate_cache, andThen_ok, refuse_if_ok, not_and,
        Bool.not_eq_false]
      exact ⟨h.cache_defined, h.cache_not_personal⟩
    · obtain ⟨hr, hsome⟩ := List.mem_filter.mp hr
      have h := (hsound r hr).client_key_effective hsome
      simp [ResolvedConfig.validate_client_key, andThen_ok, h.1, h.2]

/-- A table that passes parsed without an error. -/
theorem validate_table_ok {cfg : ResolvedConfig} {table : RouteTable} :
    cfg.validate_table table = .ok () ↔ table.errors = [] ∧ Accepted cfg table.routes := by
  unfold ResolvedConfig.validate_table
  rw [← validate_routes_ok]
  cases h : table.errors with
  | nil => exact (and_iff_right rfl).symm
  | cons first rest => exact iff_of_false nofun fun h => nomatch h.1

/-! ## Routes that the sort leaves in declaration order -/

/-- Two routes of one listener, neither of which the sort key puts first. -/
structure Tied (a b : RouteConfig) : Prop where
  same_listener : a.auth.is_machine = b.auth.is_machine
  left : precedes a b = true
  right : precedes b a = true

/-- Then both are for some host or both for any, and their prefixes are as long. -/
theorem Tied.same_key {a b : RouteConfig} (h : Tied a b) :
    a.hosts.isEmpty = b.hosts.isEmpty ∧ len a.path_prefix = len b.path_prefix := by
  obtain ⟨-, hab, hba⟩ := h
  unfold precedes at hab hba
  -- Were one for some host and the other for any, only one of the two could be first.
  by_cases heq : a.hosts.isEmpty = b.hosts.isEmpty
  · rw [if_pos heq, decide_eq_true_eq] at hab
    rw [if_pos heq.symm, decide_eq_true_eq] at hba
    exact ⟨heq, Nat.le_antisymm hba hab⟩
  · rw [if_neg heq] at hab
    rw [if_neg (Ne.symm heq)] at hba
    exact absurd (hba.trans hab.symm) heq

/-- Methods that one request matches overlap. -/
theorem methods_overlap {a b : RouteConfig} {method : Str} (ha : a.matches_method method = true)
    (hb : b.matches_method method = true) :
    (a.methods.isEmpty || b.methods.isEmpty
      || a.methods.any fun m => b.methods.contains m) = true := by
  simp only [RouteConfig.matches_method, Bool.or_eq_true, List.any_eq_true, beq_iff_eq] at ha hb
  simp only [Bool.or_eq_true, List.any_eq_true, List.contains_iff_mem]
  rcases ha with ha | ⟨m, hma, rfl⟩
  · exact .inl (.inl ha)
  · rcases hb with hb | ⟨m', hmb, rfl⟩
    · exact .inl (.inr hb)
    · exact .inr ⟨m', hma, hmb⟩

/-- And so do hosts. -/
theorem hosts_overlap {a b : RouteConfig} {host : Option Str} (ha : a.matches_host host = true)
    (hb : b.matches_host host = true) :
    (a.hosts.isEmpty || b.hosts.isEmpty
      || a.hosts.any fun h => b.hosts.any fun other => h.overlaps other) = true := by
  simp only [RouteConfig.matches_host, Bool.or_eq_true] at ha hb
  simp only [Bool.or_eq_true]
  rcases ha with ha | ha
  · exact .inl (.inl ha)
  · rcases hb with hb | hb
    · exact .inl (.inr hb)
    · right
      cases host with
      | none => cases ha
      | some host =>
        rw [Option.any_some, List.any_eq_true] at ha hb
        obtain ⟨x, hx, hxm⟩ := ha
        obtain ⟨y, hy, hym⟩ := hb
        exact List.any_eq_true.mpr ⟨x, hx, List.any_eq_true.mpr
          ⟨y, hy, overlaps_of_matches hxm hym⟩⟩

/-- **Conflicts.** No pair of routes that the sort leaves as declared and that one request
matches is missed. -/
theorem conflicting_of_tied {a b : RouteConfig} {host : Option Str} {path method : Str}
    (h : Tied a b) (ha : matches_request host path method a = true)
    (hb : matches_request host path method b = true) : conflicting_routes a b = true := by
  obtain ⟨hhosts, hlen⟩ := h.same_key
  rw [matches_request, Bool.and_eq_true, Bool.and_eq_true, under_prefix_iff] at ha hb
  obtain ⟨⟨hpa, hma⟩, hha⟩ := ha
  obtain ⟨⟨hpb, hmb⟩, hhb⟩ := hb
  -- Both begin the path and are as long, so they are the same prefix.
  have hpre : a.path_prefix = b.path_prefix :=
    prefix_eq_of_len_eq (Under.isPrefix hpa) (Under.isPrefix hpb) hlen
  rw [conflicting_routes, if_neg (by simp [hpre, h.same_listener]), if_neg (by simp [hhosts])]
  simp only [methods_overlap hma hmb, hosts_overlap hha hhb, Bool.and_self]

/-- So in a list without conflicts, of two tied routes that one request matches there is only
one. -/
theorem eq_of_tied {routes : List RouteConfig}
    (hsep : routes.Pairwise fun a b => conflicting_routes a b = false) {a b : RouteConfig}
    (ha : a ∈ routes) (hb : b ∈ routes) (h : Tied a b) {host : Option Str} {path method : Str}
    (hma : matches_request host path method a = true)
    (hmb : matches_request host path method b = true) : a = b := by
  -- Clashing is symmetric, so it does not matter which of the two the check met first.
  let Clash (a b : RouteConfig) : Prop := Tied a b ∧ matches_request host path method a = true
    ∧ matches_request host path method b = true
  have hsymm : Std.Symm fun a b => ¬ Clash a b :=
    ⟨fun a b hab hba => hab ⟨⟨hba.1.same_listener.symm, hba.1.right, hba.1.left⟩, hba.2.symm⟩⟩
  have hclash : routes.Pairwise fun a b => ¬ Clash a b :=
    hsep.imp fun hfree hclash => by
      rw [conflicting_of_tied hclash.1 hclash.2.1 hclash.2.2] at hfree
      cases hfree
  by_contra hne
  exact hclash.forall ha hb hne ⟨h, hma, hmb⟩

/-! ## Declaration order -/

instance : Std.Total fun a b : RouteConfig => precedes a b = true where
  total a b := by
    unfold precedes
    by_cases h : a.hosts.isEmpty = b.hosts.isEmpty
    · simp only [h, if_true, decide_eq_true_eq]
      exact Nat.le_total _ _
    · rw [if_neg h, if_neg (Ne.symm h)]
      cases hb : b.hosts.isEmpty
      · exact .inr (by simpa [hb] using h)
      · exact .inl rfl

instance : IsTrans RouteConfig fun a b => precedes a b = true where
  trans a b c := by
    unfold precedes
    cases a.hosts.isEmpty <;> cases b.hosts.isEmpty <;> cases c.hosts.isEmpty <;> simp
    all_goals omega

/-- The same routes, in the same groups, written in another order. -/
structure Reordered (groups groups' : RouteGroups) : Prop where
  machine : groups.machine.Perm groups'.machine
  «public» : groups.public.Perm groups'.public
  optional : groups.optional.Perm groups'.optional
  authenticated : groups.authenticated.Perm groups'.authenticated

theorem Reordered.declared {groups groups' : RouteGroups} (h : Reordered groups groups') :
    groups.declared.Perm groups'.declared := by
  unfold RouteGroups.declared
  apply List.Perm.filter
  exact (((h.public.map _).append (h.optional.map _)).append (h.authenticated.map _)).append
    (h.machine.map _)

variable {groups groups' : RouteGroups} {defaults : RouteDefaults} {shared : Bool} {ns ns' : ℕ}

/-- The table is sorted. -/
theorem build_with_sorted : (RouteTable.build_with ns groups defaults shared).routes.Pairwise
    fun a b => precedes a b = true := List.pairwise_insertionSort _ _

/-- And holds what was declared. -/
theorem Reordered.build_with (h : Reordered groups groups') :
    (RouteTable.build_with ns groups defaults shared).routes.Perm
      (RouteTable.build_with ns' groups' defaults shared).routes :=
  (List.perm_insertionSort _ _).trans
    (((h.declared.map _).map _).trans (List.perm_insertionSort _ _).symm)

/-- A listener's routes are a part of the table's, in the same order. -/
theorem Reordered.find?_eq {cfg : ResolvedConfig} (h : Reordered groups groups')
    (hvalid : cfg.validate_table (RouteTable.build_with ns groups defaults shared) = .ok ())
    {listener : RouteConfig → Bool}
    (hlistener : ∀ a b, listener a = true → listener b = true →
      a.auth.is_machine = b.auth.is_machine)
    (host : Option Str) (path method : Str) :
    ((RouteTable.build_with ns groups defaults shared).routes.filter listener).find?
        (matches_request host path method)
      = ((RouteTable.build_with ns' groups' defaults shared).routes.filter listener).find?
        (matches_request host path method) := by
  have hsep := (validate_table_ok.mp hvalid).2.separate
  -- Both listeners' routes are sorted and hold the same routes; ties cannot both match.
  refine find?_eq_of_perm (h.build_with.filter _) (build_with_sorted.filter _)
    (build_with_sorted.filter _) fun a ha b hb hma hmb hab hba => ?_
  obtain ⟨ha, hla⟩ := List.mem_filter.mp ha
  obtain ⟨hb, hlb⟩ := List.mem_filter.mp hb
  exact eq_of_tied hsep ha hb ⟨hlistener a b hla hlb, hab, hba⟩ hma hmb

/-- **Declaration order.** When a table passes validation, rearranging the routes inside
their groups changes no answer of either listener: each request finds the same route, with
its tier, upstream and policies. The reason is that `conflicting_routes` rejects every two
routes of one listener that the sort leaves as declared and that some request matches. -/
theorem selection_ignores_order (cfg : ResolvedConfig) (h : Reordered groups groups')
    (hvalid : cfg.validate_table (RouteTable.build_with ns groups defaults shared) = .ok ())
    (host : Option Str) (path method : Str) :
    let parts := (RouteTable.build_with ns groups defaults shared).partition_by_listener
    let parts' := (RouteTable.build_with ns' groups' defaults shared).partition_by_listener
    parts.1.match_request host path method = parts'.1.match_request host path method
      ∧ parts.2.match_request host path method = parts'.2.match_request host path method
      ∧ ∀ a b : RouteConfig, a.auth.is_machine = b.auth.is_machine → precedes a b = true →
          precedes b a = true → matches_request host path method a = true →
          matches_request host path method b = true → conflicting_routes a b = true := by
  intro parts parts'
  simp only [match_request_eq_find?]
  refine ⟨h.find?_eq hvalid ?_ host path method, h.find?_eq hvalid ?_ host path method,
    fun a b hab hl hr => conflicting_of_tied ⟨hab, hl, hr⟩⟩
  · intro a b ha hb
    rw [decide_eq_true_eq] at ha hb
    cases hauth : a.auth <;> cases hauth' : b.auth <;> simp_all [AuthTier.is_machine]
  · intro a b ha hb
    rw [decide_eq_true_eq] at ha hb
    rw [ha, hb]

/-- Two routes with one prefix, told apart by their methods. -/
def read_route : RouteConfig :=
  .of_input { id := ['r'], path_prefix := "users".toList, upstream := ['u'],
              methods := some ["GET".toList] }

def write_route : RouteConfig :=
  .of_input { id := ['w'], path_prefix := "/users".toList, upstream := ['v'],
              methods := some ["post".toList] }

theorem selection_ignores_order_read_write :
    let table (routes : List RouteConfig) :=
      RouteTable.build_with 0 ⟨[], [], routes, [], []⟩ ⟨none, none, none⟩ false
    let answer (routes : List RouteConfig) :=
      (table routes).partition_by_listener.1.match_request none "users/4".toList "POST".toList
    answer [read_route, write_route] = answer [write_route, read_route] :=
  have h : Reordered ⟨[], [], [read_route, write_route], [], []⟩
      ⟨[], [], [write_route, read_route], [], []⟩ :=
    ⟨.refl _, .swap _ _ _, .refl _, .refl _⟩
  (selection_ignores_order
    { upstreams := [['u'], ['v']], trusted_proxy_ips := [], shared_limits := false,
      shared_counters := none, cache := false, client_keys := false, machine := false,
      internal_listen := none } h rfl none "users/4".toList "POST".toList).1

end Lagos.Config
