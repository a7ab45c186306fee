/-
The route table (`routes/mod.rs`, `routes/index.rs`): the allowlist, the deny-list, and
how a request finds its route.

A table is built from the groups of a route file, sorted, and split in two by listener.
Above 32 routes it carries an index of its routes by prefix. The index is a field that
is only ever what `PrefixIndex::build` makes of the routes beside it, and `RouteTable`
says so: there is no table whose index belongs to other routes.

A request is matched on the segments of its path. `under_prefix` is written with string
operations, and so is the deny-list's version that ignores case; `under_prefix_iff` says
what the first means.
-/
import Lagos.Config
import Lagos.Host
import Lagos.Path
import Lagos.Lib.FirstMatch
import Lagos.Lib.Trie
import Mathlib.Data.List.Sort

set_option autoImplicit false

open RustStd Segments

namespace Lagos.Routes

open Lagos.Config Lagos.Path

/-! ## Routes -/

/-- `AuthTier`. -/
inductive AuthTier where
  | Public
  | Optional
  | Machine
  | Required
  deriving DecidableEq, Repr

/-- `AuthTier::verifies`: whether a user token is read on this tier. -/
def AuthTier.verifies : AuthTier → Bool
  | .Optional | .Required => true
  | .Public | .Machine => false

/-- `AuthTier::is_machine`. -/
def AuthTier.is_machine : AuthTier → Bool
  | .Machine => true
  | _ => false

/-- `AuthTier::group`. -/
def AuthTier.group : AuthTier → String
  | .Public => "public"
  | .Optional => "optional"
  | .Machine => "machine"
  | .Required => "authenticated"

/-- `PolicyOrigin`. -/
inductive PolicyOrigin where
  | Route
  | GlobalDefaults
  | BuiltIn
  deriving DecidableEq, Repr

/-- `PolicyOrigins`. -/
structure PolicyOrigins where
  methods : PolicyOrigin
  retry : PolicyOrigin
  rate_limit : PolicyOrigin
  deriving DecidableEq, Repr

/-- What a `ratelimit::Limiter` is built from: its policy, and whether its counters live in
the shared backend. -/
structure Limiter where
  config : RateLimitConfig
  shared : Bool
  deriving DecidableEq, Repr

/-- `RouteConfig`. -/
structure RouteConfig where
  id : Str
  host : List Str
  /-- `host`, parsed. -/
  hosts : List HostPattern
  path_prefix : Str
  upstream : Str
  methods : List Str
  sse : Bool
  strip_prefix : Bool
  enabled : Bool
  client_key : Option Bool
  bind : List (Str × Str)
  /-- `bind`, parsed. -/
  bindings : List Binding
  cache : Bool
  cache_authenticated : Bool
  retry : Option RetryConfig
  retry_policy : Option Policy
  rate_limit : Option RateLimitConfig
  limiter : Option Limiter
  concurrency : Option ConcurrencyConfig
  extensions : List Str
  auth : AuthTier
  policy_origins : PolicyOrigins
  deriving DecidableEq, Repr

/-- `RouteInput`: a route as the file has it, with the defaults of what it leaves out. -/
structure RouteInput where
  id : Str := []
  host : List Str := []
  path_prefix : Str
  upstream : Str
  methods : Option (List Str) := none
  sse : Bool := false
  strip_prefix : Bool := false
  enabled : Bool := true
  client_key : Option Bool := none
  bind : List (Str × Str) := []
  cache : Bool := false
  cache_authenticated : Bool := false
  /-- An explicit `null` is `some none`. -/
  retry : Option (Option RetryConfig) := none
  rate_limit : Option (Option RateLimitConfig) := none
  concurrency : Option ConcurrencyConfig := none
  extensions : List Str := []
  deriving DecidableEq, Repr

/-- `RouteConfig::from(RouteInput)`. -/
def RouteConfig.of_input (input : RouteInput) : RouteConfig where
  id := input.id
  host := input.host
  hosts := []
  path_prefix := input.path_prefix
  upstream := input.upstream
  methods := input.methods.getD []
  sse := input.sse
  strip_prefix := input.strip_prefix
  enabled := input.enabled
  client_key := input.client_key
  bind := input.bind
  bindings := []
  cache := input.cache
  cache_authenticated := input.cache_authenticated
  retry := input.retry.join
  retry_policy := none
  rate_limit := input.rate_limit.join
  limiter := none
  concurrency := input.concurrency
  extensions := input.extensions
  auth := .Required
  policy_origins :=
    { methods := if input.methods.isSome then .Route else .BuiltIn
      retry := if input.retry.isSome then .Route else .BuiltIn
      rate_limit := if input.rate_limit.isSome then .Route else .BuiltIn }

/-- `RouteGroups`: a route's tier is the group it was declared in. -/
structure RouteGroups where
  internal : List Str
  machine : List RouteConfig
  «public» : List RouteConfig
  optional : List RouteConfig
  authenticated : List RouteConfig
  deriving DecidableEq, Repr

/-! ## Matching one route -/

/-- `under_prefix`: whether `path` is `pre` itself or sits beneath it, on a segment
boundary. -/
def under_prefix (path pre : Str) : Bool :=
  (RustStd.strip_prefix path pre).any fun rest => rest.isEmpty || starts_with rest ['/']

/-- `fold_case`: ASCII letters to lower case, and the four other letters that some upstreams
take for ASCII ones. -/
def fold_case (c : Char) : Char :=
  if c.toNat = 0x130 ∨ c.toNat = 0x131 then 'i'
  else if c.toNat = 0x17f then 's'
  else if c.toNat = 0x212a then 'k'
  else c.toLower

/-- `under_prefix_ignore_case`: the two walked character by character. -/
def under_prefix_ignore_case : Str → Str → Bool
  | rest, [] => rest.isEmpty || starts_with rest ['/']
  | [], _ :: _ => false
  | c :: rest, p :: pre =>
    if fold_case c = fold_case p then under_prefix_ignore_case rest pre else false

/-- `RouteConfig::matches_method`. -/
def RouteConfig.matches_method (r : RouteConfig) (normalized : Str) : Bool :=
  r.methods.isEmpty || r.methods.any fun method => method == normalized

/-- `RouteConfig::matches_host`. -/
def RouteConfig.matches_host (r : RouteConfig) (normalized : Option Str) : Bool :=
  r.hosts.isEmpty || normalized.any fun host => r.hosts.any fun pattern => pattern.matches host

/-- `RouteConfig::upstream_path`. -/
def RouteConfig.upstream_path (r : RouteConfig) (path : Str) : Str :=
  if !r.strip_prefix then path
  else
    match RustStd.strip_prefix path r.path_prefix with
    | some [] => []
    -- anything but a slash would be a prefix that ends inside a segment
    | some rest => (RustStd.strip_prefix rest ['/']).getD path
    | none => path

/-! ## The index -/

/-- `index::PrefixIndex`. -/
structure PrefixIndex where
  nodes : Trie.Arena Str ℕ

/-- `PrefixIndex::build`: small tables have none. A route is placed under the segments of
its prefix, the empty prefix at the root. -/
def PrefixIndex.build (routes : List RouteConfig) : Option PrefixIndex :=
  if routes.length ≤ 32 then none
  else some ⟨Trie.build (routes.zipIdx.map fun (r, i) => (segments '/' r.path_prefix, i))⟩

/-- `PrefixIndex::consider`: improve on the best position by one at this node. -/
def PrefixIndex.consider (index : PrefixIndex) (routes : List RouteConfig) (method : Str)
    (host : Option Str) (best : Option ℕ) (node : ℕ) : Option ℕ :=
  FirstMatch.scan
    (fun position => routes[position]?.any fun route =>
      route.matches_method method && route.matches_host host)
    (Trie.values_of index.nodes node) best

/-- `PrefixIndex::find`. -/
def PrefixIndex.find (index : PrefixIndex) (routes : List RouteConfig) (path method : Str)
    (host : Option Str) : Option RouteConfig :=
  let best :=
    if path.isEmpty then index.consider routes method host none 0
    else (Trie.visited index.nodes 0 (split '/' path)).foldl
      (index.consider routes method host) none
  best.bind fun position => routes[position]?

/-! ## The table -/

/-- `RouteTable`. -/
structure RouteTable where
  cache_namespace : ℕ
  deny_prefixes : List Str
  routes : List RouteConfig
  lookup : Option PrefixIndex
  errors : List String
  /-- The index is the one built from these routes. -/
  lookup_eq : lookup = PrefixIndex.build routes

/-- What one route inherits and derives before its own specs are parsed. -/
def resolve_route (defaults : RouteDefaults) (r : RouteConfig) : RouteConfig :=
  let r :=
    match r.policy_origins.methods, defaults.methods with
    | .BuiltIn, some methods =>
      { r with methods := methods
               policy_origins := { r.policy_origins with methods := .GlobalDefaults } }
    | _, _ => r
  let r :=
    match r.policy_origins.retry, defaults.retry with
    | .BuiltIn, some retry =>
      { r with retry := some retry
               policy_origins := { r.policy_origins with retry := .GlobalDefaults } }
    | _, _ => r
  let r :=
    match r.policy_origins.rate_limit, defaults.rate_limit with
    | .BuiltIn, some rate =>
      { r with rate_limit := some rate
               policy_origins := { r.policy_origins with rate_limit := .GlobalDefaults } }
    | _, _ => r
  let r := { r with path_prefix := normalize_proxy_path r.path_prefix
                    methods := r.methods.map to_ascii_uppercase }
  if (trim r.id).isEmpty then
    { r with id := if r.host.isEmpty then r.path_prefix
                   else join ',' r.host ++ '/' :: r.path_prefix }
  else r

/-- The parts of a list that parse, and an error of the route `id` for each that does not. -/
def parse_each {α β : Type} (id : Str) (parse : α → Except String β) (specs : List α) :
    List β × List String :=
  (specs.filterMap fun s => (parse s).toOption,
    specs.filterMap fun s =>
      match parse s with
      | .ok _ => none
      | .error e => some s!"route `{text id}`: {e}")

/-- The limiter of a route, and the error of a limit that would refuse everything. `shared`
says whether there is a backend for shared counters. -/
def build_limiter (shared : Bool) (r : RouteConfig) : Option Limiter × List String :=
  match r.rate_limit with
  | none => (r.limiter, [])
  | some rl =>
    if rl.requests = 0 then
      (r.limiter, [s!"route `{text r.id}`: rate_limit.requests is 0, which would refuse every "
        ++ "request. Remove the route instead, or set `enabled: false`."])
    else (some ⟨rl, rl.counter = .Shared && shared⟩, [])

/-- The error of a concurrency cap that would refuse everything. -/
def concurrency_errors (r : RouteConfig) : List String :=
  if r.concurrency.any fun c => c.max = 0 then
    [s!"route `{text r.id}`: concurrency.max is 0, which would refuse every request. Remove "
      ++ "the route instead, or set `enabled: false`."]
  else []

/-- What one route is parsed into, and what did not parse. -/
def derive_route (shared : Bool) (r : RouteConfig) : RouteConfig × List String :=
  let hosts := parse_each r.id HostPattern.parse r.host
  let limiter := build_limiter shared r
  let bindings := parse_each r.id (fun b => Binding.parse b.1 b.2) r.bind
  -- `hosts` and `bindings` are pushed to, the other two are set
  ({ r with
      hosts := r.hosts ++ hosts.1
      retry_policy := (r.retry.map Policy.from_config).or r.retry_policy
      limiter := limiter.1
      bindings := r.bindings ++ bindings.1 },
    hosts.2 ++ limiter.2 ++ concurrency_errors r ++ bindings.2)

/-- The enabled routes of all groups, each with the tier of its group. -/
def RouteGroups.declared (groups : RouteGroups) : List RouteConfig :=
  let tier (auth : AuthTier) (routes : List RouteConfig) := routes.map ({ · with auth := auth })
  (tier .Public groups.public ++ tier .Optional groups.optional
    ++ tier .Required groups.authenticated ++ tier .Machine groups.machine).filter (·.enabled)

/-- The sort key's order: routes for some host before routes for any, and the longer prefix
first. -/
def precedes (a b : RouteConfig) : Bool :=
  -- `Reverse` on both keys: `true` before `false`, and the longer length first
  if a.hosts.isEmpty = b.hosts.isEmpty then len b.path_prefix ≤ len a.path_prefix
  else b.hosts.isEmpty

/-- `RouteTable::build_with`. `cache_namespace` is the fresh identifier it draws. -/
def RouteTable.build_with (cache_namespace : ℕ) (groups : RouteGroups) (defaults : RouteDefaults)
    (shared : Bool) : RouteTable :=
  let derived := groups.declared.map fun r => derive_route shared (resolve_route defaults r)
  -- `sort_by_key` is stable, as sorting by insertion is
  let routes := (derived.map Prod.fst).insertionSort (precedes · ·)
  { cache_namespace := cache_namespace
    deny_prefixes := groups.internal.map normalize_proxy_path
    routes := routes
    lookup := PrefixIndex.build routes
    errors := derived.flatMap Prod.snd
    lookup_eq := rfl }

/-- `RouteTable::is_denied`. -/
def RouteTable.is_denied (t : RouteTable) (path : Str) : Bool :=
  let p := normalize_proxy_path path
  t.deny_prefixes.any fun d => under_prefix_ignore_case p d

/-- `ascii_cased`. -/
def ascii_cased (raw : Str) (needs_fold : Char → Bool) (fold : Str → Str) : Str :=
  if raw.any needs_fold then fold raw else raw

/-- `RouteTable::match_request`. -/
def RouteTable.match_request (t : RouteTable) (host : Option Str) (path method : Str) :
    Option RouteConfig :=
  let p := normalize_proxy_path path
  let m := ascii_cased method Char.isLower to_ascii_uppercase
  let h := host.map fun h => ascii_cased (normalize_host h) Char.isUpper to_ascii_lowercase
  match t.lookup with
  | some index => index.find t.routes p m h
  | none =>
    t.routes.find? fun r => under_prefix p r.path_prefix && r.matches_method m && r.matches_host h

/-- `RouteCandidate`. -/
structure RouteCandidate where
  route : RouteConfig
  host_matches : Bool
  method_matches : Bool
  deriving DecidableEq, Repr

/-- `RouteTable::prefix_candidates`. -/
def RouteTable.prefix_candidates (t : RouteTable) (host : Option Str) (path method : Str) :
    List RouteCandidate :=
  let p := normalize_proxy_path path
  let m := to_ascii_uppercase method
  let h := host.map fun host => to_ascii_lowercase (normalize_host host)
  (t.routes.filter fun route => under_prefix p route.path_prefix).map fun route =>
    ⟨route, route.matches_host h, route.matches_method m⟩

/-- `RouteTable::partition_by_listener`: the public listener's table and the internal one's. -/
def RouteTable.partition_by_listener (t : RouteTable) : RouteTable × RouteTable :=
  let machine := t.routes.filter fun r => r.auth = .Machine
  let others := t.routes.filter fun r => r.auth ≠ .Machine
  -- the deny-list guards the public listener only
  (⟨t.cache_namespace, t.deny_prefixes, others, PrefixIndex.build others, t.errors, rfl⟩,
    ⟨t.cache_namespace, [], machine, PrefixIndex.build machine, t.errors, rfl⟩)

/-! ## What matching means -/

/-- `under_prefix` is being a prefix on a segment boundary. -/
theorem under_prefix_iff {path pre : Str} :
    under_prefix path pre = true ↔ Under '/' pre path := by
  unfold under_prefix Under
  constructor
  · intro h
    cases hs : RustStd.strip_prefix path pre with
    | none =>
      rw [hs] at h
      cases h
    | some rest =>
      rw [hs, Option.any_some, Bool.or_eq_true, List.isEmpty_iff, starts_with_iff] at h
      obtain rfl := strip_prefix_eq_some.mp hs
      rcases h with rfl | ⟨r, rfl⟩
      · exact .inl (List.append_nil pre)
      · exact .inr ⟨r, rfl⟩
  · rintro (rfl | ⟨r, rfl⟩)
    · rw [strip_prefix_eq_some.mpr (List.append_nil path).symm]
      rfl
    · rw [strip_prefix_eq_some.mpr rfl, Option.any_some, Bool.or_eq_true, starts_with_iff]
      exact .inr ⟨r, rfl⟩

/-- Folding only when something needs it is folding. -/
theorem ascii_cased_eq {needs_fold : Char → Bool} {f : Char → Char}
    (hf : ∀ c, needs_fold c = false → f c = c) (raw : Str) :
    ascii_cased raw needs_fold (List.map f) = raw.map f := by
  unfold ascii_cased
  split
  · rfl
  · rename_i h
    rw [Bool.not_eq_true, List.any_eq_false] at h
    calc raw = raw.map id := (List.map_id raw).symm
      _ = raw.map f := List.map_congr_left fun c hc => (hf c (Bool.eq_false_iff.mpr (h c hc))).symm

end Lagos.Routes
