/-
What `lagos explain` says of a request (`explain` and `strip_mount` in `cli.rs`, `candidates` in
`cli/explanation.rs`).

The command goes through the stages of the gateway up to the route, on its own. It ends where the
gateway does, for every request that no check of headers or of the body stops
(`explain_agrees`); unlike an offline test it knows the path of the health check.

With `--why-not` it lists the routes whose prefix the path of a refused request is under, and gives
for each the reasons why it was not taken. These are all there are: a request that is changed in
what a candidate's reasons name, and in nothing else, is routed (`why_not_suffices`), and no
candidate is listed without a reason. What is denied is denied whatever else is changed.
-/
import Lagos.CookieProtection
import Lagos.PolicyTest

set_option autoImplicit false

open RustStd

namespace Lagos.Policy

open Lagos.Headers Lagos.Outbound Lagos.Path Lagos.Routes

/-! ## Reasons -/

/-- The other listener. -/
def Listener.other : Listener → Listener
  | .Public => .Internal
  | .Internal => .Public

/-- `Listener::label`. -/
def Listener.label : Listener → Str
  | .Public => "public".toList
  | .Internal => "internal".toList

/-- What `candidates` gives as a reason. -/
inductive Reason where
  | belongs_to (listener : Listener)
  | blocked
  | host (missing : Bool) (requires : List Str)
  | method (allows : List Str)
  deriving DecidableEq, Repr

/-- A reason, as it is printed. -/
def Reason.text : Reason → Str
  | .belongs_to listener => "belongs to ".toList ++ listener.label ++ " listener".toList
  | .blocked => "blocked by deny-list before route matching".toList
  | .host missing requires =>
    (if missing then "Host header missing" else "host mismatch").toList ++ "; requires ".toList
      ++ ", ".toList.intercalate requires
  | .method allows => "method mismatch; allows ".toList ++ ", ".toList.intercalate allows

/-- A candidate that is listed, of the listener asked about or of the other. -/
structure Listed where
  listener : Listener
  candidate : RouteCandidate
  reasons : List Reason
  deriving DecidableEq, Repr

/-- A candidate, as it is printed. -/
def Listed.text (c : Listed) : Str :=
  "  ".toList ++ c.candidate.route.id ++ "  /".toList ++ c.candidate.route.path_prefix
    ++ "  (group: ".toList ++ c.candidate.route.auth.group.toList ++ "): ".toList
    ++ "; ".toList.intercalate (c.reasons.map Reason.text)

/-- The reasons of one candidate. -/
def reasons (wrong_listener : Option Listener) (denied : Bool) (host : Option Str)
    (c : RouteCandidate) : List Reason :=
  (match wrong_listener with
    | some belongs_to => [.belongs_to belongs_to]
    | none => if denied then [.blocked] else [])
  ++ (if c.host_matches then [] else [.host host.isNone c.route.host])
  ++ (if c.method_matches then [] else [.method c.route.methods])

/-- `candidates`. -/
def candidates (selected other : RouteTable) (host : Option Str) (path method : Str)
    (listener : Listener) (denied : Bool) : List Listed :=
  ((selected.prefix_candidates host path method).map fun c =>
    ⟨listener, c, reasons none denied host c⟩)
  ++ (other.prefix_candidates host path method).map fun c =>
    ⟨listener.other, c, reasons (some listener.other) denied host c⟩

/-! ## The command -/

/-- The arguments of `explain`, beside the configuration. -/
structure Asked where
  method : Str
  request_path : Str
  host : Option Str
  listener : Listener
  why_not : Bool
  deriving DecidableEq, Repr

/-- The path without its query. -/
def Asked.path (a : Asked) : Str :=
  ((split_once '?' a.request_path).map Prod.fst).getD a.request_path

/-- What is said of a request, and the candidates where they are asked for. -/
inductive Explanation where
  | LocalHealth
  | OutsideMount
  | UnsafePath
  | Denied (candidates : Option (List Listed))
  | NoRoute (candidates : Option (List Listed))
  /-- With the path for the upstream, and what is said of a client key on the public listener. -/
  | Route (route : RouteConfig) (canonical upstream_path : Str) (client_key : Option ClientKeyRule)
  deriving DecidableEq, Repr

/-- The result, as it is printed. -/
def Explanation.result : Explanation → String
  | .LocalHealth => "200 (local_health)"
  | .OutsideMount => "404 (outside_base_path)"
  | .UnsafePath => "404 (unsafe_path)"
  | .Denied _ => "404 (deny_list) — refusals are 404, never 403, so the\n  deny-list cannot be "
      ++ "enumerated."
  | .NoRoute _ => "404 (not_allowlisted)"
  | .Route _ _ _ _ => "route selected (request outcome unchecked)"

variable {crates : Crates}

/-- What `explain` says of the client key of a route. -/
def Loaded.explain_client_key (l : Loaded crates) (listener : Listener) (route : RouteConfig)
    (canonical : Str) : Option ClientKeyRule :=
  if listener = .Public ∧ l.resolved.client_key_header.isSome then
    some (l.resolved.client_key_rule route canonical)
  else none

/-- `explain`, behind the path. -/
def Loaded.explain_route (l : Loaded crates) (a : Asked) (canonical : Str) : Explanation :=
  let selected := l.table a.listener
  let candidates (denied : Bool) : Option (List Listed) :=
    if a.why_not then
      some (candidates selected (l.table a.listener.other) a.host canonical a.method a.listener
        denied)
    else none
  if selected.is_denied canonical then .Denied (candidates true)
  else
    match selected.match_request a.host canonical a.method with
    | none => .NoRoute (candidates false)
    | some route =>
      .Route route canonical (route.upstream_path canonical)
        (l.explain_client_key a.listener route canonical)

/-- `explain`. The internal listener may not be there. -/
def Loaded.explain (l : Loaded crates) (a : Asked) : Option Explanation :=
  if a.listener = .Internal ∧ l.checked.internal_listen = none then none
  else if a.path = l.health_path then some .LocalHealth
  else
    match strip_mount l.base_paths a.path with
    | none => some .OutsideMount
    | some (_, sub) =>
      match canonicalize_proxy_path sub with
      | none => some .UnsafePath
      | some canonical => some (l.explain_route a canonical)

/-! ## It ends where the gateway does -/

/-- What the gateway does with a request that is explained so. -/
def Explanation.selection (routes : ℕ) : Explanation → Except Stop (RouteConfig × Str)
  | .LocalHealth => .error (.health routes)
  | .OutsideMount => denied "outside_base_path"
  | .UnsafePath => denied "unsafe_path"
  | .Denied _ => denied "deny_list"
  | .NoRoute _ => denied "not_allowlisted"
  | .Route route canonical _ _ => .ok (route, canonical)

/-- The request that is explained. -/
def Asked.test (a : Asked) : TestRequest where
  path := a.path
  method := a.method
  host := a.host
  listener := a.listener

section Explain

variable {l : Loaded crates} {a a' : Asked} {x : Explanation} {req : Outbound.Request}

/-- The path of a request beneath its mount, where it is safe. -/
def Loaded.canonical (l : Loaded crates) (a : Asked) : Option Str :=
  (strip_mount l.base_paths a.path).bind fun p => canonicalize_proxy_path p.2

/-- The listener asked about is there. -/
def Loaded.listens (l : Loaded crates) (listener : Listener) : Prop :=
  listener = .Internal → l.checked.internal_listen ≠ none

/-- What is said of a request by its path. -/
theorem explain_cases (hx : l.explain a = some x) : l.listens a.listener
    ∧ (a.path = l.health_path ∧ x = .LocalHealth
      ∨ a.path ≠ l.health_path ∧ (
        strip_mount l.base_paths a.path = none ∧ x = .OutsideMount
        ∨ (∃ p, strip_mount l.base_paths a.path = some p ∧ canonicalize_proxy_path p.2 = none)
          ∧ x = .UnsafePath
        ∨ ∃ canonical, l.canonical a = some canonical ∧ x = l.explain_route a canonical)) := by
  unfold Loaded.explain at hx
  split at hx
  · cases hx
  · rename_i hlistens
    refine ⟨fun hinternal hnone => hlistens ⟨hinternal, hnone⟩, ?_⟩
    split at hx
    · rename_i hhealth
      cases hx
      exact .inl ⟨hhealth, rfl⟩
    · rename_i hhealth
      refine .inr ⟨hhealth, ?_⟩
      cases hstrip : strip_mount l.base_paths a.path with
      | none =>
        rw [hstrip] at hx
        cases hx
        exact .inl ⟨rfl, rfl⟩
      | some found =>
        rw [hstrip] at hx
        dsimp only at hx
        cases hcanonical : canonicalize_proxy_path found.2 with
        | none =>
          rw [hcanonical] at hx
          cases hx
          exact .inr (.inl ⟨⟨found, rfl, hcanonical⟩, rfl⟩)
        | some canonical =>
          rw [hcanonical] at hx
          cases hx
          refine .inr (.inr ⟨canonical, ?_, rfl⟩)
          rw [Loaded.canonical, hstrip, Option.bind_some, hcanonical]

/-- What is said of a request behind its path. -/
theorem explain_eq {canonical : Str} (hlistens : l.listens a.listener)
    (hhealth : a.path ≠ l.health_path) (hcanonical : l.canonical a = some canonical) :
    l.explain a = some (l.explain_route a canonical) := by
  obtain ⟨found, hstrip, hsub⟩ := Option.bind_eq_some_iff.mp hcanonical
  unfold Loaded.explain
  rw [if_neg (fun h => hlistens h.1 h.2), if_neg hhealth, hstrip]
  dsimp only
  rw [hsub]

/-- The gateway, behind the path. -/
theorem find_route_selection (h : Plain l a.test req) {canonical : Str} (n : ℕ)
    (hdenied : (l.table a.listener).is_denied canonical = false) :
    ((l.site a.listener).find_route (l.table a.listener) req canonical >>= fun route =>
        .ok (route, canonical))
      = (l.explain_route a canonical).selection n := by
  have hfind : (l.site a.listener).find_route (l.table a.listener) req canonical
      = match (l.table a.listener).match_request a.host canonical a.method with
        | none => denied "not_allowlisted"
        | some route => .ok route := find_route_eq h canonical
  unfold Loaded.explain_route
  dsimp only
  rw [hfind, if_neg (Bool.not_eq_true _ ▸ hdenied)]
  cases (l.table a.listener).match_request a.host canonical a.method <;> rfl

theorem selection_eq (h : Plain l a.test req) (hx : l.explain a = some x) :
    (l.site a.listener).select_route (l.table a.listener) req
      = x.selection (l.table a.listener).routes.length := by
  obtain ⟨-, ⟨hhealth, rfl⟩ | ⟨hhealth, hpath⟩⟩ := explain_cases hx
  · have hcheck : (l.site a.listener).check_health (l.table a.listener) req
        = .error (.health (l.table a.listener).routes.length) := if_pos (h.path.trans hhealth)
    unfold Site.select_route
    rw [hcheck]
    rfl
  · have hselect : (l.site a.listener).select_route (l.table a.listener) req
        = (l.site a.listener).locate (l.table a.listener) req >>= fun path =>
          (l.site a.listener).find_route (l.table a.listener) req path >>= fun route =>
            .ok (route, path) := select_route_eq h hhealth
    unfold Site.locate at hselect
    rw [show req.path = a.path from h.path,
      show (l.site a.listener).base_paths = l.base_paths from rfl, ← strip_mount_eq] at hselect
    rw [hselect]
    obtain ⟨hstrip, rfl⟩ | ⟨⟨p, hstrip, hsub⟩, rfl⟩ | ⟨canonical, hcanonical, rfl⟩ := hpath
    · rw [hstrip]
      rfl
    · rw [hstrip, Option.map_some]
      dsimp only
      rw [hsub]
      rfl
    · obtain ⟨p, hstrip, hsub⟩ := Option.bind_eq_some_iff.mp hcanonical
      rw [hstrip, Option.map_some]
      dsimp only
      rw [hsub]
      dsimp only
      cases hdenied : (l.table a.listener).is_denied canonical with
      | true =>
        unfold Loaded.explain_route
        rw [if_pos rfl, if_pos hdenied]
        rfl
      | false => exact find_route_selection h _ hdenied

/-- A client key is asked for where the explanation has one as required. -/
theorem explain_client_key_required (l : Loaded crates) (listener : Listener) (route : RouteConfig)
    (canonical : Str) :
    l.explain_client_key listener route canonical = some .Required
      ↔ (l.site listener).gateway.serves_machine = false
        ∧ (l.site listener).gateway.cfg.client_key_rule route canonical = .Required := by
  have hserves : (l.site listener).gateway.serves_machine
      = Decidable.decide (listener = .Internal) := Gateway.of_listener_serves _ _
  have hcfg : (l.site listener).gateway.cfg = l.resolved := Gateway.of_listener_cfg _ _
  rw [hserves, hcfg]
  unfold Loaded.explain_client_key
  cases listener with
  | Internal => simp
  | Public =>
    cases hheader : l.resolved.client_key_header with
    | none => simp [ResolvedConfig.client_key_rule, hheader]
    | some header => simp

theorem check_client_key_required {g : Gateway} {route : RouteConfig} {canonical : Str} :
    (g.serves_machine = false ∧ g.cfg.client_key_rule route canonical = .Required)
      ↔ ∀ headers, g.check_client_key crates route canonical headers ≠ .ok none := by
  constructor
  · intro h headers
    unfold Gateway.check_client_key
    rw [if_pos h]
    dsimp only
    split
    · simp
    · split <;> simp
  · intro h
    by_contra hoff
    exact h (of_fields []) (if_neg hoff)

/-- A refusal is printed with the reason that the gateway gives. -/
theorem result_of_denied {n : ℕ} {reason : String} (h : x.selection n = denied reason) :
    ∃ rest, x.result = "404 (" ++ reason ++ ")" ++ rest := by
  unfold Explanation.selection at h
  cases x with
  | LocalHealth => cases h
  | Route => cases h
  | OutsideMount =>
    obtain rfl := denied_inj.mp h
    exact ⟨"", rfl⟩
  | UnsafePath =>
    obtain rfl := denied_inj.mp h
    exact ⟨"", rfl⟩
  | Denied =>
    obtain rfl := denied_inj.mp h
    exact ⟨" — refusals are 404, never 403, so the\n  deny-list cannot be enumerated.", rfl⟩
  | NoRoute =>
    obtain rfl := denied_inj.mp h
    exact ⟨"", rfl⟩

/-- **What is explained is what the gateway does**, on every listener of every configuration that
is accepted, for every request that no check of headers or of the body stops. A refusal has the
reason that the gateway gives, the path for the upstream is the one it is sent, and a client key is
asked for where one is said to be. -/
theorem explain_agrees (h : Plain l a.test req) (hx : l.explain a = some x) :
    (l.site a.listener).select_route (l.table a.listener) req
        = x.selection (l.table a.listener).routes.length
      ∧ (∀ reason, (l.site a.listener).select_route (l.table a.listener) req = denied reason →
        ∃ rest, x.result = "404 (" ++ reason ++ ")" ++ rest)
      ∧ ∀ route canonical upstream_path client_key,
        x = .Route route canonical upstream_path client_key →
          sent_path route canonical = upstream_path
          ∧ (client_key = some .Required ↔ ∀ headers,
            (l.site a.listener).gateway.check_client_key crates route canonical headers
              ≠ .ok none) := by
  have hselection := selection_eq h hx
  refine ⟨hselection, fun reason hdenied => result_of_denied (hselection.symm.trans hdenied), ?_⟩
  rintro route canonical upstream_path client_key rfl
  obtain ⟨-, ⟨-, hlocal⟩ | ⟨-, ⟨-, hmount⟩ | ⟨-, hunsafe⟩ | ⟨path, -, hroute⟩⟩⟩ := explain_cases hx
  · cases hlocal
  · cases hmount
  · cases hunsafe
  · unfold Loaded.explain_route at hroute
    dsimp only at hroute
    split at hroute
    · cases hroute
    · split at hroute
      · cases hroute
      · cases hroute
        refine ⟨sent_path_eq _ _, ?_⟩
        rw [explain_client_key_required, check_client_key_required]

/-! ## The reasons are all there are -/

theorem mem_prefix_candidates {table : RouteTable} {host : Option Str} {path method : Str}
    {c : RouteCandidate} :
    c ∈ table.prefix_candidates host path method ↔ c.route ∈ table.routes
      ∧ under_prefix (normalize_proxy_path path) c.route.path_prefix = true
      ∧ c.host_matches
        = c.route.matches_host (host.map fun host => to_ascii_lowercase (normalize_host host))
      ∧ c.method_matches = c.route.matches_method (to_ascii_uppercase method) := by
  unfold RouteTable.prefix_candidates
  rw [List.mem_map]
  constructor
  · rintro ⟨route, hroute, rfl⟩
    obtain ⟨hmem, hunder⟩ := List.mem_filter.mp hroute
    exact ⟨hmem, hunder, rfl, rfl⟩
  · rintro ⟨hmem, hunder, hhost, hmethod⟩
    exact ⟨c.route, List.mem_filter.mpr ⟨hmem, hunder⟩, by rw [← hhost, ← hmethod]⟩

/-- A candidate is listed with the listener it belongs to, and its reasons. -/
theorem mem_candidates {listener : Listener} {canonical : Str} {denied : Bool} {c : Listed} :
    c ∈ candidates (l.table listener) (l.table listener.other) a.host canonical a.method listener
        denied
      ↔ c.candidate ∈ (l.table c.listener).prefix_candidates a.host canonical a.method
        ∧ c.reasons = reasons (if c.listener = listener then none else some c.listener) denied
          a.host c.candidate := by
  have hother : listener.other ≠ listener := by cases listener <;> decide
  have hlistener : c.listener = listener ∨ c.listener = listener.other := by
    cases c.listener <;> cases listener <;> simp [Listener.other]
  unfold candidates
  rw [List.mem_append, List.mem_map, List.mem_map]
  constructor
  · rintro (⟨candidate, hmem, rfl⟩ | ⟨candidate, hmem, rfl⟩)
    · exact ⟨hmem, by rw [if_pos rfl]⟩
    · exact ⟨hmem, by rw [if_neg hother]⟩
  · rintro ⟨hmem, hreasons⟩
    obtain ⟨listed, candidate, given⟩ := c
    dsimp only at hmem hreasons hlistener
    obtain rfl | rfl := hlistener
    · exact .inl ⟨candidate, hmem, by rw [hreasons, if_pos rfl]⟩
    · exact .inr ⟨candidate, hmem, by rw [hreasons, if_neg hother]⟩

/-- A reason names the host where that does not match, -/
theorem names_host_iff {wrong_listener : Option Listener} {denied : Bool} {host : Option Str}
    {c : RouteCandidate} :
    (∃ missing requires, .host missing requires ∈ reasons wrong_listener denied host c)
      ↔ c.host_matches = false := by
  unfold reasons
  cases wrong_listener <;> cases denied <;> cases c.host_matches <;> cases c.method_matches <;> simp

/-- and the method where that does not. -/
theorem names_method_iff {wrong_listener : Option Listener} {denied : Bool} {host : Option Str}
    {c : RouteCandidate} :
    (∃ allows, .method allows ∈ reasons wrong_listener denied host c)
      ↔ c.method_matches = false := by
  unfold reasons
  cases wrong_listener <;> cases denied <;> cases c.host_matches <;> cases c.method_matches <;> simp

/-- A request that is changed in what the reasons of a candidate name, so that its route matches,
and in nothing else. -/
structure Repaired (c : Listed) (a a' : Asked) : Prop where
  listener : a'.listener = c.listener
  request_path : a'.request_path = a.request_path
  host : (∀ missing requires, .host missing requires ∉ c.reasons) → a'.host = a.host
  host_matches : (∃ missing requires, .host missing requires ∈ c.reasons) →
    c.candidate.route.matches_host
      (a'.host.map fun host => to_ascii_lowercase (normalize_host host)) = true
  method : (∀ allows, .method allows ∉ c.reasons) → a'.method = a.method
  method_matches : (∃ allows, .method allows ∈ c.reasons) →
    c.candidate.route.matches_method (to_ascii_uppercase a'.method) = true

/-- The route of a candidate takes a request that is repaired so. -/
theorem Repaired.matches {c : Listed} (h : Repaired c a a') {canonical : Str} {denied : Bool}
    {wrong_listener : Option Listener} {table : RouteTable}
    (hmem : c.candidate ∈ table.prefix_candidates a.host canonical a.method)
    (hreasons : c.reasons = reasons wrong_listener denied a.host c.candidate) :
    matches_request a'.host canonical a'.method c.candidate.route = true := by
  obtain ⟨-, hunder, hhost, hmethod⟩ := mem_prefix_candidates.mp hmem
  have hnames_host := @names_host_iff wrong_listener denied a.host c.candidate
  have hnames_method := @names_method_iff wrong_listener denied a.host c.candidate
  rw [← hreasons] at hnames_host hnames_method
  unfold matches_request
  rw [Bool.and_eq_true, Bool.and_eq_true]
  refine ⟨⟨hunder, ?_⟩, ?_⟩
  · by_cases hnamed : ∃ allows, .method allows ∈ c.reasons
    · exact h.method_matches hnamed
    · rw [h.method fun allows hallows => hnamed ⟨allows, hallows⟩, ← hmethod]
      exact Bool.not_eq_false _ ▸ fun hfalse => hnamed (hnames_method.mpr hfalse)
  · by_cases hnamed : ∃ missing requires, .host missing requires ∈ c.reasons
    · exact h.host_matches hnamed
    · rw [h.host fun missing requires hmem => hnamed ⟨missing, requires, hmem⟩, ← hhost]
      exact Bool.not_eq_false _ ▸ fun hfalse => hnamed (hnames_host.mpr hfalse)

/-- A request that some route of a listener takes is routed there, unless it is denied. -/
theorem routed_of_matches {canonical : Str} {route : RouteConfig}
    (hroute : route ∈ (l.table a.listener).routes)
    (hmatches : matches_request a.host canonical a.method route = true)
    (hdenied : (l.table a.listener).is_denied canonical = false) :
    ∃ route upstream_path client_key,
      l.explain_route a canonical = .Route route canonical upstream_path client_key := by
  have hsome : ((l.table a.listener).match_request a.host canonical a.method).isSome = true := by
    rw [match_request_eq_find?, List.find?_isSome]
    exact ⟨route, hroute, hmatches⟩
  obtain ⟨found, hfound⟩ := Option.isSome_iff_exists.mp hsome
  unfold Loaded.explain_route
  dsimp only
  rw [if_neg (Bool.not_eq_true _ ▸ hdenied), hfound]
  exact ⟨found, _, _, rfl⟩

/-- A listener that has a route is there. -/
theorem listens_of_route {listener : Listener} {route : RouteConfig}
    (h : route ∈ (l.table listener).routes) : l.listens listener := by
  rintro rfl
  obtain ⟨hmem, hmachine⟩ := List.mem_filter.mp h
  have hsound := (Config.validate_table_ok.mp l.accepted).2.sound route hmem
  have htier : route.auth.is_machine = true := by
    rw [of_decide_eq_true hmachine]
    rfl
  exact (hsound.machine_reachable htier).2

/-- What is said of the same path, elsewhere. -/
theorem explain_elsewhere {canonical : Str} (hhealth : a.path ≠ l.health_path)
    (hcanonical : l.canonical a = some canonical) (hpath : a'.request_path = a.request_path)
    (hlistens : l.listens a'.listener) :
    l.explain a' = some (l.explain_route a' canonical) := by
  have heq : a'.path = a.path := by rw [Asked.path, Asked.path, hpath]
  refine explain_eq hlistens (heq ▸ hhealth) ?_
  rw [Loaded.canonical, heq]
  exact hcanonical

/-- The candidates that are listed for a path. -/
abbrev Loaded.candidates_at (l : Loaded crates) (a : Asked) (canonical : Str) : List Listed :=
  candidates (l.table a.listener) (l.table a.listener.other) a.host canonical a.method a.listener
    ((l.table a.listener).is_denied canonical)

/-- What a refusal lists, and that no route of the listener takes the request as it is. -/
theorem explain_route_candidates {canonical : Str} {cs : List Listed}
    (hx : l.explain_route a canonical = .NoRoute (some cs)
      ∨ l.explain_route a canonical = .Denied (some cs)) :
    cs = l.candidates_at a canonical
      ∧ ((l.table a.listener).is_denied canonical = false →
        (l.table a.listener).match_request a.host canonical a.method = none) := by
  unfold Loaded.explain_route at hx
  unfold Loaded.candidates_at
  dsimp only at hx
  cases hdenied : (l.table a.listener).is_denied canonical with
  | true =>
    rw [if_pos hdenied] at hx
    obtain hx | hx := hx
    · cases hx
    · obtain ⟨-, hcs⟩ := Option.ite_none_right_eq_some.mp (Explanation.Denied.inj hx)
      exact ⟨(Option.some.inj hcs).symm, fun h => by cases h⟩
  | false =>
    rw [if_neg (Bool.not_eq_true _ ▸ hdenied)] at hx
    cases hmatch : (l.table a.listener).match_request a.host canonical a.method with
    | some route =>
      rw [hmatch] at hx
      obtain hx | hx := hx <;> cases hx
    | none =>
      rw [hmatch] at hx
      obtain hx | hx := hx
      · obtain ⟨-, hcs⟩ := Option.ite_none_right_eq_some.mp (Explanation.NoRoute.inj hx)
        exact ⟨(Option.some.inj hcs).symm, fun _ => rfl⟩
      · cases hx

theorem listed_iff {canonical : Str} {listener : Listener} {route : RouteConfig} :
    (∃ c ∈ l.candidates_at a canonical, c.listener = listener ∧ c.candidate.route = route)
      ↔ route ∈ (l.table listener).routes
        ∧ under_prefix (normalize_proxy_path canonical) route.path_prefix = true := by
  constructor
  · rintro ⟨c, hc, rfl, rfl⟩
    obtain ⟨hroute, hunder, -⟩ := mem_prefix_candidates.mp (mem_candidates.mp hc).1
    exact ⟨hroute, hunder⟩
  · rintro ⟨hroute, hunder⟩
    let candidate : RouteCandidate :=
      { route := route
        host_matches := route.matches_host
          (a.host.map fun host => to_ascii_lowercase (normalize_host host))
        method_matches := route.matches_method (to_ascii_uppercase a.method) }
    have hcandidate : candidate ∈ (l.table listener).prefix_candidates a.host canonical a.method :=
      mem_prefix_candidates.mpr ⟨hroute, hunder, rfl, rfl⟩
    refine ⟨⟨listener, candidate, reasons (if listener = a.listener then none else some listener)
      ((l.table a.listener).is_denied canonical) a.host candidate⟩, ?_, rfl, rfl⟩
    exact mem_candidates.mpr ⟨hcandidate, rfl⟩

/-- A candidate of the listener with no reason would have been matched. -/
theorem reasons_ne_nil {canonical : Str} {c : Listed} (hc : c ∈ l.candidates_at a canonical)
    (hnone : (l.table a.listener).is_denied canonical = false →
      (l.table a.listener).match_request a.host canonical a.method = none) : c.reasons ≠ [] := by
  intro hempty
  obtain ⟨hcandidate, hreasons⟩ := mem_candidates.mp hc
  have hno_host : ¬ ∃ missing requires, .host missing requires ∈ c.reasons := by simp [hempty]
  have hno_method : ¬ ∃ allows, .method allows ∈ c.reasons := by simp [hempty]
  have hrepaired : Repaired c a { a with listener := c.listener } :=
    ⟨rfl, rfl, fun _ => rfl, fun h => absurd h hno_host, fun _ => rfl,
      fun h => absurd h hno_method⟩
  have hmatches := hrepaired.matches hcandidate hreasons
  have hroute := (mem_prefix_candidates.mp hcandidate).1
  rw [hempty] at hreasons
  by_cases hlistener : c.listener = a.listener
  · rw [if_pos hlistener] at hreasons
    cases hdenied : (l.table a.listener).is_denied canonical with
    | true =>
      rw [hdenied] at hreasons
      cases hreasons
    | false =>
      have hnothing := hnone hdenied
      rw [match_request_eq_find?, List.find?_eq_none] at hnothing
      exact hnothing _ (hlistener ▸ hroute) hmatches
  · rw [if_neg hlistener] at hreasons
    cases hreasons

/-- What holds of the candidates for a refused request. -/
structure Explains (l : Loaded crates) (a : Asked) (canonical : Str) (cs : List Listed) :
    Prop where
  /-- The routes listed are those whose prefix the path is under. -/
  listed : ∀ listener route, (∃ c ∈ cs, c.listener = listener ∧ c.candidate.route = route)
    ↔ route ∈ (l.table listener).routes
      ∧ under_prefix (normalize_proxy_path canonical) route.path_prefix = true
  reasoned : ∀ c ∈ cs, c.reasons ≠ []
  /-- There is no further reason, unless the listener denies the path. -/
  routed : ∀ c ∈ cs, ∀ a', Repaired c a a' → (l.table c.listener).is_denied canonical = false →
    ∃ route upstream_path client_key,
      l.explain a' = some (.Route route canonical upstream_path client_key)
  blocked : ∀ c ∈ cs, .blocked ∈ c.reasons → ∀ a', a'.listener = a.listener →
    a'.request_path = a.request_path → ∃ found, l.explain a' = some (.Denied found)

/-- **The reasons are all there are.** Of a refused request every route is listed whose prefix it
is under, none without a reason, and a request that is changed in what the reasons name is
routed. -/
theorem why_not_suffices {cs : List Listed}
    (hx : l.explain a = some (.NoRoute (some cs)) ∨ l.explain a = some (.Denied (some cs))) :
    ∃ canonical, l.canonical a = some canonical ∧ Explains l a canonical cs := by
  obtain ⟨x, hsome, hcases⟩ : ∃ x, l.explain a = some x
      ∧ (x = .NoRoute (some cs) ∨ x = .Denied (some cs)) := by
    obtain hx | hx := hx
    · exact ⟨_, hx, .inl rfl⟩
    · exact ⟨_, hx, .inr rfl⟩
  obtain ⟨hlistens, ⟨-, rfl⟩ | ⟨hhealth, ⟨-, rfl⟩ | ⟨-, rfl⟩ | ⟨canonical, hcanonical, rfl⟩⟩⟩ :=
    explain_cases hsome
  · obtain h | h := hcases <;> cases h
  · obtain h | h := hcases <;> cases h
  · obtain h | h := hcases <;> cases h
  · refine ⟨canonical, hcanonical, ?_⟩
    obtain ⟨rfl, hnone⟩ := explain_route_candidates hcases
    refine ⟨fun _ _ => listed_iff, fun c hc => reasons_ne_nil hc hnone, ?_, ?_⟩
    · intro c hc a' hrepaired hdenied
      obtain ⟨hcandidate, hreasons⟩ := mem_candidates.mp hc
      have hroute := (mem_prefix_candidates.mp hcandidate).1
      rw [← hrepaired.listener] at hroute hdenied
      rw [explain_elsewhere hhealth hcanonical hrepaired.request_path (listens_of_route hroute)]
      obtain ⟨route, upstream_path, client_key, heq⟩ :=
        routed_of_matches hroute (hrepaired.matches hcandidate hreasons) hdenied
      exact ⟨route, upstream_path, client_key, congrArg some heq⟩
    · intro c hc hblocked a' hlistener hpath
      obtain ⟨-, hreasons⟩ := mem_candidates.mp hc
      have hdenied : (l.table a'.listener).is_denied canonical = true := by
        rw [hlistener]
        by_contra hnot
        rw [hreasons, Bool.eq_false_of_not_eq_true hnot] at hblocked
        unfold reasons at hblocked
        split at hblocked <;> simp at hblocked
      rw [explain_elsewhere hhealth hcanonical hpath (hlistener ▸ hlistens)]
      unfold Loaded.explain_route
      rw [if_pos hdenied]
      exact ⟨_, rfl⟩

end Explain

namespace GetOnly

/-- Users can be read, and not written. -/
def input : RouteInput where
  id := "users".toList
  path_prefix := "users".toList
  upstream := "app".toList
  methods := some ["GET".toList]

def groups : RouteGroups where
  internal := []
  machine := []
  «public» := [RouteConfig.of_input input]
  optional := []
  authenticated := []

theorem read (r : RouteConfig) (hr : r ∈ groups.declared) :
    ∃ input auth, r = { RouteConfig.of_input input with auth := auth } := by
  rw [show groups.declared = [{ RouteConfig.of_input input with auth := .Public }] from rfl,
    List.mem_singleton] at hr
  exact ⟨input, .Public, hr⟩

theorem accepted :
    HealthRoute.checked.validate_table (.build_with 0 groups HealthRoute.loaded.defaults false)
      = .ok () := by
  decide +kernel

/-- Otherwise as the configuration with a route for the health check. -/
def loaded : Loaded plain_crates :=
  { HealthRoute.loaded with groups := groups, read := read, accepted := accepted }

def asked (method request_path : String) : Asked where
  method := method.toList
  request_path := request_path.toList
  host := none
  listener := .Public
  why_not := true

end GetOnly

open GetOnly in
/-- The health check is explained as such, whatever its query. -/
theorem explain_agrees_health :
    (HealthRoute.loaded.site .Public).select_route (HealthRoute.loaded.table .Public)
        (HealthRoute.sent "/health")
      = .error (.health 1) :=
  (@explain_agrees _ HealthRoute.loaded (asked "GET" "/health?verbose") .LocalHealth
    (HealthRoute.sent "/health") (HealthRoute.plain "/health") (by decide +kernel)).1

open GetOnly in
/-- A user cannot be written, and the method is why. -/
theorem why_not_suffices_write :
    (loaded.candidates_at (asked "POST" "/users/7?full") "users/7".toList).map Listed.reasons
        = [[.method ["GET".toList]]]
      ∧ ∃ canonical, loaded.canonical (asked "POST" "/users/7?full") = some canonical
        ∧ Explains loaded (asked "POST" "/users/7?full") canonical
          (loaded.candidates_at (asked "POST" "/users/7?full") "users/7".toList) :=
  ⟨by decide +kernel, why_not_suffices (.inl (by decide +kernel))⟩

end Lagos.Policy
