/-
Offline policy tests (`decide` in `cli/policy.rs`, `strip_mount` in `cli.rs`) against the gateway.

The two decide apart from each other what becomes of a request: under which mount it is, whether
its path is safe, whether it is denied, and which route it takes. They agree on every request that
the gateway does not answer itself (`decide_agrees_iff`). One it does is that for the health path,
which a test knows nothing of and reports as if it were routed; `explain` has the check.
-/
import Lagos.AdmissionKeys
import Lagos.Binding
import Lagos.InternalListener

set_option autoImplicit false

open RustStd

namespace Lagos.Outbound

open Lagos.Routes

/-! ## The selection of a route -/

/-- `Gateway::request_filter`, until a route is selected. -/
def Site.select_route (s : Site) (table : RouteTable) (req : Request) :
    Except Stop (RouteConfig × Str) := do
  s.check_health table req
  s.check_size req
  s.check_reserved req
  let path ← s.locate table req
  s.check_preflight table req path
  let route ← s.find_route table req path
  return (route, path)

/-- The path for the upstream, which `request_filter` keeps in the context where the prefix is
stripped, and `upstream_request_filter` takes from there. -/
def sent_path (route : RouteConfig) (path : Str) : Str :=
  (if route.strip_prefix then some (route.upstream_path path) else none).getD path

theorem sent_path_eq (route : RouteConfig) (path : Str) :
    sent_path route path = route.upstream_path path := by
  unfold sent_path RouteConfig.upstream_path
  cases route.strip_prefix <;> rfl

/-- After the selection, what is left is the credential of the machine tier. -/
theorem route_request_eq (s : Site) (table : RouteTable) (req : Request) :
    s.route_request table req
      = s.select_route table req >>= fun p => s.check_machine p.1 req >>= fun _ => .ok p := by
  simp only [Site.route_request, Site.select_route, bind_assoc, pure_bind]
  rfl

/-- A route is denied for one reason. -/
theorem denied_inj {α : Type} {reason reason' : String} :
    (denied reason : Except Stop α) = denied reason' ↔ reason = reason' := by
  refine ⟨fun h => ?_, fun h => by rw [h]⟩
  have hstop := Except.error.inj h
  exact congrArg Error.Rejection.reason (Stop.refused.inj hstop)

/-- A machine's credential is never why a route is denied. -/
theorem route_request_denied_iff {s : Site} {table : RouteTable} {req : Request} {reason : String} :
    s.route_request table req = denied reason ↔ s.select_route table req = denied reason := by
  rw [route_request_eq]
  cases s.select_route table req with
  | error stop => exact Iff.rfl
  | ok selected =>
    refine iff_of_false (fun h => ?_) (fun h => by cases h)
    have h : (s.check_machine selected.1 req >>= fun _ => .ok selected) = denied reason := h
    obtain herror | ⟨_, -, hok⟩ := bind_eq_error.mp h
    · rw [check_machine_eq] at herror
      split at herror
      · cases hauth : s.gateway.cfg.authenticate_machine req.headers with
        | ok _ =>
          rw [hauth] at herror
          cases herror
        | error rejection =>
          rw [hauth] at herror
          have hrejection := Stop.refused.inj (Except.error.inj herror)
          obtain ⟨-, rfl⟩ | rfl := authenticate_machine_error hauth
          · exact absurd (congrArg Error.Rejection.status hrejection) (show 503 ≠ 404 by decide)
          · exact absurd (congrArg Error.Rejection.event hrejection)
              (show "gateway.machine.rejected" ≠ "gateway.route.denied" by decide)
      · cases herror
    · cases hok

end Lagos.Outbound

namespace Lagos.Policy

open Lagos.Admission (admission_key)
open Lagos.Auth Lagos.Config Lagos.CrossOrigin Lagos.Error Lagos.Headers Lagos.Outbound
open Lagos.Path Lagos.Routes

/-! ## A configuration and its listeners -/

/-- `cli::Listener`. -/
inductive Listener where
  | Public
  | Internal
  deriving DecidableEq, Repr

/-- A configuration that is accepted, with its route table. -/
structure Loaded (crates : Crates) where
  cfg : GatewayConfig
  resolved : Outbound.ResolvedConfig
  resolve_eq : cfg.resolve crates = .ok resolved
  /-- The mounts, longest first. -/
  base_paths : List Str
  health_path : Str
  service_name : Str
  /-- `limits.max_body`. -/
  max_body : ℕ
  cors : Option Cors
  /-- What the routes are checked against. -/
  checked : Config.ResolvedConfig
  machine_eq : checked.machine = cfg.auth.machine.isSome
  client_keys_eq : checked.client_keys = cfg.auth.client_keys.isSome
  trusted_proxy_ips_eq : checked.trusted_proxy_ips = resolved.trusted_proxy_ips
  cache_namespace : ℕ
  groups : RouteGroups
  /-- Routes are read from a file. -/
  read : ∀ r ∈ groups.declared,
    ∃ input auth, r = { RouteConfig.of_input input with auth := auth }
  defaults : RouteDefaults
  /-- Whether there is a backend for shared counters. -/
  shared : Bool
  accepted : checked.validate_table (.build_with cache_namespace groups defaults shared) = .ok ()

variable {crates : Crates}

/-- The table that is built. -/
def Loaded.routes (l : Loaded crates) : RouteTable :=
  .build_with l.cache_namespace l.groups l.defaults l.shared

/-- The gateway of a listener. -/
def Loaded.site (l : Loaded crates) (listener : Listener) : Site where
  gateway := Gateway.of_listener l.resolved (listener = .Internal)
  base_paths := l.base_paths
  health_path := l.health_path
  service_name := l.service_name
  max_body := l.max_body
  cors := l.cors
  upstreams := l.checked.upstreams

/-- The routes of a listener. -/
def Loaded.table (l : Loaded crates) : Listener → RouteTable
  | .Public => l.routes.partition_by_listener.1
  | .Internal => l.routes.partition_by_listener.2

/-! ## The decision of a test -/

/-- `strip_mount`: the mount, and what is beneath it. -/
def strip_mount (base_paths : List Str) (request_path : Str) : Option (Str × Str) :=
  base_paths.findSome? fun base =>
    let p := trim_start_matches '/' request_path
    if base.isEmpty then some (base, p)
    else
      (RustStd.strip_prefix p base).bind fun rest =>
        if rest.isEmpty then some (base, [])
        else (RustStd.strip_prefix rest ['/']).map fun r => (base, r)

/-- `TestIdentity`. -/
structure TestIdentity where
  subject : Str
  claims : List (Str × Value)

/-- `TestRequest`. -/
structure TestRequest where
  path : Str
  method : Str := "GET".toList
  host : Option Str := none
  listener : Listener := .Public
  query : Option Str := none
  /-- A map, in the order of its keys. -/
  headers : List (Str × Str) := []
  /-- Socket peer for offline key fallback checks; no proxy trust is inferred. -/
  peer_ip : Option Str := none
  /-- Synthetic, already-verified identity for evaluating `bind`. -/
  identity : Option TestIdentity := none

/-- `ResultKind`. -/
inductive ResultKind where
  | Route
  | Denied
  | NoRoute
  | OutsideMount
  | UnsafePath
  deriving DecidableEq, Repr

/-- `ClientKeyState`. -/
inductive ClientKeyState where
  | Required
  | Exempt
  | Off
  deriving DecidableEq, Repr

/-- `ClientKeyState::of`. -/
def ClientKeyState.of : ClientKeyRule → ClientKeyState
  | .Required => .Required
  | .ExemptRoute => .Exempt
  | .ExemptPrefix _ => .Exempt
  | .ExemptGroup _ => .Exempt
  | .Off => .Off

/-- `Actual`. -/
structure Actual where
  result : ResultKind
  route : Option Str
  tier : Option String
  upstream : Option Str
  upstream_path : Option Str
  bindings : Option Bool
  client_key : Option ClientKeyState
  policy_keys : Option Bool
  deriving DecidableEq, Repr

/-- `Actual::simple`. -/
def Actual.simple (result : ResultKind) : Actual :=
  ⟨result, none, none, none, none, none, none, none⟩

/-- The headers that bindings read: of names that differ in case only, the last one's. -/
def TestRequest.bound_header (request : TestRequest) (name : Str) : Option Str :=
  (request.headers.map fun h => (to_ascii_lowercase h.1, h.2)).reverse.lookup
    (to_ascii_lowercase name)

/-- The headers that keys are read from. -/
def TestRequest.header_map (request : TestRequest) (crates : Crates) : HeaderMap :=
  of_fields (request.headers.filterMap fun h =>
    if crates.header_name h.1 then (HeaderValue.from_str h.2).map fun value => (h.1, value)
    else none)

/-- Whether the bindings of a route permit the synthetic identity, if there are any. -/
def TestRequest.bindings_permit (request : TestRequest) (route : RouteConfig) : Option Bool :=
  if route.bindings.isEmpty then none
  else
    let query := request.query.map (trim_start_matches '?')
    some (request.identity.any fun value =>
      let identity : Identity := ⟨value.subject, [], [], value.claims⟩
      route.bindings.all fun binding => binding.permits identity query request.bound_header)

/-- Whether the keys that a route counts by can be had. -/
def TestRequest.policy_keys (request : TestRequest) (crates : Crates) (route : RouteConfig) : Bool :=
  let requirements := (route.rate_limit.map fun r => (r.key, r.missing_key)).toList
    ++ (route.concurrency.map fun c => (c.effective_key, c.missing_key)).toList
  requirements.all fun (key, missing) =>
    (admission_key key missing 0 route.id
      ((request.identity.filter fun _ => route.auth.verifies).map TestIdentity.subject) none
      request.peer_ip (request.header_map crates)).isOk

/-- `decide`. -/
def decide (crates : Crates) (base_paths : List Str) (cfg : Outbound.ResolvedConfig)
    (table : RouteTable) (request : TestRequest) : Actual :=
  match strip_mount base_paths request.path with
  | none => .simple .OutsideMount
  | some (_, sub) =>
    match canonicalize_proxy_path sub with
    | none => .simple .UnsafePath
    | some canonical =>
      if table.is_denied canonical then .simple .Denied
      else
        match table.match_request request.host canonical request.method with
        | none => .simple .NoRoute
        | some route =>
          { result := .Route
            route := some route.id
            tier := some route.auth.group
            upstream := some route.upstream
            upstream_path := some ('/' :: route.upstream_path canonical)
            bindings := request.bindings_permit route
            client_key := some (if request.listener = .Internal then .Off
              else .of (cfg.client_key_rule route canonical))
            policy_keys := some (request.policy_keys crates route) }

/-- What `lagos test` compares a case with. -/
def Loaded.test (l : Loaded crates) (request : TestRequest) : Actual :=
  decide crates l.base_paths l.resolved (l.table request.listener) request

/-! ## What they are to agree on -/

/-- The results of a test that are refusals, and what `request_filter` refuses with. -/
def REFUSALS : List (ResultKind × String) :=
  [(.OutsideMount, "outside_base_path"), (.UnsafePath, "unsafe_path"), (.Denied, "deny_list"),
    (.NoRoute, "not_allowlisted")]

/-- A test and the gateway agree: on each refusal, on the route and what is sent where, and a
request that the gateway selects no route for is not reported as routed. -/
structure Agrees (actual : Actual) (s : Site) (table : RouteTable) (req : Outbound.Request) :
    Prop where
  refused : ∀ refusal ∈ REFUSALS,
    actual.result = refusal.1 ↔ s.route_request table req = denied refusal.2
  routed : ∀ id upstream path,
    (actual.result = .Route ∧ actual.route = some id ∧ actual.upstream = some upstream
      ∧ actual.upstream_path = some path)
    ↔ ∃ route canonical, s.select_route table req = .ok (route, canonical) ∧ route.id = id
      ∧ route.upstream = upstream ∧ '/' :: sent_path route canonical = path
  local_answer : (∀ selected, s.select_route table req ≠ .ok selected) → actual.result ≠ .Route

/-- The request of a test, as the gateway gets it: it is no preflight, carries no header that is
reserved on its listener, and its body is not too large. -/
structure Plain (l : Loaded crates) (request : TestRequest) (req : Outbound.Request) : Prop where
  path : req.path = request.path
  method : req.method = request.method
  host : header_str req.headers HOST = request.host
  no_preflight : header_str req.headers "origin".toList = none
    ∨ header_str req.headers "access-control-request-method".toList = none
  no_reserved : request.listener = .Public →
    ∀ name ∈ l.cfg.reject, is_present req.headers name = false
  small : content_length_over_limit req.headers l.max_body = false

/-! ## They agree -/

/-- The two ways to strip a mount are one. -/
theorem strip_mount_eq (base_paths : List Str) (request_path : Str) :
    (strip_mount base_paths request_path).map Prod.snd = strip_base base_paths request_path := by
  unfold strip_mount strip_base
  rw [List.map_findSome?]
  congr 1
  funext base
  rw [Function.comp_apply]
  by_cases hroot : base.isEmpty = true
  · rw [if_pos hroot, if_pos hroot]
    rfl
  · rw [if_neg hroot, if_neg hroot]
    cases RustStd.strip_prefix (trim_start_matches '/' request_path) base with
    | none => rfl
    | some rest =>
      cases rest with
      | nil => rfl
      | cons c rest =>
        by_cases hslash : c = '/'
        · subst hslash
          rfl
        · have hnone : RustStd.strip_prefix (c :: rest) ['/'] = none := by
            simp [RustStd.strip_prefix, List.isPrefixOf?, Ne.symm hslash]
          simp [hnone, hslash]

section Decide

variable {l : Loaded crates} {request : TestRequest} {req : Outbound.Request}

/-- Every route of a listener has an upstream. -/
theorem upstream_of_match {listener : Listener} {host : Option Str} {path method : Str}
    {route : RouteConfig} (h : (l.table listener).match_request host path method = some route) :
    route.upstream ∈ l.checked.upstreams := by
  have hroute : route ∈ l.routes.routes := by
    have hmem := mem_of_match_request h
    cases listener <;> exact (List.mem_filter.mp hmem).1
  exact ((validate_table_ok.mp l.accepted).2.sound route hroute).upstream_defined

/-- What is no preflight is not answered as one. -/
theorem check_preflight_ok {s : Site} {table : RouteTable} {path : Str}
    (h : header_str req.headers "origin".toList = none
      ∨ header_str req.headers "access-control-request-method".toList = none) :
    s.check_preflight table req path = .ok () := by
  have hnone : s.preflight_headers table req path = none := by
    unfold Site.preflight_headers
    cases s.cors with
    | none => rfl
    | some cors =>
      rw [Option.bind_some]
      obtain horigin | hrequested := h
      · rw [horigin, Option.bind_none]
      · rw [hrequested]
        cases header_str req.headers "origin".toList <;> rfl
  unfold Site.check_preflight
  rw [hnone]
  exact ite_self _

/-- The gateway gets as far as a plain request's path. -/
theorem select_route_eq (h : Plain l request req) (hhealth : request.path ≠ l.health_path) :
    (l.site request.listener).select_route (l.table request.listener) req
      = (l.site request.listener).locate (l.table request.listener) req >>= fun path =>
        (l.site request.listener).find_route (l.table request.listener) req path >>= fun route =>
          .ok (route, path) := by
  set s := l.site request.listener with hs
  set table := l.table request.listener
  have hcfg : s.gateway.cfg = l.resolved := Gateway.of_listener_cfg _ _
  have hraw : s.gateway.cfg.raw = l.cfg := by
    rw [hcfg, (resolved_of_resolve l.resolve_eq).raw]
  have hcheck : s.check_health table req = .ok () := if_neg (by rw [h.path]; exact hhealth)
  have hsize : s.check_size req = .ok () := if_neg (Bool.not_eq_true _ ▸ h.small)
  have hreserved : s.check_reserved req = .ok () := by
    unfold Site.check_reserved
    split
    · rfl
    · rename_i hserves
      have hpublic : request.listener = .Public := by
        cases hlistener : request.listener with
        | Public => rfl
        | Internal => exact absurd (by rw [hs, hlistener]; rfl) hserves
      have hnone : s.gateway.cfg.raw.reject.find? (is_present req.headers) = none := by
        rw [hraw, List.find?_eq_none]
        exact fun name hname => Bool.not_eq_true _ ▸ h.no_reserved hpublic name hname
      rw [hnone]
  have hpreflight : ∀ path, s.check_preflight table req path = .ok () :=
    fun path => check_preflight_ok h.no_preflight
  unfold Site.select_route
  rw [hcheck, hsize, hreserved]
  simp only [hpreflight]
  rfl

/-- What a test reports of a refusal. -/
theorem agrees_simple {s : Site} {table : RouteTable} {refusal : ResultKind × String}
    (hmem : refusal ∈ REFUSALS) (h : s.select_route table req = denied refusal.2) :
    Agrees (.simple refusal.1) s table req where
  refused := by
    have hdistinct : ∀ x ∈ REFUSALS, ∀ y ∈ REFUSALS, x.1 = y.1 ↔ x.2 = y.2 := by decide
    intro other hother
    rw [route_request_denied_iff, h, denied_inj]
    exact hdistinct refusal hmem other hother
  routed id upstream path := by
    have hroute : ∀ x ∈ REFUSALS, x.1 ≠ .Route := by decide
    refine iff_of_false (fun hrouted => hroute refusal hmem hrouted.1) ?_
    rintro ⟨route, canonical, hok, -⟩
    rw [h] at hok
    cases hok
  local_answer _ := by
    have hroute : ∀ x ∈ REFUSALS, x.1 ≠ .Route := by decide
    exact hroute refusal hmem

/-- What a test reports of a route. -/
theorem agrees_route {s : Site} {table : RouteTable} {route : RouteConfig} {canonical : Str}
    {actual : Actual} (h : s.select_route table req = .ok (route, canonical))
    (hresult : actual.result = .Route) (hroute : actual.route = some route.id)
    (hupstream : actual.upstream = some route.upstream)
    (hpath : actual.upstream_path = some ('/' :: route.upstream_path canonical)) :
    Agrees actual s table req where
  refused := by
    have hkind : ∀ x ∈ REFUSALS, x.1 ≠ .Route := by decide
    intro refusal hmem
    rw [route_request_denied_iff, h, hresult]
    exact iff_of_false (hkind refusal hmem).symm (fun hok => by cases hok)
  routed id upstream path := by
    rw [hroute, hupstream, hpath, h]
    constructor
    · rintro ⟨-, ⟨⟩, ⟨⟩, ⟨⟩⟩
      exact ⟨route, canonical, rfl, rfl, rfl, by rw [sent_path_eq]⟩
    · rintro ⟨_, _, ⟨⟩, rfl, rfl, rfl⟩
      exact ⟨hresult, rfl, rfl, by rw [sent_path_eq]⟩
  local_answer hnone := absurd h (hnone _)

/-- The gateway selects what the table matches: a matched route has its upstream. -/
theorem find_route_eq (h : Plain l request req) (canonical : Str) :
    (l.site request.listener).find_route (l.table request.listener) req canonical
      = match (l.table request.listener).match_request request.host canonical request.method with
        | none => denied "not_allowlisted"
        | some route => .ok route := by
  unfold Site.find_route
  rw [h.host, h.method]
  cases hmatch : (l.table request.listener).match_request request.host canonical request.method with
  | none => rfl
  | some route => exact if_pos (upstream_of_match hmatch)

/-- The gateway answers the path of the health check itself, and a test does not. -/
theorem not_agrees_of_health (h : Plain l request req) (hhealth : request.path = l.health_path) :
    ¬ Agrees (l.test request) (l.site request.listener) (l.table request.listener) req := by
  set s := l.site request.listener
  set table := l.table request.listener
  intro hagrees
  have hstop : s.select_route table req = .error (.health table.routes.length) := by
    have hcheck : s.check_health table req = .error (.health table.routes.length) :=
      if_pos (by rw [h.path]; exact hhealth)
    unfold Site.select_route
    rw [hcheck]
    rfl
  have hnone : ∀ selected, s.select_route table req ≠ .ok selected := by
    intro selected hok
    rw [hstop] at hok
    cases hok
  have hrefused : ∀ refusal ∈ REFUSALS, (l.test request).result ≠ refusal.1 := by
    intro refusal hmem hresult
    have hdenied := (hagrees.refused refusal hmem).mp hresult
    rw [route_request_denied_iff, hstop] at hdenied
    cases hdenied
  -- A test that refuses nothing has found a route, which the gateway never looked for.
  have hkinds : ∀ kind : ResultKind, (∀ x ∈ REFUSALS, kind ≠ x.1) → kind = .Route := by
    intro kind hkind
    cases kind <;> first | rfl | exact absurd rfl (hkind (_, _) (by simp [REFUSALS]; rfl))
  exact hagrees.local_answer hnone (hkinds _ hrefused)

/-- Of any other path the test says what the gateway does, stage by stage. -/
theorem agrees_of_ne_health (h : Plain l request req) (hhealth : request.path ≠ l.health_path) :
    Agrees (l.test request) (l.site request.listener) (l.table request.listener) req := by
  have hselect := select_route_eq h hhealth
  have hfind := find_route_eq h
  set s := l.site request.listener
  set table := l.table request.listener with htable
  have hmount := strip_mount_eq l.base_paths request.path
  unfold Loaded.test decide
  rw [← htable]
  unfold Site.locate at hselect
  rw [h.path, show s.base_paths = l.base_paths from rfl, ← hmount] at hselect
  cases hstrip : strip_mount l.base_paths request.path with
  | none =>
    rw [hstrip] at hselect
    exact @agrees_simple req s table (.OutsideMount, "outside_base_path") (by decide) hselect
  | some found =>
    obtain ⟨mount, sub⟩ := found
    rw [hstrip] at hselect
    dsimp only [Option.map_some] at hselect ⊢
    cases hcanonical : canonicalize_proxy_path sub with
    | none =>
      rw [hcanonical] at hselect
      exact @agrees_simple req s table (.UnsafePath, "unsafe_path") (by decide) hselect
    | some canonical =>
      rw [hcanonical] at hselect
      dsimp only at hselect ⊢
      by_cases hdenied : table.is_denied canonical = true
      · rw [if_pos hdenied] at hselect ⊢
        exact @agrees_simple req s table (.Denied, "deny_list") (by decide) hselect
      · rw [if_neg hdenied] at hselect ⊢
        have hselect : s.select_route table req
            = s.find_route table req canonical >>= fun route => .ok (route, canonical) := hselect
        rw [hfind canonical] at hselect
        cases hmatch : table.match_request request.host canonical request.method with
        | none =>
          rw [hmatch] at hselect
          exact @agrees_simple req s table (.NoRoute, "not_allowlisted") (by decide) hselect
        | some route =>
          rw [hmatch] at hselect
          exact agrees_route hselect rfl rfl rfl rfl

/-- **Offline tests agree with the gateway**, on every listener of every configuration that is
accepted, for every plain request, unless its path is that of the health check. The gateway
answers that one itself; a test makes something else of it. -/
theorem decide_agrees_iff (h : Plain l request req) :
    Agrees (l.test request) (l.site request.listener) (l.table request.listener) req
      ↔ request.path ≠ l.health_path :=
  ⟨fun hagrees hhealth => not_agrees_of_health h hhealth hagrees, agrees_of_ne_health h⟩

end Decide

namespace HealthRoute

/-- Nothing is configured but a mount at the root, an upstream and one route. -/
def resolved : Outbound.ResolvedConfig where
  raw := {}
  trusted_proxy_ips := []
  injected_headers := []
  machine_injected_headers := []
  identity_secret := none
  machine_secret := none
  client_key_header := none
  client_key_forward_as := none
  client_keys := []
  client_key_exempt := []
  client_key_exempt_groups := []

def checked : Config.ResolvedConfig where
  upstreams := ["app".toList]
  trusted_proxy_ips := []
  shared_limits := false
  shared_counters := none
  cache := false
  client_keys := false
  machine := false
  internal_listen := none

/-- The route is `health`, as the path of the health check is. -/
def input : RouteInput where
  id := "health".toList
  path_prefix := "health".toList
  upstream := "app".toList

def groups : RouteGroups where
  internal := []
  machine := []
  «public» := [RouteConfig.of_input input]
  optional := []
  authenticated := []

def loaded : Loaded plain_crates where
  cfg := {}
  resolved := resolved
  resolve_eq := by decide +kernel
  base_paths := [[]]
  health_path := "/health".toList
  service_name := "gateway".toList
  max_body := 1048576
  cors := none
  checked := checked
  machine_eq := rfl
  client_keys_eq := rfl
  trusted_proxy_ips_eq := rfl
  cache_namespace := 0
  groups := groups
  read := by
    intro r hr
    rw [show groups.declared = [{ RouteConfig.of_input input with auth := .Public }] from rfl,
      List.mem_singleton] at hr
    exact ⟨input, .Public, hr⟩
  defaults := { rate_limit := none, retry := none, methods := none }
  shared := false
  accepted := by decide +kernel

def request (path : String) : TestRequest where
  path := path.toList

def sent (path : String) : Outbound.Request where
  method := "GET".toList
  path := path.toList
  headers := of_fields []

theorem plain (path : String) : Plain loaded (request path) (sent path) where
  path := rfl
  method := rfl
  host := rfl
  no_preflight := .inl rfl
  no_reserved _ := List.forall_mem_nil _
  small := rfl

end HealthRoute

open HealthRoute in
theorem decide_agrees_below :
    Agrees (loaded.test (request "/health/live")) (loaded.site .Public) (loaded.table .Public)
      (sent "/health/live") :=
  (decide_agrees_iff (plain "/health/live")).mpr
    (show "/health/live".toList ≠ "/health".toList by decide)

open HealthRoute in
/-- The health check is reported as routed. -/
theorem health_reported_as_routed :
    ¬ ∀ (crates : Crates) (l : Loaded crates) (request : TestRequest) (req : Outbound.Request),
      Plain l request req →
        Agrees (l.test request) (l.site request.listener) (l.table request.listener) req := by
  intro h
  have hagrees := h plain_crates loaded (request "/health") (sent "/health") (plain "/health")
  have hresult : (loaded.test (request "/health")).result = .Route := by decide +kernel
  have hstop : (loaded.site .Public).select_route (loaded.table .Public) (sent "/health")
      = .error (.health 1) := by decide +kernel
  refine hagrees.local_answer (fun selected hok => ?_) hresult
  rw [show (request "/health").listener = .Public from rfl, hstop] at hok
  cases hok

end Lagos.Policy
