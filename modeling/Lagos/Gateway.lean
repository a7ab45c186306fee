/-
What the proxy does to the headers of a request (`proxy.rs`).

`request_filter` collects a plan: the base plan of the listener, the request id, the trace,
the caller, the cookies, the client key. `upstream_request_filter` carries it out on what the
client sent, after the sweep of the allowlist. Two listeners serve one configuration, and
their gateways differ in `serves_machine` only.

What has been settled about a request before its headers are planned is its `Ctx`: the route,
who the caller is, the request id, and what the request draws from outside (ids, a clock).
Routes with extensions are left out: an extension may write what it likes.
-/
import Lagos.GatewayConfig
import Lagos.Trace

set_option autoImplicit false

open RustStd

namespace Lagos.Outbound

open Lagos.Config Lagos.Error Lagos.Headers Lagos.Auth Lagos.Routes

/-! ## The gateway -/

/-- `STRUCTURAL_HEADERS`. -/
def STRUCTURAL_HEADERS : List Str :=
  [HOST, "content-type".toList, "content-length".toList, "transfer-encoding".toList,
    "accept".toList, "accept-encoding".toList, "accept-language".toList, "connection".toList,
    "expect".toList, "range".toList]

/-- The fields of `Gateway` that decide about headers. -/
structure Gateway where
  cfg : ResolvedConfig
  sample_ratio : Option ℚ
  serves_machine : Bool
  /-- A set. -/
  forwardable : List Str
  deriving DecidableEq, Repr

/-- `Gateway::new`. -/
def Gateway.new (cfg : ResolvedConfig) : Gateway where
  cfg := cfg
  sample_ratio := cfg.raw.sample_ratio
  serves_machine := false
  forwardable := STRUCTURAL_HEADERS ++ cfg.raw.forward.headers.map to_ascii_lowercase
    ++ (if cfg.raw.forward.authorization then [AUTHORIZATION] else [])
    ++ cfg.injected_headers.map Prod.fst ++ cfg.machine_injected_headers.map Prod.fst
    ++ cfg.client_key_forward_as.toList

/-- `Gateway::for_machine_tier`. -/
def Gateway.for_machine_tier (g : Gateway) : Gateway := { g with serves_machine := true }

/-- The gateway of a listener: the internal one serves the machine tier. -/
def Gateway.of_listener (cfg : ResolvedConfig) (serves_machine : Bool) : Gateway :=
  if serves_machine then (Gateway.new cfg).for_machine_tier else Gateway.new cfg

@[simp] theorem Gateway.of_listener_cfg (cfg : ResolvedConfig) (serves_machine : Bool) :
    (Gateway.of_listener cfg serves_machine).cfg = cfg := by
  cases serves_machine <;> rfl

@[simp] theorem Gateway.of_listener_serves (cfg : ResolvedConfig) (serves_machine : Bool) :
    (Gateway.of_listener cfg serves_machine).serves_machine = serves_machine := by
  cases serves_machine <;> rfl

@[simp] theorem Gateway.of_listener_forwardable (cfg : ResolvedConfig) (serves_machine : Bool) :
    (Gateway.of_listener cfg serves_machine).forwardable = (Gateway.new cfg).forwardable := by
  cases serves_machine <;> rfl

/-- `Gateway::is_forwardable`. -/
def Gateway.is_forwardable (g : Gateway) (name : Str) : Bool := g.forwardable.contains name

/-- What a request is given from outside: its ids, the time, and whether it is sampled. -/
structure Draws where
  uuid : Str
  trace_id : List UInt8
  span_id : List UInt8
  now : ℕ
  sample : ℚ → Bool

/-- What a request comes with besides its headers. -/
structure Ctx where
  draws : Draws
  /-- The route it matched, which runs no extensions, and its canonical path. -/
  route : RouteConfig
  path : Str
  no_extensions : route.extensions = []
  identity : Option Identity
  request_id : Str
  /-- The address of the socket's other end. -/
  peer : Option Str
  /-- The authority of the backend chosen. -/
  target : Str

/-! ## The plan of a request -/

/-- The request id, in `request_filter`: the client's, if it has one that can be read. -/
def client_request_id (headers : HeaderMap) : Option Str :=
  (header_str headers X_REQUEST_ID).filter fun v => !v.isEmpty

/-- The headers a listener injects, in `base_header_plan`. -/
def Gateway.injected (g : Gateway) : List (Str × Str) :=
  if g.serves_machine then g.cfg.machine_injected_headers else g.cfg.injected_headers

/-- The two names a machine caller's credential is removed under, in `base_header_plan`. -/
def machine_names : List Str := ["x-api-key".toList, "x-internal-api-key".toList]

/-- Those of them that are not injected. -/
def Gateway.stripped_machine_names (g : Gateway) : List Str :=
  if g.serves_machine then
    machine_names.filter fun name => !(g.injected.any fun p => p.1 == name)
  else []

/-- The value of a name is set, if there is one. -/
def set_some (plan : HeaderPlan) (name : Str) : Option Str → HeaderPlan
  | some v => plan.set name v
  | none => plan

/-- A name is stripped, if there is one. -/
def strip_some (plan : HeaderPlan) : Option Str → HeaderPlan
  | some name => plan.strip name
  | none => plan

/-- `Gateway::base_header_plan`. -/
def Gateway.base_header_plan (g : Gateway) (crates : Crates) (headers : HeaderMap)
    (peer : Option Str) : HeaderPlan :=
  let plan := HOP_BY_HOP.foldl HeaderPlan.strip HeaderPlan.new
  let plan := g.injected.foldl (fun plan p => plan.set p.1 p.2) plan
  let plan := g.stripped_machine_names.foldl HeaderPlan.strip plan
  let trusted := g.cfg.trusted_proxy_depth crates peer g.cfg.raw.forward.trusted_proxies
  let forwarded := forwarded_for crates.is_ip headers peer trusted
  let plan := (plan.strip X_FORWARDED_FOR).strip X_REAL_IP
  set_some (set_some plan X_FORWARDED_FOR forwarded.1) X_REAL_IP forwarded.2

/-- The client key of a request, in `request_filter`: the id of the key presented, where one
is required. -/
def Gateway.client_key_id (g : Gateway) (crates : Crates) (cx : Ctx) (headers : HeaderMap) :
    Except Rejection (Option Str) :=
  if g.serves_machine = false ∧ g.cfg.client_key_rule cx.route cx.path = .Required then
    let values := headers.get_all (to_ascii_lowercase (g.cfg.client_key_header.getD []))
    match (values.head?).filter fun v => !v.bytes.isEmpty with
    | none => .error (.missing_client_key (g.cfg.client_key_header.getD []))
    | some presented =>
      let presented := ClientKey.digest_of crates presented.bytes
      -- Two copies of the header are ambiguous about which one was meant.
      match (g.cfg.client_keys.find? fun key => key.matches presented).filter
          fun _ => values.length ≤ 1 with
      | none => .error .invalid_client_key
      | some key => .ok (some key.id)
  else .ok none

/-- The `traceparent` of a request, in `request_filter`, where requests are traced. -/
def Gateway.traceparent (g : Gateway) (draws : Draws) (headers : HeaderMap) : Option Str :=
  g.sample_ratio.map fun ratio =>
    (Trace.TraceContext.continue_from (header_str headers TRACEPARENT) (draws.sample ratio)
      draws.trace_id draws.span_id).to_header

/-- The `Cookie` fields that can be read. -/
def readable_cookies (headers : HeaderMap) : List Str :=
  (headers.get_all COOKIE).filterMap HeaderValue.to_str

/-- Whether token cookies are taken out of `Cookie`, in `request_filter`. -/
def Gateway.rewrites_cookies (g : Gateway) (headers : HeaderMap) : Bool :=
  !g.cfg.raw.forward.authorization && !g.cfg.raw.auth.token_cookies.isEmpty
    && (g.cfg.raw.forward.mode != .Allowlist || g.is_forwardable COOKIE)
    && !(readable_cookies headers).isEmpty

/-- The credentials that are not forwarded, in `request_filter`. -/
def Gateway.strip_credentials (g : Gateway) (headers : HeaderMap) (plan : HeaderPlan) :
    HeaderPlan :=
  let plan := if g.cfg.raw.forward.authorization then plan else plan.strip AUTHORIZATION
  if g.rewrites_cookies headers then
    match strip_cookies (readable_cookies headers) g.cfg.raw.auth.token_cookies with
    | some rest => plan.set COOKIE rest
    | none => plan.strip COOKIE
  else plan

/-- The headers of client keys, in `request_filter`. -/
def Gateway.client_key_headers (g : Gateway) (client_key_id : Option Str) (plan : HeaderPlan) :
    HeaderPlan :=
  if g.serves_machine then plan
  else
    let plan := strip_some plan g.cfg.client_key_header
    match g.cfg.client_key_forward_as with
    | some forward_as =>
      match client_key_id with
      | some id => plan.set forward_as id
      | none => plan.strip forward_as
    | none => plan

/-- The refusal of a caller that cannot be described. -/
def describe_rejection : IdentityError → Rejection
  | .Claim e => .invalid_token s!"unrepresentable_identity: {e}"
  | .Mint e =>
    .unavailable "Unable to sign caller identity" s!"identity_mint_failed: {e}"

/-- The plan of a request before its caller is described. -/
def Gateway.undescribed_plan (g : Gateway) (crates : Crates) (cx : Ctx) (headers : HeaderMap) :
    HeaderPlan :=
  let plan := g.base_header_plan crates headers cx.peer
  let plan := plan.set X_REQUEST_ID cx.request_id
  set_some plan TRACEPARENT (g.traceparent cx.draws headers)

/-- The header policy of `request_filter`, on a route without extensions. -/
def Gateway.header_plan (g : Gateway) (crates : Crates) (cx : Ctx) (headers : HeaderMap) :
    Except Rejection HeaderPlan := do
  let client_key_id ← g.client_key_id crates cx headers
  let plan := g.undescribed_plan crates cx headers
  let plan ← (describe crates.toCodecs cx.draws.now plan g.cfg.raw.identity
    g.cfg.identity_secret cx.identity).mapError describe_rejection
  let plan := g.strip_credentials headers plan
  return g.client_key_headers client_key_id plan

/-! ## Carrying it out -/

/-- `insert_header`: the value that a name and a text become. -/
def insertable (crates : Crates) (name value : Str) : Except Rejection HeaderValue :=
  if crates.header_name name = false then .error (.upstream_failed "InvalidHTTPHeader")
  else
    match HeaderValue.from_str value with
    | some v => .ok v
    | none => .error (.upstream_failed "InvalidHTTPHeader")

/-- The `Host` of the backend, in `upstream_request_filter`, unless the client's is kept. -/
def Gateway.insert_host (g : Gateway) (crates : Crates) (target : Str) (upstream : HeaderMap) :
    Except Rejection HeaderMap :=
  if g.cfg.raw.forward.preserve_host then .ok upstream
  else MultiMap.insert_each (insertable crates) [(HOST, target)] upstream

/-- `Gateway::upstream_request_filter`, for the backend at `target`. -/
def Gateway.upstream_request_filter (g : Gateway) (crates : Crates) (target : Str)
    (plan : HeaderPlan) (upstream : HeaderMap) : Except Rejection HeaderMap := do
  let upstream ← g.insert_host crates target upstream
  let upstream := if g.cfg.raw.forward.mode = .Allowlist then
      upstream.remove_all (upstream.keys.filter fun name => !g.is_forwardable name)
    else upstream
  let upstream := upstream.remove_all plan.removals
  MultiMap.insert_each (insertable crates) plan.additions upstream

/-- What a backend is sent of the headers of a request, or why it is refused. -/
def Gateway.forward (g : Gateway) (crates : Crates) (cx : Ctx) (headers : HeaderMap) :
    Except Rejection HeaderMap := do
  let plan ← g.header_plan crates cx headers
  g.upstream_request_filter crates cx.target plan headers

/-- The gateway of the public listener, where nothing is injected. -/
def plain_gateway : Gateway := Gateway.of_listener
  { raw := {}
    trusted_proxy_ips := []
    injected_headers := []
    machine_injected_headers := []
    identity_secret := none
    machine_secret := none
    client_key_header := none
    client_key_forward_as := none
    client_keys := []
    client_key_exempt := []
    client_key_exempt_groups := [] } false

end Lagos.Outbound
