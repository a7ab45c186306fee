/-
All of `request_filter`, and what Pingora asks after it (`proxy.rs`).

From the first limit on a request puts questions to what is outside the filter: the limiter of its
route, the verifier, the extensions, the cache, the slots of its route and the circuit of its
upstream. `Outside` is whatever answers them, in a world that every answer may change, and the
filter is a program that asks (`Asking`). Between the questions stand the checks of the request
itself, each under its own name.

`request_filter` ends in what it leaves in `ctx`, and `receive` goes on to where the request is
answered from the cache or sent to its upstream.
-/
import Lagos.Binding
import Lagos.BodyFraming
import Lagos.CookieProtection
import Lagos.ExactLimiter
import Lagos.Lib.Asking

set_option autoImplicit false

open RustStd

namespace Lagos.Outbound

open Lagos.Admission Lagos.Auth Lagos.Config Lagos.Csrf Lagos.Error Lagos.Headers Lagos.Routes
open Lagos.Jwks (AuthError)
open Lagos.Proxy (PendingSlot)
open Lagos.RateLimit (Decision retry_after_secs)

/-! ## A request and a listener -/

/-- A request as it arrives, with what is drawn for it. -/
structure Arrival where
  request : Request
  query : Option Str
  /-- The address of the socket's other end. -/
  peer : Option Str
  draws : Draws

/-- `Timeouts`, as far as `request_filter` chooses among them. -/
structure Timeouts where
  default : Duration
  sse : Duration
  upload : Duration
  deriving DecidableEq, Repr

/-- The fields of `Gateway` that a request is let in by. -/
structure Entry where
  door : Door
  timeouts : Timeouts
  /-- The upstreams that have a breaker. -/
  breakers : List Str
  /-- Whether there is a cache. -/
  has_cache : Bool
  deriving DecidableEq, Repr

/-- The gateway of an entry. -/
abbrev Entry.gateway (e : Entry) : Gateway := e.door.site.gateway

/-- `is_upload_content_type`. -/
def is_upload_content_type (content_type : Option Str) : Bool :=
  let v := to_ascii_lowercase (content_type.getD [])
  decide ("multipart/".toList <:+: v) || decide ("application/octet-stream".toList <:+: v)
    || starts_with v "image/".toList || starts_with v "application/pdf".toList
    || starts_with v "video/".toList || starts_with v "audio/".toList

/-- `ctx.timeout`. -/
def Timeouts.of_route (t : Timeouts) (route : RouteConfig) (headers : HeaderMap) : Duration :=
  if route.sse then t.sse
  else if is_upload_content_type (header_str headers "content-type".toList) then t.upload
  else t.default

/-- Who a request comes from, as far as it is known behind the verifier. -/
structure Caller where
  client_key_id : Option Str
  credential : Option Credential
  identity : Option Identity

/-- `identity.as_ref().map(|i| i.subject.as_str())`. -/
def Caller.subject (c : Caller) : Option Str := c.identity.map Identity.subject

/-- What `request_filter` leaves in `ctx` of a request that goes on. The route stands for the
fields that are copied from it. -/
structure Admitted where
  route : RouteConfig
  path : Str
  request_id : Str
  credential : Option Credential
  identity : Option Identity
  client_key_id : Option Str
  plan : HeaderPlan
  concurrency : Option PendingSlot
  upstream_path : Option Str
  timeout : Duration

/-- `ExtensionContext`. -/
structure ExtensionContext where
  path : Str
  method : Str
  query : Option Str
  route : RouteConfig
  identity : Option Identity
  client_headers : HeaderMap
  plan : HeaderPlan

/-! ## Questions -/

/-- What a request asks of what is outside the filter, and the answer. -/
inductive Consult where
  /-- The limiter of its route, under a key. -/
  | limit (key : Str) (decision : Decision)
  | verify (token : Str) (answer : Except AuthError Identity)
  | extensions (names : List Str) (answer : Except Rejection Chain)
  | cache (hit : Bool)
  | slot (slot : PendingSlot) (granted : Bool)
  /-- The seconds to wait where the circuit is open. -/
  | circuit (upstream : Str) (cooldown : Option ℕ)

/-- What answers. -/
structure Outside (σ : Type) where
  /-- `Limiter::decide`, of the limiter of a route. -/
  decide : RouteConfig → Str → σ → Decision × σ
  /-- `Verifier::verify`. -/
  verify : Str → σ → Except AuthError Identity × σ
  /-- `ExtensionRegistry::run_chain`, on a route with extensions. -/
  run_chain : ExtensionContext → σ → Except Rejection Chain × σ
  /-- Whether the cache has a response. -/
  hit : Admitted → HeaderMap → σ → Bool × σ
  /-- `InFlight::take`. -/
  take : PendingSlot → σ → Bool × σ
  /-- `CircuitBreaker::allow`, and the cooldown where it does not. -/
  allow : Str → σ → Option ℕ × σ

/-- How a request ends before it is answered by the cache or an upstream. -/
inductive Halt where
  | stopped (stop : Stop)
  | refused (refusal : Refusal)

/-- Where a request that is let in is answered. -/
inductive Source where
  | cache
  | upstream
  deriving DecidableEq, Repr

section Filter

variable {σ : Type} (e : Entry) (o : Outside σ)

/-! ## The stages after the route -/

/-- `Gateway::check_rate_limit`, where there is a limit. -/
def Entry.check_rate_limit (crates : Crates) (route : RouteConfig) (subject : Option Str)
    (a : Arrival) : Option RateLimitConfig → Asking σ Consult Refusal Unit
  | none => pure ()
  | some cfg =>
    match limit_key e.gateway crates a.request.headers (.of_limit cfg) route.id subject a.peer with
    | .error error => .fail (.limit_key error)
    | .ok none => pure ()
    | .ok (some key) => do
      let decision ← .ask (.limit key) (o.decide route key)
      if decision.allowed then pure () else .fail (.rate_limited (retry_after_secs decision))

/-- The limit of a route that needs no identity, -/
def first_limit (route : RouteConfig) : Option RateLimitConfig :=
  (limit_of route).filter (·.key ≠ .Identity)

/-- and the one that does. -/
def second_limit (route : RouteConfig) : Option RateLimitConfig :=
  (limit_of route).filter (·.key = .Identity)

/-- The answer of the verifier. -/
def verified (escape_debug : Char → Str) (answer : Except AuthError Identity) :
    Except Refusal (Option Identity) :=
  (answer.map some).mapError (.unverified escape_debug)

/-- The identity of a request, in `request_filter`, for the token it was found to have. -/
def verify_token (escape_debug : Char → Str) :
    Option (Str × Credential) → Asking σ Consult Refusal (Option Identity)
  | none => pure none
  | some (token, _) => do
    let answer ← .ask (.verify token) (o.verify token)
    .lift (verified escape_debug answer)

/-- The field that a binding reads: the only one of its name. -/
def only_field (headers : HeaderMap) (name : Str) : Option Str :=
  match headers.get_all name with
  | [value] => value.to_str
  | _ => none

/-- The bindings of a route, in `request_filter`. -/
def check_bindings (route : RouteConfig) (identity : Option Identity) (a : Arrival) :
    Except Refusal Unit :=
  if route.bindings.isEmpty then .ok ()
  else
    match identity with
    | none => .error .bind_without_identity
    | some id =>
      if route.bindings.all fun b => b.permits id a.query (only_field a.request.headers) then .ok ()
      else .error .binding_refused

/-- What the plan of a request is made from. Its extensions come later. -/
def Arrival.ctx (a : Arrival) (route : RouteConfig) (path : Str) (identity : Option Identity) :
    Ctx where
  draws := a.draws
  route := { route with extensions := [] }
  path := path
  no_extensions := rfl
  identity := identity
  request_id := (client_request_id a.request.headers).getD a.draws.uuid
  peer := a.peer
  target := []

/-- The header policy of `request_filter`. -/
def Entry.policy_plan (crates : Crates) (route : RouteConfig) (path : Str)
    (identity : Option Identity) (client_key_id : Option Str) (a : Arrival) :
    Except Refusal HeaderPlan := do
  let g := e.gateway
  let plan := g.undescribed_plan crates (a.ctx route path identity) a.request.headers
  let plan ← (describe crates.toCodecs a.draws.now plan g.cfg.raw.identity g.cfg.identity_secret
    identity).mapError .undescribed
  return g.client_key_headers client_key_id (g.strip_credentials a.request.headers plan)

/-- The extensions of a route, in `request_filter`. -/
def run_extensions (route : RouteConfig) (path : Str) (identity : Option Identity)
    (plan : HeaderPlan) (a : Arrival) : Asking σ Consult Refusal HeaderPlan :=
  if route.extensions.isEmpty then pure plan
  else do
    let answer ← .ask (.extensions route.extensions) (o.run_chain
      { path := path, method := a.request.method, query := a.query, route := route
        identity := identity, client_headers := a.request.headers, plan := plan })
    .lift ((answer.map fun chain => chain.run plan).mapError .extension)

/-- The slot that a request will need, in `request_filter`. -/
def Entry.key_slot (crates : Crates) (route : RouteConfig) (subject : Option Str) (a : Arrival) :
    Except Refusal (Option PendingSlot) :=
  match route.concurrency with
  | none => .ok none
  | some cap =>
    ((limit_key e.gateway crates a.request.headers (.of_cap cap) route.id subject a.peer).map
      fun key => key.map (pending_slot cap route.id)).mapError .limit_key

/-! ## The filter -/

variable (parse : Str → Option Url) (crates : Crates) (escape_debug : Char → Str)

/-- `request_filter`, from the first limit to the verifier. -/
def Entry.identify (route : RouteConfig) (path : Str) (a : Arrival) :
    Asking σ Consult Refusal Caller := do
  e.check_rate_limit o crates route none a (first_limit route)
  let client_key_id ← .lift (e.gateway.check_client_key crates route path a.request.headers)
  let token ← .lift (e.door.read_token parse route a.request)
  let identity ← verify_token o escape_debug token
  return ⟨client_key_id, token.map Prod.snd, identity⟩

/-- `request_filter`, from the second limit on. -/
def Entry.authorize (route : RouteConfig) (path : Str) (a : Arrival) (caller : Caller) :
    Asking σ Consult Refusal Admitted := do
  e.check_rate_limit o crates route caller.subject a (second_limit route)
  .lift (check_bindings route caller.identity a)
  let plan ← .lift (e.policy_plan crates route path caller.identity caller.client_key_id a)
  let plan ← run_extensions o route path caller.identity plan a
  let slot ← .lift (e.key_slot crates route caller.subject a)
  return {
    route := route
    path := path
    request_id := (client_request_id a.request.headers).getD a.draws.uuid
    credential := caller.credential
    identity := caller.identity
    client_key_id := caller.client_key_id
    plan := plan
    concurrency := slot
    upstream_path := if route.strip_prefix then some (route.upstream_path path) else none
    timeout := e.timeouts.of_route route a.request.headers }

/-- `request_filter`, behind the route. -/
def Entry.check_policy (route : RouteConfig) (path : Str) (a : Arrival) :
    Asking σ Consult Refusal Admitted := do
  let caller ← e.identify o parse crates escape_debug route path a
  e.authorize o crates route path a caller

/-- `Gateway::request_filter`. -/
def Entry.request_filter (table : RouteTable) (a : Arrival) : Asking σ Consult Halt Admitted := do
  let routed ← .lift ((e.door.site.route_request table a.request).mapError .stopped)
  (e.check_policy o parse crates escape_debug routed.1 routed.2 a).mapError .refused

/-- Whether `request_cache_filter` turns the cache on. -/
def Entry.uses_cache (ctx : Admitted) (req : Request) : Bool :=
  e.has_cache && ctx.route.cache && (req.method == "GET".toList || req.method == "HEAD".toList)
    && !ctx.route.sse && (req.headers.get_all COOKIE).isEmpty

/-- The slot of a request, in `proxy_upstream_filter`. -/
def take_pending (ctx : Admitted) : Asking σ Consult Refusal Unit :=
  match ctx.concurrency with
  | none => pure ()
  | some slot => do
    if ← .ask (.slot slot) (o.take slot) then pure ()
    else .fail (.concurrency_limited slot.per_caller)

/-- The circuit of its upstream, in `proxy_upstream_filter`. -/
def Entry.ask_circuit (ctx : Admitted) : Asking σ Consult Refusal Unit :=
  if ctx.route.upstream ∈ e.breakers then do
    match ← .ask (.circuit ctx.route.upstream) (o.allow ctx.route.upstream) with
    | none => pure ()
    | some cooldown => .fail (.circuit_open cooldown)
  else pure ()

/-- The lookup of a request that may be answered by the cache. -/
def Entry.look_up (ctx : Admitted) (a : Arrival) : Asking σ Consult Refusal Bool :=
  if e.uses_cache ctx a.request then .ask .cache (o.hit ctx a.request.headers) else pure false

/-- What Pingora does with a request that the filter lets through: a lookup, and
`proxy_upstream_filter` where that has nothing. -/
def Entry.proceed (ctx : Admitted) (a : Arrival) : Asking σ Consult Refusal Source := do
  let found ← e.look_up o ctx a
  if found then return .cache
  else do
    take_pending o ctx
    e.ask_circuit o ctx
    return .upstream

/-- A request, from where it arrives to where it is answered. -/
def Entry.receive (table : RouteTable) (a : Arrival) :
    Asking σ Consult Halt (Admitted × Source) := do
  let ctx ← e.request_filter o parse crates escape_debug table a
  let source ← (e.proceed o ctx a).mapError .refused
  return (ctx, source)

end Filter

end Lagos.Outbound
