/-
How a request finds its route, or is answered without one (`request_filter` in `proxy.rs`, up
to the first limit).

The stages are taken in the order of the code: the health path, the size, the reserved headers,
the path, the deny-list, the preflight, the route, its upstream, the machine credential. Each
goes on or stops the request (`Stop`), and what a stop is answered with is a function of the
stop and of the request's `Origin` (`Site.answer`).
-/
import Lagos.Cors
import Lagos.MachineTier

set_option autoImplicit false

open RustStd

namespace Lagos.Outbound

open Lagos.Config Lagos.CrossOrigin Lagos.Error Lagos.Headers Lagos.Path Lagos.Routes

/-! ## A listener and its requests -/

/-- The fields of `Gateway` and its configuration that a request is routed by. -/
structure Site where
  gateway : Gateway
  /-- The mounts, longest first. -/
  base_paths : List Str
  health_path : Str
  service_name : Str
  /-- `limits.max_body`. -/
  max_body : ℕ
  cors : Option Cors
  /-- The names of the upstreams. -/
  upstreams : List Str
  deriving DecidableEq, Repr

/-- A request as it arrives. -/
structure Request where
  method : Str
  path : Str
  headers : HeaderMap
  deriving DecidableEq, Repr

/-- Why a request goes no further. -/
inductive Stop where
  /-- The health check, with the number of routes. -/
  | health (routes : ℕ)
  | preflight (headers : CrossOrigin.Headers)
  | refused (rejection : Rejection)
  deriving DecidableEq, Repr

/-! ## The stages -/

/-- `Gateway::strip_base`. -/
def strip_base (base_paths : List Str) (request_path : Str) : Option Str :=
  let p := trim_start_matches '/' request_path
  base_paths.findSome? fun base =>
    if base.isEmpty then some p
    else
      match RustStd.strip_prefix p base with
      | some [] => some []
      | some ('/' :: rest) => some rest
      -- `/bff/v1x` is not under `/bff/v1`.
      | _ => none

/-- `content_length_over_limit`. -/
def content_length_over_limit (headers : HeaderMap) (max : ℕ) : Bool :=
  match header_str headers "content-length".toList with
  | none => false
  | some raw => (parse_u64 raw).elim true fun n => n > max

/-- Whether a request is seen to carry a reserved header. -/
def is_present (headers : HeaderMap) (name : Str) : Bool :=
  (header_str headers name).any fun v => !v.isEmpty

/-- The answer to a health check. -/
def Site.check_health (s : Site) (table : RouteTable) (req : Request) : Except Stop Unit :=
  if req.path = s.health_path then .error (.health table.routes.length) else .ok ()

def Site.check_size (s : Site) (req : Request) : Except Stop Unit :=
  if content_length_over_limit req.headers s.max_body then .error (.refused .payload_too_large)
  else .ok ()

/-- The rejection of a request that carries a header of the gateway's. -/
def credential_rejection (name : Str) : Rejection :=
  { Rejection.forbidden "Forbidden" s!"client_sent_{text name}" with
    event := "gateway.credential.rejected" }

/-- The headers that no client may send, on the public listener. -/
def Site.check_reserved (s : Site) (req : Request) : Except Stop Unit :=
  if s.gateway.serves_machine then .ok ()
  else
    match s.gateway.cfg.raw.reject.find? (is_present req.headers) with
    | some name => .error (.refused (credential_rejection name))
    | none => .ok ()

/-- A refusal to route. -/
def denied {α : Type} (reason : String) : Except Stop α :=
  .error (.refused (.not_found "gateway.route.denied" reason))

/-- The canonical path of a request, if it may be asked for. -/
def Site.locate (s : Site) (table : RouteTable) (req : Request) : Except Stop Str :=
  match strip_base s.base_paths req.path with
  | none => denied "outside_base_path"
  | some raw_sub =>
    match canonicalize_proxy_path raw_sub with
    | none => denied "unsafe_path"
    | some path => if table.is_denied path then denied "deny_list" else .ok path

/-- `Gateway::preflight_headers`. -/
def Site.preflight_headers (s : Site) (table : RouteTable) (req : Request) (path : Str) :
    Option CrossOrigin.Headers :=
  s.cors.bind fun cors =>
    (header_str req.headers "origin".toList).bind fun origin =>
      (header_str req.headers "access-control-request-method".toList).bind fun requested =>
        (table.match_request (header_str req.headers HOST) path requested).bind fun _ =>
          cors.preflight origin requested

/-- The answer to a preflight. -/
def Site.check_preflight (s : Site) (table : RouteTable) (req : Request) (path : Str) :
    Except Stop Unit :=
  if req.method = "OPTIONS".toList then
    match s.preflight_headers table req path with
    | some headers => .error (.preflight headers)
    | none => .ok ()
  else .ok ()

/-- The route of a request, and its upstream. -/
def Site.find_route (s : Site) (table : RouteTable) (req : Request) (path : Str) :
    Except Stop RouteConfig :=
  match table.match_request (header_str req.headers HOST) path req.method with
  | none => denied "not_allowlisted"
  | some route =>
    if route.upstream ∈ s.upstreams then .ok route
    else .error (.refused (.unavailable "Upstream not configured"
      s!"no_upstream_{text route.upstream}"))

/-- The credential of a machine caller, on a route of that tier. -/
def Site.check_machine (s : Site) (route : RouteConfig) (req : Request) : Except Stop Unit :=
  if route.auth = .Machine then (s.gateway.cfg.authenticate_machine req.headers).mapError .refused
  else .ok ()

/-- `Gateway::request_filter`, as far as the machine credential: the route of a request and its
canonical path. -/
def Site.route_request (s : Site) (table : RouteTable) (req : Request) :
    Except Stop (RouteConfig × Str) := do
  s.check_health table req
  s.check_size req
  s.check_reserved req
  let path ← s.locate table req
  s.check_preflight table req path
  let route ← s.find_route table req path
  s.check_machine route req
  return (route, path)

/-! ## The answers -/

/-- A response, as it is written. -/
structure Response where
  status : ℕ
  headers : HeaderMap
  body : List UInt8
  deriving DecidableEq, Repr

/-- A response with these headers, inserted one after the other. -/
def respond (crates : Crates) (status : ℕ) (headers : CrossOrigin.Headers) (body : List UInt8) :
    Except Rejection Response :=
  (MultiMap.insert_each (insertable crates) headers ⟨[]⟩).map fun headers => ⟨status, headers, body⟩

/-- The headers that say what a body is. -/
def body_headers (body : List UInt8) : CrossOrigin.Headers :=
  [("content-type".toList, "application/json".toList),
    ("content-length".toList, (toString body.length).toList)]

/-- `Gateway::send`. -/
def send (crates : Crates) (status : ℕ) (body : List UInt8) : Except Rejection Response :=
  respond crates status (body_headers body) body

/-- `Gateway::send_with_retry_after`. -/
def send_with_retry_after (crates : Crates) (status : ℕ) (body : List UInt8)
    (retry_after : Option ℕ) (cors : Option CrossOrigin.Headers) : Except Rejection Response :=
  respond crates status (body_headers body ++ cors.getD []
    ++ retry_after.toList.map fun secs => ("retry-after".toList, (toString secs).toList)) body

/-- `Gateway::send_preflight`. -/
def send_preflight (crates : Crates) (headers : CrossOrigin.Headers) : Except Rejection Response :=
  respond crates 204 (headers ++ [("content-length".toList, "0".toList)]) []

/-- `ctx.cors`: what every answer to an origin says about it. -/
def Site.cors_headers (s : Site) (req : Request) : Option CrossOrigin.Headers :=
  s.cors.bind fun cors => (header_str req.headers "origin".toList).bind cors.response

/-- What is written for a stop. No limit was reached, so there is no time to retry after. -/
def Site.attempt (s : Site) (crates : Crates) (req : Request) : Stop → Except Rejection Response
  | .health routes =>
    send crates 200 (crates.body_bytes [("routes", .number routes),
      ("service", .text (text s.service_name)), ("status", .text "ok")])
  | .preflight headers => send_preflight crates headers
  | .refused rejection =>
    send_with_retry_after crates rejection.status (crates.body_bytes rejection.body) none
      (s.cors_headers req)

/-- What the client is sent: where that cannot be written, what `fail_to_proxy` sends, if it can. -/
def Site.answer (s : Site) (crates : Crates) (req : Request) (stop : Stop) : Option Response :=
  match s.attempt crates req stop with
  | .ok response => some response
  | .error rejection => (send crates rejection.status (crates.body_bytes rejection.body)).toOption

end Lagos.Outbound
