/-
What a request must present to be taken for a machine.

The credential a request presents is a text, and it is empty where the request has none; the
secret is whatever the expanded configuration says. Nothing on the way from the configuration
to the comparison asks that the secret is not empty. So a listener lets a request without a
credential pass exactly if its secret is empty and nothing else is in the way
(`nothing_is_no_credential_iff`).

What comes after the check, the limits, the extensions, the header policy and the connection to
the backend, is a parameter: it may stop the request for any reason of its own.
-/
import Lagos.InternalListener
import Lagos.Interpolate

set_option autoImplicit false

open RustStd

namespace Lagos.Outbound

open Lagos.Config Lagos.Error Lagos.Headers Lagos.Interpolate Lagos.Routes

/-! ## Loading -/

/-- `GatewayConfig::parse_with`: the document is expanded, and what comes of it is parsed. -/
def GatewayConfig.parse_with (from_str : Str → Option GatewayConfig) (lookup : Str → Option Str)
    (text : Str) : Option GatewayConfig :=
  (interpolate lookup text).toOption.bind fun expanded => from_str expanded.text

/-! ## Proxying -/

/-- The stages after the machine credential: what is sent to the backend, or why nothing is. -/
abbrev Remaining := RouteConfig → Str → Request → Except Stop HeaderMap

/-- `Gateway::request_filter` and what follows it, as far as the backend. -/
def Site.proxy (s : Site) (rest : Remaining) (table : RouteTable) (req : Request) :
    Except Stop (RouteConfig × HeaderMap) := do
  let (route, path) ← s.route_request table req
  let sent ← rest route path req
  return (route, sent)

/-- Every stage but the credential lets a request pass, on this route. -/
def Site.Admits (s : Site) (rest : Remaining) (table : RouteTable) (req : Request)
    (route : RouteConfig) (sent : HeaderMap) : Prop :=
  ∃ path, (s.check_health table req = .ok () ∧ s.check_size req = .ok ()
      ∧ s.check_reserved req = .ok ())
    ∧ s.locate table req = .ok path ∧ s.check_preflight table req path = .ok ()
    ∧ s.find_route table req path = .ok route ∧ rest route path req = .ok sent

/-- A request has no non-empty value under any of these names. -/
def Blank (names : List Str) (headers : HeaderMap) : Prop :=
  ∀ name ∈ names, ∀ v ∈ headers.get_all (to_ascii_lowercase name), v.bytes = []

section Credential

variable {names : List Str} {headers : HeaderMap}

/-- What a blank request presents is empty. -/
theorem presented_of_blank (h : Blank names headers) : presented_credential names headers = [] := by
  unfold presented_credential
  cases hfound : names.findSome? (header headers) with
  | none => rfl
  | some v =>
    obtain ⟨name, hname, hv⟩ := List.exists_of_findSome?_eq_some hfound
    have hempty : v.bytes = [] := h name hname v (List.mem_of_head? hv)
    rw [Option.bind_some, HeaderValue.to_str, hempty]
    rfl

variable {crates : Crates} {l : InternalListener crates} {req : Request} {rest : Remaining}
  {route : RouteConfig} {sent : HeaderMap}

/-- The credential of a blank request is taken exactly if the secret is empty. -/
theorem check_machine_blank (h : Blank l.resolved.machine_headers req.headers)
    (hauth : route.auth = .Machine) :
    l.site.check_machine route req = .ok () ↔ l.resolved.machine_secret = some [] := by
  rw [check_machine_ok, authenticate_machine_ok, gateway_cfg, presented_of_blank h]
  exact ⟨fun hsecret => hsecret hauth, fun hsecret _ => hsecret⟩

theorem machine_secret_eq {cfg : GatewayConfig} {r : ResolvedConfig} (h : cfg.resolve crates = .ok r)
    (secret : Str) :
    r.machine_secret = some secret ↔ ∃ m, cfg.auth.machine = some m ∧ m.secret = secret := by
  rw [(resolved_of_resolve h).machine_secret, Option.map_eq_some_iff]

/-- A blank request is proxied if all else lets it pass and the secret is empty. -/
theorem proxy_blank_ok (h : Blank l.resolved.machine_headers req.headers) :
    l.site.proxy rest l.table req = .ok (route, sent)
      ↔ l.site.Admits rest l.table req route sent
        ∧ ∃ m, l.cfg.auth.machine = some m ∧ m.secret = [] := by
  rw [← machine_secret_eq l.resolve_eq]
  constructor
  · intro hok
    obtain ⟨⟨route', path⟩, hrouted, hok⟩ := bind_eq_ok.mp hok
    obtain ⟨sent', hrest, hok⟩ := bind_eq_ok.mp hok
    cases hok
    obtain ⟨hfirst, hpath, hpreflight, hroute, hmachine⟩ := route_request_ok.mp hrouted
    have hauth := (machine_of_mem (mem_of_match_request (find_route_ok hroute).1)).1
    exact ⟨⟨path, hfirst, hpath, hpreflight, hroute, hrest⟩,
      (check_machine_blank h hauth).mp hmachine⟩
  · rintro ⟨⟨path, hfirst, hpath, hpreflight, hroute, hrest⟩, hsecret⟩
    have hauth := (machine_of_mem (mem_of_match_request (find_route_ok hroute).1)).1
    have hmachine := (check_machine_blank h hauth).mpr hsecret
    refine bind_eq_ok.mpr ⟨(route, path), ?_, bind_eq_ok.mpr ⟨sent, hrest, rfl⟩⟩
    exact route_request_ok.mpr ⟨hfirst, hpath, hpreflight, hroute, hmachine⟩

/-- **Nothing is no credential exactly where the secret is something**: a request with no
non-empty value under any of the names is never proxied, unless the secret is empty and every
other stage lets it pass. -/
theorem nothing_is_no_credential_iff (h : Blank l.resolved.machine_headers req.headers) :
    (∀ route sent, l.site.proxy rest l.table req ≠ .ok (route, sent))
      ↔ (∀ m, l.cfg.auth.machine = some m → m.secret ≠ [])
        ∨ ∀ route sent, ¬ l.site.Admits rest l.table req route sent := by
  constructor
  · intro hnever
    by_cases hsecret : ∃ m, l.cfg.auth.machine = some m ∧ m.secret = []
    · right
      intro route sent hadmits
      exact hnever route sent ((proxy_blank_ok h).mpr ⟨hadmits, hsecret⟩)
    · exact .inl fun m hm hempty => hsecret ⟨m, hm, hempty⟩
  · intro hcond route sent hok
    obtain ⟨hadmits, m, hm, hempty⟩ := (proxy_blank_ok h).mp hok
    obtain hsecret | hnone := hcond
    · exact hsecret m hm hempty
    · exact hnone route sent hadmits

end Credential

/-! ## A secret that is not set -/

namespace OpenJob

/-- The secret is a variable, and empty without it. -/
def text : Str := "auth:\n  machine:\n    secret: \"${MACHINE_SECRET:-}\"\n".toList

/-- What the document says: a machine's secret that is empty. -/
def config : GatewayConfig where
  auth := { machine := some { secret := [] } }

/-- The parser, as far as documents like this one go. -/
def from_str (text : Str) : Option GatewayConfig :=
  if text = "auth:\n  machine:\n    secret: \"\"\n".toList then some config else none

def resolved : ResolvedConfig := { OneJob.resolved with raw := config, machine_secret := some [] }

/-- The listener of one job, with this secret. -/
def listener : InternalListener plain_crates where
  cfg := config
  resolved := resolved
  resolve_eq := by decide +kernel
  site := { OneJob.site with gateway := Gateway.of_listener resolved true }
  gateway_eq := rfl
  checked := OneJob.checked
  upstreams_eq := OneJob.upstreams_eq
  machine_eq := OneJob.machine_eq
  client_keys_eq := OneJob.client_keys_eq
  trusted_proxy_ips_eq := OneJob.trusted_proxy_ips_eq
  routes := OneJob.routes
  accepted := OneJob.accepted

/-- A request with no headers. -/
def request : Request where
  method := "GET".toList
  path := "/jobs/1".toList
  headers := ⟨[]⟩

/-- The context of a request on a route without extensions. -/
def cx (route : RouteConfig) (path : Str) (h : route.extensions = []) : Ctx where
  draws := ⟨"0b5c".toList, [], [], 0, fun _ => false⟩
  route := route
  path := path
  no_extensions := h
  identity := none
  request_id := "0b5c".toList
  peer := some "10.0.0.7".toList
  target := "jobs:3000".toList

/-- What is left to do on a route without limits and extensions: the header policy. -/
def rest (l : InternalListener plain_crates) : Remaining := fun route path req =>
  if h : route.extensions = [] then
    (l.site.gateway.forward plain_crates (cx route path h) req.headers).mapError .refused
  else denied "extension"

end OpenJob

open OpenJob in
/-- Where the secret is set, a request with no headers is not proxied. -/
theorem nothing_is_no_credential_set :
    ¬ ∃ route sent, OneJob.listener.site.proxy (rest OneJob.listener) OneJob.listener.table request
      = .ok (route, sent) := by
  rintro ⟨route, sent, hproxied⟩
  refine (@nothing_is_no_credential_iff _ OneJob.listener request _ ?_).mpr (.inl ?_) _ _ hproxied
  · exact fun _ _ _ hv => nomatch hv
  · rintro m ⟨⟩
    exact List.cons_ne_nil _ _

open OpenJob in
/-- Where it is a variable that is not set, it is. -/
theorem nothing_is_a_credential :
    ¬ ∀ (crates : Crates) (from_str : Str → Option GatewayConfig) (lookup : Str → Option Str)
      (text : Str) (l : InternalListener crates) (rest : Remaining) (req : Request),
      GatewayConfig.parse_with from_str lookup text = some l.cfg →
      Blank l.resolved.machine_headers req.headers →
      ∀ route sent, l.site.proxy rest l.table req ≠ .ok (route, sent) := by
  intro h
  have hnever := h plain_crates from_str (fun _ => none) text listener (rest listener) request
    (by decide +kernel) (fun _ _ _ hv => nomatch hv)
  have hproxied : (listener.site.proxy (rest listener) listener.table request).toOption.isSome
      = true := by decide +kernel
  cases hproxy : listener.site.proxy (rest listener) listener.table request with
  | error stop =>
    rw [hproxy] at hproxied
    cases hproxied
  | ok answer => exact hnever answer.1 answer.2 hproxy

end Lagos.Outbound
