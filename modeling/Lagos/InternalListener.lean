/-
The internal listener: what somebody without the machine credential learns of its routes.

`InternalListener` is the listener of a configuration that was accepted: its routes are the
machine tier's, each with a known upstream, and there is a secret to check. So a request without
the credential is stopped on every path (`stopped_without_credential`), and not found is all it
is told, with one exception: a preflight is answered before the credential is asked for, and it
is answered only on a path that has a route (`internal_not_enumerable_iff`).
-/
import Lagos.Refusals

set_option autoImplicit false

open RustStd

namespace Lagos.Outbound

open Lagos.Config Lagos.CrossOrigin Lagos.Error Lagos.Headers Lagos.Path Lagos.Routes

/-! ## The listener -/

/-- The internal listener of a configuration that was accepted with its routes. -/
structure InternalListener (crates : Crates) where
  cfg : GatewayConfig
  resolved : ResolvedConfig
  resolve_eq : cfg.resolve crates = .ok resolved
  site : Site
  gateway_eq : site.gateway = Gateway.of_listener resolved true
  /-- What the routes are checked against. -/
  checked : Config.ResolvedConfig
  upstreams_eq : checked.upstreams = site.upstreams
  machine_eq : checked.machine = cfg.auth.machine.isSome
  client_keys_eq : checked.client_keys = cfg.auth.client_keys.isSome
  trusted_proxy_ips_eq : checked.trusted_proxy_ips = resolved.trusted_proxy_ips
  routes : RouteTable
  accepted : checked.validate_table routes = .ok ()

/-- The table it serves. -/
def InternalListener.table {crates : Crates} (l : InternalListener crates) : RouteTable :=
  l.routes.partition_by_listener.2

/-- A request presents something else than the secret. -/
def InternalListener.Unauthenticated {crates : Crates} (l : InternalListener crates)
    (headers : HeaderMap) : Prop :=
  l.resolved.machine_secret ≠ some (presented_credential l.resolved.machine_headers headers)

instance {crates : Crates} (l : InternalListener crates) (headers : HeaderMap) :
    Decidable (l.Unauthenticated headers) := inferInstanceAs (Decidable (_ ≠ _))

/-- A preflight for a route of the table. -/
def Site.Preflights (s : Site) (table : RouteTable) (req : Request) : Prop :=
  req.method = "OPTIONS".toList ∧ ∃ path headers, s.locate table req = .ok path
    ∧ s.preflight_headers table req path = some headers

/-- The gateway answers a request itself, with this. -/
def Site.Replies (s : Site) (crates : Crates) (table : RouteTable) (req : Request)
    (response : Option Response) : Prop :=
  ∃ stop, s.route_request table req = .error stop ∧ s.answer crates req stop = response

/-- The answer of a request cannot be written: some header of it is no header. -/
def Site.Unwritable (s : Site) (crates : Crates) (table : RouteTable) (req : Request) : Prop :=
  ∃ stop rejection, s.route_request table req = .error stop
    ∧ s.attempt crates req stop = .error rejection

/-- Two requests that differ in path, method and the method a preflight asks for. -/
def SameButTarget (req req' : Request) : Prop :=
  ∀ n, n ≠ "access-control-request-method".toList → req.headers.get_all n = req'.headers.get_all n

/-! ## Routes of the table -/

theorem mem_of_match_request {table : RouteTable} {host : Option Str} {path method : Str}
    {route : RouteConfig} (h : table.match_request host path method = some route) :
    route ∈ table.routes := by
  rw [match_request_eq_find?] at h
  exact List.mem_of_find?_eq_some h

section Listener

variable {crates : Crates} {l : InternalListener crates} {req req' : Request} {stop : Stop}

/-- Every route of the listener is a machine's, and has an upstream and a secret. -/
theorem machine_of_mem {route : RouteConfig} (h : route ∈ l.table.routes) :
    route.auth = .Machine ∧ route.upstream ∈ l.site.upstreams
      ∧ ∃ m, l.cfg.auth.machine = some m ∧ l.resolved.machine_secret = some m.secret := by
  obtain ⟨hmem, hauth⟩ := List.mem_filter.mp h
  have hauth : route.auth = .Machine := of_decide_eq_true hauth
  have hsound := (validate_table_ok.mp l.accepted).2.sound route hmem
  refine ⟨hauth, l.upstreams_eq ▸ hsound.upstream_defined, ?_⟩
  have hmachine := (hsound.machine_reachable (by rw [hauth]; rfl)).1
  rw [l.machine_eq, Option.isSome_iff_exists] at hmachine
  obtain ⟨m, hm⟩ := hmachine
  exact ⟨m, hm, by rw [(resolved_of_resolve l.resolve_eq).machine_secret, hm]; rfl⟩

theorem serves_machine : l.site.gateway.serves_machine = true := by
  rw [l.gateway_eq, Gateway.of_listener_serves]

theorem gateway_cfg : l.site.gateway.cfg = l.resolved := by
  rw [l.gateway_eq, Gateway.of_listener_cfg]

/-- Without the credential no request gets as far as a route. -/
theorem stopped_without_credential (h : l.Unauthenticated req.headers) :
    ∃ stop, l.site.route_request l.table req = .error stop := by
  cases hrouted : l.site.route_request l.table req with
  | error stop => exact ⟨stop, rfl⟩
  | ok routed =>
    obtain ⟨route, path⟩ := routed
    obtain ⟨-, -, -, hroute, hmachine⟩ := route_request_ok.mp hrouted
    have hauth := (machine_of_mem (mem_of_match_request (find_route_ok hroute).1)).1
    have hsecret := authenticate_machine_ok.mp (check_machine_ok.mp hmachine hauth)
    rw [gateway_cfg] at hsecret
    exact absurd hsecret h

/-- What it is told: that nothing was found, if it is no preflight. -/
theorem told_without_credential (hhealth : req.path ≠ l.site.health_path)
    (hsize : content_length_over_limit req.headers l.site.max_body = false)
    (h : l.site.Stops l.table req stop) :
    (∃ headers, stop = .preflight headers ∧ l.site.Preflights l.table req)
      ∨ ∃ rejection, stop = .refused rejection ∧ rejection.status = 404
        ∧ rejection.body = envelope 404 "Not Found" "Not Found" := by
  cases h with
  | health h => exact absurd h hhealth
  | size h => exact absurd (hsize.symm.trans h) (by decide)
  | reserved hs => exact absurd (hs.symm.trans serves_machine) (by decide)
  | unlocated => exact .inr ⟨_, rfl, rfl, rfl⟩
  | preflight hpath hmethod hheaders =>
    exact .inl ⟨_, rfl, hmethod, _, _, hpath, hheaders⟩
  | unlisted => exact .inr ⟨_, rfl, rfl, rfl⟩
  | unknown _ hmatch hupstream =>
    exact absurd (machine_of_mem (mem_of_match_request hmatch)).2.1 hupstream
  | machine _ hmatch _ hrejected =>
    obtain ⟨m, -, hsecret⟩ := (machine_of_mem (mem_of_match_request hmatch)).2.2
    obtain ⟨hnone, -⟩ | rfl := authenticate_machine_error hrejected
    · rw [gateway_cfg, hsecret] at hnone
      cases hnone
    · exact .inr ⟨_, rfl, rfl, rfl⟩

/-- A preflight is answered as one. -/
theorem route_request_preflight (hhealth : req.path ≠ l.site.health_path)
    (hsize : content_length_over_limit req.headers l.site.max_body = false)
    (h : l.site.Preflights l.table req) :
    ∃ headers, l.site.route_request l.table req = .error (.preflight headers) := by
  obtain ⟨hmethod, path, headers, hpath, hheaders⟩ := h
  have hpassed : l.site.check_health l.table req = .ok () := if_neg hhealth
  have hfits : l.site.check_size req = .ok () := if_neg (by rw [hsize]; exact Bool.false_ne_true)
  have hreserved : l.site.check_reserved req = .ok () := if_pos serves_machine
  have hpreflight : l.site.check_preflight l.table req path = .error (.preflight headers) := by
    rw [Site.check_preflight, if_pos hmethod, hheaders]
  refine ⟨headers, ?_⟩
  rw [Site.route_request, hpassed, hfits, hreserved]
  refine bind_eq_error.mpr (.inr ⟨(), rfl, bind_eq_error.mpr (.inr ⟨(), rfl, ?_⟩)⟩)
  refine bind_eq_error.mpr (.inr ⟨(), rfl, bind_eq_error.mpr (.inr ⟨path, hpath, ?_⟩)⟩)
  exact bind_eq_error.mpr (.inl hpreflight)

/-- So without the credential there are two ways to be stopped, told apart by the request. -/
theorem two_stops (hhealth : req.path ≠ l.site.health_path)
    (hsize : content_length_over_limit req.headers l.site.max_body = false)
    (h : l.Unauthenticated req.headers) :
    ∃ stop, l.site.route_request l.table req = .error stop
      ∧ ((l.site.Preflights l.table req ∧ ∃ headers, stop = .preflight headers)
        ∨ (¬ l.site.Preflights l.table req ∧ ∃ rejection, stop = .refused rejection
          ∧ rejection.status = 404 ∧ rejection.body = envelope 404 "Not Found" "Not Found")) := by
  obtain ⟨stop, hstop⟩ := stopped_without_credential h
  refine ⟨stop, hstop, ?_⟩
  obtain ⟨headers, rfl, hpreflights⟩ | ⟨rejection, rfl, hnot_found⟩ :=
    told_without_credential hhealth hsize (stops_of_error hstop)
  · exact .inl ⟨hpreflights, headers, rfl⟩
  · refine .inr ⟨fun hpreflights => ?_, rejection, rfl, hnot_found⟩
    obtain ⟨headers, hheaders⟩ := route_request_preflight hhealth hsize hpreflights
    cases hstop.symm.trans hheaders

end Listener

/-! ## What is written -/

section Written

variable {crates : Crates} {s : Site} {req req' : Request}

theorem respond_ok {status : ℕ} {headers : CrossOrigin.Headers} {body : List UInt8}
    {response : Response} (h : respond crates status headers body = .ok response) :
    response.status = status := by
  unfold respond at h
  cases hinsert : MultiMap.insert_each (insertable crates) headers ⟨[]⟩ with
  | error e =>
    rw [hinsert] at h
    cases h
  | ok m =>
    rw [hinsert] at h
    cases h
    rfl

/-- What cannot be written fails for one reason. -/
theorem respond_error {status : ℕ} {headers : CrossOrigin.Headers} {body : List UInt8}
    {rejection : Rejection} (h : respond crates status headers body = .error rejection) :
    rejection = .upstream_failed "InvalidHTTPHeader" := by
  have hinsertable : ∀ n v e, insertable crates n v = .error e →
      e = .upstream_failed "InvalidHTTPHeader" := by
    intro n v e he
    unfold insertable at he
    split at he
    · cases he
      rfl
    · split at he
      · cases he
      · cases he
        rfl
  have hinsert : ∀ (headers : CrossOrigin.Headers) (m : HeaderMap) (e : Rejection),
      MultiMap.insert_each (insertable crates) headers m = .error e →
        e = .upstream_failed "InvalidHTTPHeader" := by
    intro headers
    induction headers with
    | nil => exact fun _ _ h => nomatch h
    | cons p headers ih =>
      intro m e h
      rw [MultiMap.insert_each] at h
      split at h
      · rename_i e' he
        cases h
        exact hinsertable _ _ _ he
      · exact ih _ _ h
  unfold respond at h
  cases hm : MultiMap.insert_each (insertable crates) headers ⟨[]⟩ with
  | error e =>
    rw [hm] at h
    cases h
    exact hinsert _ _ _ hm
  | ok m =>
    rw [hm] at h
    cases h

/-- The status of an answer that is no health check's: the one that was meant, or 502. -/
theorem attempt_error {stop : Stop} {rejection : Rejection}
    (h : s.attempt crates req stop = .error rejection) :
    rejection = .upstream_failed "InvalidHTTPHeader" := by
  cases stop with
  | health => exact respond_error h
  | preflight => exact respond_error h
  | refused => exact respond_error h

/-- A preflight and a refusal have different answers, unless neither can be written. -/
theorem answers_differ {headers : CrossOrigin.Headers} {rejection : Rejection}
    (hstatus : rejection.status = 404) :
    s.answer crates req (.preflight headers) = s.answer crates req' (.refused rejection)
      ↔ (∃ e, s.attempt crates req (.preflight headers) = .error e)
        ∧ ∃ e, s.attempt crates req' (.refused rejection) = .error e := by
  have hfailed : ∀ response, (send crates (Rejection.upstream_failed "InvalidHTTPHeader").status
      (crates.body_bytes (Rejection.upstream_failed "InvalidHTTPHeader").body)).toOption
        = some response → response.status = 502 := by
    intro response h
    cases hsend : send crates (Rejection.upstream_failed "InvalidHTTPHeader").status
        (crates.body_bytes (Rejection.upstream_failed "InvalidHTTPHeader").body) with
    | error e =>
      rw [hsend] at h
      cases h
    | ok sent =>
      rw [hsend] at h
      cases h
      exact respond_ok hsend
  rw [Site.answer, Site.answer]
  cases hpreflight : s.attempt crates req (.preflight headers) with
  | error e =>
    obtain rfl := attempt_error hpreflight
    cases hrefused : s.attempt crates req' (.refused rejection) with
    | error e' =>
      obtain rfl := attempt_error hrefused
      exact iff_of_true rfl ⟨⟨_, rfl⟩, _, rfl⟩
    | ok response =>
      refine iff_of_false (fun h => ?_) (by simp)
      have h502 := hfailed response h
      have h404 := @respond_ok _ rejection.status _ _ _ hrefused
      omega
  | ok response =>
    refine iff_of_false (fun h => ?_) (by simp)
    have h204 : response.status = 204 := respond_ok hpreflight
    cases hrefused : s.attempt crates req' (.refused rejection) with
    | error e' =>
      rw [hrefused] at h
      obtain rfl := attempt_error hrefused
      have h502 := hfailed response h.symm
      omega
    | ok response' =>
      rw [hrefused] at h
      cases h
      have h404 := @respond_ok _ rejection.status _ _ _ hrefused
      omega

end Written

/-! ## Two requests -/

section Pair

variable {crates : Crates} {l : InternalListener crates} {req req' : Request}

/-- Preflights of one origin that are answered are answered alike. -/
theorem preflight_headers_congr {s : Site} {table : RouteTable} {path path' : Str}
    {headers headers' : CrossOrigin.Headers}
    (horigin : header_str req.headers "origin".toList = header_str req'.headers "origin".toList)
    (h : s.preflight_headers table req path = some headers)
    (h' : s.preflight_headers table req' path' = some headers') : headers = headers' := by
  unfold Site.preflight_headers at h h'
  obtain ⟨cors, hcors, h⟩ := Option.bind_eq_some_iff.mp h
  obtain ⟨origin, hread, h⟩ := Option.bind_eq_some_iff.mp h
  obtain ⟨requested, -, h⟩ := Option.bind_eq_some_iff.mp h
  obtain ⟨-, -, h⟩ := Option.bind_eq_some_iff.mp h
  obtain ⟨cors', hcors', h'⟩ := Option.bind_eq_some_iff.mp h'
  obtain ⟨origin', hread', h'⟩ := Option.bind_eq_some_iff.mp h'
  obtain ⟨requested', -, h'⟩ := Option.bind_eq_some_iff.mp h'
  obtain ⟨-, -, h'⟩ := Option.bind_eq_some_iff.mp h'
  rw [hcors] at hcors'
  rw [horigin, hread'] at hread
  cases hcors'
  cases hread
  exact preflight_congr h h'

/-- **The internal listener tells the routes it has by its preflights only.** -/
theorem internal_not_enumerable_iff (hsame : SameButTarget req req')
    (hhealth : req.path ≠ l.site.health_path) (hhealth' : req'.path ≠ l.site.health_path)
    (hsize : content_length_over_limit req.headers l.site.max_body = false)
    (h : l.Unauthenticated req.headers) (h' : l.Unauthenticated req'.headers) :
    (∃ response, l.site.Replies crates l.table req response
        ∧ l.site.Replies crates l.table req' response)
      ↔ (l.site.Preflights l.table req ↔ l.site.Preflights l.table req')
        ∨ (l.site.Unwritable crates l.table req ∧ l.site.Unwritable crates l.table req') := by
  have hread : ∀ name, to_ascii_lowercase name ≠ "access-control-request-method".toList →
      header_str req.headers name = header_str req'.headers name :=
    fun name hname => header_str_congr (hsame _ hname)
  have hsize' : content_length_over_limit req'.headers l.site.max_body = false := by
    rwa [content_length_over_limit, ← hread _ (by decide)]
  have horigin := hread "origin".toList (by decide)
  have hcors : l.site.cors_headers req = l.site.cors_headers req' := by
    rw [Site.cors_headers, Site.cors_headers, horigin]
  obtain ⟨stop, hstop, hkind⟩ := two_stops hhealth hsize h
  obtain ⟨stop', hstop', hkind'⟩ := two_stops hhealth' hsize' h'
  have hreplies : (∃ response, l.site.Replies crates l.table req response
        ∧ l.site.Replies crates l.table req' response)
      ↔ l.site.answer crates req stop = l.site.answer crates req' stop' := by
    constructor
    · rintro ⟨response, ⟨s, hs, hanswer⟩, s', hs', hanswer'⟩
      cases hs.symm.trans hstop
      cases hs'.symm.trans hstop'
      rw [hanswer, hanswer']
    · exact fun hanswer => ⟨_, ⟨stop, hstop, rfl⟩, stop', hstop', hanswer.symm⟩
  have hunwritable : ∀ {r : Request} {s : Stop}, l.site.route_request l.table r = .error s →
      (l.site.Unwritable crates l.table r ↔ ∃ e, l.site.attempt crates r s = .error e) := by
    intro r s hs
    constructor
    · rintro ⟨s', e, hs', he⟩
      cases hs.symm.trans hs'
      exact ⟨e, he⟩
    · exact fun ⟨e, he⟩ => ⟨s, e, hs, he⟩
  rw [hreplies, hunwritable hstop, hunwritable hstop']
  -- Each of the two is answered as a preflight, or not found.
  obtain ⟨hpre, headers, rfl⟩ | ⟨hpre, rejection, rfl, hstatus, hbody⟩ := hkind
  · obtain ⟨hpre', headers', rfl⟩ | ⟨hpre', rejection', rfl, hstatus', -⟩ := hkind'
    · refine iff_of_true ?_ (.inl (iff_of_true hpre hpre'))
      cases stops_of_error hstop with
      | preflight _ _ hheaders =>
        cases stops_of_error hstop' with
        | preflight _ _ hheaders' =>
          rw [preflight_headers_congr horigin hheaders hheaders']
          rfl
    · rw [answers_differ hstatus']
      exact ⟨.inr, fun h => h.resolve_left fun hiff => hpre' (hiff.mp hpre)⟩
  · obtain ⟨hpre', headers', rfl⟩ | ⟨hpre', rejection', rfl, hstatus', hbody'⟩ := hkind'
    · rw [eq_comm, answers_differ hstatus, and_comm]
      exact ⟨.inr, fun h => h.resolve_left fun hiff => hpre (hiff.mpr hpre')⟩
    · exact iff_of_true (answer_congr hcors (hstatus.trans hstatus'.symm) (hbody.trans hbody'.symm))
        (.inl (iff_of_false hpre hpre'))

end Pair

/-! ## A listener with one route -/

namespace OneJob

/-- The secret is `s3cret`, in the headers that come without saying. -/
def config : GatewayConfig where
  auth := { machine := some { secret := "s3cret".toList } }

def resolved : ResolvedConfig where
  raw := config
  trusted_proxy_ips := []
  injected_headers := []
  machine_injected_headers := []
  identity_secret := none
  machine_secret := some "s3cret".toList
  client_key_header := none
  client_key_forward_as := none
  client_keys := []
  client_key_exempt := []
  client_key_exempt_groups := []

/-- Any origin may ask what it may do. -/
def site : Site where
  gateway := Gateway.of_listener resolved true
  base_paths := [[]]
  health_path := "/health".toList
  service_name := "gateway".toList
  max_body := 1048576
  cors := (Cors.compile { origins := ["*".toList] }).toOption
  upstreams := ["jobs".toList]

def checked : Config.ResolvedConfig where
  upstreams := ["jobs".toList]
  trusted_proxy_ips := []
  shared_limits := false
  shared_counters := none
  cache := false
  client_keys := false
  machine := true
  internal_listen := some "10.0.0.1:9000".toList

/-- One route, `jobs`, of the machine tier. -/
def routes : RouteTable :=
  RouteTable.build_with 0
    { internal := [], optional := [], authenticated := [], «public» := []
      machine := [RouteConfig.of_input { path_prefix := "jobs".toList, upstream := "jobs".toList }] }
    { rate_limit := none, retry := none, methods := none } false

theorem upstreams_eq : checked.upstreams = site.upstreams := rfl

theorem machine_eq : checked.machine = config.auth.machine.isSome := rfl

theorem client_keys_eq : checked.client_keys = config.auth.client_keys.isSome := rfl

theorem trusted_proxy_ips_eq : checked.trusted_proxy_ips = resolved.trusted_proxy_ips := rfl

theorem accepted : checked.validate_table routes = .ok () := by decide +kernel

def listener : InternalListener plain_crates where
  cfg := config
  resolved := resolved
  resolve_eq := by decide +kernel
  site := site
  gateway_eq := rfl
  checked := checked
  upstreams_eq := upstreams_eq
  machine_eq := machine_eq
  client_keys_eq := client_keys_eq
  trusted_proxy_ips_eq := trusted_proxy_ips_eq
  routes := routes
  accepted := accepted

def origin : HeaderValue := HiddenPaths.origin

/-- `GET`. -/
def get : HeaderValue := ⟨[0x47, 0x45, 0x54], rfl⟩

/-- What a page asks before it would fetch a path. -/
def ask (method path : String) : Request where
  method := method.toList
  path := path.toList
  headers := of_fields [("Origin".toList, origin), ("Access-Control-Request-Method".toList, get)]

end OneJob

open OneJob in
/-- A page that fetches learns nothing. -/
theorem internal_not_enumerable_get :
    ∃ response, listener.site.Replies plain_crates listener.table (ask "GET" "/jobs/1") response
      ∧ listener.site.Replies plain_crates listener.table (ask "GET" "/nothing") response := by
  have hget : ∀ path, ¬ listener.site.Preflights listener.table (ask "GET" path) :=
    fun _ h => absurd h.1 (show ¬ "GET".toList = "OPTIONS".toList by decide)
  refine (@internal_not_enumerable_iff _ listener (ask "GET" "/jobs/1") (ask "GET" "/nothing")
    (fun _ _ => rfl) ?_ ?_ ?_ ?_ ?_).mpr (.inl (iff_of_false (hget _) (hget _)))
  · decide +kernel
  · decide +kernel
  · decide +kernel
  · decide +kernel
  · decide +kernel

open OneJob in
/-- One that asks first learns of the route. -/
theorem preflight_tells_routes :
    ¬ ∀ (crates : Crates) (l : InternalListener crates) (req req' : Request),
      SameButTarget req req' → req.path ≠ l.site.health_path → req'.path ≠ l.site.health_path →
      content_length_over_limit req.headers l.site.max_body = false →
      l.Unauthenticated req.headers → l.Unauthenticated req'.headers →
      ∃ response, l.site.Replies crates l.table req response
        ∧ l.site.Replies crates l.table req' response := by
  intro h
  obtain ⟨response, ⟨stop, hstop, hanswer⟩, stop', hstop', hanswer'⟩ :=
    h plain_crates listener (ask "OPTIONS" "/jobs/1") (ask "OPTIONS" "/nothing") (fun _ _ => rfl)
      (by decide +kernel) (by decide +kernel) (by decide +kernel) (by decide +kernel)
      (by decide +kernel)
  have hfound : ∃ headers, listener.site.route_request listener.table (ask "OPTIONS" "/jobs/1")
      = .error (.preflight headers) := by
    refine ⟨[("access-control-allow-origin".toList, "*".toList),
      ("access-control-allow-methods".toList, "GET, HEAD, POST, PUT, PATCH, DELETE".toList),
      ("access-control-max-age".toList, "600".toList),
      ("access-control-allow-headers".toList, "content-type, authorization".toList)], ?_⟩
    decide +kernel
  have hunknown : listener.site.route_request listener.table (ask "OPTIONS" "/nothing")
      = .error (.refused (.not_found "gateway.route.denied" "not_allowlisted")) := by
    decide +kernel
  obtain ⟨headers, hfound⟩ := hfound
  cases hstop.symm.trans hfound
  cases hstop'.symm.trans hunknown
  have hdiffer := (@answers_differ plain_crates listener.site (ask "OPTIONS" "/jobs/1")
    (ask "OPTIONS" "/nothing") headers (.not_found "gateway.route.denied" "not_allowlisted")
    rfl).mp (hanswer.trans hanswer'.symm)
  have hwritten : (listener.site.attempt plain_crates (ask "OPTIONS" "/nothing")
      (.refused (.not_found "gateway.route.denied" "not_allowlisted"))).toOption.isSome = true := by
    decide +kernel
  obtain ⟨-, e, he⟩ := hdiffer
  rw [he] at hwritten
  cases hwritten

end Lagos.Outbound
