/-
What stops a request, and what a client learns from the answer.

`Site.Stops` lists the ways a request can be stopped, each with what has to be so for it; every
stop of `route_request` is one of them (`stops_of_error`). From the outside most of them are
the same: the four reasons not to route a request on the public listener have one answer
(`refusals_indistinguishable`), and on the internal listener so does every request without the
credential, unless it is a preflight that is answered (`internal_not_enumerable_iff`).

The check of reserved headers looks at one field of each name, and at that only if it is text,
so what it refuses is less than what is reserved (`reserved_refused_iff`).
-/
import Lagos.RequestFilter

set_option autoImplicit false

open RustStd

namespace Lagos.Outbound

open Lagos.Config Lagos.CrossOrigin Lagos.Error Lagos.Headers Lagos.Path Lagos.Routes

/-! ## What stops a request -/

/-- The ways a request is stopped. -/
inductive Site.Stops (s : Site) (table : RouteTable) (req : Request) : Stop → Prop where
  | health (h : req.path = s.health_path) : Stops s table req (.health table.routes.length)
  | size (h : content_length_over_limit req.headers s.max_body = true) :
      Stops s table req (.refused .payload_too_large)
  | reserved {name : Str} (hs : s.gateway.serves_machine = false)
      (h : s.gateway.cfg.raw.reject.find? (is_present req.headers) = some name) :
      Stops s table req (.refused (credential_rejection name))
  | unlocated {reason : String} (hreason : reason ∈ ["outside_base_path", "unsafe_path", "deny_list"])
      (h : s.locate table req = denied reason) :
      Stops s table req (.refused (.not_found "gateway.route.denied" reason))
  | preflight {path : Str} {headers : CrossOrigin.Headers} (hpath : s.locate table req = .ok path)
      (hmethod : req.method = "OPTIONS".toList)
      (h : s.preflight_headers table req path = some headers) : Stops s table req (.preflight headers)
  | unlisted {path : Str} (hpath : s.locate table req = .ok path)
      (h : table.match_request (header_str req.headers HOST) path req.method = none) :
      Stops s table req (.refused (.not_found "gateway.route.denied" "not_allowlisted"))
  | unknown {path : Str} {route : RouteConfig} (hpath : s.locate table req = .ok path)
      (h : table.match_request (header_str req.headers HOST) path req.method = some route)
      (hupstream : route.upstream ∉ s.upstreams) :
      Stops s table req (.refused (.unavailable "Upstream not configured"
        s!"no_upstream_{text route.upstream}"))
  | machine {path : Str} {route : RouteConfig} {rejection : Rejection}
      (hpath : s.locate table req = .ok path)
      (h : table.match_request (header_str req.headers HOST) path req.method = some route)
      (hauth : route.auth = .Machine)
      (hrejected : s.gateway.cfg.authenticate_machine req.headers = .error rejection) :
      Stops s table req (.refused rejection)

section Stages

variable {s : Site} {table : RouteTable} {req : Request} {stop : Stop} {path : Str}

theorem stops_of_locate (h : s.locate table req = .error stop) : s.Stops table req stop := by
  have hlocated := h
  unfold Site.locate at h
  split at h
  · cases h
    exact .unlocated (by decide) hlocated
  · split at h
    · cases h
      exact .unlocated (by decide) hlocated
    · split at h
      · cases h
        exact .unlocated (by decide) hlocated
      · cases h

theorem stops_of_find_route (hpath : s.locate table req = .ok path)
    (h : s.find_route table req path = .error stop) : s.Stops table req stop := by
  unfold Site.find_route at h
  split at h
  · rename_i hmatch
    cases h
    exact .unlisted hpath hmatch
  · rename_i route hmatch
    split at h
    · cases h
    · rename_i hupstream
      cases h
      exact .unknown hpath hmatch hupstream

theorem find_route_ok {route : RouteConfig} (h : s.find_route table req path = .ok route) :
    table.match_request (header_str req.headers HOST) path req.method = some route
      ∧ route.upstream ∈ s.upstreams := by
  unfold Site.find_route at h
  split at h
  · cases h
  · rename_i hmatch
    split at h
    · rename_i hupstream
      cases h
      exact ⟨hmatch, hupstream⟩
    · cases h

/-- The machine credential is asked for on its tier and nowhere else. -/
theorem check_machine_eq (route : RouteConfig) :
    s.check_machine route req = if route.auth = .Machine then
      (s.gateway.cfg.authenticate_machine req.headers).mapError .refused else .ok () := rfl

theorem check_machine_ok {route : RouteConfig} :
    s.check_machine route req = .ok ()
      ↔ (route.auth = .Machine → s.gateway.cfg.authenticate_machine req.headers = .ok ()) := by
  rw [check_machine_eq]
  split
  · rename_i hauth
    cases s.gateway.cfg.authenticate_machine req.headers with
    | error e => exact iff_of_false nofun fun h => nomatch h hauth
    | ok u => exact iff_of_true rfl fun _ => rfl
  · rename_i hauth
    exact iff_of_true rfl fun h => absurd h hauth

/-- What a request that goes on has passed. -/
theorem route_request_ok {route : RouteConfig} :
    s.route_request table req = .ok (route, path) ↔
      (s.check_health table req = .ok () ∧ s.check_size req = .ok () ∧ s.check_reserved req = .ok ())
        ∧ s.locate table req = .ok path ∧ s.check_preflight table req path = .ok ()
        ∧ s.find_route table req path = .ok route ∧ s.check_machine route req = .ok () := by
  unfold Site.route_request
  constructor
  · intro h
    obtain ⟨⟨⟩, hhealth, h⟩ := bind_eq_ok.mp h
    obtain ⟨⟨⟩, hsize, h⟩ := bind_eq_ok.mp h
    obtain ⟨⟨⟩, hreserved, h⟩ := bind_eq_ok.mp h
    obtain ⟨path', hpath, h⟩ := bind_eq_ok.mp h
    obtain ⟨⟨⟩, hpreflight, h⟩ := bind_eq_ok.mp h
    obtain ⟨route', hroute, h⟩ := bind_eq_ok.mp h
    obtain ⟨⟨⟩, hmachine, h⟩ := bind_eq_ok.mp h
    cases h
    exact ⟨⟨hhealth, hsize, hreserved⟩, hpath, hpreflight, hroute, hmachine⟩
  · rintro ⟨⟨hhealth, hsize, hreserved⟩, hpath, hpreflight, hroute, hmachine⟩
    rw [hhealth, hsize, hreserved]
    refine bind_eq_ok.mpr ⟨(), rfl, bind_eq_ok.mpr ⟨(), rfl, bind_eq_ok.mpr ⟨(), rfl, ?_⟩⟩⟩
    refine bind_eq_ok.mpr ⟨path, hpath, bind_eq_ok.mpr ⟨(), hpreflight, ?_⟩⟩
    exact bind_eq_ok.mpr ⟨route, hroute, bind_eq_ok.mpr ⟨(), hmachine, rfl⟩⟩

/-- **Every stop is one of them.** -/
theorem stops_of_error (h : s.route_request table req = .error stop) : s.Stops table req stop := by
  unfold Site.route_request at h
  obtain h | ⟨⟨⟩, -, h⟩ := bind_eq_error.mp h
  · unfold Site.check_health at h
    split at h
    · rename_i hpath
      cases h
      exact .health hpath
    · cases h
  obtain h | ⟨⟨⟩, -, h⟩ := bind_eq_error.mp h
  · unfold Site.check_size at h
    split at h
    · rename_i hover
      cases h
      exact .size hover
    · cases h
  obtain h | ⟨⟨⟩, -, h⟩ := bind_eq_error.mp h
  · unfold Site.check_reserved at h
    split at h
    · cases h
    · rename_i hs
      split at h
      · rename_i name hname
        cases h
        exact .reserved (by simpa using hs) hname
      · cases h
  obtain h | ⟨path, hpath, h⟩ := bind_eq_error.mp h
  · exact stops_of_locate h
  obtain h | ⟨⟨⟩, -, h⟩ := bind_eq_error.mp h
  · unfold Site.check_preflight at h
    split at h
    · rename_i hmethod
      split at h
      · rename_i headers hheaders
        cases h
        exact .preflight hpath hmethod hheaders
      · cases h
    · cases h
  obtain h | ⟨route, hroute, h⟩ := bind_eq_error.mp h
  · exact stops_of_find_route hpath h
  obtain h | ⟨⟨⟩, -, h⟩ := bind_eq_error.mp h
  · rw [check_machine_eq] at h
    split at h
    · rename_i hauth
      cases hrejected : s.gateway.cfg.authenticate_machine req.headers with
      | error rejection =>
        rw [hrejected] at h
        cases h
        exact .machine hpath (find_route_ok hroute).1 hauth hrejected
      | ok u =>
        rw [hrejected] at h
        cases h
    · cases h
  · cases h

end Stages

/-! ## Reserved headers -/

/-- A request carries something under a name, in some field and in whatever bytes. -/
def Carries (headers : HeaderMap) (name : Str) : Prop :=
  ∃ v ∈ headers.get_all (to_ascii_lowercase name), v.bytes ≠ []

/-- A request is refused with the rejection of a reserved header, or for its size before that. -/
def Site.RefusesReserved (s : Site) (table : RouteTable) (req : Request) : Prop :=
  ∃ rejection, s.route_request table req = .error (.refused rejection)
    ∧ (rejection = .payload_too_large
      ∨ ∃ name ∈ s.gateway.cfg.raw.reject, rejection = credential_rejection name)

section Reserved

variable {s : Site} {table : RouteTable} {req : Request}

/-- The rejections of the route itself have other statuses. -/
theorem status_of_stops {rejection : Rejection} (h : s.Stops table req (.refused rejection)) :
    (rejection = .payload_too_large ∧ content_length_over_limit req.headers s.max_body = true)
      ∨ (∃ name, s.gateway.cfg.raw.reject.find? (is_present req.headers) = some name
        ∧ rejection = credential_rejection name)
      ∨ rejection.status = 404 ∨ rejection.status = 503 := by
  cases h with
  | size hover => exact .inl ⟨rfl, hover⟩
  | reserved _ hname => exact .inr (.inl ⟨_, hname, rfl⟩)
  | unlocated => exact .inr (.inr (.inl rfl))
  | unlisted => exact .inr (.inr (.inl rfl))
  | unknown => exact .inr (.inr (.inr rfl))
  | machine _ _ _ hrejected =>
    obtain ⟨-, rfl⟩ | rfl := authenticate_machine_error hrejected
    · exact .inr (.inr (.inr rfl))
    · exact .inr (.inr (.inl rfl))

/-- **A reserved header is refused if the first field of its name is text.** -/
theorem reserved_refused_iff (hs : s.gateway.serves_machine = false)
    (hhealth : req.path ≠ s.health_path) :
    ((∃ name ∈ s.gateway.cfg.raw.reject, Carries req.headers name) → s.RefusesReserved table req)
      ↔ content_length_over_limit req.headers s.max_body = true
        ∨ (∃ name ∈ s.gateway.cfg.raw.reject, is_present req.headers name = true)
        ∨ ∀ name ∈ s.gateway.cfg.raw.reject, ¬ Carries req.headers name := by
  have hpassed : s.check_health table req = .ok () := if_neg hhealth
  constructor
  · intro hrefuses
    by_cases hcarries : ∃ name ∈ s.gateway.cfg.raw.reject, Carries req.headers name
    · obtain ⟨rejection, hstop, hwhich⟩ := hrefuses hcarries
      obtain ⟨-, hover⟩ | ⟨name, hname, -⟩ | hstatus := status_of_stops (stops_of_error hstop)
      · exact .inl hover
      · exact .inr (.inl ⟨name, List.mem_of_find?_eq_some hname, List.find?_some hname⟩)
      · have hother : rejection.status = 413 ∨ rejection.status = 403 := by
          obtain rfl | ⟨name, -, rfl⟩ := hwhich
          · exact .inl rfl
          · exact .inr rfl
        omega
    · exact .inr (.inr fun name hname hcarried => hcarries ⟨name, hname, hcarried⟩)
  · intro hcases hcarries
    by_cases hover : content_length_over_limit req.headers s.max_body = true
    · refine ⟨.payload_too_large, ?_, .inl rfl⟩
      have hsize : s.check_size req = .error (.refused .payload_too_large) := if_pos hover
      rw [Site.route_request, hpassed]
      exact bind_eq_error.mpr (.inr ⟨(), rfl, bind_eq_error.mpr (.inl hsize)⟩)
    · have hsize : s.check_size req = .ok () := if_neg hover
      obtain hover' | ⟨name, hname, hpresent⟩ | hnone := hcases
      · exact absurd hover' hover
      · -- Some name is seen, so the search for one finds one.
        cases hfind : s.gateway.cfg.raw.reject.find? (is_present req.headers) with
        | none =>
          rw [List.find?_eq_none] at hfind
          exact absurd hpresent (hfind name hname)
        | some found =>
          have hreserved : s.check_reserved req
              = .error (.refused (credential_rejection found)) := by
            rw [Site.check_reserved, hs, if_neg Bool.false_ne_true, hfind]
          refine ⟨credential_rejection found, ?_,
            .inr ⟨found, List.mem_of_find?_eq_some hfind, rfl⟩⟩
          rw [Site.route_request, hpassed, hsize]
          refine bind_eq_error.mpr (.inr ⟨(), rfl, bind_eq_error.mpr (.inr ⟨(), rfl, ?_⟩)⟩)
          exact bind_eq_error.mpr (.inl hreserved)
      · obtain ⟨name, hname, hcarried⟩ := hcarries
        exact absurd hcarried (hnone name hname)

end Reserved

namespace ReservedTwice

/-- One header is reserved. -/
def config : GatewayConfig where
  forward := { mode := .Passthrough }
  reject := ["X-Internal-Key".toList]

def resolved : ResolvedConfig where
  raw := config
  trusted_proxy_ips := []
  injected_headers := []
  machine_injected_headers := []
  identity_secret := none
  machine_secret := none
  client_key_header := none
  client_key_forward_as := none
  client_keys := []
  client_key_exempt := []
  client_key_exempt_groups := []

/-- The public listener, at the root, with one upstream. -/
def site : Site where
  gateway := Gateway.of_listener resolved false
  base_paths := [[]]
  health_path := "/health".toList
  service_name := "gateway".toList
  max_body := 1048576
  cors := none
  upstreams := ["users".toList]

def table : RouteTable :=
  (RouteTable.build_with 0
    { internal := [], machine := [], optional := [], authenticated := []
      «public» := [RouteConfig.of_input { path_prefix := "users".toList
                                          upstream := "users".toList }] }
    { rate_limit := none, retry := none, methods := none } false).partition_by_listener.1

/-- A request with these values under the name. -/
def request (values : List HeaderValue) : Request where
  method := "GET".toList
  path := "/users".toList
  headers := of_fields (values.map fun v => ("x-internal-key".toList, v))

/-- The empty value. -/
def blank : HeaderValue := ⟨[], rfl⟩

/-- `key`. -/
def key : HeaderValue := ⟨[0x6b, 0x65, 0x79], rfl⟩

end ReservedTwice

open ReservedTwice in
/-- One field is enough to be refused. -/
theorem reserved_refused_once : site.RefusesReserved ReservedTwice.table (request [key]) := by
  refine (reserved_refused_iff (by decide +kernel) (by decide +kernel)).mpr
    (.inr (.inl ⟨"X-Internal-Key".toList, List.mem_cons_self, by decide +kernel⟩))
    ⟨"X-Internal-Key".toList, List.mem_cons_self, key, by decide +kernel, nofun⟩

open ReservedTwice in
/-- Two are not, where the first is empty. -/
theorem second_reserved_field_passes :
    ¬ ∀ (s : Site) (table : RouteTable) (req : Request), s.gateway.serves_machine = false →
      req.path ≠ s.health_path →
      (∃ name ∈ s.gateway.cfg.raw.reject, Carries req.headers name) →
      s.RefusesReserved table req := by
  intro h
  obtain ⟨rejection, hstop, -⟩ := h site ReservedTwice.table (request [blank, key])
    (by decide +kernel) (by decide +kernel)
    ⟨"X-Internal-Key".toList, List.mem_cons_self, key, by decide +kernel, nofun⟩
  have hrouted : (site.route_request ReservedTwice.table
      (request [blank, key])).toOption.isSome = true := by decide +kernel
  rw [hstop] at hrouted
  cases hrouted

/-! ## Refusals that read the same -/

/-- The reasons not to route a request. -/
def DENIALS : List String := ["outside_base_path", "unsafe_path", "deny_list", "not_allowlisted"]

/-- A text is none of the reasons if it begins as none of them does. -/
theorem append_not_mem_denials {a b : String}
    (h : ∀ reason ∈ DENIALS, reason.toList.take a.toList.length ≠ a.toList) : a ++ b ∉ DENIALS := by
  intro hmem
  refine h _ hmem ?_
  rw [String.toList_append, List.take_left]

/-- What an answer is written for: the reason stays with the gateway. -/
theorem answer_congr {s : Site} {crates : Crates} {req req' : Request}
    {rejection rejection' : Rejection} (hcors : s.cors_headers req = s.cors_headers req')
    (hstatus : rejection.status = rejection'.status) (hbody : rejection.body = rejection'.body) :
    s.answer crates req (.refused rejection) = s.answer crates req' (.refused rejection') := by
  rw [Site.answer, Site.answer, Site.attempt, Site.attempt, hcors, hstatus, hbody]

/-- A request that is not routed for one of these reasons is not found. -/
theorem not_found_of_denied {s : Site} {table : RouteTable} {req : Request} {rejection : Rejection}
    (h : s.Stops table req (.refused rejection)) (hreason : rejection.reason ∈ DENIALS) :
    rejection.status = 404 ∧ rejection.body = Error.envelope 404 "Not Found" "Not Found" := by
  cases h with
  | size => exact absurd hreason (by decide)
  | unlocated => exact ⟨rfl, rfl⟩
  | unlisted => exact ⟨rfl, rfl⟩
  | reserved => exact absurd hreason (append_not_mem_denials (a := "client_sent_") (by decide))
  | unknown => exact absurd hreason (append_not_mem_denials (a := "no_upstream_") (by decide))
  | machine _ _ _ hrejected =>
    obtain ⟨-, rfl⟩ | rfl := authenticate_machine_error hrejected
    · exact absurd hreason (by decide)
    · exact ⟨rfl, rfl⟩

/-- **Refusals are indistinguishable**: whatever two paths are refused for, outside the mounts,
malformed, denied or unknown, the client is sent the same, also if the routes were replaced in
between. -/
theorem refusals_indistinguishable (s : Site) (crates : Crates) (table table' : RouteTable)
    (req : Request) (path' : Str) {rejection rejection' : Rejection}
    (h : s.route_request table req = .error (.refused rejection))
    (h' : s.route_request table' { req with path := path' } = .error (.refused rejection'))
    (hreason : rejection.reason ∈ DENIALS) (hreason' : rejection'.reason ∈ DENIALS) :
    s.answer crates req (.refused rejection)
      = s.answer crates { req with path := path' } (.refused rejection') := by
  obtain ⟨hstatus, hbody⟩ := not_found_of_denied (stops_of_error h) hreason
  obtain ⟨hstatus', hbody'⟩ := not_found_of_denied (stops_of_error h') hreason'
  exact answer_congr rfl (hstatus.trans hstatus'.symm) (hbody.trans hbody'.symm)

namespace HiddenPaths

/-- A public listener with a route and a path that it denies, open to every origin. -/
def site : Site :=
  { ReservedTwice.site with cors := (Cors.compile { origins := ["*".toList] }).toOption }

def table : RouteTable :=
  (RouteTable.build_with 0
    { internal := ["users/admin".toList], machine := [], optional := [], authenticated := []
      «public» := [RouteConfig.of_input { path_prefix := "users".toList
                                          upstream := "users".toList }] }
    { rate_limit := none, retry := none, methods := none } false).partition_by_listener.1

/-- `https://a`. -/
def origin : HeaderValue := ⟨[0x68, 0x74, 0x74, 0x70, 0x73, 0x3a, 0x2f, 0x2f, 0x61], rfl⟩

def request : Request where
  method := "GET".toList
  path := "/users/admin/keys".toList
  headers := of_fields [("Origin".toList, origin)]

end HiddenPaths

open HiddenPaths in
/-- A page cannot tell a denied path from one that was never there. -/
theorem refusals_indistinguishable_admin :
    HiddenPaths.site.answer plain_crates HiddenPaths.request
        (.refused (.not_found "gateway.route.denied" "deny_list"))
      = HiddenPaths.site.answer plain_crates
        { HiddenPaths.request with path := "/nothing".toList }
        (.refused (.not_found "gateway.route.denied" "not_allowlisted")) := by
  refine refusals_indistinguishable HiddenPaths.site plain_crates HiddenPaths.table
    HiddenPaths.table HiddenPaths.request "/nothing".toList ?_ ?_ (by decide) (by decide)
  · decide +kernel
  · decide +kernel

end Lagos.Outbound
