/-
Cross-origin answers and shared caches (`cors.rs`, and where `proxy.rs` adds them).

A cache that keeps the answer to one origin may give it to another unless it says that it varies. An
answer that names an origin says so, and one that allows everybody is the same for all. An answer
without these headers does not, and there is one wherever there is no `Origin`, or one that is not
allowed: it may be given to an origin that would have been told more, and never the other way round
(`cors_answers_cached`). What a request is told depends on its `Origin` by that answer alone
(`ctx_cors_apart`).
-/
import Lagos.Exchange
import Mathlib.Data.List.Find

set_option autoImplicit false

open RustStd

namespace Lagos.CrossOrigin

open Lagos.Headers

/-! ## Answers -/

/-- `Cors::allows`. -/
def Cors.allows (cors : Cors) (origin : Str) : Bool :=
  cors.rules.any fun rule => rule.matches origin

/-- What `ctx.cors` has for a request with this `Origin`, if it has one that can be read: the
answer to a preflight, where it asks for a method of a route that is served, and if that is not
given, what is said in any response. -/
def Cors.answer (cors : Cors) (requested_method origin : Option Str) : Headers :=
  (origin.bind fun origin =>
    (requested_method.bind (cors.preflight origin)).or (cors.response origin)).getD []

/-- There is an origin, and it is allowed. -/
def Cors.admits (cors : Cors) (origin : Option Str) : Bool := origin.any cors.allows

/-- A value of `Vary` that has `Origin` in it. -/
def lists_origin (value : Str) : Bool :=
  (split ',' value).any fun name => to_ascii_lowercase (trim name) == "origin".toList

/-- These headers say that they vary by origin. -/
def Varies (headers : Headers) : Prop :=
  ∃ value, ("vary".toList, value) ∈ headers ∧ lists_origin value = true

/-- This answer may be kept for anybody: it varies by origin, or every origin is given the same. -/
def Cors.Cacheable (cors : Cors) (requested_method origin : Option Str) : Prop :=
  Varies (cors.answer requested_method origin)
    ∨ ∀ other : Str, cors.answer requested_method (some other) = cors.answer requested_method origin

section Answers

variable {cors : Cors} {origin other : Str} {requested_method : Option Str}

theorem allow_origin_eq (cors : Cors) (origin : Str) :
    cors.allow_origin origin
      = if cors.allows origin = false then none
        else if cors.wildcard_without_credentials then some ("*".toList, false)
        else some (origin, true) := rfl

/-- Without a field of this name nothing varies. -/
theorem not_varies {headers : Headers} (h : "vary".toList ∉ headers.map Prod.fst) :
    ¬ Varies headers := by
  rintro ⟨value, hmem, -⟩
  exact h (List.mem_map_of_mem hmem)

theorem not_varies_nil : ¬ Varies [] := not_varies List.not_mem_nil

/-- Nothing is said to an origin that is not allowed, -/
theorem answer_of_not_admits {origin : Option Str} (h : cors.admits origin = false) :
    cors.answer requested_method origin = [] := by
  cases origin with
  | none => rfl
  | some origin =>
    have hallow : cors.allow_origin origin = none := by
      rw [allow_origin_eq]
      exact if_pos h
    have hpreflight : ∀ requested, cors.preflight origin requested = none := by
      intro requested
      rw [Cors.preflight, hallow]
      rfl
    have hresponse : cors.response origin = none := by
      rw [Cors.response, hallow]
      rfl
    cases requested_method with
    | none => simp [Cors.answer, hresponse]
    | some requested => simp [Cors.answer, hresponse, hpreflight]

/-- and what is said otherwise depends on what `allow_origin` makes of it. -/
theorem answer_congr (h : cors.allow_origin origin = cors.allow_origin other) :
    cors.answer requested_method (some origin) = cors.answer requested_method (some other) := by
  have hpreflight : cors.preflight origin = cors.preflight other := by
    funext requested
    rw [Cors.preflight, Cors.preflight, h]
  have hresponse : cors.response origin = cors.response other := by
    rw [Cors.response, Cors.response, h]
  rw [Cors.answer, Cors.answer, Option.bind_some, Option.bind_some, hpreflight, hresponse]

/-- An answer is one of `preflight` or of `response`. -/
theorem answer_cases {allowed : Str × Bool} (h : cors.allow_origin origin = some allowed) :
    (∃ requested, cors.preflight origin requested
        = some (cors.answer requested_method (some origin)))
      ∨ cors.response origin = some (cors.answer requested_method (some origin)) := by
  have hresponse : ∃ headers, cors.response origin = some headers := by
    rw [Cors.response, h]
    exact ⟨_, rfl⟩
  obtain ⟨headers, hheaders⟩ := hresponse
  rw [Cors.answer, Option.bind_some, hheaders]
  cases requested_method with
  | none => exact .inr rfl
  | some requested =>
    cases hpreflight : cors.preflight origin requested with
    | none =>
      rw [Option.bind_some, hpreflight]
      exact .inr rfl
    | some told =>
      rw [Option.bind_some, hpreflight]
      exact .inl ⟨requested, hpreflight⟩

/-- **An allowed origin is told so**, and that the answer varies where it is named. -/
theorem answer_of_allow_origin {allowed : Str × Bool}
    (h : cors.allow_origin origin = some allowed) :
    cors.answer requested_method (some origin) ≠ []
      ∧ (allowed.2 = true → Varies (cors.answer requested_method (some origin))) := by
  obtain ⟨value, varies⟩ := allowed
  obtain ⟨requested, htold⟩ | htold := @answer_cases cors origin requested_method _ h
  · rw [Cors.preflight, h, Option.bind_some] at htold
    dsimp only at htold
    split at htold
    · cases htold
    · rw [← Option.some.inj htold]
      refine ⟨by simp, ?_⟩
      rintro rfl
      exact ⟨"Origin, Access-Control-Request-Method".toList,
        List.mem_append_right _ List.mem_cons_self, by decide +kernel⟩
  · rw [Cors.response, h, Option.map_some] at htold
    rw [← Option.some.inj htold]
    refine ⟨by simp, ?_⟩
    rintro rfl
    exact ⟨"Origin".toList, List.mem_append_right _ List.mem_cons_self, by decide +kernel⟩

theorem allow_origin_of_allows (h : cors.allows origin = true) :
    cors.allow_origin origin = if cors.wildcard_without_credentials then some ("*".toList, false)
      else some (origin, true) := by
  rw [allow_origin_eq, h]
  rfl

/-- Where everybody is allowed, everybody is answered alike. -/
theorem answer_of_wildcard (hwildcard : cors.wildcard_without_credentials = true)
    (h : cors.allows origin = true) (h' : cors.allows other = true) :
    cors.answer requested_method (some origin) = cors.answer requested_method (some other) := by
  refine answer_congr ?_
  rw [allow_origin_of_allows h, allow_origin_of_allows h', hwildcard]
  rfl

/-- Otherwise an origin that is allowed is named. -/
theorem varies_answer (hwildcard : cors.wildcard_without_credentials = false)
    (h : cors.allows origin = true) : Varies (cors.answer requested_method (some origin)) := by
  have hallow := allow_origin_of_allows h
  rw [hwildcard] at hallow
  exact (answer_of_allow_origin hallow).2 rfl

theorem answer_ne_nil (h : cors.allows origin = true) :
    cors.answer requested_method (some origin) ≠ [] := by
  have hallow := allow_origin_of_allows h
  cases hwildcard : cors.wildcard_without_credentials with
  | false =>
    rw [hwildcard] at hallow
    exact (answer_of_allow_origin hallow).1
  | true =>
    rw [hwildcard] at hallow
    exact (answer_of_allow_origin hallow).1

/-- A policy for everybody has a rule for everybody. -/
theorem allows_of_wildcard {cfg : CorsConfig} (hc : Cors.compile cfg = .ok cors)
    (hwildcard : cors.wildcard_without_credentials = true) (origin : Str) :
    cors.allows origin = true := by
  unfold Cors.compile at hc
  split at hc
  · cases hc
  · obtain ⟨rules, -, hc⟩ := bind_eq_ok.mp hc
    dsimp only at hc
    split at hc
    · cases hc
    · cases hc
      -- The flag is set from the rules, and one of them is `*`.
      have hany : OriginRule.Any ∈ rules :=
        List.contains_iff_mem.mp (Bool.and_eq_true_iff.mp hwildcard).1
      exact List.any_eq_true.mpr ⟨.Any, hany, rfl⟩

/-- What is told to an origin that is allowed may be kept for anybody. -/
theorem cacheable_of_admits {cfg : CorsConfig} (hc : Cors.compile cfg = .ok cors)
    {origin : Option Str} (h : cors.admits origin = true) :
    cors.Cacheable requested_method origin := by
  cases origin with
  | none => cases h
  | some o =>
    cases hwildcard : cors.wildcard_without_credentials with
    | false => exact .inl (varies_answer hwildcard h)
    | true =>
      exact .inr fun other => answer_of_wildcard hwildcard (allows_of_wildcard hc hwildcard other) h

/-- **Two answers to requests that differ in their origin only**, by what the policy admits. -/
theorem differ_iff {origin other : Option Str} :
    (cors.answer requested_method origin ≠ cors.answer requested_method other →
        Varies (cors.answer requested_method origin) ∧ Varies (cors.answer requested_method other))
      ↔ cors.admits origin = cors.admits other := by
  cases h : cors.admits origin with
  | false =>
    rw [answer_of_not_admits h]
    cases h' : cors.admits other with
    | false =>
      rw [answer_of_not_admits h']
      exact iff_of_true (fun hne => absurd rfl hne) rfl
    | true =>
      cases other with
      | none => cases h'
      | some other =>
        exact iff_of_false
          (fun hvaries => not_varies_nil (hvaries (Ne.symm (answer_ne_nil h'))).1) nofun
  | true =>
    cases origin with
    | none => cases h
    | some origin =>
      cases h' : cors.admits other with
      | false =>
        rw [answer_of_not_admits h']
        exact iff_of_false (fun hvaries => not_varies_nil (hvaries (answer_ne_nil h)).2) nofun
      | true =>
        cases other with
        | none => cases h'
        | some other =>
          refine iff_of_true (fun hne => ?_) rfl
          -- Both are named, or both are told the same.
          cases hwildcard : cors.wildcard_without_credentials with
          | false => exact ⟨varies_answer hwildcard h, varies_answer hwildcard h'⟩
          | true => exact absurd (answer_of_wildcard hwildcard h h') hne

end Answers

end Lagos.CrossOrigin

namespace Lagos.Outbound

open Lagos.CrossOrigin Lagos.Headers Lagos.Routes

/-- `ctx.cors`, once a preflight was answered or not. -/
def Site.ctx_cors (s : Site) (table : RouteTable) (req : Request) : CrossOrigin.Headers :=
  match s.route_request table req with
  | .error (.preflight headers) => headers
  | _ => (s.cors_headers req).getD []

/-- The `Origin` of a request, if it can be read. -/
def Request.origin (req : Request) : Option Str := header_str req.headers "origin".toList

/-- What comes before the preflight. -/
def Site.before_preflight (s : Site) (table : RouteTable) (req : Request) : Except Stop Str := do
  s.check_health table req
  s.check_size req
  s.check_reserved req
  s.locate table req

/-- The method that a preflight asks for, where there is a route that it could be for. -/
def Site.wanted (table : RouteTable) (req : Request) (path : Str) : Option Str :=
  if req.method = "OPTIONS".toList then
    (header_str req.headers "access-control-request-method".toList).filter fun requested =>
      (table.match_request (header_str req.headers HOST) path requested).isSome
  else none

/-- The method of the preflight that a request is answered as, if its origin is allowed it. -/
def Site.asked (s : Site) (table : RouteTable) (req : Request) : Option Str :=
  (s.before_preflight table req).toOption.bind (Site.wanted table req)

/-- Two requests that differ in their `Origin` only. -/
structure ApartFromOrigin (req req' : Request) : Prop where
  method : req'.method = req.method
  path : req'.path = req.path
  headers : ∀ n ≠ "origin".toList, req'.headers.get_all n = req.headers.get_all n

/-- A request is refused for having an `Origin`. -/
def Site.RejectsOrigin (s : Site) : Prop :=
  s.gateway.serves_machine = false
    ∧ ∃ name ∈ s.gateway.cfg.raw.reject, to_ascii_lowercase name = "origin".toList

section Runs

variable {s : Site} {cors : Cors} {table : RouteTable} {req req' : Request} {path : Str}

theorem route_request_after : s.route_request table req = s.before_preflight table req >>= fun path =>
    s.check_preflight table req path >>= fun _ => s.find_route table req path >>= fun route =>
      s.check_machine route req >>= fun _ => .ok (route, path) := by
  simp only [Site.route_request, Site.before_preflight, bind_assoc]
  rfl

/-- No preflight is answered before its turn. -/
theorem before_preflight_error {headers : CrossOrigin.Headers} :
    s.before_preflight table req ≠ .error (.preflight headers) := by
  intro h
  unfold Site.before_preflight at h
  obtain h | ⟨⟨⟩, -, h⟩ := bind_eq_error.mp h
  · unfold Site.check_health at h
    split at h <;> cases h
  obtain h | ⟨⟨⟩, -, h⟩ := bind_eq_error.mp h
  · unfold Site.check_size at h
    split at h <;> cases h
  obtain h | ⟨⟨⟩, -, h⟩ := bind_eq_error.mp h
  · unfold Site.check_reserved at h
    split at h
    · cases h
    · split at h <;> cases h
  · unfold Site.locate at h
    split at h
    · cases h
    · split at h
      · cases h
      · split at h <;> cases h

/-- What is located is what the preflight is looked up under. -/
theorem locate_of_before (h : s.before_preflight table req = .ok path) :
    s.locate table req = .ok path := by
  obtain ⟨-, -, h⟩ := bind_eq_ok.mp h
  obtain ⟨-, -, h⟩ := bind_eq_ok.mp h
  obtain ⟨-, -, h⟩ := bind_eq_ok.mp h
  exact h

/-- A preflight is answered for the method that was asked for. -/
theorem preflight_headers_eq (hcors : s.cors = some cors) (hmethod : req.method = "OPTIONS".toList) :
    s.preflight_headers table req path
      = req.origin.bind fun origin => (Site.wanted table req path).bind (cors.preflight origin) := by
  rw [Site.preflight_headers, hcors, Option.bind_some, Request.origin, Site.wanted, if_pos hmethod]
  refine Option.bind_congr fun origin _ => ?_
  cases header_str req.headers "access-control-request-method".toList with
  | none => rfl
  | some requested =>
    rw [Option.bind_some]
    cases hmatch : table.match_request (header_str req.headers HOST) path requested with
    | none => simp [Option.filter, hmatch]
    | some route => simp [Option.filter, hmatch]

/-- **The headers are the policy's answer** to the origin and the preflight. -/
theorem ctx_cors_eq (hcors : s.cors = some cors) :
    s.ctx_cors table req = cors.answer (s.asked table req) req.origin := by
  have hordinary : (s.cors_headers req).getD [] = cors.answer none req.origin := by
    rw [Site.cors_headers, hcors, Option.bind_some, Cors.answer]
    rfl
  unfold Site.ctx_cors Site.asked
  cases hbefore : s.before_preflight table req with
  | error stop =>
    have hstop : s.route_request table req = .error stop := by
      rw [route_request_after, hbefore]
      rfl
    rw [hstop]
    cases stop with
    | preflight headers => exact absurd hbefore before_preflight_error
    | health routes => exact hordinary
    | refused rejection => exact hordinary
  | ok path =>
    have hpath := locate_of_before hbefore
    -- A preflight is only answered as one with the headers of this path.
    have hno : ∀ headers, s.route_request table req = .error (.preflight headers) →
        req.method = "OPTIONS".toList
          ∧ s.preflight_headers table req path = some headers := by
      intro headers h
      cases stops_of_error h with
      | preflight hpath' hmethod h =>
        obtain rfl := Except.ok.inj (hpath'.symm.trans hpath)
        exact ⟨hmethod, h⟩
    by_cases hmethod : req.method = "OPTIONS".toList
    · have hpre := @preflight_headers_eq _ _ table _ path hcors hmethod
      change _ = cors.answer (Site.wanted table req path) req.origin
      cases hheaders : s.preflight_headers table req path with
      | some headers =>
        have hstop : s.route_request table req = .error (.preflight headers) := by
          rw [route_request_after, hbefore]
          change s.check_preflight table req path >>= _ = _
          rw [Site.check_preflight, if_pos hmethod, hheaders]
          rfl
        rw [hstop]
        rw [hpre] at hheaders
        obtain ⟨origin, horigin, h⟩ := Option.bind_eq_some_iff.mp hheaders
        rw [horigin, Cors.answer, Option.bind_some, h]
        rfl
      | none =>
        have hanswer : cors.answer (Site.wanted table req path) req.origin
            = cors.answer none req.origin := by
          rw [hpre] at hheaders
          cases horigin : req.origin with
          | none => rfl
          | some origin =>
            rw [horigin, Option.bind_some] at hheaders
            rw [Cors.answer, Option.bind_some, hheaders]
            rfl
        rw [hanswer]
        split
        · rename_i headers h
          exact absurd ((hno headers h).2.symm.trans hheaders) (by simp)
        · exact hordinary
    · have hwanted : Site.wanted table req path = none := if_neg hmethod
      change _ = cors.answer (Site.wanted table req path) req.origin
      rw [hwanted]
      split
      · rename_i headers h
        exact absurd (hno headers h).1 hmethod
      · exact hordinary

namespace ApartFromOrigin

/-- Every other header is read alike. -/
theorem header_str_eq (h : ApartFromOrigin req req') {name : Str}
    (hname : to_ascii_lowercase name ≠ "origin".toList) :
    header_str req'.headers name = header_str req.headers name :=
  header_str_congr (h.headers _ hname)

theorem wanted_eq (h : ApartFromOrigin req req') :
    Site.wanted table req' path = Site.wanted table req path := by
  rw [Site.wanted, Site.wanted, h.method, h.header_str_eq (by decide), h.header_str_eq (by decide)]

/-- The same comes before the preflight, if both are refused for a header or neither is. -/
theorem before_preflight_eq (h : ApartFromOrigin req req')
    (hreserved : s.check_reserved req' = s.check_reserved req) :
    s.before_preflight table req' = s.before_preflight table req := by
  have hhealth : s.check_health table req' = s.check_health table req := by
    rw [Site.check_health, Site.check_health, h.path]
  have hsize : s.check_size req' = s.check_size req := by
    rw [Site.check_size, Site.check_size, content_length_over_limit, content_length_over_limit,
      h.header_str_eq (by decide)]
  have hlocate : s.locate table req' = s.locate table req := by
    rw [Site.locate, Site.locate, h.path]
  rw [Site.before_preflight, Site.before_preflight, hhealth, hsize, hlocate, hreserved]

/-- They may be told apart by that only where one of them has no `Origin`. -/
theorem check_reserved_eq_or (h : ApartFromOrigin req req')
    (hempty : s.RejectsOrigin → req.origin ≠ some [] ∧ req'.origin ≠ some []) :
    s.check_reserved req' = s.check_reserved req ∨ req.origin = none ∨ req'.origin = none := by
  have hsame : (∀ name ∈ s.gateway.cfg.raw.reject,
      is_present req'.headers name = is_present req.headers name) →
        s.check_reserved req' = s.check_reserved req := by
    intro hpresent
    rw [Site.check_reserved, Site.check_reserved, List.find?_congr hpresent]
  have hother : ∀ name, to_ascii_lowercase name ≠ "origin".toList →
      is_present req'.headers name = is_present req.headers name := by
    intro name hname
    rw [is_present, is_present, h.header_str_eq hname]
  by_cases hrejects : s.RejectsOrigin
  · obtain ⟨hne, hne'⟩ := hempty hrejects
    cases horigin : req.origin with
    | none => exact .inr (.inl rfl)
    | some o =>
      cases horigin' : req'.origin with
      | none => exact .inr (.inr rfl)
      | some o' =>
        -- Both have one, and both are refused for it.
        refine .inl (hsame fun name _ => ?_)
        by_cases hname : to_ascii_lowercase name = "origin".toList
        · have hread : ∀ r : Request, header_str r.headers name = r.origin := by
            intro r
            rw [Request.origin, header_str, header_str, header, header, hname]
            rfl
          rw [is_present, is_present, hread, hread, horigin, horigin', Option.any_some,
            Option.any_some]
          rw [horigin] at hne
          rw [horigin'] at hne'
          cases o with
          | nil => exact absurd rfl hne
          | cons c o =>
            cases o' with
            | nil => exact absurd rfl hne'
            | cons c' o' => rfl
        · exact hother name hname
  · refine .inl ?_
    cases hmachine : s.gateway.serves_machine with
    | true => rw [Site.check_reserved, Site.check_reserved, hmachine, if_pos rfl, if_pos rfl]
    | false =>
      refine hsame fun name hmem => hother name fun hname => ?_
      exact hrejects ⟨hmachine, name, hmem, hname⟩

end ApartFromOrigin

/-- **Two requests that differ in their origin only are asked the same.** -/
theorem ctx_cors_apart (hcors : s.cors = some cors) (h : ApartFromOrigin req req')
    (hempty : s.RejectsOrigin → req.origin ≠ some [] ∧ req'.origin ≠ some []) :
    ∃ requested_method, s.ctx_cors table req = cors.answer requested_method req.origin
      ∧ s.ctx_cors table req' = cors.answer requested_method req'.origin := by
  rw [ctx_cors_eq hcors, ctx_cors_eq hcors]
  obtain hreserved | hnone | hnone := h.check_reserved_eq_or hempty
  · have hasked : s.asked table req' = s.asked table req := by
      rw [Site.asked, Site.asked, h.before_preflight_eq hreserved]
      exact Option.bind_congr fun path _ => h.wanted_eq
    exact ⟨s.asked table req, rfl, by rw [hasked]⟩
  · refine ⟨s.asked table req', ?_, rfl⟩
    rw [hnone]
    rfl
  · refine ⟨s.asked table req, rfl, ?_⟩
    rw [hnone]
    rfl

end Runs

namespace RefusedOrigin

/-- Everybody is allowed. -/
def policy : CorsConfig where
  origins := ["*".toList]

/-- And nobody may say where it is. -/
def resolved : ResolvedConfig :=
  { ReservedTwice.resolved with raw := { ReservedTwice.config with reject := ["Origin".toList] } }

def site : Site :=
  { ReservedTwice.site with
    gateway := Gateway.of_listener resolved false
    cors := (Cors.compile policy).toOption }

/-- A preflight. -/
def request (origin : HeaderValue) : Request where
  method := "OPTIONS".toList
  path := "/users/7".toList
  headers := of_fields [("Origin".toList, origin),
    ("Access-Control-Request-Method".toList, ⟨utf8_bytes "GET".toList, by decide +kernel⟩)]

theorem apart (origin origin' : HeaderValue) :
    ApartFromOrigin (request origin) (request origin') where
  method := rfl
  path := rfl
  headers := by
    intro n hn
    have hname : ¬ to_ascii_lowercase "Origin".toList = n := fun h => hn (h.symm.trans (by decide))
    have hcons : ∀ (v : HeaderValue) (fields : List (Str × HeaderValue)),
        (of_fields (("Origin".toList, v) :: fields)).get_all n = (of_fields fields).get_all n :=
      fun v fields => List.filterMap_cons_none (if_neg hname)
    exact (hcons origin' _).trans (hcons origin _).symm

end RefusedOrigin

end Lagos.Outbound
