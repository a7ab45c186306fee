/-
What the shared cache gives to whom (`cache/policy.rs`, and `request_cache_filter`,
`response_cache_filter` and `cache_hit_filter` of `proxy.rs`).

The cache is one for all tables and all routes, and any number of requests look it up, fill it and
lose entries to eviction in any order. What a response must be like to be stored is asked when it is
stored, and asked again of what is stored when it is found, by `eligible`. So a hit is a response
to a request of the same table, route, upstream, host and target, that sent the upstream the same in
every field it varies by; it sets no cookie; and if either of the two requests came from a user
whose token was verified, then its upstream has said that users may share it (`hits_shareable`).

Reading `Cache-Control`, and whether and how long a response is fresh, are Pingora's, and are
parameters, as is the hash of a variance. Of a lookup it is taken that what is found was stored
under the key of the request and under the variance that the request has for it.
-/
import Lagos.CacheKeys
import Lagos.Lib.Run
import Lagos.Mediation

set_option autoImplicit false

open RustStd StepRun

namespace Lagos.CachePolicy

open Lagos.Csrf Lagos.Headers Lagos.Outbound Lagos.Routes
open Asking

/-! ## What may be shared -/

/-- `pingora::cache::CacheControl`, as far as `eligible` asks. -/
structure CacheControl where
  «private» : Bool
  no_store : Bool
  allow_caching_authorized_req : Bool
  deriving DecidableEq, Repr

/-- A response, without its body. -/
structure Response where
  status : ℕ
  headers : HeaderMap
  deriving DecidableEq, Repr

/-- What Pingora does for the cache. -/
structure Caching (HashBinary : Type) where
  builder : VarianceBuilder HashBinary
  /-- Only the variance of nothing has no hash. -/
  finalize_none : ∀ {m : List (Str × List UInt8)}, builder.finalize m = none → m = []
  /-- `CacheControl::from_resp_headers`. -/
  from_resp_headers : HeaderMap → Option CacheControl
  /-- `filters::resp_cacheable`: what is stored, of a response that can be. -/
  resp_cacheable : Option CacheControl → Response → Bool → Option Response

def SET_COOKIE : Str := "set-cookie".toList

section Eligible

variable {HashBinary : Type} (c : Caching HashBinary) (crates : Crates)

/-- `eligible`. -/
def eligible (resp : HeaderMap) (authorized : Bool) : Bool :=
  if !(resp.get_all SET_COOKIE).isEmpty || (vary_fields crates resp).isNone then false
  else if (c.from_resp_headers resp).any fun cc => cc.private || cc.no_store then false
  else !authorized || (c.from_resp_headers resp).any (·.allow_caching_authorized_req)

/-- `Gateway::response_cache_filter`, where there is a cache: what is stored. -/
def response_cache_filter (resp : Response) (authorized : Bool) : Option Response :=
  if eligible c crates resp.headers authorized then
    c.resp_cacheable (c.from_resp_headers resp.headers) resp authorized
  else none

/-- What `eligible` says of a response. -/
structure Shareable (resp : HeaderMap) (authorized : Bool) : Prop where
  no_cookie : resp.get_all SET_COOKIE = []
  selectable : ∃ fields, vary_fields crates resp = some fields
  not_private : ∀ cc ∈ c.from_resp_headers resp, cc.private = false ∧ cc.no_store = false
  allowed : authorized = true →
    ∃ cc ∈ c.from_resp_headers resp, cc.allow_caching_authorized_req = true

variable {c crates}

theorem eligible_iff {resp : HeaderMap} {authorized : Bool} :
    eligible c crates resp authorized = true ↔ Shareable c crates resp authorized := by
  unfold eligible
  constructor
  · intro h
    split at h
    · cases h
    · rename_i hplain
      split at h
      · cases h
      · rename_i hopen
        simp only [Bool.or_eq_true, Bool.not_eq_true', List.isEmpty_eq_false_iff, ne_eq,
          Option.isNone_iff_eq_none, not_or, not_not] at hplain
        simp only [Option.any_eq_true, Bool.or_eq_true, not_exists, not_and, not_or,
          Bool.not_eq_true] at hopen
        refine ⟨hplain.1, Option.ne_none_iff_exists'.mp hplain.2, hopen, fun hauthorized => ?_⟩
        rw [hauthorized, Bool.not_true, Bool.false_or, Option.any_eq_true] at h
        exact h
  · intro h
    obtain ⟨fields, hfields⟩ := h.selectable
    have hopen : ¬ (c.from_resp_headers resp).any (fun cc => cc.private || cc.no_store) = true := by
      rw [Option.any_eq_true]
      rintro ⟨cc, hcc, hclosed⟩
      obtain ⟨hprivate, hstore⟩ := h.not_private cc hcc
      rw [hprivate, hstore] at hclosed
      cases hclosed
    rw [h.no_cookie, hfields, if_neg (by simp), if_neg hopen]
    cases authorized with
    | false => rfl
    | true =>
      rw [Bool.not_true, Bool.false_or, Option.any_eq_true]
      exact h.allowed rfl

end Eligible

/-! ## Requests at the cache -/

/-- `ctx.client_authorized`. -/
def client_authorized (d : Door) (headers : HeaderMap) : Bool :=
  !(headers.get_all AUTHORIZATION).isEmpty || (d.cookie_token headers).isSome

/-- `Uri::path_and_query`. -/
def path_and_query (a : Arrival) : Str :=
  match a.query with
  | some query => a.request.path ++ '?' :: query
  | none => a.request.path

/-- A request that `request_filter` lets through, whoever answers its questions, and for which the
cache is on. -/
structure Visit (e : Entry) (parse : Str → Option Url) (crates : Crates)
    (escape_debug : Char → Str) where
  table : RouteTable
  arrival : Arrival
  ctx : Admitted
  passes : ∃ (σ : Type) (o : Outside σ) (s t : σ) (log : List Consult),
    (e.request_filter o parse crates escape_debug table arrival).Passes s log t ctx
  uses_cache : e.uses_cache ctx arrival.request = true
  uuid_range : table.cache_namespace < 16 ^ 32
  texts_fit : ∀ s ∈ [ctx.route.id, ctx.route.upstream, arrival.request.method,
    path_and_query arrival], Fits (utf8_bytes s)
  plan_fits : ∀ p ∈ ctx.plan.additions, Fits (utf8_bytes p.2)
  headers_fit : ∀ x ∈ arrival.request.headers.entries, Fits x.2.bytes

section Shelf

variable {HashBinary : Type} (c : Caching HashBinary) {e : Entry} {parse : Str → Option Url}
  {crates : Crates} {escape_debug : Char → Str}

/-- What the cache is asked for. -/
def Visit.lookup (v : Visit e parse crates escape_debug) : Lookup where
  cache_namespace := v.table.cache_namespace
  route_id := v.ctx.route.id
  upstream_name := v.ctx.route.upstream
  plan := v.ctx.plan
  method := v.arrival.request.method
  path_and_query := path_and_query v.arrival
  headers := v.arrival.request.headers
  uuid_range := v.uuid_range
  texts_fit := v.texts_fit
  plan_fits := v.plan_fits
  headers_fit := v.headers_fit

/-- Whether it counts as an authorized request. -/
def Visit.authorized (v : Visit e parse crates escape_debug) : Bool :=
  client_authorized e.door v.arrival.request.headers

/-- A response in the cache. No step reads the last two: who it was for, and what the upstream had
answered. -/
structure Stored (HashBinary : Type) (e : Entry) (parse : Str → Option Url) (crates : Crates)
    (escape_debug : Char → Str) where
  primary : List UInt8
  variance : Option HashBinary
  response : Response
  visit : Visit e parse crates escape_debug
  answer : Response

/-- What happens at the cache. -/
inductive Event (e : Entry) (parse : Str → Option Url) (crates : Crates)
    (escape_debug : Char → Str) where
  /-- An upstream has answered a request, or has confirmed what was stored. -/
  | fill (visit : Visit e parse crates escape_debug) (answer : Response)
  /-- A request is answered with what is stored at an index. -/
  | hit (visit : Visit e parse crates escape_debug) (index : ℕ)
  | evict (index : ℕ)

/-- What an answer leaves in the cache, if anything. -/
def stored (v : Visit e parse crates escape_debug) (answer : Response) :
    Option (Stored HashBinary e parse crates escape_debug) :=
  (response_cache_filter c crates answer v.authorized).map fun response => {
    primary := (cache_key_callback v.lookup).primary
    variance := cache_vary_filter c.builder crates e.gateway response.headers v.lookup
    response := response
    visit := v
    answer := answer }

variable [DecidableEq HashBinary]

/-- Whether a stored response is found for a request, and `cache_hit_filter` does not make it a
miss. -/
def Stored.answers (st : Stored HashBinary e parse crates escape_debug)
    (v : Visit e parse crates escape_debug) : Bool :=
  st.primary == (cache_key_callback v.lookup).primary
    && st.variance == cache_vary_filter c.builder crates e.gateway st.response.headers v.lookup
    && eligible c crates st.response.headers v.authorized

/-- One event. -/
def shelf_step (shelf : List (Stored HashBinary e parse crates escape_debug)) :
    Event e parse crates escape_debug →
      Option (List (Stored HashBinary e parse crates escape_debug))
  | .fill v answer => some ((stored c v answer).toList ++ shelf)
  | .hit v index => if (shelf[index]?).any (Stored.answers c · v) then some shelf else none
  | .evict index => some (shelf.eraseIdx index)

end Shelf

/-! ## What is shared -/

section

variable {HashBinary : Type} {c : Caching HashBinary} {e : Entry} {parse : Str → Option Url}
  {crates : Crates} {escape_debug : Char → Str}

/-- A user's request counts as authorized. -/
theorem Visit.authorized_of_identity {v : Visit e parse crates escape_debug}
    (h : v.ctx.identity ≠ none) : v.authorized = true := by
  obtain ⟨σ, o, s, t, log, hpasses⟩ := v.passes
  obtain ⟨id, hid⟩ := Option.ne_none_iff_exists'.mp h
  obtain ⟨-, token, credential, hpresented, -⟩ :=
    (request_filter_permitted hpasses).identified id hid
  unfold Visit.authorized client_authorized
  unfold Door.presented at hpresented
  split at hpresented
  · rename_i hheader
    obtain ⟨value, hvalue, -⟩ := Option.bind_eq_some_iff.mp hheader
    obtain ⟨first, hfirst, -⟩ := Option.bind_eq_some_iff.mp hvalue
    have hlower : to_ascii_lowercase AUTHORIZATION = AUTHORIZATION := by decide
    rw [header, hlower, MultiMap.get] at hfirst
    cases hall : v.arrival.request.headers.get_all AUTHORIZATION with
    | nil =>
      rw [hall] at hfirst
      cases hfirst
    | cons _ _ => rfl
  · obtain ⟨token', hcookie, -⟩ := Option.map_eq_some_iff.mp hpresented
    rw [hcookie, Option.isSome_some, Bool.or_true]

/-- A visit to the cache carries no cookie. -/
theorem Visit.no_cookie (v : Visit e parse crates escape_debug) :
    v.arrival.request.headers.get_all COOKIE = [] := by
  have huses := v.uses_cache
  simp only [Entry.uses_cache, Bool.and_eq_true, List.isEmpty_iff] at huses
  exact huses.2

/-- What is on the shelf came from an answer to a request, and was fit to be shared then. -/
structure Stored.Filled (c : Caching HashBinary)
    (st : Stored HashBinary e parse crates escape_debug) : Prop where
  primary : st.primary = (cache_key_callback st.visit.lookup).primary
  variance : st.variance
    = cache_vary_filter c.builder crates e.gateway st.response.headers st.visit.lookup
  fit : Shareable c crates st.answer.headers st.visit.authorized
  made : c.resp_cacheable (c.from_resp_headers st.answer.headers) st.answer st.visit.authorized
    = some st.response

theorem filled_of_stored {v : Visit e parse crates escape_debug} {answer : Response}
    {st : Stored HashBinary e parse crates escape_debug} (h : stored c v answer = some st) :
    st.Filled c := by
  obtain ⟨response, hfilter, rfl⟩ := Option.map_eq_some_iff.mp h
  unfold response_cache_filter at hfilter
  split at hfilter
  · rename_i hfit
    exact ⟨rfl, rfl, eligible_iff.mp hfit, hfilter⟩
  · cases hfilter

/-- Two requests that a stored response answers have sent the same in what it varies by. -/
theorem sent_eq_of_stored {st : Stored HashBinary e parse crates escape_debug}
    {v : Visit e parse crates escape_debug} (hfilled : st.Filled c)
    (hvariance : st.variance
      = cache_vary_filter c.builder crates e.gateway st.response.headers v.lookup)
    {target target' : Str} {out out' : HeaderMap} {fields : List Str}
    (hout : e.gateway.upstream_request_filter crates target v.ctx.plan v.arrival.request.headers
      = .ok out)
    (hout' : e.gateway.upstream_request_filter crates target' st.visit.ctx.plan
      st.visit.arrival.request.headers = .ok out')
    (hfields : vary_fields crates st.response.headers = some fields) :
    ∀ n ∈ fields, n ≠ HOST → out.get_all n = out'.get_all n := by
  intro n hn hhost
  cases hhash : st.variance with
  | some hash =>
    exact sent_eq_of_variance_eq (hvariance.symm.trans hhash) (hfilled.variance.symm.trans hhash)
      hout hout' hfields hn hhost
  | none =>
    -- Only a response that varies by nothing has no variance.
    rw [hhash, cache_vary_filter, variance, hfields] at hvariance
    have hnone := c.finalize_none hvariance.symm
    rw [List.map_eq_nil_iff] at hnone
    rw [hnone] at hn
    exact absurd hn List.not_mem_nil

/-- What is so of a request that is answered with a stored response. -/
structure Shared (c : Caching HashBinary) (v : Visit e parse crates escape_debug)
    (st : Stored HashBinary e parse crates escape_debug) : Prop where
  table : v.table.cache_namespace = st.visit.table.cache_namespace
  route : v.ctx.route.id = st.visit.ctx.route.id
    ∧ v.ctx.route.upstream = st.visit.ctx.route.upstream
  place : lower_host v.arrival.request.headers = lower_host st.visit.arrival.request.headers
    ∧ v.arrival.request.method = st.visit.arrival.request.method
    ∧ path_and_query v.arrival = path_and_query st.visit.arrival
  /-- The upstream could not have told them apart by what its response varies by. -/
  sent : ∀ target target' out out' fields,
    e.gateway.upstream_request_filter crates target v.ctx.plan v.arrival.request.headers = .ok out →
    e.gateway.upstream_request_filter crates target' st.visit.ctx.plan
      st.visit.arrival.request.headers = .ok out' →
    vary_fields crates st.response.headers = some fields →
    ∀ n ∈ fields, n ≠ HOST → out.get_all n = out'.get_all n
  cookies : v.arrival.request.headers.get_all COOKIE = []
    ∧ st.visit.arrival.request.headers.get_all COOKIE = []
    ∧ st.response.headers.get_all SET_COOKIE = [] ∧ st.answer.headers.get_all SET_COOKIE = []
  not_private : ∀ cc ∈ c.from_resp_headers st.response.headers,
    cc.private = false ∧ cc.no_store = false
  not_private_then : ∀ cc ∈ c.from_resp_headers st.answer.headers,
    cc.private = false ∧ cc.no_store = false
  /-- Between users only what their upstream has said may be shared. -/
  allowed : v.ctx.identity ≠ none →
    ∃ cc ∈ c.from_resp_headers st.response.headers, cc.allow_caching_authorized_req = true
  allowed_then : st.visit.ctx.identity ≠ none →
    ∃ cc ∈ c.from_resp_headers st.answer.headers, cc.allow_caching_authorized_req = true

variable [DecidableEq HashBinary]

theorem shared_of_answers {st : Stored HashBinary e parse crates escape_debug}
    {v : Visit e parse crates escape_debug} (hfilled : st.Filled c)
    (h : st.answers c v = true) : Shared c v st := by
  unfold Stored.answers at h
  simp only [Bool.and_eq_true, beq_iff_eq] at h
  obtain ⟨⟨hprimary, hvariance⟩, heligible⟩ := h
  have hfit := eligible_iff.mp heligible
  obtain ⟨htable, hroute, hupstream, hplace⟩ :=
    cache_key_callback_parts (hprimary.symm.trans hfilled.primary)
  exact {
    table := htable
    route := ⟨hroute, hupstream⟩
    place := hplace
    sent := fun _ _ _ _ _ hout hout' hfields =>
      sent_eq_of_stored hfilled hvariance hout hout' hfields
    cookies := ⟨v.no_cookie, st.visit.no_cookie, hfit.no_cookie, hfilled.fit.no_cookie⟩
    not_private := hfit.not_private
    not_private_then := hfilled.fit.not_private
    allowed := fun hid => hfit.allowed (Visit.authorized_of_identity hid)
    allowed_then := fun hid => hfilled.fit.allowed (Visit.authorized_of_identity hid) }

/-- Every event leaves only what was filled by an event. -/
theorem shelf_step_filled {shelf shelf' : List (Stored HashBinary e parse crates escape_debug)}
    {before : List (Event e parse crates escape_debug)} {event : Event e parse crates escape_debug}
    (h : shelf_step c shelf event = some shelf')
    (hfilled : ∀ st ∈ shelf, st.Filled c ∧ .fill st.visit st.answer ∈ before) :
    ∀ st ∈ shelf', st.Filled c ∧ .fill st.visit st.answer ∈ before ++ [event] := by
  have hkept : ∀ st ∈ shelf, st.Filled c ∧ .fill st.visit st.answer ∈ before ++ [event] :=
    fun st hst => (hfilled st hst).imp_right (List.mem_append_left [event])
  cases event with
  | fill v answer =>
    cases h
    intro st hst
    obtain hnew | hold := List.mem_append.mp hst
    · have hnew := Option.mem_toList.mp hnew
      obtain ⟨_, -, rfl⟩ := Option.map_eq_some_iff.mp hnew
      exact ⟨filled_of_stored hnew, List.mem_append_right before List.mem_cons_self⟩
    · exact hkept st hold
  | hit v index =>
    obtain ⟨-, ⟨⟩⟩ := Option.ite_none_right_eq_some.mp h
    exact hkept
  | evict index =>
    cases h
    exact fun st hst => hkept st (List.mem_of_mem_eraseIdx hst)

/-- **A hit is what its upstream would have shared.** Whatever fills, hits and evictions came
before, a request that is answered from the cache shares what is stored with the one that it was
for. -/
theorem hits_shareable {before : List (Event e parse crates escape_debug)}
    {shelf shelf' : List (Stored HashBinary e parse crates escape_debug)}
    (hrun : run (shelf_step c) [] before = some shelf)
    {v : Visit e parse crates escape_debug} {index : ℕ}
    (hhit : shelf_step c shelf (.hit v index) = some shelf') :
    ∃ st, shelf[index]? = some st ∧ .fill st.visit st.answer ∈ before ∧ Shared c v st := by
  have halong : Along (shelf_step c) (fun _ _ => True) [] before :=
    along_of_forall fun _ _ _ => trivial
  have hfilled : ∀ st ∈ shelf, st.Filled c ∧ .fill st.visit st.answer ∈ before :=
    run_induction (P := fun es shelf => ∀ st ∈ shelf, st.Filled c
        ∧ .fill st.visit st.answer ∈ es)
      (List.forall_mem_nil _) (fun _ _ _ _ _ hfilled _ hstep => shelf_step_filled hstep hfilled)
      hrun halong
  obtain ⟨hfound, -⟩ := Option.ite_none_right_eq_some.mp hhit
  rw [Option.any_eq_true] at hfound
  obtain ⟨st, hst, hanswers⟩ := hfound
  obtain ⟨hmade, hevent⟩ := hfilled st (List.mem_of_getElem? hst)
  exact ⟨st, hst, hevent, shared_of_answers hmade hanswers⟩

end

namespace TwoReaders

/-- The profiles of users are cached. -/
def route : RouteInput where
  path_prefix := "users".toList
  upstream := "users".toList
  cache := true

def table : RouteTable :=
  (RouteTable.build_with 7
    { internal := [], machine := [], optional := [], «public» := []
      authenticated := [RouteConfig.of_input route] }
    { rate_limit := none, retry := none, methods := none } false).partition_by_listener.1

/-- `Bearer a` and `Bearer b`. -/
def tokens : HeaderValue × HeaderValue :=
  (⟨utf8_bytes "Bearer a".toList, by decide +kernel⟩,
    ⟨utf8_bytes "Bearer b".toList, by decide +kernel⟩)

def arrival (token : HeaderValue) : Arrival where
  request :=
    { method := "GET".toList
      path := "/users/7".toList
      headers := of_fields
        [("Authorization".toList, token), ("Accept-Language".toList, TwoVisits.de)] }
  query := none
  peer := none
  draws := CappedUsers.arrival.draws

/-- `request_filter`, for a reader whose token is good. -/
def filter (token : HeaderValue) : Asking ℕ Consult Halt Admitted :=
  CappedUsers.entry.request_filter CappedUsers.outside AppWrites.parse plain_crates (fun c => [c])
    table (arrival token)

def ctx (token : HeaderValue) (h : ((filter token).result 0).toOption.isSome = true) : Admitted :=
  ((filter token).result 0).toOption.get h

theorem passes (token : HeaderValue) (h : ((filter token).result 0).toOption.isSome = true) :
    (filter token).Passes 0 ((filter token).asked 0) ((filter token).after 0) (ctx token h) := by
  obtain ⟨a, hpasses⟩ | ⟨halt, hfails⟩ := passes_or_fails (filter token) 0
  · have hctx : ctx token h = a := by
      unfold ctx
      simp only [hpasses.result, Except.toOption, Option.get_some]
    rw [hctx]
    exact hpasses
  · rw [hfails.result] at h
    cases h

def alice : Visit CappedUsers.entry AppWrites.parse plain_crates fun c => [c] where
  table := table
  arrival := arrival tokens.1
  ctx := ctx tokens.1 (by decide +kernel)
  passes := ⟨ℕ, CappedUsers.outside, 0, _, _, passes tokens.1 (by decide +kernel)⟩
  uses_cache := by decide +kernel
  uuid_range := by decide +kernel
  texts_fit := by decide +kernel
  plan_fits := by decide +kernel
  headers_fit := by decide +kernel

def bob : Visit CappedUsers.entry AppWrites.parse plain_crates fun c => [c] where
  table := table
  arrival := arrival tokens.2
  ctx := ctx tokens.2 (by decide +kernel)
  passes := ⟨ℕ, CappedUsers.outside, 0, _, _, passes tokens.2 (by decide +kernel)⟩
  uses_cache := by decide +kernel
  uuid_range := by decide +kernel
  texts_fit := by decide +kernel
  plan_fits := by decide +kernel
  headers_fit := by decide +kernel

/-- A `Cache-Control` of `public` alone is read, and what has it is stored as it is. -/
def caching : Caching (List (Str × List UInt8)) where
  builder := TwoVisits.builder
  finalize_none := by
    intro m h
    by_contra hm
    have hsome : TwoVisits.builder.finalize m = some m := if_neg hm
    rw [hsome] at h
    cases h
  from_resp_headers headers :=
    if header_str headers "cache-control".toList = some "public".toList then
      some ⟨false, false, true⟩
    else none
  resp_cacheable cc resp _ := cc.map fun _ => resp

theorem vary_valid : (utf8_bytes "Accept-Language".toList).all is_valid = true := by
  decide +kernel

/-- A profile for everyone, in a language. -/
def profile : Response where
  status := 200
  headers := of_fields
    [("Vary".toList, ⟨utf8_bytes "Accept-Language".toList, vary_valid⟩),
      ("Cache-Control".toList, ⟨utf8_bytes "public".toList, by decide +kernel⟩)]

end TwoReaders

open TwoReaders in
/-- Bob is shown the profile that was fetched for Alice. -/
theorem hits_shareable_two_readers : bob.ctx.identity ≠ none
    ∧ ∃ st, .fill st.visit st.answer ∈ [Event.fill alice profile] ∧ Shared caching bob st := by
  have hfound : ((stored caching alice profile).toList ++ [])[0]?.any (Stored.answers caching · bob)
      = true := by decide +kernel
  obtain ⟨st, -, hfill, hshared⟩ :=
    @hits_shareable _ caching _ _ _ _ _ [.fill alice profile] _ _ rfl bob 0 (if_pos hfound)
  exact ⟨by decide +kernel, st, hfill, hshared⟩

end Lagos.CachePolicy
