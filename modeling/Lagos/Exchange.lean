/-
How an exchange ends, and what is written then (`reject`, `response_filter` and `fail_to_proxy`
in `proxy.rs`).

`request_filter` works out once what the response to an origin says about it, before anything
can be refused. Refusals are written with it, and `response_filter` adds it to what comes from an
upstream or from the cache. An error goes another way: `fail_to_proxy` writes its answer with
`send`, which takes no such headers. So the cross-origin headers are on the response exactly if
the exchange does not end in an error, and the policy's own text can be written
(`carries_cors_iff`).

The stages after the machine credential, the cache and the upstream are a parameter: they may
end an exchange in any of the ways listed in `Exit`.
-/
import Lagos.AdmissionKeys
import Lagos.InternalListener
import Lagos.Jwks

set_option autoImplicit false

open RustStd

namespace Lagos.Error

/-- `Rejection::limit_key`. -/
def Rejection.limit_key (error : Admission.KeyError) : Rejection where
  status := 400
  body := envelope 400 "A valid policy key is required" "Bad Request"
  event := "gateway.limit_key.rejected"
  reason :=
    match error with
    | .Missing => "missing_limit_key"
    | .Invalid => "invalid_limit_key"

end Lagos.Error

namespace Lagos.Outbound

open Lagos.Admission Lagos.Config Lagos.CrossOrigin Lagos.Error Lagos.Headers Lagos.Routes
open Lagos.Auth (IdentityError)
open Lagos.Jwks (AuthError untrusted)

/-! ## The ways to end -/

/-- The calls of `reject` after the machine credential: in the rest of `request_filter`, in
`check_rate_limit`, and in `proxy_upstream_filter`. -/
inductive Refusal where
  | limit_key (error : KeyError)
  | rate_limited (retry : ℕ)
  | missing_client_key (header : Str)
  | invalid_client_key
  | ambiguous_authorization
  | cookie_origin (reason : String)
  | token_too_long
  | missing_bearer
  | no_verifier
  /-- `verify` failed, where a character of an issuer is quoted as `escape_debug` has it. -/
  | unverified (escape_debug : Char → Str) (error : AuthError)
  | bind_without_identity
  | binding_refused
  | undescribed (error : IdentityError)
  /-- An extension of the route refused the request. -/
  | extension (rejection : Rejection)
  | concurrency_limited (per_caller : Bool)
  | circuit_open (cooldown : ℕ)

/-- What is refused with. -/
def Refusal.rejection : Refusal → Rejection
  | .limit_key error => .limit_key error
  | .rate_limited retry => .rate_limited retry
  | .missing_client_key header => .missing_client_key header
  | .invalid_client_key => .invalid_client_key
  | .ambiguous_authorization => .invalid_token "ambiguous_authorization"
  | .cookie_origin reason => .forbidden "Cookie request origin is not permitted" reason
  | .token_too_long => .invalid_token "token_too_long"
  | .missing_bearer => .missing_bearer
  | .no_verifier => .unavailable "Authentication is not configured" "no_verifier"
  | .unverified escape_debug (.UnknownIssuer project) =>
    .unavailable "Token issuer is not configured on this gateway"
      s!"unknown_issuer_{untrusted escape_debug project}"
  | .unverified _ (.Unavailable detail) => .unavailable "Unable to verify credentials" detail
  | .unverified _ (.Invalid detail) => .invalid_token detail
  | .bind_without_identity => .forbidden "Forbidden" "bind_without_identity"
  | .binding_refused => .forbidden "Forbidden" "binding_refused"
  | .undescribed error => describe_rejection error
  | .extension rejection => rejection
  | .concurrency_limited per_caller => .concurrency_limited per_caller 1
  | .circuit_open cooldown => .circuit_open cooldown

/-- `ctx.retry_after` at that point. -/
def Refusal.retry_after : Refusal → Option ℕ
  | .rate_limited retry => some retry
  | .concurrency_limited _ => some 1
  | .circuit_open cooldown => some cooldown
  | _ => none

/-- `pingora::ErrorType`, as far as `fail_to_proxy` tells them apart. -/
inductive ErrorType where
  | ConnectTimedout
  | ReadTimedout
  | WriteTimedout
  | HTTPStatus (code : ℕ)
  /-- Any other, under its name. -/
  | named (name : String)
  deriving DecidableEq, Repr

/-- What `fail_to_proxy` makes of an error. -/
def ErrorType.rejection : ErrorType → Rejection
  | .ConnectTimedout | .ReadTimedout | .WriteTimedout => .gateway_timeout
  | .HTTPStatus code => if code = 413 then .payload_too_large else .upstream_failed "HTTPStatus"
  | .named name => .upstream_failed name

/-- How an exchange ends that was routed. -/
inductive Exit where
  | refused (refusal : Refusal)
  /-- The upstream or the cache responded, on a route that is an event stream or not. The body
  may have broken off. -/
  | answered (upstream_response : Response) (sse : Bool) (broken : Option ErrorType)
  /-- An error, before a response was written. -/
  | failed (e : ErrorType)

/-! ## What is written -/

/-- `Gateway::fail_to_proxy`, where this was written before. -/
def fail_to_proxy (crates : Crates) (response_written : Option Response) (rejection : Rejection) :
    Option Response :=
  match response_written with
  | some response => some response
  -- `send` passes no cross-origin headers on, although `ctx` has them.
  | none => (send crates rejection.status (crates.body_bytes rejection.body)).toOption

/-- What was to be written, or what is sent for the error that came of it. -/
def settle (crates : Crates) : Except Rejection Response → Option Response
  | .ok response => some response
  | .error rejection => fail_to_proxy crates none rejection

/-- The headers that keep intermediaries from buffering an event stream. -/
def sse_headers (sse : Bool) : CrossOrigin.Headers :=
  if sse then [("cache-control".toList, "no-cache".toList),
    ("x-accel-buffering".toList, "no".toList)]
  else []

/-- `Gateway::response_filter`. A `vary` is added to those of the upstream; any other header
takes the place of the upstream's. -/
def response_filter (crates : Crates) (cors : Option CrossOrigin.Headers) (sse : Bool)
    (upstream_response : Response) : Except Rejection Response := do
  let headers ← MultiMap.add_each (insertable crates) (fun name => name == "vary".toList)
    (cors.getD []) upstream_response.headers
  let headers ← MultiMap.insert_each (insertable crates) (sse_headers sse) headers
  return { upstream_response with headers := headers }

/-- The response of an exchange that ends like this. -/
def Exit.conclude (crates : Crates) (cors : Option CrossOrigin.Headers) : Exit → Option Response
  | .refused refusal =>
    settle crates (send_with_retry_after crates refusal.rejection.status
      (crates.body_bytes refusal.rejection.body) refusal.retry_after cors)
  | .answered upstream_response sse broken =>
    match response_filter crates cors sse upstream_response with
    | .error rejection => fail_to_proxy crates none rejection
    -- From here on a response was written, and an error of the body does not replace it.
    | .ok response =>
      match broken with
      | none => some response
      | some e => fail_to_proxy crates (some response) e.rejection
  | .failed e => fail_to_proxy crates none e.rejection

/-- The rest of an exchange, after the machine credential. -/
abbrev Onward := RouteConfig → Str → Request → Exit

/-- An exchange, from the request to what is written for it. -/
def Site.exchange (s : Site) (crates : Crates) (table : RouteTable) (rest : Onward)
    (req : Request) : Option Response :=
  match s.route_request table req with
  | .error stop => s.answer crates req stop
  | .ok (route, path) => (rest route path req).conclude crates (s.cors_headers req)

/-! ## What a response carries -/

/-- A response has these headers: its `vary` among others, and any other alone. -/
def Response.Carries (response : Response) (headers : CrossOrigin.Headers) : Prop :=
  ∀ p ∈ headers, ∃ v, HeaderValue.from_str p.2 = some v ∧ v ∈ response.headers.get_all p.1
    ∧ (p.1 ≠ "vary".toList → response.headers.get_all p.1 = [v])

/-- A text can be the value of a header. -/
def Writable (value : Str) : Prop := ∃ v, HeaderValue.from_str value = some v

/-- The names of `Cors::response`. -/
def CORS_NAMES : List Str :=
  ["access-control-allow-origin".toList, "access-control-allow-credentials".toList,
    "access-control-expose-headers".toList, "vary".toList]

/-- The names of the other headers that the gateway writes into responses. -/
def OTHER_NAMES : List Str :=
  ["content-type".toList, "content-length".toList, "retry-after".toList, "cache-control".toList,
    "x-accel-buffering".toList]

/-- The `http` crate takes the names that the gateway writes into responses. -/
def TakesNames (crates : Crates) : Prop :=
  ∀ name ∈ CORS_NAMES ++ OTHER_NAMES, crates.header_name name = true

section Values

variable {crates : Crates} {cors : Cors} {origin : Str} {headers : CrossOrigin.Headers}

theorem insertable_ok {name value : Str} {v : HeaderValue}
    (hname : crates.header_name name = true) :
    insertable crates name value = .ok v ↔ HeaderValue.from_str value = some v := by
  rw [insertable, if_neg (by rw [hname]; decide)]
  cases HeaderValue.from_str value with
  | none => exact iff_of_false nofun nofun
  | some w => rw [Except.ok.injEq, Option.some.injEq]

theorem writable_of_visible {value : Str} (h : value.all visible = true) : Writable value := by
  obtain ⟨v, hv, -⟩ := from_str_visible h
  exact ⟨v, hv⟩

/-- A number is written in digits. -/
theorem writable_number (n : ℕ) : Writable (toString n).toList := by
  refine writable_of_visible (List.all_eq_true.mpr fun c hc => ?_)
  have hdigit : c.isDigit = true := by
    refine Nat.isDigit_of_mem_toDigits (b := 10) (n := n) (by decide) (by decide) ?_
    rwa [← Nat.toList_repr]
  rw [Char.isDigit, Bool.and_eq_true] at hdigit
  have hlow : ' ' ≤ c :=
    Char.le_def.mpr (UInt32.le_trans (by decide) (of_decide_eq_true hdigit.1))
  have hhigh : c ≤ '~' :=
    Char.le_def.mpr (UInt32.le_trans (of_decide_eq_true hdigit.2) (by decide))
  simp [visible, hlow, hhigh]

/-- The names of the headers are those of the list that the policy asks for. -/
theorem names_response (h : cors.response origin = some headers) :
    (headers.map Prod.fst).Sublist CORS_NAMES := by
  obtain ⟨⟨value, varies⟩, -, rfl⟩ := Option.map_eq_some_iff.mp h
  have hnames : ∀ credentials expose varies : Bool,
      (["access-control-allow-origin".toList]
        ++ (if credentials then ["access-control-allow-credentials".toList] else [])
        ++ (if expose then ["access-control-expose-headers".toList] else [])
        ++ if varies then ["vary".toList] else []).Sublist CORS_NAMES := by decide
  have hmap : ∀ (wanted : Bool) (name value : Str),
      (header_if wanted name value).map Prod.fst = if wanted then [name] else [] := by
    intro wanted name value
    cases wanted <;> rfl
  rw [List.map_append, List.map_append, List.map_append, hmap, hmap, hmap]
  exact hnames _ _ _

/-- An allowed origin is told so. -/
theorem allow_origin_mem (h : cors.response origin = some headers) :
    ∃ value, ("access-control-allow-origin".toList, value) ∈ headers := by
  obtain ⟨⟨value, varies⟩, -, rfl⟩ := Option.map_eq_some_iff.mp h
  exact ⟨value, by simp⟩

/-- What is said of a readable origin can be written if the names to expose can. -/
theorem writable_response (h : cors.response origin = some headers)
    (horigin : origin.all visible = true) :
    (∀ p ∈ headers, Writable p.2) ↔ Writable (", ".toList.intercalate cors.expose) := by
  obtain ⟨⟨value, varies⟩, hallowed, rfl⟩ := Option.map_eq_some_iff.mp h
  have hvalue : Writable value := by
    unfold Cors.allow_origin at hallowed
    split at hallowed
    · cases hallowed
    · split at hallowed
      · cases hallowed
        exact writable_of_visible (by decide)
      · cases hallowed
        exact writable_of_visible horigin
  have hif : ∀ (wanted : Bool) (name value : Str),
      (∀ p ∈ header_if wanted name value, Writable p.2) ↔ (wanted = true → Writable value) := by
    intro wanted name value
    cases wanted <;> simp [header_if]
  have htrue : Writable "true".toList := writable_of_visible (by decide)
  have hvary : Writable "Origin".toList := writable_of_visible (by decide)
  rw [List.forall_mem_append, List.forall_mem_append, List.forall_mem_append, hif, hif, hif,
    List.forall_mem_singleton]
  constructor
  · rintro ⟨⟨-, hexpose⟩, -⟩
    -- An empty list is not written, and its text would be the empty one.
    by_cases hempty : cors.expose = []
    · rw [hempty]
      exact writable_of_visible (by decide)
    · exact hexpose (by simpa using hempty)
  · intro hexpose
    exact ⟨⟨⟨hvalue, fun _ => htrue⟩, fun _ => hexpose⟩, fun _ => hvary⟩

end Values

/-! ## Ends that carry them, and the one that does not -/

section Ends

variable {crates : Crates} {cors : Cors} {origin : Str} {headers : CrossOrigin.Headers}
  {body : List UInt8}

/-- Values that were added are carried, where only a `vary` is added to others. -/
theorem carries_of_add_each {more : Str → Bool} {kws : CrossOrigin.Headers} {m out : HeaderMap}
    (htaken : ∀ p ∈ kws, crates.header_name p.1 = true) (hnodup : (kws.map Prod.fst).Nodup)
    (hmore : ∀ name, more name = true → name = "vary".toList)
    (h : MultiMap.add_each (insertable crates) more kws m = .ok out) (status : ℕ)
    (body : List UInt8) :
    (⟨status, out, body⟩ : Response).Carries kws := by
  rintro ⟨name, value⟩ hp
  obtain ⟨v, hv, hall⟩ := (MultiMap.get_all_add_each hnodup h name).1 value hp
  refine ⟨v, (insertable_ok (htaken _ hp)).mp hv, ?_, fun hne => ?_⟩
  · rw [hall]
    exact List.mem_append_right _ List.mem_cons_self
  · have hreplaced : more name = false := by
      by_contra hadded
      exact hne (hmore name (by simpa using hadded))
    rw [hall, hreplaced]
    rfl

/-- Headers are added to a response exactly if their values can be written. -/
theorem add_each_iff_writable {more : Str → Bool} {kws : CrossOrigin.Headers} {m : HeaderMap}
    (htaken : ∀ p ∈ kws, crates.header_name p.1 = true) :
    (∃ out, MultiMap.add_each (insertable crates) more kws m = .ok out)
      ↔ ∀ p ∈ kws, Writable p.2 :=
  MultiMap.add_each_isOk.trans (forall₂_congr fun p hp => exists_congr fun _ =>
    insertable_ok (htaken p hp))

/-- What is sent for an error says nothing to an origin. -/
theorem fail_to_proxy_bare (h : cors.response origin = some headers) {rejection : Rejection}
    {response : Response} (hsent : fail_to_proxy crates none rejection = some response) :
    ¬ response.Carries headers := by
  intro hcarries
  obtain ⟨value, hmem⟩ := allow_origin_mem h
  obtain ⟨v, -, hv, -⟩ := hcarries _ hmem
  cases hsend : send crates rejection.status (crates.body_bytes rejection.body) with
  | error e =>
    rw [fail_to_proxy, hsend] at hsent
    cases hsent
  | ok sent =>
    rw [fail_to_proxy, hsend] at hsent
    cases hsent
    unfold send respond at hsend
    cases hinsert : MultiMap.insert_each (insertable crates)
        (body_headers (crates.body_bytes rejection.body)) ⟨[]⟩ with
    | error e =>
      rw [hinsert] at hsend
      cases hsend
    | ok m =>
      rw [hinsert] at hsend
      cases hsend
      have hnone := (MultiMap.get_all_insert_each
        (show ((body_headers (crates.body_bytes rejection.body)).map Prod.fst).Nodup from
          by simp [body_headers]) hinsert "access-control-allow-origin".toList).2
        (by simp [body_headers])
      rw [hnone] at hv
      cases hv

/-- Every end is an attempt to write, and `fail_to_proxy` where it fails. What was attempted
carries the headers; what is sent instead does not. -/
theorem settle_carries_iff (h : cors.response origin = some headers)
    {attempt : Except Rejection Response}
    (hcarries : ∀ response, attempt = .ok response → response.Carries headers) :
    (∃ response, settle crates attempt = some response ∧ response.Carries headers)
      ↔ ∃ response, attempt = .ok response := by
  cases attempt with
  | error rejection =>
    refine iff_of_false ?_ nofun
    rintro ⟨response, hsent, hcarried⟩
    exact fail_to_proxy_bare h hsent hcarried
  | ok response => exact iff_of_true ⟨response, rfl, hcarries _ rfl⟩ ⟨response, rfl⟩

theorem respond_eq_ok {status : ℕ} {written : CrossOrigin.Headers} {response : Response} :
    respond crates status written body = .ok response
      ↔ ∃ out, MultiMap.insert_each (insertable crates) written ⟨[]⟩ = .ok out
        ∧ response = ⟨status, out, body⟩ := by
  unfold respond
  cases MultiMap.insert_each (insertable crates) written ⟨[]⟩ with
  | error e => exact iff_of_false nofun nofun
  | ok out =>
    refine ⟨fun h => ⟨out, rfl, ?_⟩, ?_⟩
    · cases h
      rfl
    · rintro ⟨_, hout, rfl⟩
      cases hout
      rfl

/-- The headers of a refusal, in the order in which `send_with_retry_after` writes them. -/
def refusal_headers (body : List UInt8) (retry_after : Option ℕ) (cors : CrossOrigin.Headers) :
    CrossOrigin.Headers :=
  body_headers body ++ cors
    ++ retry_after.toList.map fun secs => ("retry-after".toList, (toString secs).toList)

theorem names_refusal (h : cors.response origin = some headers) (body : List UInt8)
    (retry_after : Option ℕ) :
    ((refusal_headers body retry_after headers).map Prod.fst).Sublist
      (["content-type".toList, "content-length".toList] ++ CORS_NAMES
        ++ ["retry-after".toList]) := by
  rw [refusal_headers, List.map_append, List.map_append]
  refine ((List.Sublist.refl _).append (names_response h)).append ?_
  cases retry_after with
  | none => exact List.nil_sublist _
  | some secs => exact List.Sublist.refl _

/-- Only the origin's own headers can be in the way of a refusal. -/
theorem writable_refusal (body : List UInt8) (retry_after : Option ℕ) :
    (∀ p ∈ refusal_headers body retry_after headers, Writable p.2)
      ↔ ∀ p ∈ headers, Writable p.2 := by
  have hbody : ∀ p ∈ body_headers body, Writable p.2 := by
    rw [body_headers, List.forall_mem_cons, List.forall_mem_singleton]
    exact ⟨writable_of_visible (by decide), writable_number _⟩
  have hretry : ∀ p ∈ retry_after.toList.map fun secs =>
      ("retry-after".toList, (toString secs).toList), Writable p.2 := by
    intro p hp
    obtain ⟨secs, -, rfl⟩ := List.mem_map.mp hp
    exact writable_number secs
  rw [refusal_headers, List.forall_mem_append, List.forall_mem_append]
  exact ⟨fun h => h.1.2, fun h => ⟨⟨hbody, h⟩, hretry⟩⟩

/-- **A refusal** is written with the headers of the origin if these can be written. -/
theorem refusal_carries_iff (hnames : TakesNames crates) (h : cors.response origin = some headers)
    (horigin : origin.all visible = true) (status : ℕ) (retry_after : Option ℕ) :
    (∃ response,
        settle crates (send_with_retry_after crates status body retry_after (some headers))
          = some response ∧ response.Carries headers)
      ↔ Writable (", ".toList.intercalate cors.expose) := by
  have hsublist := names_refusal h body retry_after
  have hwritten : ∀ name ∈ ["content-type".toList, "content-length".toList] ++ CORS_NAMES
      ++ ["retry-after".toList], name ∈ CORS_NAMES ++ OTHER_NAMES := by decide
  have htaken : ∀ p ∈ refusal_headers body retry_after headers, crates.header_name p.1 = true :=
    fun p hp => hnames _ (hwritten _ (hsublist.subset (List.mem_map_of_mem hp)))
  have hrespond : send_with_retry_after crates status body retry_after (some headers)
      = respond crates status (refusal_headers body retry_after headers) body := rfl
  rw [hrespond, settle_carries_iff h, ← writable_response h horigin,
    ← writable_refusal body retry_after, ← add_each_iff_writable htaken]
  · constructor
    · rintro ⟨response, hresponse⟩
      obtain ⟨out, hout, -⟩ := respond_eq_ok.mp hresponse
      exact ⟨out, (MultiMap.insert_each_eq _ _ _).symm.trans hout⟩
    · rintro ⟨out, hout⟩
      exact ⟨_, respond_eq_ok.mpr ⟨out, (MultiMap.insert_each_eq _ _ _).trans hout, rfl⟩⟩
  · intro response hresponse p hp
    obtain ⟨out, hout, rfl⟩ := respond_eq_ok.mp hresponse
    rw [MultiMap.insert_each_eq] at hout
    exact carries_of_add_each htaken (hsublist.nodup (by decide))
      (fun _ hmore => absurd hmore Bool.false_ne_true) hout status body p
      (List.mem_append_left _ (List.mem_append_right _ hp))

/-- **A response of the upstream or the cache** gets the headers of the origin if these can be
written, whatever it said about origins itself. -/
theorem answer_carries_iff (hnames : TakesNames crates) (h : cors.response origin = some headers)
    (horigin : origin.all visible = true) (upstream_response : Response) (sse : Bool) :
    (∃ response, settle crates (response_filter crates (some headers) sse upstream_response)
        = some response ∧ response.Carries headers)
      ↔ Writable (", ".toList.intercalate cors.expose) := by
  have hsublist := names_response h
  have htaken : ∀ p ∈ headers, crates.header_name p.1 = true := fun p hp =>
    hnames _ (List.mem_append_left _ (hsublist.subset (List.mem_map_of_mem hp)))
  have hsse_names : ∀ name ∈ (sse_headers sse).map Prod.fst,
      name ∈ OTHER_NAMES ∧ name ∉ CORS_NAMES := by
    revert sse
    decide
  have hsse_taken : ∀ p ∈ sse_headers sse, crates.header_name p.1 = true := fun p hp =>
    hnames _ (List.mem_append_right _ (hsse_names _ (List.mem_map_of_mem hp)).1)
  have hsse : ∀ p ∈ sse_headers sse, Writable p.2 := by
    cases sse with
    | false => exact List.forall_mem_nil _
    | true =>
      rw [sse_headers, if_pos rfl, List.forall_mem_cons, List.forall_mem_singleton]
      exact ⟨writable_of_visible (by decide), writable_of_visible (by decide)⟩
  rw [settle_carries_iff h, ← writable_response h horigin, ← add_each_iff_writable htaken]
  · constructor
    · rintro ⟨response, hresponse⟩
      obtain ⟨out, hout, -⟩ := bind_eq_ok.mp hresponse
      exact ⟨out, hout⟩
    · rintro ⟨out, hout⟩
      obtain ⟨final, hfinal⟩ : ∃ final,
          MultiMap.insert_each (insertable crates) (sse_headers sse) out = .ok final := by
        rw [MultiMap.insert_each_eq]
        exact (add_each_iff_writable hsse_taken).mpr hsse
      exact ⟨_, bind_eq_ok.mpr ⟨out, hout, bind_eq_ok.mpr ⟨final, hfinal, rfl⟩⟩⟩
  · intro response hresponse p hp
    obtain ⟨out, hout, hresponse⟩ := bind_eq_ok.mp hresponse
    obtain ⟨final, hfinal, hresponse⟩ := bind_eq_ok.mp hresponse
    cases hresponse
    have hkept : final.get_all p.1 = out.get_all p.1 := by
      refine (MultiMap.get_all_insert_each ?_ hfinal p.1).2 fun hmem => ?_
      · cases sse <;> decide
      · exact (hsse_names _ hmem).2 (hsublist.subset (List.mem_map_of_mem hp))
    have hcarried := carries_of_add_each htaken (hsublist.nodup (by decide))
      (fun name hname => by simpa using hname) hout 0 [] p hp
    dsimp only
    rw [hkept]
    exact hcarried

end Ends

/-! ## Every exchange -/

/-- An exchange that is routed ends in an error before a response was written. -/
def Site.Fails (s : Site) (table : RouteTable) (rest : Onward) (req : Request) : Prop :=
  ∃ route path e, s.route_request table req = .ok (route, path) ∧ rest route path req = .failed e

section Exchange

variable {crates : Crates} {s : Site} {table : RouteTable} {rest : Onward} {req : Request}
  {cors : Cors} {origin : Str} {headers : CrossOrigin.Headers}

/-- `ctx.cors` of a request from an origin that is allowed. -/
theorem cors_headers_eq (hcors : s.cors = some cors)
    (horigin : header_str req.headers "origin".toList = some origin)
    (hallowed : cors.response origin = some headers) : s.cors_headers req = some headers := by
  rw [Site.cors_headers, hcors, Option.bind_some, horigin, Option.bind_some, hallowed]

theorem answer_refused (rejection : Rejection) :
    s.answer crates req (.refused rejection)
      = settle crates (send_with_retry_after crates rejection.status
          (crates.body_bytes rejection.body) none (s.cors_headers req)) := by
  rw [Site.answer, Site.attempt]
  cases send_with_retry_after crates rejection.status (crates.body_bytes rejection.body) none
    (s.cors_headers req) <;> rfl

/-- What breaks off after a response was written changes nothing of it. -/
theorem conclude_answered (upstream_response : Response) (sse : Bool) (broken : Option ErrorType)
    (cors : Option CrossOrigin.Headers) :
    (Exit.answered upstream_response sse broken).conclude crates cors
      = settle crates (response_filter crates cors sse upstream_response) := by
  rw [Exit.conclude]
  cases response_filter crates cors sse upstream_response with
  | error rejection => rfl
  | ok response => cases broken <;> rfl

/-- The ends of a routed exchange. -/
theorem conclude_carries_iff (hnames : TakesNames crates)
    (hallowed : cors.response origin = some headers) (horigin : origin.all visible = true)
    (exit : Exit) :
    (∃ response, exit.conclude crates (some headers) = some response ∧ response.Carries headers)
      ↔ (∀ e, exit ≠ .failed e) ∧ Writable (", ".toList.intercalate cors.expose) := by
  cases exit with
  | refused refusal =>
    rw [Exit.conclude, refusal_carries_iff hnames hallowed horigin]
    exact (and_iff_right nofun).symm
  | answered upstream_response sse broken =>
    rw [conclude_answered, answer_carries_iff hnames hallowed horigin]
    exact (and_iff_right nofun).symm
  | failed e =>
    refine iff_of_false ?_ fun h => h.1 e rfl
    rintro ⟨response, hsent, hcarries⟩
    exact fail_to_proxy_bare hallowed hsent hcarries

/-- **An allowed origin is told so unless the exchange fails**: whatever else it ends in, a
refusal at any stage or a response of the upstream or the cache, the response has the headers of
`Cors::response`, if the policy's own text can be written. -/
theorem carries_cors_iff (crates : Crates) (s : Site) (table : RouteTable) (rest : Onward)
    (req : Request) (cors : Cors) (origin : Str) (headers : CrossOrigin.Headers)
    (hnames : TakesNames crates) (hcors : s.cors = some cors)
    (horigin : header_str req.headers "origin".toList = some origin)
    (hallowed : cors.response origin = some headers) (hhealth : req.path ≠ s.health_path)
    (hpreflight : ∀ answer, s.route_request table req ≠ .error (.preflight answer)) :
    (∃ response, s.exchange crates table rest req = some response ∧ response.Carries headers)
      ↔ ¬ s.Fails table rest req ∧ Writable (", ".toList.intercalate cors.expose) := by
  have hreadable : origin.all visible = true := by
    obtain ⟨v, -, hv⟩ := Option.bind_eq_some_iff.mp horigin
    exact visible_of_to_str hv
  have hctx := cors_headers_eq hcors horigin hallowed
  rw [Site.exchange]
  cases hrouted : s.route_request table req with
  | error stop =>
    have hstands : ¬ s.Fails table rest req := by
      rintro ⟨route, path, e, hok, -⟩
      rw [hrouted] at hok
      cases hok
    cases stop with
    | health routes =>
      cases stops_of_error hrouted with
      | health h => exact absurd h hhealth
    | preflight answer => exact absurd hrouted (hpreflight answer)
    | refused rejection =>
      dsimp only
      rw [answer_refused, hctx, refusal_carries_iff hnames hallowed hreadable]
      exact (and_iff_right hstands).symm
  | ok routed =>
    obtain ⟨route, path⟩ := routed
    have hfails : s.Fails table rest req ↔ ∃ e, rest route path req = .failed e := by
      constructor
      · rintro ⟨route', path', e, hok, hfailed⟩
        rw [hrouted] at hok
        cases hok
        exact ⟨e, hfailed⟩
      · rintro ⟨e, hfailed⟩
        exact ⟨route, path, e, hrouted, hfailed⟩
    dsimp only
    rw [hctx, conclude_carries_iff hnames hallowed hreadable, hfails, not_exists]

end Exchange

namespace SlowUpstream

/-- One application may read the responses, and the id of its requests. -/
def policy : CorsConfig where
  origins := ["https://app.test".toList]
  expose := ["x-request-id".toList]
  credentials := true

def cors : Cors where
  rules := [.Exact "https://app.test".toList]
  methods := policy.methods
  headers := policy.headers
  expose := policy.expose
  credentials := true
  max_age := 600
  wildcard_without_credentials := false

def site : Site := { ReservedTwice.site with cors := (Cors.compile policy).toOption }

def request : Request where
  method := "GET".toList
  path := "/users/7".toList
  headers := of_fields
    [("Origin".toList, ⟨utf8_bytes "https://app.test".toList, by decide +kernel⟩)]

/-- What the application is to be told. -/
def headers : CrossOrigin.Headers :=
  [("access-control-allow-origin".toList, "https://app.test".toList),
    ("access-control-allow-credentials".toList, "true".toList),
    ("access-control-expose-headers".toList, "x-request-id".toList),
    ("vary".toList, "Origin".toList)]

theorem plain_names : TakesNames plain_crates := by
  unfold TakesNames
  decide +kernel

theorem routed :
    ∃ route path, site.route_request ReservedTwice.table request = .ok (route, path) := by
  have hok : (site.route_request ReservedTwice.table request).toOption.isSome = true := by
    decide +kernel
  cases h : site.route_request ReservedTwice.table request with
  | error stop =>
    rw [h] at hok
    cases hok
  | ok found => exact ⟨found.1, found.2, rfl⟩

end SlowUpstream

open SlowUpstream in
/-- The application can read that it asked too often. -/
theorem carries_cors_iff_throttled :
    ∃ response, SlowUpstream.site.exchange plain_crates ReservedTwice.table
        (fun _ _ _ => .refused (.rate_limited 30)) SlowUpstream.request = some response
      ∧ response.Carries SlowUpstream.headers := by
  obtain ⟨route, path, hrouted⟩ := routed
  refine (carries_cors_iff plain_crates SlowUpstream.site ReservedTwice.table
    (fun _ _ _ => .refused (.rate_limited 30)) SlowUpstream.request SlowUpstream.cors
    "https://app.test".toList SlowUpstream.headers plain_names (by decide +kernel)
    (by decide +kernel) (by decide +kernel) (by decide +kernel) ?_).mpr ⟨?_, ?_⟩
  · intro answer h
    rw [hrouted] at h
    cases h
  · rintro ⟨_, _, e, -, hfailed⟩
    cases hfailed
  · exact writable_of_visible (by decide +kernel)

open SlowUpstream in
/-- It cannot read that the upstream took too long to answer. -/
theorem slow_upstream_unreadable :
    ¬ ∀ (crates : Crates) (s : Site) (table : RouteTable) (rest : Onward) (req : Request)
      (cors : Cors) (origin : Str) (headers : CrossOrigin.Headers), TakesNames crates →
      s.cors = some cors → header_str req.headers "origin".toList = some origin →
      cors.response origin = some headers → req.path ≠ s.health_path →
      (∀ answer, s.route_request table req ≠ .error (.preflight answer)) →
      ∃ response, s.exchange crates table rest req = some response
        ∧ response.Carries headers := by
  intro h
  obtain ⟨route, path, hrouted⟩ := routed
  have hallowed : SlowUpstream.cors.response "https://app.test".toList
      = some SlowUpstream.headers := by decide +kernel
  obtain ⟨response, hsent, hcarries⟩ := h plain_crates SlowUpstream.site ReservedTwice.table
    (fun _ _ _ => .failed .ReadTimedout) SlowUpstream.request SlowUpstream.cors
    "https://app.test".toList SlowUpstream.headers plain_names (by decide +kernel)
    (by decide +kernel) hallowed (by decide +kernel) (by
      intro answer hstop
      rw [hrouted] at hstop
      cases hstop)
  rw [Site.exchange, hrouted] at hsent
  have hfailed : fail_to_proxy plain_crates none ErrorType.ReadTimedout.rejection
      = some response := hsent
  exact fail_to_proxy_bare hallowed hfailed hcarries

end Lagos.Outbound
