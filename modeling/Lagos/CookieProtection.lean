/-
Where a write must come from that is made with a cookie (`csrf.rs`, and the choice of the token
in `request_filter`).

A browser sends a cookie whoever asks it to, so a request whose token is a cookie's has to say
which page it comes from. `check` compares the one `Origin` with the configured ones, or the one
`Referer` where there is no `Origin` and the configuration says so (`check_ok_iff`). It is asked
only where the token is a cookie's: on every way through `read_token` to the verifier with such a
token it was asked, and on none with a token of the header (`cookie_writes_from_listed_origins`).

The `url` crate is a parameter: `parse` gives what `origin` reads of a URL.
-/
import Lagos.CookieStripping
import Lagos.Exchange
import Lagos.TokenCookies

set_option autoImplicit false

open RustStd

namespace Lagos.Csrf

open Lagos.Config Lagos.Headers

/-! ## Origins -/

/-- `url::Url`, as far as `origin` reads it. -/
structure Url where
  scheme : Str
  host_str : Option Str
  username : Str
  password : Option Str
  path : Str
  query : Option Str
  fragment : Option Str
  /-- `Url::origin`, with `ascii_serialization`. -/
  origin : Str
  deriving DecidableEq, Repr

/-- A byte that `origin` takes in no URL. -/
def is_excluded (b : UInt8) : Bool := b ≤ 0x20 || b == 0x7f || b == 0x5c

/-- What `origin` refuses in a URL that parses. -/
def Url.is_refused (url : Url) (referer : Bool) : Bool :=
  !(url.scheme == "http".toList || url.scheme == "https".toList) || url.host_str.isNone
    || !url.username.isEmpty || url.password.isSome
    || (!referer && (url.path != "/".toList || url.query.isSome || url.fragment.isSome))

/-- `origin`. -/
def origin (parse : Str → Option Url) (raw : Str) (referer : Bool) : Option Str :=
  if raw.contains '*' || len raw > 2048 || (utf8_bytes raw).any is_excluded then none
  else (parse raw).bind fun url => if url.is_refused referer then none else some url.origin

/-- `single`. -/
def single (headers : HeaderMap) (name : Str) : Except String (Option Str) :=
  match headers.get_all name with
  | [] => .ok none
  | [value] =>
    match value.to_str with
    | some raw => .ok (some raw)
    | none => .error "cookie_origin_denied"
  | _ :: _ :: _ => .error "cookie_origin_ambiguous"

/-! ## The policy -/

/-- `CookieProtectionConfig`. -/
structure CookieProtectionConfig where
  origins : List Str
  referer_fallback : Bool := false
  deriving DecidableEq, Repr

/-- `CookieProtection`. -/
structure CookieProtection where
  origins : List Str
  referer_fallback : Bool
  deriving DecidableEq, Repr

/-- One origin of the configuration, in `CookieProtection::compile`. -/
def exact_origin (parse : Str → Option Url) (raw : Str) : Except String Str :=
  match origin parse raw false with
  | some o => .ok o
  | none =>
    .error "origins must be exact HTTP(S) origins without credentials, paths or wildcards"

/-- `CookieProtection::compile`. -/
def CookieProtection.compile (parse : Str → Option Url) (config : CookieProtectionConfig) :
    Except String CookieProtection :=
  if config.origins.isEmpty then .error "origins must not be empty"
  else do
    let origins ← config.origins.mapM (exact_origin parse)
    return { origins := origins, referer_fallback := config.referer_fallback }

def ORIGIN : Str := "origin".toList

def REFERER : Str := "referer".toList

/-- The methods that change nothing. -/
def SAFE_METHODS : List Str := ["GET".toList, "HEAD".toList, "OPTIONS".toList, "TRACE".toList]

/-- The origin a request says it comes from, in `CookieProtection::check`. -/
def CookieProtection.candidate (self : CookieProtection) (parse : Str → Option Url)
    (headers : HeaderMap) : Except String (Option Str) := do
  match ← single headers ORIGIN with
  | some raw => return origin parse raw false
  -- Only where there is no `Origin` at all; one that cannot be read is refused by `single`.
  | none =>
    if self.referer_fallback then
      return (← single headers REFERER).bind fun raw => origin parse raw true
    else .error "cookie_origin_required"

/-- `CookieProtection::check`. -/
def CookieProtection.check (self : CookieProtection) (parse : Str → Option Url)
    (headers : HeaderMap) (method : Str) : Except String Unit :=
  if method ∈ SAFE_METHODS then .ok ()
  else do
    match ← self.candidate parse headers with
    | some candidate =>
      if candidate ∈ self.origins then .ok () else .error "cookie_origin_denied"
    | none => .error "cookie_origin_denied"

/-! ## What it lets pass -/

/-- A text is the URL of an origin: of a page with a host and no credentials, and, unless it is a
referer, of nothing below it. -/
structure Names (parse : Str → Option Url) (referer : Bool) (raw : Str) (url : Url) : Prop where
  no_wildcard : '*' ∉ raw
  short : len raw ≤ 2048
  clean : ∀ b ∈ utf8_bytes raw, is_excluded b = false
  parses : parse raw = some url
  scheme : url.scheme = "http".toList ∨ url.scheme = "https".toList
  host : url.host_str ≠ none
  no_user : url.username = []
  no_password : url.password = none
  bare : referer = false → url.path = "/".toList ∧ url.query = none ∧ url.fragment = none

/-- The one field of a name, and what it reads as. -/
def Reads (headers : HeaderMap) (name raw : Str) : Prop :=
  ∃ v, headers.get_all name = [v] ∧ v.to_str = some raw

/-- The origin of a URL is one of those configured. -/
def CookieProtectionConfig.Lists (config : CookieProtectionConfig) (parse : Str → Option Url)
    (referer : Bool) (raw : Str) : Prop :=
  ∃ url, Names parse referer raw url
    ∧ ∃ written ∈ config.origins, ∃ listed, Names parse false written listed
      ∧ listed.origin = url.origin

/-- A request says, once and readably, that it comes from a page of a configured origin. -/
def CookieProtectionConfig.Trusts (config : CookieProtectionConfig) (parse : Str → Option Url)
    (headers : HeaderMap) : Prop :=
  (∃ raw, Reads headers ORIGIN raw ∧ config.Lists parse false raw)
    ∨ config.referer_fallback = true ∧ headers.get_all ORIGIN = []
      ∧ ∃ raw, Reads headers REFERER raw ∧ config.Lists parse true raw

section Check

variable {parse : Str → Option Url} {config : CookieProtectionConfig} {policy : CookieProtection}
  {headers : HeaderMap} {referer : Bool} {raw name : Str}

theorem is_refused_eq_false {url : Url} :
    url.is_refused referer = false
      ↔ (url.scheme = "http".toList ∨ url.scheme = "https".toList) ∧ url.host_str ≠ none
        ∧ url.username = [] ∧ url.password = none
        ∧ (referer = false → url.path = "/".toList ∧ url.query = none ∧ url.fragment = none) := by
  unfold Url.is_refused
  cases referer <;> cases url.host_str <;> cases url.password <;>
    simp [and_assoc, or_iff_not_imp_left]

/-- `origin` reads the origin of a URL that names one, -/
theorem origin_eq_some {o : Str} :
    origin parse raw referer = some o ↔ ∃ url, Names parse referer raw url ∧ url.origin = o := by
  unfold origin
  constructor
  · intro h
    split at h
    · cases h
    · rename_i hplain
      obtain ⟨hwild, hshort, hclean⟩ : '*' ∉ raw ∧ len raw ≤ 2048
          ∧ ∀ b ∈ utf8_bytes raw, is_excluded b = false := by
        simpa [and_assoc] using hplain
      obtain ⟨url, hparses, h⟩ := Option.bind_eq_some_iff.mp h
      split at h
      · cases h
      · rename_i hrefused
        obtain ⟨hscheme, hhost, huser, hpassword, hbare⟩ :=
          is_refused_eq_false.mp (Bool.eq_false_of_not_eq_true hrefused)
        exact ⟨url, ⟨hwild, hshort, hclean, hparses, hscheme, hhost, huser, hpassword, hbare⟩,
          Option.some.inj h⟩
  · rintro ⟨url, h, rfl⟩
    have hplain : (raw.contains '*' || len raw > 2048 || (utf8_bytes raw).any is_excluded)
        = false := by
      simpa [and_assoc] using And.intro h.no_wildcard (And.intro h.short h.clean)
    have hrefused := is_refused_eq_false.mpr ⟨h.scheme, h.host, h.no_user, h.no_password, h.bare⟩
    rw [hplain, if_neg Bool.false_ne_true, h.parses, Option.bind_some, hrefused,
      if_neg Bool.false_ne_true]

theorem lists_iff (h : CookieProtection.compile parse config = .ok policy) :
    config.Lists parse referer raw ↔ ∃ o ∈ policy.origins, origin parse raw referer = some o := by
  unfold CookieProtection.compile at h
  split at h
  · cases h
  · obtain ⟨origins, horigins, h⟩ := bind_eq_ok.mp h
    cases h
    have hmem : ∀ o, o ∈ origins
        ↔ ∃ written ∈ config.origins, origin parse written false = some o := by
      intro o
      rw [mem_of_mapM_ok horigins]
      refine exists_congr fun written => and_congr_right fun _ => ?_
      rw [exact_origin]
      cases origin parse written false with
      | none => exact iff_of_false nofun nofun
      | some o' => simp
    constructor
    · rintro ⟨url, hurl, written, hwritten, listed, hlisted, horigin⟩
      have ho : origin parse written false = some url.origin :=
        origin_eq_some.mpr ⟨listed, hlisted, horigin⟩
      exact ⟨url.origin, (hmem _).mpr ⟨written, hwritten, ho⟩,
        origin_eq_some.mpr ⟨url, hurl, rfl⟩⟩
    · rintro ⟨o, ho, hraw⟩
      obtain ⟨url, hurl, rfl⟩ := origin_eq_some.mp hraw
      obtain ⟨written, hwritten, ho⟩ := (hmem _).mp ho
      obtain ⟨listed, hlisted, horigin⟩ := origin_eq_some.mp ho
      exact ⟨url, hurl, written, hwritten, listed, hlisted, horigin⟩

theorem fallback_of_compile (h : CookieProtection.compile parse config = .ok policy) :
    policy.referer_fallback = config.referer_fallback := by
  unfold CookieProtection.compile at h
  split at h
  · cases h
  · obtain ⟨origins, -, h⟩ := bind_eq_ok.mp h
    cases h
    rfl

/-- `single` gives the one field that can be read, -/
theorem single_eq_some : single headers name = .ok (some raw) ↔ Reads headers name raw := by
  unfold single Reads
  split
  · rename_i hnone
    simp [hnone]
  · rename_i value hone
    rw [hone]
    cases hread : value.to_str <;> simp [hread]
  · rename_i hmany
    simp [hmany]

/-- or says that there is none. -/
theorem single_eq_none : single headers name = .ok none ↔ headers.get_all name = [] := by
  unfold single
  split
  · rename_i hnone
    simp [hnone]
  · rename_i value hone
    rw [hone]
    cases value.to_str <;> simp
  · rename_i hmany
    simp [hmany]

/-- A request has a candidate where it says once where it comes from. -/
theorem candidate_eq_some {o : Str} :
    policy.candidate parse headers = .ok (some o)
      ↔ (∃ raw, Reads headers ORIGIN raw ∧ origin parse raw false = some o)
        ∨ policy.referer_fallback = true ∧ headers.get_all ORIGIN = []
          ∧ ∃ raw, Reads headers REFERER raw ∧ origin parse raw true = some o := by
  simp only [← single_eq_some, ← single_eq_none]
  unfold CookieProtection.candidate
  cases single headers ORIGIN with
  | error reason =>
    refine iff_of_false error_ne_ok ?_
    rintro (⟨raw, h, -⟩ | ⟨-, h, -⟩)
    · cases h
    · cases h
  | ok named =>
    cases named with
    | some raw =>
      constructor
      · exact fun h => .inl ⟨raw, rfl, Except.ok.inj h⟩
      · rintro (⟨raw', h, horigin⟩ | ⟨-, h, -⟩)
        · cases h
          exact congrArg Except.ok horigin
        · cases h
    | none =>
      cases policy.referer_fallback with
      | false =>
        refine iff_of_false error_ne_ok ?_
        rintro (⟨raw, h, -⟩ | ⟨h, -⟩)
        · cases h
        · cases h
      | true =>
        cases single headers REFERER with
        | error reason =>
          refine iff_of_false error_ne_ok ?_
          rintro (⟨raw, h, -⟩ | ⟨-, -, raw, h, -⟩)
          · cases h
          · cases h
        | ok page =>
          have hbind : Except.ok (ε := String) (page.bind fun raw => origin parse raw true)
              = .ok (some o) ↔ ∃ raw, page = some raw ∧ origin parse raw true = some o := by
            rw [Except.ok.injEq, Option.bind_eq_some_iff]
          refine hbind.trans ⟨?_, ?_⟩
          · rintro ⟨raw, rfl, horigin⟩
            exact .inr ⟨rfl, rfl, raw, rfl, horigin⟩
          · rintro (⟨raw, h, -⟩ | ⟨-, -, raw, h, horigin⟩)
            · cases h
            · exact ⟨raw, Except.ok.inj h, horigin⟩

/-- **What changes something with a cookie must come from a configured origin.** -/
theorem check_ok_iff (h : CookieProtection.compile parse config = .ok policy) {method : Str} :
    policy.check parse headers method = .ok ()
      ↔ method ∈ SAFE_METHODS ∨ config.Trusts parse headers := by
  have htrusts : config.Trusts parse headers
      ↔ ∃ o ∈ policy.origins, policy.candidate parse headers = .ok (some o) := by
    simp only [CookieProtectionConfig.Trusts, lists_iff h, candidate_eq_some,
      fallback_of_compile h]
    constructor
    · rintro (⟨raw, hreads, o, ho, horigin⟩ | ⟨hback, hnone, raw, hreads, o, ho, horigin⟩)
      · exact ⟨o, ho, .inl ⟨raw, hreads, horigin⟩⟩
      · exact ⟨o, ho, .inr ⟨hback, hnone, raw, hreads, horigin⟩⟩
    · rintro ⟨o, ho, ⟨raw, hreads, horigin⟩ | ⟨hback, hnone, raw, hreads, horigin⟩⟩
      · exact .inl ⟨raw, hreads, o, ho, horigin⟩
      · exact .inr ⟨hback, hnone, raw, hreads, o, ho, horigin⟩
  rw [htrusts]
  unfold CookieProtection.check
  by_cases hsafe : method ∈ SAFE_METHODS
  · rw [if_pos hsafe]
    exact iff_of_true rfl (.inl hsafe)
  · rw [if_neg hsafe, or_iff_right hsafe]
    cases policy.candidate parse headers with
    | error reason =>
      refine iff_of_false error_ne_ok ?_
      rintro ⟨_, _, h⟩
      cases h
    | ok candidate =>
      cases candidate with
      | none =>
        refine iff_of_false error_ne_ok ?_
        rintro ⟨_, _, h⟩
        cases h
      | some o =>
        by_cases ho : o ∈ policy.origins
        · exact iff_of_true (if_pos ho) ⟨o, ho, rfl⟩
        · refine iff_of_false (fun h => error_ne_ok ((if_neg ho).symm.trans h)) ?_
          rintro ⟨o', ho', h'⟩
          cases h'
          exact ho ho'

end Check

end Lagos.Csrf

namespace Lagos.Outbound

open Lagos.Admission Lagos.Config Lagos.Csrf Lagos.Error Lagos.Headers Lagos.Routes

/-! ## The token of a request -/

/-- `str::split_once(char::is_whitespace)`. -/
def split_once_blank (s : Str) : Option (Str × Str) :=
  match s.dropWhile fun c => !is_whitespace c with
  | [] => none
  | _ :: rest => some (s.takeWhile fun c => !is_whitespace c, rest)

/-- `bearer_token`. -/
def bearer_token (value : Str) : Option Str :=
  (split_once_blank (trim value)).bind fun parts =>
    if to_ascii_lowercase parts.1 = "bearer".toList then
      if (trim parts.2).isEmpty then none else some (trim parts.2)
    else none

/-- The configuration with its policy for cookies, which is the last that `resolve` checks. -/
def GatewayConfig.resolve_protected (parse : Str → Option Url) (crates : Crates)
    (cfg : GatewayConfig) (cookie_protection : Option CookieProtectionConfig) :
    Except ConfigError (ResolvedConfig × Option CookieProtection) := do
  let resolved ← cfg.resolve crates
  match cookie_protection with
  | none => return (resolved, none)
  | some policy =>
    if cfg.auth.token_cookies.isEmpty then
      invalid "auth.cookie_protection requires auth.token_cookies"
    else
      match CookieProtection.compile parse policy with
      | .ok compiled => return (resolved, some compiled)
      | .error e => invalid s!"auth.cookie_protection: {e}"

/-- `ctx.credential`: where the token of a request was found. -/
inductive Credential where
  | header
  | cookie
  deriving DecidableEq, Repr

/-- The fields that the token of a request is read with. -/
structure Door where
  site : Site
  cookie_protection : Option CookieProtection
  /-- `limits.max_token`. -/
  max_token : ℕ
  /-- Whether there is a verifier. -/
  has_verifier : Bool
  deriving DecidableEq, Repr

/-- How far a request gets in `request_filter`. -/
inductive Progress where
  | stopped (stop : Stop)
  | refused (refusal : Refusal)
  /-- It goes on without a token. -/
  | unsigned
  /-- The verifier is asked about the token. -/
  | verifying (token : Str) (credential : Credential)

/-- `cookie_token`, in `request_filter`. -/
def Door.cookie_token (d : Door) (headers : HeaderMap) : Option Str :=
  if d.site.gateway.cfg.raw.auth.token_cookies.isEmpty then none
  else Auth.cookie_token (readable_cookies headers) d.site.gateway.cfg.raw.auth.token_cookies

/-- `from_header`, in `request_filter`. -/
def header_token (headers : HeaderMap) : Option Str :=
  (header_str headers AUTHORIZATION).bind bearer_token

/-- The policy for cookies, asked where the token is a cookie's. -/
def Door.check_origin (d : Door) (parse : Str → Option Url) (req : Request) :
    Except Refusal Unit :=
  if (header_token req.headers).isNone && (d.cookie_token req.headers).isSome then
    match d.cookie_protection with
    | some policy => (policy.check parse req.headers req.method).mapError .cookie_origin
    | none => .ok ()
  else .ok ()

/-- The token of a request, if it has one: the header's before a cookie's. -/
def Door.presented (d : Door) (headers : HeaderMap) : Option (Str × Credential) :=
  match header_token headers with
  | some token => some (token, .header)
  | none => (d.cookie_token headers).map fun token => (token, .cookie)

/-- The token that is given to the verifier, in `request_filter`. -/
def Door.read_token (d : Door) (parse : Str → Option Url) (route : RouteConfig) (req : Request) :
    Except Refusal (Option (Str × Credential)) :=
  if route.auth.verifies = false then .ok none
  else if 1 < (req.headers.get_all AUTHORIZATION).length then .error .ambiguous_authorization
  else do
    d.check_origin parse req
    match d.presented req.headers with
    | some (token, credential) =>
      if d.max_token < len token then .error .token_too_long
      else if d.has_verifier then return some (token, credential)
      else .error .no_verifier
    | none => if route.auth = .Optional then return none else .error .missing_bearer

/-- The client key of a request, in `request_filter`. -/
def Gateway.check_client_key (g : Gateway) (crates : Crates) (route : RouteConfig) (path : Str)
    (headers : HeaderMap) : Except Refusal (Option Str) :=
  if g.serves_machine = false ∧ g.cfg.client_key_rule route path = .Required then
    let values := headers.get_all (to_ascii_lowercase (g.cfg.client_key_header.getD []))
    match (values.head?).filter fun v => !v.bytes.isEmpty with
    | none => .error (.missing_client_key (g.cfg.client_key_header.getD []))
    | some presented =>
      let presented := ClientKey.digest_of crates presented.bytes
      match (g.cfg.client_keys.find? fun key => key.matches presented).filter
          fun _ => values.length ≤ 1 with
      | none => .error .invalid_client_key
      | some key => .ok (some key.id)
  else .ok none

/-- The limits that need no identity: a key that cannot be made, or the seconds to wait. -/
abbrev FirstLimit := RouteConfig → Request → Except (KeyError ⊕ ℕ) Unit

/-- What is refused at a limit. -/
def limit_refusal : KeyError ⊕ ℕ → Refusal
  | .inl error => .limit_key error
  | .inr retry => .rate_limited retry

/-- `Gateway::request_filter`, as far as the verifier. -/
def Door.request_filter (d : Door) (parse : Str → Option Url) (crates : Crates)
    (limit : FirstLimit) (table : RouteTable) (req : Request) : Progress :=
  match d.site.route_request table req with
  | .error stop => .stopped stop
  | .ok (route, path) =>
    let token := do
      (limit route req).mapError limit_refusal
      let _ ← d.site.gateway.check_client_key crates route path req.headers
      d.read_token parse route req
    match token with
    | .error refusal => .refused refusal
    | .ok none => .unsigned
    | .ok (some (token, credential)) => .verifying token credential

/-- A listener whose configuration was accepted with a policy for cookies. -/
structure GuardedListener (parse : Str → Option Url) (crates : Crates) where
  cfg : GatewayConfig
  cookie_protection : CookieProtectionConfig
  resolved : ResolvedConfig
  policy : CookieProtection
  accepted : cfg.resolve_protected parse crates (some cookie_protection)
    = .ok (resolved, some policy)
  door : Door
  gateway_cfg : door.site.gateway.cfg = resolved
  door_policy : door.cookie_protection = some policy

section Token

variable {parse : Str → Option Url} {crates : Crates} {d : Door} {limit : FirstLimit}
  {table : RouteTable} {route : RouteConfig} {req : Request} {token : Str}

/-- The key that a request of the header policy is checked for. -/
theorem check_client_key_eq (g : Gateway) (cx : Ctx) (headers : HeaderMap) :
    (g.check_client_key crates cx.route cx.path headers).mapError Refusal.rejection
      = g.client_key_id crates cx headers := by
  unfold Gateway.check_client_key Gateway.client_key_id
  dsimp only
  split
  · generalize Option.filter _ (MultiMap.get_all headers _).head? = presented
    cases presented with
    | none => rfl
    | some presented =>
      dsimp only
      generalize Option.filter _ (List.find? _ g.cfg.client_keys) = key
      cases key with
      | none => rfl
      | some key => rfl
  · rfl

/-- The policy of an accepted configuration is the one that was written. -/
theorem GuardedListener.compiled (l : GuardedListener parse crates) :
    CookieProtection.compile parse l.cookie_protection = .ok l.policy := by
  obtain ⟨resolved, -, h⟩ := bind_eq_ok.mp l.accepted
  dsimp only at h
  split at h
  · cases h
  · cases hcompile : CookieProtection.compile parse l.cookie_protection with
    | error e =>
      rw [hcompile] at h
      cases h
    | ok policy =>
      rw [hcompile] at h
      cases h
      rfl

/-- The verifier is asked about a token of the header, or the policy was asked before. -/
theorem read_token_ok {credential : Credential}
    (h : d.read_token parse route req = .ok (some (token, credential))) :
    d.check_origin parse req = .ok () ∧ d.presented req.headers = some (token, credential) := by
  unfold Door.read_token at h
  split at h
  · cases h
  · split at h
    · cases h
    · obtain ⟨⟨⟩, hcheck, h⟩ := bind_eq_ok.mp h
      refine ⟨hcheck, ?_⟩
      cases hpresented : d.presented req.headers with
      | none =>
        rw [hpresented] at h
        dsimp only at h
        split at h
        · cases h
        · cases h
      | some presented =>
        rw [hpresented] at h
        dsimp only at h
        split at h
        · cases h
        · split at h
          · cases h
            rfl
          · cases h

/-- A token is a cookie's where the header has none. -/
theorem presented_cookie (h : d.presented req.headers = some (token, .cookie)) :
    header_token req.headers = none ∧ d.cookie_token req.headers = some token := by
  unfold Door.presented at h
  cases hheader : header_token req.headers with
  | some t =>
    rw [hheader] at h
    cases h
  | none =>
    rw [hheader] at h
    cases hcookie : d.cookie_token req.headers with
    | none =>
      rw [hcookie] at h
      cases h
    | some t =>
      rw [hcookie] at h
      cases h
      exact ⟨rfl, rfl⟩

/-- The policy is not asked where the header has a token. -/
theorem read_token_of_header (h : header_token req.headers = some token) {reason : String} :
    d.read_token parse route req ≠ .error (.cookie_origin reason) := by
  have hcheck : d.check_origin parse req = .ok () := by
    rw [Door.check_origin, h]
    rfl
  unfold Door.read_token
  intro hrefused
  split at hrefused
  · cases hrefused
  · split at hrefused
    · cases hrefused
    · rw [hcheck, Door.presented, h] at hrefused
      dsimp only [bind, Except.bind] at hrefused
      split at hrefused
      · cases hrefused
      · split at hrefused
        · cases hrefused
        · cases hrefused

theorem check_client_key_refusal {g : Gateway} {path : Str} {headers : HeaderMap}
    {refusal : Refusal} (h : g.check_client_key crates route path headers = .error refusal)
    (reason : String) : refusal ≠ .cookie_origin reason := by
  unfold Gateway.check_client_key at h
  dsimp only at h
  rintro rfl
  split at h
  · split at h
    · cases h
    · split at h
      · cases h
      · cases h
  · cases h

/-- The verifier is asked about what `read_token` gives, -/
theorem request_filter_verifying {credential : Credential}
    (h : d.request_filter parse crates limit table req = .verifying token credential) :
    ∃ route, d.read_token parse route req = .ok (some (token, credential)) := by
  unfold Door.request_filter at h
  split at h
  · cases h
  · rename_i route path hroute
    dsimp only at h
    split at h
    · cases h
    · cases h
    · rename_i htoken
      cases h
      obtain ⟨-, -, htoken⟩ := bind_eq_ok.mp htoken
      obtain ⟨-, -, htoken⟩ := bind_eq_ok.mp htoken
      exact ⟨route, htoken⟩

/-- and no other stage refuses a request for its cookies. -/
theorem request_filter_cookie_origin {reason : String}
    (h : d.request_filter parse crates limit table req = .refused (.cookie_origin reason)) :
    ∃ route, d.read_token parse route req = .error (.cookie_origin reason) := by
  unfold Door.request_filter at h
  split at h
  · cases h
  · rename_i route path hroute
    dsimp only at h
    split at h
    · rename_i refusal hrefused
      cases h
      -- The limits and the client key refuse with reasons of their own.
      obtain hlimit | ⟨-, -, hrefused⟩ := bind_eq_error.mp hrefused
      · cases hreached : limit route req with
        | error reached =>
          rw [hreached] at hlimit
          cases reached <;> cases hlimit
        | ok u =>
          rw [hreached] at hlimit
          cases hlimit
      · obtain hkey | ⟨-, -, hrefused⟩ := bind_eq_error.mp hrefused
        · exact absurd rfl (check_client_key_refusal hkey reason)
        · exact ⟨route, hrefused⟩
    · cases h
    · cases h

end Token

/-- **A write that is made with a cookie comes from a configured origin**, and one that is made
with a header is not asked. -/
theorem cookie_writes_from_listed_origins {parse : Str → Option Url} {crates : Crates}
    (l : GuardedListener parse crates) (limit : FirstLimit) (table : RouteTable) {req : Request}
    (hwrites : req.method ∉ SAFE_METHODS) :
    (∀ token, l.door.request_filter parse crates limit table req = .verifying token .cookie →
      (∃ raw, Reads req.headers ORIGIN raw ∧ l.cookie_protection.Lists parse false raw)
        ∨ l.cookie_protection.referer_fallback = true ∧ req.headers.get_all ORIGIN = []
          ∧ ∃ raw, Reads req.headers REFERER raw ∧ l.cookie_protection.Lists parse true raw)
      ∧ ((header_str req.headers AUTHORIZATION).bind bearer_token ≠ none →
        ∀ reason, l.door.request_filter parse crates limit table req
          ≠ .refused (.cookie_origin reason)) := by
  constructor
  · intro token h
    obtain ⟨route, htoken⟩ := request_filter_verifying h
    obtain ⟨hcheck, hpresented⟩ := read_token_ok htoken
    obtain ⟨hheader, hcookie⟩ := presented_cookie hpresented
    -- So it was the cookie's, and the policy was asked.
    rw [Door.check_origin, hheader, hcookie, l.door_policy] at hcheck
    simp only [Option.isNone_none, Option.isSome_some, Bool.and_self, if_true] at hcheck
    have hallowed : l.policy.check parse req.headers req.method = .ok () := by
      cases hpolicy : l.policy.check parse req.headers req.method with
      | ok u => rfl
      | error reason =>
        rw [hpolicy] at hcheck
        cases hcheck
    exact ((check_ok_iff l.compiled).mp hallowed).resolve_left hwrites
  · intro hheader reason h
    obtain ⟨token, htoken⟩ := Option.ne_none_iff_exists'.mp hheader
    obtain ⟨route, hrefused⟩ := request_filter_cookie_origin h
    exact read_token_of_header htoken hrefused

namespace AppWrites

/-- One URL, as the crate reads it. -/
def parse (raw : Str) : Option Url :=
  if raw = "https://app.test".toList then
    some {
      scheme := "https".toList
      host_str := some "app.test".toList
      username := []
      password := none
      path := "/".toList
      query := none
      fragment := none
      origin := "https://app.test".toList }
  else none

/-- Where the users are, on a route that asks for a token. -/
def table : RouteTable :=
  (RouteTable.build_with 0
    { internal := [], machine := [], optional := [], «public» := []
      authenticated := [RouteConfig.of_input { path_prefix := "users".toList
                                               upstream := "users".toList }] }
    { rate_limit := none, retry := none, methods := none } false).partition_by_listener.1

def policy : CookieProtection where
  origins := ["https://app.test".toList]
  referer_fallback := false

def listener : GuardedListener parse plain_crates where
  cfg := Session.config
  cookie_protection := { origins := ["https://app.test".toList] }
  resolved := Session.resolved
  policy := policy
  accepted := by decide +kernel
  door :=
    { site := { ReservedTwice.site with gateway := Gateway.of_listener Session.resolved false }
      cookie_protection := some policy
      max_token := 8192
      has_verifier := true }
  gateway_cfg := rfl
  door_policy := rfl

/-- `https://app.test`. -/
def app : HeaderValue :=
  ⟨[0x68, 0x74, 0x74, 0x70, 0x73, 0x3a, 0x2f, 0x2f, 0x61, 0x70, 0x70, 0x2e, 0x74, 0x65, 0x73,
    0x74], rfl⟩

/-- What a page of the application sends, with the cookie of its session. -/
def request : Request where
  method := "POST".toList
  path := "/users/7".toList
  headers := of_fields [("Origin".toList, app), ("Cookie".toList, Session.readable)]

end AppWrites

open AppWrites in
/-- What the application writes comes from it. -/
theorem cookie_write_from_app :
    ∃ raw, Reads AppWrites.request.headers ORIGIN raw
      ∧ listener.cookie_protection.Lists AppWrites.parse false raw := by
  have hwrites := cookie_writes_from_listed_origins listener (fun _ _ => .ok ()) AppWrites.table
    (show AppWrites.request.method ∉ SAFE_METHODS by decide)
  have hverified : listener.door.request_filter AppWrites.parse plain_crates (fun _ _ => .ok ())
      AppWrites.table AppWrites.request = .verifying "t".toList .cookie := by
    rfl
  exact (hwrites.1 _ hverified).resolve_right fun h => Bool.false_ne_true h.1

end Lagos.Outbound
