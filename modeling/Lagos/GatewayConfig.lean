/-
The part of the configuration that decides about headers (`config/mod.rs`), and what is
refused when it is resolved: networks that do not parse, client keys whose header is used for
something else, token cookies that nothing reads.

`Resolved` collects what the resolved configuration is of the one that was written, and what
is known of it because it was accepted. Resolving asks some questions of other crates: those
are the fields of `Crates`.
-/
import Lagos.Cookies
import Lagos.Error
import Lagos.Identity
import Lagos.RoutesValidate
import Mathlib.Data.Rat.Init

set_option autoImplicit false

open RustStd

namespace Lagos.Outbound

open Lagos.Config Lagos.Headers Lagos.Auth Lagos.Routes Lagos.Path

/-! ## As it is written -/

/-- `ForwardMode`. -/
inductive ForwardMode where
  | Allowlist
  | Passthrough
  deriving DecidableEq, Repr

/-- `default_forward_headers`. -/
def default_forward_headers : List Str :=
  ["user-agent".toList, "x-forwarded-proto".toList, "x-forwarded-host".toList,
    "traceparent".toList, "tracestate".toList, "x-request-id".toList]

/-- `ForwardConfig`. -/
structure ForwardConfig where
  mode : ForwardMode := .Allowlist
  headers : List Str := default_forward_headers
  authorization : Bool := true
  preserve_host : Bool := false
  trusted_proxies : ℕ := 0
  trusted_proxy_ips : List Str := []
  deriving DecidableEq, Repr

/-- `InjectConfig`. Both are maps, in the order of their keys. -/
structure InjectConfig where
  headers : List (Str × Str) := []
  machine : List (Str × Str) := []
  deriving DecidableEq, Repr

/-- `default_machine_headers`. -/
def default_machine_headers : List Str := ["x-internal-api-key".toList, "x-api-key".toList]

/-- `MachineConfig`. -/
structure MachineConfig where
  headers : List Str := default_machine_headers
  secret : Str
  deriving DecidableEq, Repr

/-- `ClientKeysConfig`. -/
structure ClientKeysConfig where
  header : Str := "x-client-key".toList
  forward_as : Option Str := none
  /-- A map from key ids to secrets, in the order of its keys. -/
  keys : List (Str × Str)
  exempt : List Str := []
  exempt_groups : List Str := []
  deriving DecidableEq, Repr

/-- `AuthConfig`. Of the issuers and the Firebase projects only that there are some counts. -/
structure AuthConfig where
  jwt : List Str := []
  firebase : Option (List Str) := none
  machine : Option MachineConfig := none
  client_keys : Option ClientKeysConfig := none
  token_cookies : List Str := []
  deriving DecidableEq, Repr

/-- The parts of `GatewayConfig` that decide about headers. -/
structure GatewayConfig where
  forward : ForwardConfig := {}
  inject : InjectConfig := {}
  /-- `reject.client_headers`. -/
  reject : List Str := []
  identity : IdentityConfig := {}
  auth : AuthConfig := {}
  /-- `observability.tracing.sample_ratio`: `none` without tracing. -/
  sample_ratio : Option ℚ := none
  deriving DecidableEq, Repr

/-! ## As it is resolved -/

/-- What other crates are asked. -/
structure Crates extends Codecs where
  /-- Whether a text parses as an `IpAddr`. -/
  is_ip : Str → Bool
  /-- Whether a text parses as an `IpNet`. -/
  is_network : Str → Bool
  /-- `IpNet::contains`, of a network and an address that parse. -/
  contains : Str → Str → Bool
  /-- Whether `HeaderName::from_bytes` takes a text. -/
  header_name : Str → Bool
  /-- SHA-256. -/
  digest : List UInt8 → List UInt8
  /-- `serde_json::to_vec` of the body of an answer. -/
  body_bytes : Error.Body → List UInt8

/-- `ClientKey`. -/
structure ClientKey where
  id : Str
  digest : List UInt8
  deriving DecidableEq, Repr

/-- `ClientKey::digest_of`. -/
def ClientKey.digest_of (crates : Crates) (key : List UInt8) : List UInt8 := crates.digest key

/-- `ClientKey::matches`. -/
def ClientKey.matches (key : ClientKey) (presented_digest : List UInt8) : Bool :=
  presented_digest == key.digest

/-- `ResolvedClientKeys`. -/
structure ResolvedClientKeys where
  header : Str
  forward_as : Option Str
  keys : List ClientKey
  exempt : List Str
  exempt_groups : List Str
  deriving DecidableEq, Repr

/-- The parts of `ResolvedConfig` that decide about headers. -/
structure ResolvedConfig where
  raw : GatewayConfig
  /-- The networks, as written. -/
  trusted_proxy_ips : List Str
  injected_headers : List (Str × Str)
  machine_injected_headers : List (Str × Str)
  identity_secret : Option Str
  machine_secret : Option Str
  client_key_header : Option Str
  client_key_forward_as : Option Str
  client_keys : List ClientKey
  client_key_exempt : List Str
  client_key_exempt_groups : List Str
  deriving DecidableEq, Repr

/-- `lower_pairs`. -/
def lower_pairs (map : List (Str × Str)) : List (Str × Str) :=
  map.map fun p => (to_ascii_lowercase p.1, p.2)

/-- `RESERVED_CLIENT_KEY_HEADERS`. -/
def RESERVED_CLIENT_KEY_HEADERS : List Str :=
  [AUTHORIZATION, COOKIE, HOST, X_FORWARDED_FOR, "x-forwarded-proto".toList,
    "x-forwarded-host".toList, "forwarded".toList, X_REAL_IP, X_REQUEST_ID, TRACEPARENT,
    "tracestate".toList, "content-length".toList, "content-type".toList,
    "transfer-encoding".toList, "connection".toList, "keep-alive".toList,
    "proxy-connection".toList, "te".toList, "trailer".toList, "upgrade".toList,
    "expect".toList]

/-- `EXEMPTIBLE_GROUPS`. -/
def EXEMPTIBLE_GROUPS : List Str :=
  ["public".toList, "optional".toList, "authenticated".toList]

/-- `MIN_CLIENT_KEY_LEN`. -/
def MIN_CLIENT_KEY_LEN : ℕ := 16

/-- The names that `gateway_owned_headers` collects, as they are written. -/
def GatewayConfig.configured_headers (cfg : GatewayConfig) : List Str :=
  [cfg.identity.subject_header, cfg.identity.issuer_header, cfg.identity.claims_header]
    ++ cfg.identity.claims.map Prod.fst ++ cfg.identity.token.toList.map (fun t => t.header)
    ++ cfg.inject.headers.map Prod.fst ++ cfg.inject.machine.map Prod.fst
    ++ cfg.auth.machine.toList.flatMap fun m => m.headers

/-- `GatewayConfig::gateway_owned_headers`. It is only ever searched, so it is left unsorted. -/
def GatewayConfig.gateway_owned_headers (cfg : GatewayConfig) : List Str :=
  cfg.configured_headers.map fun h => to_ascii_lowercase (trim h)

/-- The closure `header_name` of `resolve_client_keys`. -/
def client_header_name (crates : Crates) (owned : List Str) (field : String) (raw : Str) :
    Except ConfigError Str :=
  let name := to_ascii_lowercase (trim raw)
  if crates.header_name name = false then
    invalid s!"auth.client_keys.{field}: `{text raw}` is not a valid header name"
  else if name ∈ RESERVED_CLIENT_KEY_HEADERS then
    invalid (s!"auth.client_keys.{field}: `{text name}` is a header the gateway reads or sets "
      ++ "itself; use a dedicated name such as `x-client-key`")
  else if name ∈ owned then
    invalid (s!"auth.client_keys.{field}: `{text name}` is already an identity, injected or "
      ++ "machine header in this configuration; sharing it would let a client key overwrite a "
      ++ "verified value, or be overwritten by one")
  else .ok name

/-- The loop over the keys in `resolve_client_keys`. -/
def client_key_entries (crates : Crates) (keys : List ClientKey) :
    List (Str × Str) → Except ConfigError (List ClientKey)
  | [] => .ok keys
  | (id, secret) :: rest =>
    let id_byte := fun c : Char =>
      c.isAlphanum || c == '-' || c == '_' || c == '.'
    if id.isEmpty ∨ id.all id_byte = false then
      invalid (s!"auth.client_keys.keys: id `{text id}` must be non-empty and use only letters, "
        ++ "digits, `-`, `_` and `.`")
    else if trim secret ≠ secret then
      invalid s!"auth.client_keys.keys.{text id}: the key has leading or trailing whitespace"
    else if len secret < MIN_CLIENT_KEY_LEN then
      invalid (s!"auth.client_keys.keys.{text id}: the key is {len secret} bytes; at least "
        ++ s!"{MIN_CLIENT_KEY_LEN} are required, because anything that can reach the public "
        ++ "listener can try to guess it")
    else
      let digest := ClientKey.digest_of crates (utf8_bytes secret)
      match keys.find? fun k => k.digest == digest with
      | some other =>
        invalid (s!"auth.client_keys.keys: `{text id}` and `{text other.id}` have the same key, "
          ++ "so the gateway could not tell which client called")
      | none => client_key_entries crates (keys ++ [⟨id, digest⟩]) rest

/-- The loop over the exempt prefixes. -/
def client_key_exempt (raw : Str) : Except ConfigError Str :=
  let pre := normalize_proxy_path (trim raw)
  if pre.isEmpty then
    invalid (s!"auth.client_keys.exempt: `{text raw}` is empty; name the path prefix to exempt")
  else if canonicalize_proxy_path pre ≠ some pre then
    invalid (s!"auth.client_keys.exempt: `{text raw}` is not a canonical path; write it as the "
      ++ "gateway sees it — decoded, without empty or dot segments, relative to any "
      ++ "`server.mounts`")
  else .ok pre

/-- The loop over the exempt groups. -/
def client_key_exempt_group (raw : Str) : Except ConfigError Str :=
  let group := to_ascii_lowercase (trim raw)
  if group = "machine".toList then
    invalid ("auth.client_keys.exempt_groups: `machine` routes are on the internal listener, "
      ++ "where client keys are never checked; there is nothing to exempt")
  else if group ∉ EXEMPTIBLE_GROUPS then
    invalid (s!"auth.client_keys.exempt_groups: `{text raw}` is not a route group; use one of "
      ++ "public, optional, authenticated")
  else .ok group

/-- `forward_as` in `resolve_client_keys`. -/
def client_key_forward_as (crates : Crates) (owned : List Str) (header : Str) :
    Option Str → Except ConfigError (Option Str)
  | none => .ok none
  | some raw => do
    let name ← client_header_name crates owned "forward_as" raw
    refuse_if (name = header)
      ("auth.client_keys.forward_as is the same header as auth.client_keys.header "
        ++ s!"(`{text name}`); the upstream would receive the key's id where the key was")
    return some name

/-- `resolve_client_keys`. -/
def resolve_client_keys (crates : Crates) (ck : ClientKeysConfig) (rejected owned : List Str) :
    Except ConfigError ResolvedClientKeys := do
  let header ← client_header_name crates owned "header" ck.header
  refuse_if (∃ r ∈ rejected, to_ascii_lowercase r = to_ascii_lowercase header)
    (s!"auth.client_keys.header `{text header}` is also listed in reject.client_headers, which "
      ++ "refuses any request carrying it; every keyed request would be a 403")
  let forward_as ← client_key_forward_as crates owned header ck.forward_as
  refuse_if (ck.keys = [])
    "auth.client_keys.keys is empty; every keyed route would refuse every request"
  let keys ← client_key_entries crates [] ck.keys
  let exempt ← ck.exempt.mapM client_key_exempt
  let exempt_groups ← ck.exempt_groups.mapM client_key_exempt_group
  return ⟨header, forward_as, keys, exempt, exempt_groups⟩

/-- `is_cookie_name`. -/
def is_cookie_name (name : Str) : Bool :=
  !name.isEmpty && name.all fun c =>
    ('!' ≤ c && c ≤ '~') && !("()<>@,;:\\\"/[]?=\x7b\x7d".toList.contains c)

/-- The loop over the names in `validate_token_cookies`. -/
def validate_cookie_names (seen : List Str) : List Str → Except ConfigError Unit
  | [] => .ok ()
  | name :: names =>
    if is_cookie_name name = false then
      invalid s!"auth.token_cookies: `{text name}` is not a valid cookie name"
    else if name ∈ seen then invalid s!"auth.token_cookies: `{text name}` is listed twice"
    else validate_cookie_names (name :: seen) names

/-- `validate_token_cookies`. -/
def validate_token_cookies (auth : AuthConfig) : Except ConfigError Unit :=
  if auth.token_cookies.isEmpty then .ok ()
  else if auth.jwt.isEmpty ∧ auth.firebase = none then
    invalid "auth.token_cookies is set but no auth.jwt or auth.firebase verifies tokens"
  else validate_cookie_names [] auth.token_cookies

/-- `resolved_keys` in `resolve`. -/
def GatewayConfig.resolved_keys (crates : Crates) (cfg : GatewayConfig) :
    Except ConfigError (Option ResolvedClientKeys) :=
  match cfg.auth.client_keys with
  | some ck => some <$> resolve_client_keys crates ck cfg.reject cfg.gateway_owned_headers
  | none => .ok none

/-- `GatewayConfig::resolve`: the checks of these parts, in its order. -/
def GatewayConfig.resolve (crates : Crates) (cfg : GatewayConfig) :
    Except ConfigError ResolvedConfig := do
  cfg.forward.trusted_proxy_ips.forM fun entry => refuse_if (crates.is_network entry = false)
    s!"forward.trusted_proxy_ips: `{text entry}` is not an IP address or CIDR range"
  refuse_if (cfg.forward.trusted_proxies > 0 ∧ cfg.forward.trusted_proxy_ips = [])
    ("forward.trusted_proxies requires forward.trusted_proxy_ips; otherwise a direct caller "
      ++ "could forge the proxy's address header")
  let resolved_keys ← cfg.resolved_keys crates
  validate_token_cookies cfg.auth
  return {
    raw := cfg
    trusted_proxy_ips := cfg.forward.trusted_proxy_ips
    injected_headers := lower_pairs cfg.inject.headers
    machine_injected_headers := lower_pairs cfg.inject.machine
    identity_secret := cfg.identity.token.map fun t => t.secret
    machine_secret := cfg.auth.machine.map fun m => m.secret
    client_key_header := resolved_keys.map fun r => r.header
    client_key_forward_as := resolved_keys.bind fun r => r.forward_as
    client_keys := (resolved_keys.map fun r => r.keys).getD []
    client_key_exempt := (resolved_keys.map fun r => r.exempt).getD []
    client_key_exempt_groups := (resolved_keys.map fun r => r.exempt_groups).getD [] }

/-! ## What an accepted configuration satisfies -/

/-- The headers that the gateway writes or reads a credential from, lowercased. -/
def GatewayConfig.owned_names (cfg : GatewayConfig) : List Str :=
  cfg.configured_headers.map to_ascii_lowercase

/-- A name that is used for nothing but client keys. -/
structure Free (cfg : GatewayConfig) (name : Str) : Prop where
  lower : to_ascii_lowercase name = name
  not_reserved : name ∉ RESERVED_CLIENT_KEY_HEADERS
  not_owned : name ∉ cfg.owned_names

/-- What a resolved configuration is of the one that was written. -/
structure Resolved (cfg : GatewayConfig) (r : ResolvedConfig) : Prop where
  raw : r.raw = cfg
  injected : r.injected_headers = lower_pairs cfg.inject.headers
  machine_injected : r.machine_injected_headers = lower_pairs cfg.inject.machine
  machine_secret : r.machine_secret = cfg.auth.machine.map fun m => m.secret
  client_key_header : ∀ name ∈ r.client_key_header, Free cfg name
  client_key_forward_as : ∀ name ∈ r.client_key_forward_as,
    Free cfg name ∧ r.client_key_header ≠ some name

theorem lower_pairs_lower_pairs (l : List (Str × Str)) : lower_pairs (lower_pairs l) = lower_pairs l := by
  simp [lower_pairs]

theorem mem_owned_of_identity {cfg : GatewayConfig} {n : Str} (h : n ∈ cfg.identity.headers) :
    n ∈ cfg.owned_names := by
  rw [GatewayConfig.owned_names, GatewayConfig.configured_headers, List.mem_map]
  obtain ⟨raw, hraw, -, rfl⟩ | ⟨t, ht, rfl⟩ := mem_headers.mp h
  · exact ⟨raw, by simp only [List.mem_append] at hraw ⊢; tauto, rfl⟩
  · refine ⟨t.header, ?_, rfl⟩
    simp only [List.mem_append, List.mem_map, Option.mem_toList]
    exact .inl (.inl (.inl (.inr ⟨t, ht, rfl⟩)))

theorem mem_owned_of_injected {cfg : GatewayConfig} {n : Str}
    (h : n ∈ (lower_pairs cfg.inject.headers).map Prod.fst
      ∨ n ∈ (lower_pairs cfg.inject.machine).map Prod.fst) : n ∈ cfg.owned_names := by
  rw [GatewayConfig.owned_names, GatewayConfig.configured_headers, List.mem_map]
  simp only [lower_pairs, List.map_map, List.mem_map, Function.comp_apply] at h
  obtain ⟨p, hp, rfl⟩ | ⟨p, hp, rfl⟩ := h
  · have hmem : p.1 ∈ cfg.inject.headers.map Prod.fst := List.mem_map.mpr ⟨p, hp, rfl⟩
    exact ⟨p.1, by simp only [List.mem_append]; tauto, rfl⟩
  · have hmem : p.1 ∈ cfg.inject.machine.map Prod.fst := List.mem_map.mpr ⟨p, hp, rfl⟩
    exact ⟨p.1, by simp only [List.mem_append]; tauto, rfl⟩

/-- A name that passes the check against `gateway_owned_headers` is no owned name: the check
trims the names before it compares them, and a trimmed name stays trimmed in lowercase. -/
theorem free_of_header_name {crates : Crates} {cfg : GatewayConfig} {field : String}
    {raw name : Str} (h : client_header_name crates cfg.gateway_owned_headers field raw = .ok name) :
    Free cfg name := by
  unfold client_header_name at h
  dsimp only at h
  split at h
  · cases h
  · split at h
    · cases h
    · rename_i hreserved
      split at h
      · cases h
      · rename_i howned
        cases h
        refine ⟨lowercase_lowercase _, hreserved, fun hn => howned ?_⟩
        obtain ⟨owned, hmem, hlower⟩ := List.mem_map.mp hn
        refine List.mem_map.mpr ⟨owned, hmem, ?_⟩
        rw [← trim_lowercase, hlower, trim_lowercase, trim_trim]

theorem resolved_of_resolve {crates : Crates} {cfg : GatewayConfig} {r : ResolvedConfig}
    (h : cfg.resolve crates = .ok r) : Resolved cfg r := by
  obtain ⟨-, -, h⟩ := bind_eq_ok.mp h
  obtain ⟨-, -, h⟩ := bind_eq_ok.mp h
  obtain ⟨keys, hkeys, h⟩ := bind_eq_ok.mp h
  obtain ⟨-, -, h⟩ := bind_eq_ok.mp h
  cases h
  unfold GatewayConfig.resolved_keys at hkeys
  split at hkeys
  · rename_i ck _
    obtain ⟨k, hk, hkeys⟩ := bind_eq_ok.mp hkeys
    cases hkeys
    obtain ⟨header, hheader, hk⟩ := bind_eq_ok.mp hk
    obtain ⟨-, -, hk⟩ := bind_eq_ok.mp hk
    obtain ⟨forward_as, hforward, hk⟩ := bind_eq_ok.mp hk
    obtain ⟨-, -, hk⟩ := bind_eq_ok.mp hk
    obtain ⟨entries, -, hk⟩ := bind_eq_ok.mp hk
    obtain ⟨exempt, -, hk⟩ := bind_eq_ok.mp hk
    obtain ⟨groups, -, hk⟩ := bind_eq_ok.mp hk
    cases hk
    refine ⟨rfl, rfl, rfl, rfl, ?_, ?_⟩
    · rintro name hname
      cases hname
      exact free_of_header_name hheader
    · rintro name hname
      have hname : forward_as = some name := hname
      subst hname
      cases hf : ck.forward_as with
      | none =>
        rw [hf] at hforward
        cases hforward
      | some raw =>
        rw [hf] at hforward
        obtain ⟨f, hfree, hforward⟩ := bind_eq_ok.mp hforward
        obtain ⟨⟨⟩, hne, hforward⟩ := bind_eq_ok.mp hforward
        cases hforward
        refine ⟨free_of_header_name hfree, fun hsame => ?_⟩
        rw [refuse_if_ok] at hne
        exact hne (Option.some.inj hsame).symm
  · cases hkeys
    exact ⟨rfl, rfl, rfl, rfl, nofun, nofun⟩

/-! ## Questions asked of it -/

/-- `ClientKeyRule`. -/
inductive ClientKeyRule where
  | Off
  | Required
  /-- `client_key: false` on the route. -/
  | ExemptRoute
  | ExemptPrefix (pre : Str)
  | ExemptGroup (group : Str)
  deriving DecidableEq, Repr

/-- `ResolvedConfig::client_key_rule`. -/
def ResolvedConfig.client_key_rule (cfg : ResolvedConfig) (route : RouteConfig) (path : Str) :
    ClientKeyRule :=
  if cfg.client_key_header = none ∨ route.auth.is_machine = true then .Off
  else if route.client_key = some false then .ExemptRoute
  else
    match cfg.client_key_exempt.find? fun p => under_prefix (normalize_proxy_path path) p with
    | some pre => .ExemptPrefix pre
    | none =>
      if route.auth.group.toList ∈ cfg.client_key_exempt_groups then
        .ExemptGroup route.auth.group.toList
      else .Required

/-- `ResolvedConfig::trusted_proxy_depth`. -/
def ResolvedConfig.trusted_proxy_depth (cfg : ResolvedConfig) (crates : Crates)
    (peer : Option Str) (configured : ℕ) : ℕ :=
  match peer with
  | none => 0
  | some ip =>
    if crates.is_ip ip = false then 0
    else if cfg.trusted_proxy_ips.any fun range => crates.contains range ip then configured
    else 0

/-- The crates as far as a gateway that trusts no network and verifies no key asks them: a
header name is a token, an address is digits and dots, and the claim set is empty. -/
def plain_crates : Crates where
  to_vec := fun _ => .ok [0x7b, 0x7d]
  to_vec_ok := fun _ => ⟨_, rfl⟩
  encode_base64 := fun _ => "e30".toList
  encode := fun _ _ => .error "no token is minted"
  is_ip := fun s => s.all fun c => c.isDigit || c == '.'
  is_network := fun _ => false
  contains := fun _ _ => false
  header_name := fun s => !s.isEmpty && s.all fun c => c.isAlphanum || c == '-' || c == '_'
  digest := fun bytes => bytes
  body_bytes := fun body => body.flatMap fun field => utf8_bytes field.1.toList

end Lagos.Outbound
