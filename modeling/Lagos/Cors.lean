/-
Cross-origin responses (`cors.rs`).

What a response says about origins depends on the policy and on the request's `Origin`, and on
nothing else of the request: a preflight's answer asks for the method too, but only to decide
whether there is one.
-/
import Lagos.Config

set_option autoImplicit false

open RustStd

namespace Lagos.CrossOrigin

/-! ## The policy -/

/-- `CorsConfig`. -/
structure CorsConfig where
  origins : List Str
  methods : List Str := ["GET".toList, "HEAD".toList, "POST".toList, "PUT".toList,
    "PATCH".toList, "DELETE".toList]
  headers : List Str := ["content-type".toList, "authorization".toList]
  expose : List Str := []
  credentials : Bool := false
  max_age : Duration := 600000000000
  deriving DecidableEq, Repr

/-- `OriginRule`. -/
inductive OriginRule where
  | Any
  | Exact (want : Str)
  | Suffix (scheme suffix : Str)
  deriving DecidableEq, Repr

/-- `OriginRule::parse`. -/
def OriginRule.parse (raw : Str) : Except String OriginRule :=
  let raw := trim raw
  if raw = "*".toList then .ok .Any
  else
    match split_once_at "://".toList raw with
    | none => .error s!"origin `{text raw}` has no scheme; write `https://example.com`"
    | some (scheme, rest) =>
      if rest.isEmpty then .error s!"origin `{text raw}` has no host"
      else if rest.contains '/' then
        .error (s!"origin `{text raw}` has a path; an origin is scheme, host and port only")
      else
        match strip_prefix rest "*.".toList with
        | some [] => .error s!"origin `{text raw}` has an empty wildcard suffix"
        | some suffix => .ok (.Suffix (to_ascii_lowercase scheme) (to_ascii_lowercase suffix))
        | none => .ok (.Exact (to_ascii_lowercase raw))

/-- `OriginRule::matches`. -/
def OriginRule.matches (rule : OriginRule) (origin : Str) : Bool :=
  let origin := to_ascii_lowercase (trim origin)
  match rule with
  | .Any => true
  | .Exact want => origin == want
  | .Suffix scheme suffix =>
    match split_once_at "://".toList origin with
    | none => false
    | some (got_scheme, host) =>
      -- The dot keeps `evilexample.com` from satisfying `*.example.com`.
      got_scheme == scheme && len host > len suffix + 1 && ends_with host suffix
        && (get_to host (len host - len suffix)).any fun p => ends_with p ['.']

/-- `Cors`. -/
structure Cors where
  rules : List OriginRule
  methods : List Str
  headers : List Str
  expose : List Str
  credentials : Bool
  max_age : ℕ
  wildcard_without_credentials : Bool
  deriving DecidableEq, Repr

/-- Headers to add to a response. -/
abbrev Headers := List (Str × Str)

/-- `Cors::compile`. -/
def Cors.compile (cfg : CorsConfig) : Except String Cors := do
  if cfg.origins.isEmpty then .error "cors.origins is empty; no cross-origin request could succeed"
  else
    let rules ← cfg.origins.mapM OriginRule.parse
    let any := rules.contains .Any
    if any && cfg.credentials then
      .error ("cors sets `credentials: true` with origin `*`. Browsers refuse that combination, and "
        ++ "honouring it would let any site read authenticated responses. List the origins that "
        ++ "may send credentials.")
    else
      .ok {
        rules := rules
        methods := cfg.methods.map to_ascii_uppercase
        headers := cfg.headers.map to_ascii_lowercase
        expose := cfg.expose.map to_ascii_lowercase
        credentials := cfg.credentials
        max_age := cfg.max_age / 1000000000
        wildcard_without_credentials := any && !cfg.credentials }

/-- `Cors::allow_origin`: what to say of an origin, and whether that depends on it. -/
def Cors.allow_origin (cors : Cors) (origin : Str) : Option (Str × Bool) :=
  if (cors.rules.any fun rule => rule.matches origin) = false then none
  else if cors.wildcard_without_credentials then some ("*".toList, false)
  else some (origin, true)

/-- A header, where it is wanted. -/
def header_if (wanted : Bool) (name value : Str) : Headers := if wanted then [(name, value)] else []

/-- `Cors::preflight`. -/
def Cors.preflight (cors : Cors) (origin requested_method : Str) : Option Headers :=
  (cors.allow_origin origin).bind fun (value, varies) =>
    if to_ascii_uppercase (trim requested_method) ∉ cors.methods then none
    else some ([("access-control-allow-origin".toList, value),
        ("access-control-allow-methods".toList, ", ".toList.intercalate cors.methods),
        ("access-control-max-age".toList, (toString cors.max_age).toList)]
      ++ header_if (!cors.headers.isEmpty) "access-control-allow-headers".toList
          (", ".toList.intercalate cors.headers)
      ++ header_if cors.credentials "access-control-allow-credentials".toList "true".toList
      ++ header_if varies "vary".toList "Origin, Access-Control-Request-Method".toList)

/-- `Cors::response`. -/
def Cors.response (cors : Cors) (origin : Str) : Option Headers :=
  (cors.allow_origin origin).map fun (value, varies) =>
    [("access-control-allow-origin".toList, value)]
      ++ header_if cors.credentials "access-control-allow-credentials".toList "true".toList
      ++ header_if (!cors.expose.isEmpty) "access-control-expose-headers".toList
          (", ".toList.intercalate cors.expose)
      ++ header_if varies "vary".toList "Origin".toList

/-- Two preflights of one origin that are answered are answered alike. -/
theorem preflight_congr {cors : Cors} {origin requested requested' : Str} {headers headers' : Headers}
    (h : cors.preflight origin requested = some headers)
    (h' : cors.preflight origin requested' = some headers') : headers = headers' := by
  obtain ⟨allowed, hallowed, h⟩ := Option.bind_eq_some_iff.mp h
  obtain ⟨allowed', hallowed', h'⟩ := Option.bind_eq_some_iff.mp h'
  rw [hallowed] at hallowed'
  cases hallowed'
  dsimp only at h h'
  split at h
  · cases h
  · split at h'
    · cases h'
    · exact (Option.some.inj h).symm.trans (Option.some.inj h')

end Lagos.CrossOrigin
