/-
Verifying a caller's token (`auth/jwt.rs`, `auth/firebase.rs`, `unverified_issuer` in
`auth/mod.rs`).

The issuer is read from a token before anything of it is verified, and chooses the provider that
verifies it. Both kinds of provider read it again, check what of the header they rely on, take a
key of their own key set and leave the rest to `jsonwebtoken::decode`, which is not part of the
repository: `JsonWebToken` has what is asked of it, with what its documentation says of each
check. The rules that a token is held to are then the same for both kinds (`Verified`), with one
difference: a Firebase provider does not look at `nbf` (`no_cross_issuer`).
-/
import Lagos.Identity
import Lagos.Jwks

set_option autoImplicit false

open RustStd

namespace Lagos.Tokens

open Lagos.Auth Lagos.Jwks

/-! ## JSON web tokens -/

/-- `jsonwebtoken::Algorithm`. -/
inductive Algorithm where
  | HS256 | HS384 | HS512 | ES256 | ES384 | RS256 | RS384 | RS512 | PS256 | PS384 | PS512 | EdDSA
  deriving DecidableEq, Repr

/-- How an algorithm reads. -/
def Algorithm.name : Algorithm → String
  | .HS256 => "HS256" | .HS384 => "HS384" | .HS512 => "HS512" | .ES256 => "ES256"
  | .ES384 => "ES384" | .RS256 => "RS256" | .RS384 => "RS384" | .RS512 => "RS512"
  | .PS256 => "PS256" | .PS384 => "PS384" | .PS512 => "PS512" | .EdDSA => "EdDSA"

/-- The fields of `jsonwebtoken::Header` that are read. -/
structure Header where
  alg : Algorithm
  kid : Option Str
  deriving DecidableEq, Repr

/-- The fields of `jsonwebtoken::Validation` that are set. -/
structure Validation where
  algorithms : List Algorithm
  iss : List Str
  aud : List Str
  required_spec_claims : List Str
  /-- In seconds. -/
  leeway : ℕ
  validate_exp : Bool
  validate_nbf : Bool

/-- A claim set. -/
abbrev Claims := List (Str × Value)

/-- The audiences that a claim names. -/
def audiences : Value → List Str
  | .String s => [s]
  | .Array items => items.filterMap fun
    | .String s => some s
    | _ => none
  | _ => []

/-- The claims that `jsonwebtoken` can require. -/
def SPEC_CLAIMS : List Str :=
  ["exp".toList, "nbf".toList, "aud".toList, "iss".toList, "sub".toList]

/-- What other crates make of a token, and what they say of it. -/
structure JsonWebToken (Key : Type) where
  /-- `URL_SAFE_NO_PAD.decode`. -/
  decode_base64 : Str → Option (List UInt8)
  /-- `serde_json::from_slice`. -/
  from_slice : List UInt8 → Option Value
  /-- `jsonwebtoken::decode_header`. -/
  decode_header : Str → Except String Header
  /-- Whether the signature of a token is one with a key. -/
  is_signed : Str → Key → Algorithm → Bool
  /-- A timestamp, as `jsonwebtoken` reads one. -/
  timestamp : Value → Option ℕ
  /-- `jsonwebtoken::decode`, at a time in seconds since the epoch. -/
  decode : ℕ → Str → Key → Validation → Except String Claims
  /-- It returns the claims of the payload. -/
  decode_payload : ∀ {now token key validation claims},
    decode now token key validation = .ok claims →
      (((split '.' token)[1]?.bind decode_base64).bind from_slice) = some (.Object claims)
  /-- It checks the signature, with an algorithm that is allowed. -/
  decode_signed : ∀ {now token key validation claims},
    decode now token key validation = .ok claims →
      ∃ header, decode_header token = .ok header ∧ header.alg ∈ validation.algorithms
        ∧ is_signed token key header.alg = true
  /-- Of the required claims, those it knows are there. -/
  decode_required : ∀ {now token key validation claims},
    decode now token key validation = .ok claims →
      ∀ name ∈ SPEC_CLAIMS, name ∈ validation.required_spec_claims →
        (claims.lookup name).isSome = true
  /-- A required `exp` is a timestamp. -/
  decode_exp_required : ∀ {now token key validation claims value},
    decode now token key validation = .ok claims →
      "exp".toList ∈ validation.required_spec_claims →
        claims.lookup "exp".toList = some value → (timestamp value).isSome = true
  /-- `exp` is not past. -/
  decode_exp : ∀ {now token key validation claims value at_},
    decode now token key validation = .ok claims → validation.validate_exp = true →
      claims.lookup "exp".toList = some value → timestamp value = some at_ →
        now ≤ at_ + validation.leeway
  /-- `nbf` is not to come. -/
  decode_nbf : ∀ {now token key validation claims value at_},
    decode now token key validation = .ok claims → validation.validate_nbf = true →
      claims.lookup "nbf".toList = some value → timestamp value = some at_ →
        at_ ≤ now + validation.leeway
  /-- An issuer that is a text is one that is set. -/
  decode_iss : ∀ {now token key validation claims issuer},
    decode now token key validation = .ok claims →
      claims.lookup "iss".toList = some (.String issuer) → issuer ∈ validation.iss
  /-- One of the audiences is one that is set. -/
  decode_aud : ∀ {now token key validation claims value},
    decode now token key validation = .ok claims → claims.lookup "aud".toList = some value →
      ∃ audience ∈ audiences value, audience ∈ validation.aud

section Verify

variable {Key : Type} (jwt : JsonWebToken Key)

/-- The JSON of a token's payload. -/
def JsonWebToken.payload (token : Str) : Option Value :=
  ((split '.' token)[1]?.bind jwt.decode_base64).bind jwt.from_slice

/-- `Value::as_str`, of a field. -/
def text_claim (claims : Claims) (name : Str) : Option Str :=
  match claims.lookup name with
  | some (.String s) => some s
  | _ => none

/-- `Value::as_u64`, of a field. -/
def u64_claim (claims : Claims) (name : Str) : Option ℕ :=
  match claims.lookup name with
  | some (.Number n) => if n = [] then none else digits_u64 0 n
  | _ => none

/-- `unverified_issuer`. -/
def JsonWebToken.unverified_issuer (token : Str) : Except AuthError Str :=
  match (split '.' token)[1]? with
  | none => .error (.Invalid "token is not a JWT")
  | some payload =>
    match jwt.decode_base64 payload with
    | none => .error (.Invalid "token payload is not base64url")
    | some bytes =>
      match jwt.from_slice bytes with
      | none => .error (.Invalid "token payload is not JSON")
      | some (.Object claims) =>
        match text_claim claims "iss".toList with
        | some issuer => .ok issuer
        | none => .error (.Invalid "token has no `iss` claim")
      | some _ => .error (.Invalid "token has no `iss` claim")

/-- Two readings of the wall clock, in seconds: the library's, and the verifier's after it. -/
structure Times where
  decoded : ℕ
  verified : ℕ

/-- The seconds of a clock skew. -/
def as_secs (d : Duration) : ℕ := d / NANOS_PER_SEC

/-- `JwtVerifier`. Of its key set only what `key_for` answers. -/
structure JwtVerifier (Key : Type) where
  issuer : Str
  audiences : List Str
  algorithms : List Algorithm
  required_claims : List Str
  clock_skew : Duration
  key_for : Str → Except AuthError Key

/-- The claims that every token must have. -/
def REQUIRED_CLAIMS : List Str :=
  ["exp".toList, "iat".toList, "aud".toList, "iss".toList, "sub".toList]

/-- The subject of a token, which is not empty. -/
def subject_of (claims : Claims) : Except AuthError Str :=
  match (text_claim claims "sub".toList).filter fun s => !s.isEmpty with
  | some subject => .ok subject
  | none => .error (.Invalid "`sub` claim is empty")

/-- A claim that is an unsigned timestamp, and not in the future. -/
def validate_timestamp (claims : Claims) (now skew : ℕ) (name : String) : Except AuthError Unit :=
  match u64_claim claims name.toList with
  | none => .error (.Invalid s!"`{name}` must be an unsigned timestamp")
  | some at_ =>
    if at_ > saturating_add_u64 now skew then .error (.Invalid s!"`{name}` is in the future")
    else .ok ()

/-- The audience of an `Identity`, in `JwtVerifier::verify`. -/
def first_audience (claims : Claims) : Str :=
  match claims.lookup "aud".toList with
  | some (.String s) => s
  | some (.Array (.String s :: _)) => s
  | _ => []

/-- The key id of a header, which it must have. -/
def kid_of (header : Header) : Except AuthError Str :=
  match header.kid with
  | some kid => .ok kid
  | none => .error (.Invalid "JWT header has no `kid`")

/-- The header of a token, with an algorithm that is allowed. -/
def JsonWebToken.checked_header (allowed : List Algorithm) (token : Str) :
    Except AuthError Header :=
  match jwt.decode_header token with
  | .error e => .error (.Invalid s!"unreadable JWT header: {e}")
  | .ok header =>
    if header.alg ∈ allowed then .ok header
    else .error (.Invalid s!"unexpected algorithm {header.alg.name}")

/-- `decode`, with the errors of a verifier. -/
def JsonWebToken.checked_claims (now : ℕ) (token : Str) (key : Key) (validation : Validation) :
    Except AuthError Claims :=
  (jwt.decode now token key validation).mapError .Invalid

/-- `JwtVerifier::verify`. -/
def JwtVerifier.verify (self : JwtVerifier Key) (times : Times) (token : Str) :
    Except AuthError Identity := do
  let iss ← jwt.unverified_issuer token
  if iss ≠ self.issuer then .error (.UnknownIssuer iss)
  else
    let header ← jwt.checked_header self.algorithms token
    let kid ← kid_of header
    let key ← self.key_for kid
    if self.audiences = [] then .error (.Invalid "no audience configured for this issuer")
    else
      let claims ← jwt.checked_claims times.decoded token key
        { algorithms := self.algorithms
          iss := [self.issuer]
          aud := self.audiences
          required_spec_claims := REQUIRED_CLAIMS ++ self.required_claims
          leeway := as_secs self.clock_skew
          validate_exp := true
          validate_nbf := true }
      validate_timestamp claims times.verified (as_secs self.clock_skew) "iat"
      self.required_claims.forM fun name =>
        if (claims.lookup name).isSome then .ok ()
        else .error (.Invalid s!"missing claim `{text name}`")
      let subject ← subject_of claims
      .ok ⟨subject, iss, first_audience claims, claims⟩

/-- `ISS_PREFIX`. -/
def ISS_PREFIX : Str := "https://securetoken.google.com/".toList

/-- `FirebaseVerifier`. -/
structure FirebaseVerifier (Key : Type) where
  project_ids : List Str
  clock_skew : Duration
  key_for : Str → Except AuthError Key

/-- `FirebaseVerifier::issuers`. -/
def FirebaseVerifier.issuers (self : FirebaseVerifier Key) : List Str :=
  self.project_ids.map fun p => ISS_PREFIX ++ p

/-- `project_id_from_issuer`. -/
def project_id_from_issuer (iss : Str) : Option Str :=
  (RustStd.strip_prefix iss ISS_PREFIX).filter fun p => !p.isEmpty

/-- `FirebaseVerifier::verify`, where a text that is quoted is written as `escape_debug` has it. -/
def FirebaseVerifier.verify (escape_debug : Char → Str) (self : FirebaseVerifier Key)
    (times : Times) (token : Str) : Except AuthError Identity := do
  let iss ← jwt.unverified_issuer token
  match project_id_from_issuer iss with
  | none => .error (.Invalid s!"issuer `{untrusted escape_debug iss}` is not a Firebase issuer")
  | some project_id =>
    if project_id ∉ self.project_ids then .error (.UnknownIssuer project_id)
    else
      let header ← jwt.checked_header [.RS256] token
      let kid ← kid_of header
      let key ← self.key_for kid
      let claims ← jwt.checked_claims times.decoded token key
        { algorithms := [.RS256]
          iss := [ISS_PREFIX ++ project_id]
          aud := [project_id]
          required_spec_claims := REQUIRED_CLAIMS
          leeway := as_secs self.clock_skew
          validate_exp := true
          validate_nbf := false }
      let subject ← subject_of claims
      validate_timestamp claims times.verified (as_secs self.clock_skew) "iat"
      validate_timestamp claims times.verified (as_secs self.clock_skew) "auth_time"
      .ok ⟨subject, iss, project_id, claims⟩

/-! ## The router -/

/-- A provider: the two implementations of `TokenVerifier` that verify. -/
inductive Verifier (Key : Type) where
  | jwt (v : JwtVerifier Key)
  | firebase (v : FirebaseVerifier Key)

def Verifier.verify (escape_debug : Char → Str) (times : Times) (token : Str) :
    Verifier Key → Except AuthError Identity
  | .jwt v => v.verify jwt times token
  | .firebase v => v.verify jwt escape_debug times token

/-- `IssuerRouter`. -/
structure IssuerRouter (Key : Type) where
  by_issuer : List (Str × Verifier Key) := []

/-- `IssuerRouter::register`. -/
def IssuerRouter.register (self : IssuerRouter Key) (verifier : Verifier Key) :
    List Str → Except String (IssuerRouter Key)
  | [] => .ok self
  | issuer :: issuers =>
    if (self.by_issuer.lookup issuer).isSome then
      .error s!"two providers both claim issuer `{text issuer}`"
    else IssuerRouter.register ⟨(issuer, verifier) :: self.by_issuer⟩ verifier issuers

/-- The providers that are registered, one after the other. -/
def IssuerRouter.register_all (self : IssuerRouter Key) :
    List (List Str × Verifier Key) → Except String (IssuerRouter Key)
  | [] => .ok self
  | (issuers, verifier) :: providers =>
    match self.register verifier issuers with
    | .ok router => router.register_all providers
    | .error e => .error e

/-- `IssuerRouter::verify`. -/
def IssuerRouter.verify (escape_debug : Char → Str) (self : IssuerRouter Key) (times : Times)
    (token : Str) : Except AuthError Identity := do
  let iss ← jwt.unverified_issuer token
  match self.by_issuer.lookup iss with
  | none => .error (.UnknownIssuer iss)
  | some verifier => verifier.verify jwt escape_debug times token

/-! ## What a provider holds a token to -/

/-- The issuers of a provider. -/
def Verifier.issuers : Verifier Key → List Str
  | .jwt v => [v.issuer]
  | .firebase v => v.issuers

/-- The algorithms that a provider allows. -/
def Verifier.algorithms : Verifier Key → List Algorithm
  | .jwt v => v.algorithms
  | .firebase _ => [.RS256]

/-- The audiences that a provider accepts of an issuer. -/
def Verifier.audiences (iss : Str) : Verifier Key → List Str
  | .jwt v => v.audiences
  | .firebase v => v.project_ids.filter fun p => ISS_PREFIX ++ p = iss

/-- The claims that a provider requires. -/
def Verifier.required_claims : Verifier Key → List Str
  | .jwt v => REQUIRED_CLAIMS ++ v.required_claims
  | .firebase _ => REQUIRED_CLAIMS ++ ["auth_time".toList]

/-- In seconds. -/
def Verifier.skew : Verifier Key → ℕ
  | .jwt v => as_secs v.clock_skew
  | .firebase v => as_secs v.clock_skew

/-- What the key set of a provider answers. -/
def Verifier.key_for : Verifier Key → Str → Except AuthError Key
  | .jwt v => v.key_for
  | .firebase v => v.key_for

/-- What a token of an issuer has shown to a provider, of whose claims these are. -/
structure Verified (verifier : Verifier Key) (times : Times) (token iss : Str)
    (claims : Claims) : Prop where
  payload : jwt.payload token = some (.Object claims)
  issuer : claims.lookup "iss".toList = some (.String iss)
  accepted : iss ∈ verifier.issuers
  signed : ∃ header kid key, jwt.decode_header token = .ok header ∧ header.kid = some kid
    ∧ verifier.key_for kid = .ok key ∧ header.alg ∈ verifier.algorithms
    ∧ jwt.is_signed token key header.alg = true
  audience : ∃ value, claims.lookup "aud".toList = some value
    ∧ ∃ audience ∈ audiences value, audience ∈ verifier.audiences iss
  expires : ∃ value at_, claims.lookup "exp".toList = some value ∧ jwt.timestamp value = some at_
    ∧ times.decoded ≤ at_ + verifier.skew
  issued : ∃ at_, u64_claim claims "iat".toList = some at_ ∧ at_ ≤ times.verified + verifier.skew
  subject : ∃ subject, text_claim claims "sub".toList = some subject ∧ subject ≠ []
  required : ∀ name ∈ verifier.required_claims, (claims.lookup name).isSome = true

/-- A token is not used before its `nbf`. -/
def NotBefore (verifier : Verifier Key) (times : Times) (claims : Claims) : Prop :=
  ∀ value at_, claims.lookup "nbf".toList = some value → jwt.timestamp value = some at_ →
    at_ ≤ times.decoded + verifier.skew

/-- A validation that leaves out nothing of what a provider asks for. -/
structure Enforces (verifier : Verifier Key) (iss : Str) (validation : Validation) : Prop where
  audiences : ∀ audience ∈ validation.aud, audience ∈ verifier.audiences iss
  required : ∀ name ∈ REQUIRED_CLAIMS, name ∈ validation.required_spec_claims
  leeway : validation.leeway = verifier.skew
  validate_exp : validation.validate_exp = true

/-! ## Each step that succeeds -/

variable {jwt}

theorem text_claim_eq_some {claims : Claims} {name s : Str} :
    text_claim claims name = some s ↔ claims.lookup name = some (.String s) := by
  unfold text_claim
  split <;> simp_all

theorem unverified_issuer_ok {token iss : Str} (h : jwt.unverified_issuer token = .ok iss) :
    ∃ claims, jwt.payload token = some (.Object claims)
      ∧ claims.lookup "iss".toList = some (.String iss) := by
  unfold JsonWebToken.unverified_issuer at h
  unfold JsonWebToken.payload
  split at h
  · cases h
  · rename_i payload hpayload
    split at h
    · cases h
    · rename_i bytes hbytes
      split at h
      · cases h
      · rename_i claims hclaims
        refine ⟨claims, by rw [hpayload, Option.bind_some, hbytes, Option.bind_some, hclaims], ?_⟩
        split at h
        · cases h
          exact text_claim_eq_some.mp ‹_›
        · cases h
      · cases h

theorem checked_header_ok {allowed : List Algorithm} {token : Str} {header : Header}
    (h : jwt.checked_header allowed token = .ok header) :
    jwt.decode_header token = .ok header ∧ header.alg ∈ allowed := by
  unfold JsonWebToken.checked_header at h
  split at h
  · cases h
  · split at h
    · cases h
      exact ⟨‹_›, ‹_›⟩
    · cases h

theorem kid_of_ok {header : Header} {kid : Str} (h : kid_of header = .ok kid) :
    header.kid = some kid := by
  unfold kid_of at h
  split at h
  · cases h
    assumption
  · cases h

theorem checked_claims_ok {now : ℕ} {token : Str} {key : Key} {validation : Validation}
    {claims : Claims} (h : jwt.checked_claims now token key validation = .ok claims) :
    jwt.decode now token key validation = .ok claims := by
  unfold JsonWebToken.checked_claims at h
  cases hdecode : jwt.decode now token key validation with
  | error e => rw [hdecode] at h; cases h
  | ok c => rw [hdecode] at h; cases h; rfl

theorem subject_of_ok {claims : Claims} {subject : Str} (h : subject_of claims = .ok subject) :
    text_claim claims "sub".toList = some subject ∧ subject ≠ [] := by
  unfold subject_of at h
  split at h
  · cases h
    have hfilter := Option.filter_eq_some_iff.mp ‹_›
    exact ⟨hfilter.1, by simpa using hfilter.2⟩
  · cases h

theorem validate_timestamp_ok {claims : Claims} {now skew : ℕ} {name : String}
    (h : validate_timestamp claims now skew name = .ok ()) :
    ∃ at_, u64_claim claims name.toList = some at_ ∧ at_ ≤ now + skew := by
  unfold validate_timestamp at h
  split at h
  · cases h
  · rename_i at_ hat
    split at h
    · cases h
    · rename_i hfuture
      exact ⟨at_, hat, (not_lt.mp hfuture).trans (min_le_left _ _)⟩

/-- A claim that is read as a timestamp is there. -/
theorem lookup_of_u64_claim {claims : Claims} {name : Str} {at_ : ℕ}
    (h : u64_claim claims name = some at_) : (claims.lookup name).isSome = true := by
  unfold u64_claim at h
  split at h
  · rename_i hlookup
    rw [hlookup, Option.isSome_some]
  · cases h

/-- Of the claims that every token must have, all are checked by the library but `iat`. -/
theorem mem_spec_claims {name : Str} (h : name ∈ REQUIRED_CLAIMS) :
    name ∈ SPEC_CLAIMS ∨ name = "iat".toList := by
  simp only [REQUIRED_CLAIMS, List.mem_cons, List.not_mem_nil, or_false] at h
  obtain rfl | rfl | rfl | rfl | rfl := h <;> simp [SPEC_CLAIMS]

/-! ## One provider -/

section Provider

variable {verifier : Verifier Key} {times : Times} {token iss : Str} {claims : Claims}
  {validation : Validation} {key : Key}

/-- What the library checked of a token, when the validation leaves out nothing. -/
theorem decoded_expires (henforces : Enforces verifier iss validation)
    (hdecode : jwt.decode times.decoded token key validation = .ok claims) :
    ∃ value at_, claims.lookup "exp".toList = some value ∧ jwt.timestamp value = some at_
      ∧ times.decoded ≤ at_ + verifier.skew := by
  have hexp : "exp".toList ∈ validation.required_spec_claims :=
    henforces.required _ (by simp [REQUIRED_CLAIMS])
  have hthere := jwt.decode_required hdecode _ (by simp [SPEC_CLAIMS]) hexp
  obtain ⟨value, hvalue⟩ := Option.isSome_iff_exists.mp hthere
  obtain ⟨at_, hat⟩ := Option.isSome_iff_exists.mp (jwt.decode_exp_required hdecode hexp hvalue)
  have hle := jwt.decode_exp hdecode henforces.validate_exp hvalue hat
  exact ⟨value, at_, hvalue, hat, henforces.leeway ▸ hle⟩

theorem decoded_audience (henforces : Enforces verifier iss validation)
    (hdecode : jwt.decode times.decoded token key validation = .ok claims) :
    ∃ value, claims.lookup "aud".toList = some value
      ∧ ∃ audience ∈ audiences value, audience ∈ verifier.audiences iss := by
  have hthere := jwt.decode_required hdecode "aud".toList (by simp [SPEC_CLAIMS])
    (henforces.required _ (by simp [REQUIRED_CLAIMS]))
  obtain ⟨value, hvalue⟩ := Option.isSome_iff_exists.mp hthere
  obtain ⟨audience, hclaimed, hset⟩ := jwt.decode_aud hdecode hvalue
  exact ⟨value, hvalue, audience, hclaimed, henforces.audiences _ hset⟩

/-- The claims that every token must have are there once the library has passed it and `iat`
has been read. -/
theorem decoded_required (henforces : Enforces verifier iss validation)
    (hdecode : jwt.decode times.decoded token key validation = .ok claims)
    (hiat : (claims.lookup "iat".toList).isSome = true) :
    ∀ name ∈ REQUIRED_CLAIMS, (claims.lookup name).isSome = true := by
  intro name hname
  obtain hspec | rfl := mem_spec_claims hname
  · exact jwt.decode_required hdecode name hspec (henforces.required name hname)
  · exact hiat

/-- The claims that the library returns are those that the issuer was read from. -/
theorem decoded_issuer (hiss : jwt.unverified_issuer token = .ok iss)
    (hdecode : jwt.decode times.decoded token key validation = .ok claims) :
    jwt.payload token = some (.Object claims)
      ∧ claims.lookup "iss".toList = some (.String iss) := by
  obtain ⟨read, hread, hlookup⟩ := unverified_issuer_ok hiss
  have hpayload : jwt.payload token = some (.Object claims) := jwt.decode_payload hdecode
  rw [hpayload] at hread
  cases hread
  exact ⟨hpayload, hlookup⟩

/-- The steps that both kinds of provider take, one after the other. -/
theorem verified_of_steps {header : Header} {kid subject : Str}
    (haccepted : iss ∈ verifier.issuers) (henforces : Enforces verifier iss validation)
    (hiss : jwt.unverified_issuer token = .ok iss)
    (hheader : jwt.checked_header verifier.algorithms token = .ok header)
    (hkid : kid_of header = .ok kid) (hkey : verifier.key_for kid = .ok key)
    (hclaims : jwt.checked_claims times.decoded token key validation = .ok claims)
    (hiat : validate_timestamp claims times.verified verifier.skew "iat" = .ok ())
    (hsubject : subject_of claims = .ok subject)
    (hmore : ∀ name ∈ verifier.required_claims, name ∉ REQUIRED_CLAIMS →
      (claims.lookup name).isSome = true) :
    Verified jwt verifier times token iss claims := by
  have hdecode := checked_claims_ok hclaims
  obtain ⟨hpayload, hissuer⟩ := decoded_issuer hiss hdecode
  obtain ⟨hdecoded, halg⟩ := checked_header_ok hheader
  obtain ⟨issued_at, hissued, hpast⟩ := validate_timestamp_ok hiat
  -- The header is decoded twice, and is the same both times.
  have hsigned : jwt.is_signed token key header.alg = true := by
    obtain ⟨h', hh', -, hsigned⟩ := jwt.decode_signed hdecode
    rw [hdecoded] at hh'
    cases hh'
    exact hsigned
  exact {
    payload := hpayload
    issuer := hissuer
    accepted := haccepted
    signed := ⟨header, kid, key, hdecoded, kid_of_ok hkid, hkey, halg, hsigned⟩
    audience := decoded_audience henforces hdecode
    expires := decoded_expires henforces hdecode
    issued := ⟨issued_at, hissued, hpast⟩
    subject := ⟨subject, subject_of_ok hsubject⟩
    required := fun name hname =>
      (em (name ∈ REQUIRED_CLAIMS)).elim
        (decoded_required henforces hdecode (lookup_of_u64_claim hissued) name)
        (hmore name hname) }

/-- An OIDC provider looks at all of it, `nbf` included. -/
theorem jwt_verify_ok {v : JwtVerifier Key} {identity : Identity}
    (h : v.verify jwt times token = .ok identity) :
    ∃ iss, jwt.unverified_issuer token = .ok iss
      ∧ Verified jwt (.jwt v) times token iss identity.claims
      ∧ NotBefore jwt (.jwt v) times identity.claims ∧ identity.issuer = iss := by
  obtain ⟨iss, hiss, h⟩ := bind_eq_ok.mp h
  split at h
  · cases h
  rename_i heq
  obtain ⟨header, hheader, h⟩ := bind_eq_ok.mp h
  obtain ⟨kid, hkid, h⟩ := bind_eq_ok.mp h
  obtain ⟨key, hkey, h⟩ := bind_eq_ok.mp h
  split at h
  · cases h
  obtain ⟨claims, hclaims, h⟩ := bind_eq_ok.mp h
  obtain ⟨_, hiat, h⟩ := bind_eq_ok.mp h
  obtain ⟨_, hrequired, h⟩ := bind_eq_ok.mp h
  obtain ⟨subject, hsubject, h⟩ := bind_eq_ok.mp h
  cases h
  have henforces : Enforces (.jwt v) iss
      { algorithms := v.algorithms
        iss := [v.issuer]
        aud := v.audiences
        required_spec_claims := REQUIRED_CLAIMS ++ v.required_claims
        leeway := as_secs v.clock_skew
        validate_exp := true
        validate_nbf := true } :=
    ⟨fun _ h => h, fun _ h => List.mem_append_left _ h, rfl, rfl⟩
  refine ⟨iss, hiss, ?_, ?_, rfl⟩
  · refine verified_of_steps ?_ henforces hiss hheader hkid hkey hclaims hiat hsubject ?_
    · exact List.mem_singleton.mpr (not_not.mp heq)
    · intro name hname hnot
      have hlisted : name ∈ v.required_claims := (List.mem_append.mp hname).resolve_left hnot
      have hpassed := forM_ok.mp hrequired name hlisted
      split at hpassed
      · assumption
      · cases hpassed
  · exact fun value at_ hvalue hat => jwt.decode_nbf (checked_claims_ok hclaims) rfl hvalue hat

/-- A Firebase provider asks for an authentication time besides, and does not look at `nbf`. -/
theorem firebase_verify_ok {escape_debug : Char → Str} {v : FirebaseVerifier Key}
    {identity : Identity} (h : v.verify jwt escape_debug times token = .ok identity) :
    ∃ iss, jwt.unverified_issuer token = .ok iss
      ∧ Verified jwt (.firebase v) times token iss identity.claims ∧ identity.issuer = iss := by
  obtain ⟨iss, hiss, h⟩ := bind_eq_ok.mp h
  split at h
  · cases h
  rename_i project_id hproject
  split at h
  · cases h
  rename_i hknown
  obtain ⟨header, hheader, h⟩ := bind_eq_ok.mp h
  obtain ⟨kid, hkid, h⟩ := bind_eq_ok.mp h
  obtain ⟨key, hkey, h⟩ := bind_eq_ok.mp h
  obtain ⟨claims, hclaims, h⟩ := bind_eq_ok.mp h
  obtain ⟨subject, hsubject, h⟩ := bind_eq_ok.mp h
  obtain ⟨_, hiat, h⟩ := bind_eq_ok.mp h
  obtain ⟨_, hauth_time, h⟩ := bind_eq_ok.mp h
  cases h
  -- The issuer is the prefix and the project, so that each is known from the other.
  have hprefix : ISS_PREFIX ++ project_id = iss :=
    (strip_prefix_eq_some.mp (Option.filter_eq_some_iff.mp hproject).1).symm
  have henforces : Enforces (.firebase v) iss
      { algorithms := [.RS256]
        iss := [ISS_PREFIX ++ project_id]
        aud := [project_id]
        required_spec_claims := REQUIRED_CLAIMS
        leeway := as_secs v.clock_skew
        validate_exp := true
        validate_nbf := false } := by
    refine ⟨?_, fun _ h => h, rfl, rfl⟩
    intro audience haudience
    rw [List.mem_singleton.mp haudience]
    exact List.mem_filter.mpr ⟨not_not.mp hknown, decide_eq_true hprefix⟩
  refine ⟨iss, hiss, ?_, rfl⟩
  refine verified_of_steps ?_ henforces hiss hheader hkid hkey hclaims hiat hsubject ?_
  · exact List.mem_map.mpr ⟨project_id, not_not.mp hknown, hprefix⟩
  · intro name hname hnot
    have hauth : name = "auth_time".toList :=
      List.mem_singleton.mp ((List.mem_append.mp hname).resolve_left hnot)
    obtain ⟨at_, hat, -⟩ := validate_timestamp_ok hauth_time
    exact hauth ▸ lookup_of_u64_claim hat

end Provider

/-! ## The provider of an issuer -/

/-- A provider was registered for an issuer, and no other was. -/
def Registered (providers : List (List Str × Verifier Key)) (iss : Str)
    (verifier : Verifier Key) : Prop :=
  ∃ before issuers after, providers = before ++ (issuers, verifier) :: after ∧ iss ∈ issuers
    ∧ ∀ provider ∈ before ++ after, iss ∉ provider.1

theorem register_ok {verifier : Verifier Key} {issuers : List Str}
    {router router' : IssuerRouter Key} (h : router.register verifier issuers = .ok router') :
    ∀ iss, (iss ∈ issuers → router.by_issuer.lookup iss = none)
      ∧ router'.by_issuer.lookup iss
        = if iss ∈ issuers then some verifier else router.by_issuer.lookup iss := by
  induction issuers generalizing router with
  | nil =>
    cases h
    exact fun iss => ⟨fun h => absurd h List.not_mem_nil, (if_neg List.not_mem_nil).symm⟩
  | cons issuer issuers ih =>
    rw [IssuerRouter.register] at h
    split at h
    · cases h
    rename_i hnew
    intro iss
    obtain ⟨hfree, hlookup⟩ := ih h iss
    rw [List.lookup_cons] at hfree hlookup
    by_cases hiss : iss = issuer
    · subst hiss
      refine ⟨fun _ => Option.not_isSome_iff_eq_none.mp hnew, ?_⟩
      rw [hlookup, if_pos List.mem_cons_self]
      simp
    · rw [beq_false_of_ne hiss] at hfree hlookup
      simpa [hiss] using And.intro hfree hlookup

/-- Whoever verifies for an issuer was registered for it, and nobody else was. -/
theorem register_all_ok {providers : List (List Str × Verifier Key)}
    {router router' : IssuerRouter Key} (h : router.register_all providers = .ok router')
    {iss : Str} {verifier : Verifier Key}
    (hlookup : router'.by_issuer.lookup iss = some verifier) :
    (router.by_issuer.lookup iss = some verifier ∧ ∀ provider ∈ providers, iss ∉ provider.1)
      ∨ router.by_issuer.lookup iss = none ∧ Registered providers iss verifier := by
  induction providers generalizing router with
  | nil =>
    cases h
    exact .inl ⟨hlookup, List.forall_mem_nil _⟩
  | cons provider providers ih =>
    rw [IssuerRouter.register_all] at h
    split at h
    case h_2 => cases h
    rename_i router₁ hregister
    obtain ⟨hfree, hthere⟩ := register_ok hregister iss
    obtain ⟨hfound, hothers⟩ | ⟨hnone, before, issuers, after, rfl, hiss, hothers⟩ := ih h
    · rw [hthere] at hfound
      split at hfound
      · rename_i hiss
        cases hfound
        exact .inr ⟨hfree hiss, [], provider.1, providers, rfl, hiss, hothers⟩
      · rename_i hiss
        exact .inl ⟨hfound, List.forall_mem_cons.mpr ⟨hiss, hothers⟩⟩
    · rw [hthere] at hnone
      split at hnone
      · cases hnone
      · rename_i hnot
        exact .inr ⟨hnone, provider :: before, issuers, after, rfl, hiss,
          List.forall_mem_cons.mpr ⟨hnot, hothers⟩⟩

/-- **An identity is that of the issuer it names.** Whatever token is accepted, the provider that
verified it is the one that was registered for the issuer that the token names, and the token
has shown to that provider all that it asks for. Only Firebase providers do not ask whether its
`nbf` has come. -/
theorem no_cross_issuer {escape_debug : Char → Str} {router : IssuerRouter Key} {times : Times}
    {token : Str} {identity : Identity}
    (h : router.verify jwt escape_debug times token = .ok identity) :
    ∃ iss verifier, jwt.unverified_issuer token = .ok iss
      ∧ router.by_issuer.lookup iss = some verifier
      ∧ (∀ providers, ({} : IssuerRouter Key).register_all providers = .ok router →
        Registered providers iss verifier)
      ∧ verifier.verify jwt escape_debug times token = .ok identity
      ∧ Verified jwt verifier times token iss identity.claims
      ∧ (∀ v, verifier = .jwt v → NotBefore jwt verifier times identity.claims)
      ∧ identity.issuer = iss := by
  obtain ⟨iss, hiss, h⟩ := bind_eq_ok.mp h
  split at h
  · cases h
  rename_i verifier hlookup
  have hregistered : ∀ providers, ({} : IssuerRouter Key).register_all providers = .ok router →
      Registered providers iss verifier := by
    intro providers hproviders
    obtain ⟨hfound, -⟩ | ⟨-, hregistered⟩ := register_all_ok hproviders hlookup
    · cases hfound
    · exact hregistered
  refine ⟨iss, verifier, hiss, hlookup, hregistered, h, ?_⟩
  cases verifier with
  | jwt v =>
    obtain ⟨iss', hiss', hverified, hnbf, hissuer⟩ := jwt_verify_ok h
    cases hiss.symm.trans hiss'
    exact ⟨hverified, fun _ _ => hnbf, hissuer⟩
  | firebase v =>
    obtain ⟨iss', hiss', hverified, hissuer⟩ := firebase_verify_ok h
    cases hiss.symm.trans hiss'
    exact ⟨hverified, by simp, hissuer⟩

end Verify

/-! ## Two providers -/

namespace TwoProviders

/-- A text in several pieces. -/
def pieces (l : List String) : Str := l.flatMap String.toList

def OIDC_JSON : Str :=
  pieces ["\x7b\"iss\":\"https://a\",", "\"aud\":[\"b\"],", "\"sub\":\"u\",", "\"exp\":2000,",
    "\"iat\":1000\x7d"]

def FIREBASE_JSON : Str :=
  pieces ["\x7b\"iss\":\"https://", "securetoken.google.com", "/p\",", "\"aud\":\"p\",",
    "\"sub\":\"u\",", "\"exp\":2000,", "\"iat\":1000,", "\"auth_time\":1000,", "\"nbf\":5000\x7d"]

/-- `{"alg":"RS256","kid":"k"}`. -/
def HEADER : Str := pieces ["eyJhbGciOiJSUzI1", "NiIsImtpZCI6ImsifQ"]

/-- `OIDC_JSON`. -/
def OIDC_PAYLOAD : Str :=
  pieces ["eyJpc3MiOiJodHRw", "czovL2EiLCJhdWQi", "OlsiYiJdLCJzdWIi", "OiJ1IiwiZXhwIjoy",
    "MDAwLCJpYXQiOjEw", "MDB9"]

/-- `FIREBASE_JSON`. -/
def FIREBASE_PAYLOAD : Str :=
  pieces ["eyJpc3MiOiJodHRw", "czovL3NlY3VyZXRv", "a2VuLmdvb2dsZS5j", "b20vcCIsImF1ZCI6",
    "InAiLCJzdWIiOiJ1", "IiwiZXhwIjoyMDAw", "LCJpYXQiOjEwMDAs", "ImF1dGhfdGltZSI6",
    "MTAwMCwibmJmIjo1", "MDAwfQ"]

def oidc_claims : Claims :=
  [("iss".toList, .String "https://a".toList), ("aud".toList, .Array [.String ['b']]),
    ("sub".toList, .String ['u']), ("exp".toList, .Number "2000".toList),
    ("iat".toList, .Number "1000".toList)]

def firebase_claims : Claims :=
  [("iss".toList, .String "https://securetoken.google.com/p".toList),
    ("aud".toList, .String ['p']), ("sub".toList, .String ['u']),
    ("exp".toList, .Number "2000".toList), ("iat".toList, .Number "1000".toList),
    ("auth_time".toList, .Number "1000".toList), ("nbf".toList, .Number "5000".toList)]

def decode_base64 (segment : Str) : Option (List UInt8) :=
  [(OIDC_PAYLOAD, utf8_bytes OIDC_JSON), (FIREBASE_PAYLOAD, utf8_bytes FIREBASE_JSON)].lookup
    segment

def from_slice (bytes : List UInt8) : Option Value :=
  if bytes = utf8_bytes OIDC_JSON then some (.Object oidc_claims)
  else if bytes = utf8_bytes FIREBASE_JSON then some (.Object firebase_claims)
  else none

def decode_header (token : Str) : Except String Header :=
  if (split '.' token)[0]? = some HEADER then .ok ⟨.RS256, some ['k']⟩ else .error "Base64"

/-- A key signs with its name. -/
def is_signed (token key : Str) (_ : Algorithm) : Bool := (split '.' token)[2]? = some key

def timestamp : Value → Option ℕ
  | .Number n => parse_u64 n
  | _ => none

/-- The time that a claim names. -/
def time_claim (claims : Claims) (name : String) : Option ℕ :=
  (claims.lookup name.toList).bind timestamp

/-- Whether claims pass a validation. -/
def passes (now : ℕ) (claims : Claims) (validation : Validation) : Bool :=
  SPEC_CLAIMS.all (fun name =>
      name ∉ validation.required_spec_claims || (claims.lookup name).isSome)
    && ("exp".toList ∉ validation.required_spec_claims || (time_claim claims "exp").isSome)
    && (!validation.validate_exp
      || (time_claim claims "exp").all fun at_ => now ≤ at_ + validation.leeway)
    && (!validation.validate_nbf
      || (time_claim claims "nbf").all fun at_ => at_ ≤ now + validation.leeway)
    && ((text_claim claims "iss".toList).all fun issuer => issuer ∈ validation.iss)
    && (claims.lookup "aud".toList).all fun value =>
      (audiences value).any fun audience => audience ∈ validation.aud

/-- Whether a token is signed as a validation has it. -/
def signed (token key : Str) (validation : Validation) : Bool :=
  match decode_header token with
  | .ok header => header.alg ∈ validation.algorithms && is_signed token key header.alg
  | .error _ => false

/-- A library that makes the checks that are documented and no others. -/
def decode (now : ℕ) (token key : Str) (validation : Validation) : Except String Claims :=
  match ((split '.' token)[1]?.bind decode_base64).bind from_slice with
  | some (.Object claims) =>
    if signed token key validation && passes now claims validation then .ok claims
    else .error "InvalidToken"
  | _ => .error "InvalidToken"

theorem decode_ok {now : ℕ} {token key : Str} {validation : Validation} {claims : Claims}
    (h : decode now token key validation = .ok claims) :
    ((split '.' token)[1]?.bind decode_base64).bind from_slice = some (.Object claims)
      ∧ signed token key validation = true ∧ passes now claims validation = true := by
  unfold decode at h
  split at h
  · rename_i hpayload
    split at h
    · rename_i hchecks
      cases h
      exact ⟨hpayload, (Bool.and_eq_true _ _ ▸ hchecks)⟩
    · cases h
  · cases h

/-- The checks of `passes`, one by one. -/
theorem passes_iff {now : ℕ} {claims : Claims} {validation : Validation} :
    passes now claims validation = true ↔
      (∀ name ∈ SPEC_CLAIMS, name ∈ validation.required_spec_claims →
          (claims.lookup name).isSome = true)
        ∧ ("exp".toList ∈ validation.required_spec_claims →
          (time_claim claims "exp").isSome = true)
        ∧ (validation.validate_exp = true → ∀ at_, time_claim claims "exp" = some at_ →
          now ≤ at_ + validation.leeway)
        ∧ (validation.validate_nbf = true → ∀ at_, time_claim claims "nbf" = some at_ →
          at_ ≤ now + validation.leeway)
        ∧ (∀ issuer, text_claim claims "iss".toList = some issuer → issuer ∈ validation.iss)
        ∧ ∀ value, claims.lookup "aud".toList = some value →
          ∃ audience ∈ audiences value, audience ∈ validation.aud := by
  simp only [passes, Bool.and_eq_true, Bool.or_eq_true, Bool.not_eq_true', List.all_eq_true,
    Option.all_eq_true, List.any_eq_true, decide_eq_true_eq, decide_not, decide_eq_false_iff_not,
    imp_iff_not_or, Bool.not_eq_true, and_assoc]

def library : JsonWebToken Str where
  decode_base64 := decode_base64
  from_slice := from_slice
  decode_header := decode_header
  is_signed := is_signed
  timestamp := timestamp
  decode := decode
  decode_payload := fun h => (decode_ok h).1
  decode_signed := by
    intro now token key validation claims h
    have hsigned := (decode_ok h).2.1
    unfold signed at hsigned
    split at hsigned
    · rename_i header hheader
      rw [Bool.and_eq_true, decide_eq_true_eq] at hsigned
      exact ⟨header, hheader, hsigned⟩
    · cases hsigned
  decode_required := fun h => (passes_iff.mp (decode_ok h).2.2).1
  decode_exp_required := by
    intro now token key validation claims value h hrequired hvalue
    have hexp := (passes_iff.mp (decode_ok h).2.2).2.1 hrequired
    rwa [time_claim, hvalue, Option.bind_some] at hexp
  decode_exp := by
    intro now token key validation claims value at_ h hvalidate hvalue hat
    refine (passes_iff.mp (decode_ok h).2.2).2.2.1 hvalidate at_ ?_
    rw [time_claim, hvalue, Option.bind_some, hat]
  decode_nbf := by
    intro now token key validation claims value at_ h hvalidate hvalue hat
    refine (passes_iff.mp (decode_ok h).2.2).2.2.2.1 hvalidate at_ ?_
    rw [time_claim, hvalue, Option.bind_some, hat]
  decode_iss := by
    intro now token key validation claims issuer h hissuer
    exact (passes_iff.mp (decode_ok h).2.2).2.2.2.2.1 issuer (text_claim_eq_some.mpr hissuer)
  decode_aud := fun h hvalue => (passes_iff.mp (decode_ok h).2.2).2.2.2.2.2 _ hvalue

/-- A key set with one key. -/
def key_for (kid : Str) : Except AuthError Str :=
  if kid = ['k'] then .ok ['s'] else .error (.Invalid "unknown signing key")

/-- A minute. -/
def SKEW : Duration := 60 * NANOS_PER_SEC

def oidc : Verifier Str := .jwt ⟨"https://a".toList, [['b']], [.RS256], [], SKEW, key_for⟩

def firebase : Verifier Str := .firebase ⟨[['p']], SKEW, key_for⟩

/-- Both, as they are registered at start-up. -/
def router : IssuerRouter Str :=
  ⟨[("https://a".toList, oidc), ("https://securetoken.google.com/p".toList, firebase)]⟩

/-- A token with a payload, signed with the key that is named `s`. -/
def token (payload : Str) : Str := HEADER ++ '.' :: payload ++ ".s".toList

def NOON : Times := ⟨1500, 1500⟩

theorem oidc_accepted : router.verify library (fun c => [c]) NOON (token OIDC_PAYLOAD)
    = .ok ⟨['u'], "https://a".toList, ['b'], oidc_claims⟩ := by rfl

theorem firebase_accepted : router.verify library (fun c => [c]) NOON (token FIREBASE_PAYLOAD)
    = .ok ⟨['u'], "https://securetoken.google.com/p".toList, ['p'], firebase_claims⟩ := by rfl

theorem registered : ({} : IssuerRouter Str).register_all
    [(["https://securetoken.google.com/p".toList], firebase), (["https://a".toList], oidc)]
      = .ok router := by rfl

end TwoProviders

open TwoProviders in
/-- The token of the OIDC provider is taken for that provider's. -/
theorem no_cross_issuer_oidc : ∃ iss verifier,
    library.unverified_issuer (token OIDC_PAYLOAD) = .ok iss
      ∧ router.by_issuer.lookup iss = some verifier
      ∧ (∀ providers, ({} : IssuerRouter Str).register_all providers = .ok router →
        Registered providers iss verifier)
      ∧ verifier.verify library (fun c => [c]) NOON (token OIDC_PAYLOAD)
        = .ok ⟨['u'], "https://a".toList, ['b'], oidc_claims⟩
      ∧ Verified library verifier NOON (token OIDC_PAYLOAD) iss oidc_claims
      ∧ (∀ v, verifier = .jwt v → NotBefore library verifier NOON oidc_claims)
      ∧ "https://a".toList = iss :=
  no_cross_issuer oidc_accepted

open TwoProviders in
/-- A Firebase provider takes a token an hour before its `nbf`. -/
theorem firebase_before_nbf :
    ({} : IssuerRouter Str).register_all
        [(["https://securetoken.google.com/p".toList], firebase), (["https://a".toList], oidc)]
      = .ok router
      ∧ router.verify library (fun c => [c]) NOON (token FIREBASE_PAYLOAD)
        = .ok ⟨['u'], "https://securetoken.google.com/p".toList, ['p'], firebase_claims⟩
      ∧ ¬ NotBefore library firebase NOON firebase_claims := by
  refine ⟨registered, firebase_accepted, fun h => ?_⟩
  have hnbf : 5000 ≤ 1500 + firebase.skew := h (.Number "5000".toList) 5000 rfl rfl
  exact absurd hnbf (by decide)

end Lagos.Tokens
