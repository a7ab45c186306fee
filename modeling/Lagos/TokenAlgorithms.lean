/-
The algorithms that a provider is configured for (`parse_algorithm` and the checks of `auth.jwt`
in `config/mod.rs`, the providers in `runtime.rs`, `JwtVerifier::verify` in `auth/jwt.rs`).

`verify` hands the library all the algorithms of the list for every token. The library refuses a
key that is not of the family of each of them, whatever algorithm the token has, so a list works
as it reads when its algorithms are of one family, and refuses every token otherwise
(`accepts_iff_one_family`). What the library takes is what `KeyLibrary` adds to `JsonWebToken`.
-/
import Lagos.RoutesValidate
import Lagos.Tokens

set_option autoImplicit false

open RustStd

namespace Lagos.Tokens

open Lagos.Auth Lagos.Config Lagos.Jwks

/-! ## The configuration of a provider -/

/-- `parse_algorithm`. -/
def parse_algorithm (name : Str) : Option Algorithm :=
  let upper := to_ascii_uppercase name
  if upper = "RS256".toList then some .RS256
  else if upper = "RS384".toList then some .RS384
  else if upper = "RS512".toList then some .RS512
  else if upper = "ES256".toList then some .ES256
  else if upper = "ES384".toList then some .ES384
  else if upper = "PS256".toList then some .PS256
  else if upper = "PS384".toList then some .PS384
  else if upper = "PS512".toList then some .PS512
  else if upper = "EDDSA".toList then some .EdDSA
  else none

/-- `JwtConfig`, without what its key set is fetched by. -/
structure JwtConfig where
  issuer : Str
  audience : List Str
  algorithms : List Str := ["RS256".toList]
  required_claims : List Str := []
  clock_skew : Duration := 60 * NANOS_PER_SEC
  deriving DecidableEq, Repr

/-- The checks of one entry of `auth.jwt`. -/
def JwtConfig.validate (j : JwtConfig) : Except ConfigError Unit := do
  refuse_if (trim j.issuer = []) "auth.jwt: `issuer` is empty"
  refuse_if (j.audience = [])
    (s!"auth.jwt `{text j.issuer}`: `audience` is required. Without it a token this issuer minted "
      ++ "for another service would be accepted here.")
  j.algorithms.forM fun alg =>
    match parse_algorithm alg with
    | none =>
      invalid (s!"auth.jwt `{text j.issuer}`: `{text alg}` is not a supported algorithm. "
        ++ "Use one of RS256, RS384, RS512, ES256, ES384, PS256, PS384, PS512, EdDSA.")
    | some _ => .ok ()

/-- The verifier that an entry of `auth.jwt` is made into at start-up. -/
def JwtConfig.verifier {Key : Type} (j : JwtConfig) (key_for : Str → Except AuthError Key) :
    JwtVerifier Key where
  issuer := j.issuer
  audiences := j.audience
  algorithms := j.algorithms.filterMap parse_algorithm
  required_claims := j.required_claims
  clock_skew := j.clock_skew
  key_for := key_for

/-! ## Families of keys -/

/-- `jsonwebtoken`'s `AlgorithmFamily`. -/
inductive Family where
  | Hmac | Rsa | Ec | Ed
  deriving DecidableEq, Repr

/-- `Algorithm::family`. -/
def Algorithm.family : Algorithm → Family
  | .HS256 | .HS384 | .HS512 => .Hmac
  | .RS256 | .RS384 | .RS512 | .PS256 | .PS384 | .PS512 => .Rsa
  | .ES256 | .ES384 => .Ec
  | .EdDSA => .Ed

section Library

variable {Key : Type}

/-- The registered claims are of the types that are registered. -/
structure WellTyped (jwt : JsonWebToken Key) (claims : Claims) : Prop where
  exp : ∀ value, claims.lookup "exp".toList = some value → (jwt.timestamp value).isSome = true
  nbf : ∀ value, claims.lookup "nbf".toList = some value → (jwt.timestamp value).isSome = true
  sub : ∀ value, claims.lookup "sub".toList = some value → ∃ s, value = .String s
  iss : ∀ value, claims.lookup "iss".toList = some value → ∃ s, value = .String s
  aud : ∀ value, claims.lookup "aud".toList = some value →
    (∃ s, value = .String s) ∨ ∃ l : List Str, value = .Array (l.map .String)

/-- What `decode` looks at, of a token with these claims and a key. -/
structure Passes (jwt : JsonWebToken Key) (family : Key → Family) (now : ℕ) (token : Str)
    (key : Key) (validation : Validation) (claims : Claims) : Prop where
  payload : jwt.payload token = some (.Object claims)
  one_family : ∀ alg ∈ validation.algorithms, alg.family = family key
  signed : ∃ header, jwt.decode_header token = .ok header ∧ header.alg ∈ validation.algorithms
    ∧ jwt.is_signed token key header.alg = true
  well_typed : WellTyped jwt claims
  required : ∀ name ∈ SPEC_CLAIMS, name ∈ validation.required_spec_claims →
    (claims.lookup name).isSome = true
  expires : ∀ value at_, claims.lookup "exp".toList = some value → jwt.timestamp value = some at_ →
    now ≤ at_ + validation.leeway
  not_before : ∀ value at_, claims.lookup "nbf".toList = some value →
    jwt.timestamp value = some at_ → at_ ≤ now + validation.leeway
  issuer : ∃ issuer ∈ validation.iss, claims.lookup "iss".toList = some (.String issuer)
  audience : ∃ value, claims.lookup "aud".toList = some value
    ∧ ∃ audience ∈ audiences value, audience ∈ validation.aud

/-- A library that takes what passes its checks, and no key of another family than those of the
algorithms it is given. -/
structure KeyLibrary (Key : Type) extends JsonWebToken Key where
  /-- The family of a `DecodingKey`. -/
  family : Key → Family
  /-- `InvalidAlgorithm`. -/
  decode_family : ∀ {now token key validation claims},
    decode now token key validation = .ok claims →
      ∀ alg ∈ validation.algorithms, alg.family = family key
  decode_passes : ∀ {now token key validation claims},
    Passes toJsonWebToken family now token key validation claims →
      decode now token key validation = .ok claims

end Library

/-! ## Tokens of a configured algorithm -/

section Usable

variable {Key : Type} {jwt : KeyLibrary Key}

variable (jwt) in
/-- A token as a provider's issuer makes them: signed with an algorithm of the list by a published
key of its family, and with claims that satisfy the provider's rules. -/
structure Usable (v : JwtVerifier Key) (times : Times) (token : Str) (header : Header) (key : Key)
    (claims : Claims) : Prop where
  payload : jwt.payload token = some (.Object claims)
  decoded : jwt.decode_header token = .ok header
  listed : header.alg ∈ v.algorithms
  published : ∃ kid, header.kid = some kid ∧ v.key_for kid = .ok key
  matching : jwt.family key = header.alg.family
  signed : jwt.is_signed token key header.alg = true
  well_typed : WellTyped jwt.toJsonWebToken claims
  issuer : claims.lookup "iss".toList = some (.String v.issuer)
  audience : ∃ value, claims.lookup "aud".toList = some value
    ∧ ∃ audience ∈ audiences value, audience ∈ v.audiences
  expires : ∃ value at_, claims.lookup "exp".toList = some value ∧ jwt.timestamp value = some at_
    ∧ times.decoded ≤ at_ + as_secs v.clock_skew
  not_before : ∀ value at_, claims.lookup "nbf".toList = some value →
    jwt.timestamp value = some at_ → at_ ≤ times.decoded + as_secs v.clock_skew
  issued : ∃ at_, u64_claim claims "iat".toList = some at_
    ∧ at_ ≤ times.verified + as_secs v.clock_skew
  subject : ∃ subject, text_claim claims "sub".toList = some subject ∧ subject ≠ []
  required : ∀ name ∈ v.required_claims, (claims.lookup name).isSome = true

/-- The algorithms that a list names are of one family. -/
def OneFamily (names : List Str) : Prop :=
  ∀ a ∈ names, ∀ b ∈ names,
    (parse_algorithm a).map Algorithm.family = (parse_algorithm b).map Algorithm.family

instance (names : List Str) : Decidable (OneFamily names) :=
  inferInstanceAs (Decidable (∀ a ∈ names, ∀ b ∈ names, _))

/-! ## What each step takes -/

theorem unverified_issuer_of {token iss : Str} {claims : Claims}
    (hpayload : jwt.payload token = some (.Object claims))
    (hiss : claims.lookup "iss".toList = some (.String iss)) :
    jwt.unverified_issuer token = .ok iss := by
  unfold JsonWebToken.payload at hpayload
  obtain ⟨bytes, hbytes, hjson⟩ := Option.bind_eq_some_iff.mp hpayload
  obtain ⟨segment, hsegment, hdecoded⟩ := Option.bind_eq_some_iff.mp hbytes
  unfold JsonWebToken.unverified_issuer
  rw [hsegment]
  dsimp only
  rw [hdecoded]
  dsimp only
  rw [hjson]
  dsimp only
  rw [text_claim_eq_some.mpr hiss]

/-- A number that was read is one of 64 bits. -/
theorem digits_u64_le {s : Str} {n m : ℕ} (hn : n ≤ U64_MAX) (h : digits_u64 n s = some m) :
    m ≤ U64_MAX := by
  induction s generalizing n with
  | nil =>
    cases h
    exact hn
  | cons c s ih =>
    rw [digits_u64] at h
    split at h
    · rename_i hc
      exact ih hc.2 h
    · cases h

theorem u64_claim_le {claims : Claims} {name : Str} {at_ : ℕ}
    (h : u64_claim claims name = some at_) : at_ ≤ U64_MAX := by
  unfold u64_claim at h
  split at h
  · split at h
    · cases h
    · exact digits_u64_le (Nat.zero_le _) h
  · cases h

theorem validate_timestamp_of {claims : Claims} {now skew at_ : ℕ} {name : String}
    (h : u64_claim claims name.toList = some at_) (hpast : at_ ≤ now + skew) :
    validate_timestamp claims now skew name = .ok () := by
  have hle : at_ ≤ saturating_add_u64 now skew := le_min hpast (u64_claim_le h)
  rw [validate_timestamp, h]
  exact if_neg (not_lt.mpr hle)

theorem subject_of_text {claims : Claims} {subject : Str}
    (h : text_claim claims "sub".toList = some subject) (hne : subject ≠ []) :
    subject_of claims = .ok subject := by
  have hfilter : (text_claim claims "sub".toList).filter (fun s => !s.isEmpty) = some subject := by
    rw [h, Option.filter_some, if_pos (by simpa using hne)]
  rw [subject_of, hfilter]

/-- What the library is asked of a token. -/
def JwtVerifier.validation (v : JwtVerifier Key) : Validation where
  algorithms := v.algorithms
  iss := [v.issuer]
  aud := v.audiences
  required_spec_claims := REQUIRED_CLAIMS ++ v.required_claims
  leeway := as_secs v.clock_skew
  validate_exp := true
  validate_nbf := true

variable {v : JwtVerifier Key} {times : Times} {token : Str} {header : Header} {key : Key}
  {claims : Claims}

/-- All that is required of a token is there. -/
theorem Usable.there (h : Usable jwt v times token header key claims) {name : Str}
    (hname : name ∈ REQUIRED_CLAIMS ++ v.required_claims) : (claims.lookup name).isSome = true := by
  obtain hname | hname := List.mem_append.mp hname
  · simp only [REQUIRED_CLAIMS, List.mem_cons, List.not_mem_nil, or_false] at hname
    obtain ⟨exp, at_, hexp, -⟩ := h.expires
    obtain ⟨issued_at, hiat, -⟩ := h.issued
    obtain ⟨aud, haud, -⟩ := h.audience
    obtain ⟨subject, hsubject, -⟩ := h.subject
    obtain rfl | rfl | rfl | rfl | rfl := hname
    · rw [hexp, Option.isSome_some]
    · exact lookup_of_u64_claim hiat
    · rw [haud, Option.isSome_some]
    · rw [h.issuer, Option.isSome_some]
    · rw [text_claim_eq_some.mp hsubject, Option.isSome_some]
  · exact h.required name hname

/-- The library takes a token just if the key is of the family of each algorithm it is given. -/
theorem Usable.decode_iff (h : Usable jwt v times token header key claims) :
    (∃ read, jwt.decode times.decoded token key v.validation = .ok read)
      ↔ ∀ alg ∈ v.algorithms, alg.family = jwt.family key := by
  constructor
  · rintro ⟨read, hdecode⟩
    exact jwt.decode_family hdecode
  · intro hfamily
    refine ⟨claims, jwt.decode_passes ?_⟩
    exact {
      payload := h.payload
      one_family := hfamily
      signed := ⟨header, h.decoded, h.listed, h.signed⟩
      well_typed := h.well_typed
      required := fun name _ hname => h.there hname
      expires := by
        intro value at_ hvalue hat
        obtain ⟨value', at', hvalue', hat', hle⟩ := h.expires
        cases hvalue.symm.trans hvalue'
        cases hat.symm.trans hat'
        exact hle
      not_before := h.not_before
      issuer := ⟨v.issuer, List.mem_singleton_self _, h.issuer⟩
      audience := h.audience }

/-- Every other step takes it. -/
theorem Usable.verify_iff (h : Usable jwt v times token header key claims) :
    (∃ identity, v.verify jwt.toJsonWebToken times token = .ok identity)
      ↔ ∃ read, jwt.decode times.decoded token key v.validation = .ok read := by
  obtain ⟨kid, hkid, hkey⟩ := h.published
  have hheader : jwt.checked_header v.algorithms token = .ok header := by
    rw [JsonWebToken.checked_header, h.decoded]
    exact if_pos h.listed
  have hkid : kid_of header = .ok kid := by rw [kid_of, hkid]
  have hconfigured : v.audiences ≠ [] := by
    obtain ⟨value, -, audience, -, hmem⟩ := h.audience
    exact List.ne_nil_of_mem hmem
  constructor
  -- What is verified was decoded, with the header and the key that the token has.
  · rintro ⟨identity, hverify⟩
    obtain ⟨iss, -, hverify⟩ := bind_eq_ok.mp hverify
    split at hverify
    · cases hverify
    obtain ⟨header', hheader', hverify⟩ := bind_eq_ok.mp hverify
    cases hheader.symm.trans hheader'
    obtain ⟨kid', hkid', hverify⟩ := bind_eq_ok.mp hverify
    cases hkid.symm.trans hkid'
    obtain ⟨key', hkey', hverify⟩ := bind_eq_ok.mp hverify
    cases hkey.symm.trans hkey'
    obtain ⟨read, hread, -⟩ := bind_eq_ok.mp hverify
    exact ⟨read, checked_claims_ok hread⟩
  · rintro ⟨read, hread⟩
    obtain rfl : claims = read := by
      have hpayload : jwt.payload token = some (.Object read) := jwt.decode_payload hread
      cases h.payload.symm.trans hpayload
      rfl
    have hclaims : jwt.checked_claims times.decoded token key v.validation = .ok claims := by
      rw [JsonWebToken.checked_claims, hread]
      rfl
    obtain ⟨issued_at, hiat, hpast⟩ := h.issued
    obtain ⟨subject, hsubject, hne⟩ := h.subject
    have hrequired : (v.required_claims.forM fun name =>
        if (claims.lookup name).isSome then Except.ok ()
        else .error (AuthError.Invalid s!"missing claim `{text name}`")) = .ok () :=
      forM_ok.mpr fun name hname => if_pos (h.required name hname)
    refine ⟨⟨subject, v.issuer, first_audience claims, claims⟩, ?_⟩
    refine bind_eq_ok.mpr ⟨v.issuer, unverified_issuer_of h.payload h.issuer, ?_⟩
    rw [if_neg (not_not_intro rfl)]
    refine bind_eq_ok.mpr ⟨header, hheader, bind_eq_ok.mpr ⟨kid, hkid, ?_⟩⟩
    refine bind_eq_ok.mpr ⟨key, hkey, ?_⟩
    rw [if_neg hconfigured]
    refine bind_eq_ok.mpr ⟨claims, hclaims, ?_⟩
    refine bind_eq_ok.mpr ⟨(), validate_timestamp_of hiat hpast, ?_⟩
    refine bind_eq_ok.mpr ⟨(), hrequired, ?_⟩
    exact bind_eq_ok.mpr ⟨subject, subject_of_text hsubject hne, rfl⟩

end Usable

/-! ## Mixed lists -/

/-- Of an accepted entry every algorithm is known. -/
theorem parse_of_validate {j : JwtConfig} (h : j.validate = .ok ()) {name : Str}
    (hname : name ∈ j.algorithms) : ∃ alg, parse_algorithm name = some alg := by
  obtain ⟨_, -, h⟩ := bind_eq_ok.mp h
  obtain ⟨_, -, h⟩ := bind_eq_ok.mp h
  have hparsed := forM_ok.mp h name hname
  cases halg : parse_algorithm name with
  | none =>
    rw [halg] at hparsed
    cases hparsed
  | some alg => exact ⟨alg, rfl⟩

/-- **Every configured algorithm is usable just in the lists of one family.** Whatever accepted
entry and whatever token of one of its algorithms, with a published key that matches it and claims
as the entry asks for them: the token is accepted if the listed algorithms are all of one family,
and refused if they are not. -/
theorem accepts_iff_one_family {Key : Type} {jwt : KeyLibrary Key} {entries : List JwtConfig}
    {j : JwtConfig} {key_for : Str → Except AuthError Key} {times : Times} {token : Str}
    {header : Header} {key : Key} {claims : Claims}
    (hvalid : entries.forM JwtConfig.validate = .ok ()) (hj : j ∈ entries)
    (h : Usable jwt (j.verifier key_for) times token header key claims) :
    (∃ identity, (j.verifier key_for).verify jwt.toJsonWebToken times token = .ok identity)
      ↔ OneFamily j.algorithms := by
  rw [h.verify_iff, h.decode_iff, h.matching]
  have hparse : ∀ name ∈ j.algorithms, ∃ alg, parse_algorithm name = some alg :=
    fun name hname => parse_of_validate (forM_ok.mp hvalid j hj) hname
  have hlisted : ∀ alg, alg ∈ (j.verifier key_for).algorithms ↔
      ∃ name ∈ j.algorithms, parse_algorithm name = some alg := fun alg => List.mem_filterMap
  obtain ⟨own, hown, halg⟩ := (hlisted _).mp h.listed
  constructor
  · intro hfamily a ha b hb
    obtain ⟨x, hx⟩ := hparse a ha
    obtain ⟨y, hy⟩ := hparse b hb
    rw [hx, hy, Option.map_some, Option.map_some, hfamily x ((hlisted x).mpr ⟨a, ha, hx⟩),
      hfamily y ((hlisted y).mpr ⟨b, hb, hy⟩)]
  · intro hone alg hmem
    obtain ⟨name, hname, hparsed⟩ := (hlisted alg).mp hmem
    have hsame := hone name hname own hown
    rw [hparsed, halg] at hsame
    exact Option.some.inj hsame

/-! ## An issuer with one key -/

namespace OneKey

open TwoProviders

def JSON : Str :=
  pieces ["\x7b\"iss\":\"https://a\",", "\"aud\":[\"c\",\"b\"],", "\"sub\":\"u\",", "\"exp\":2000,",
    "\"iat\":1000\x7d"]

/-- `JSON`. -/
def PAYLOAD : Str :=
  pieces ["eyJpc3MiOiJodHRw", "czovL2EiLCJhdWQi", "OlsiYyIsImIiXSwi", "c3ViIjoidSIsImV4",
    "cCI6MjAwMCwiaWF0", "IjoxMDAwfQ"]

def claims : Claims :=
  [("iss".toList, .String "https://a".toList),
    ("aud".toList, .Array [.String ['c'], .String ['b']]), ("sub".toList, .String ['u']),
    ("exp".toList, .Number "2000".toList), ("iat".toList, .Number "1000".toList)]

def decode_base64 (segment : Str) : Option (List UInt8) :=
  if segment = PAYLOAD then some (utf8_bytes JSON) else none

def from_slice (bytes : List UInt8) : Option Value :=
  if bytes = utf8_bytes JSON then some (.Object claims) else none

/-- Keys that are named `e` are elliptic curves. -/
def family (key : Str) : Family := if key = ['e'] then .Ec else .Rsa

/-- Whether a key may be used with a validation. -/
def fits (key : Str) (validation : Validation) : Bool :=
  validation.algorithms.all fun alg => alg.family = family key

/-- A library that makes the checks that are documented, families included. -/
def decode (now : ℕ) (token key : Str) (validation : Validation) : Except String Claims :=
  match ((split '.' token)[1]?.bind decode_base64).bind from_slice with
  | some (.Object claims) =>
    if fits key validation then
      if signed token key validation && passes now claims validation then .ok claims
      else .error "InvalidToken"
    else .error "InvalidAlgorithm"
  | _ => .error "InvalidToken"

theorem decode_ok {now : ℕ} {token key : Str} {validation : Validation} {claims : Claims} :
    decode now token key validation = .ok claims ↔
      ((split '.' token)[1]?.bind decode_base64).bind from_slice = some (.Object claims)
        ∧ fits key validation = true ∧ signed token key validation = true
        ∧ passes now claims validation = true := by
  unfold decode
  constructor
  · intro h
    split at h
    · rename_i hpayload
      split at h
      · rename_i hfits
        split at h
        · rename_i hchecks
          cases h
          exact ⟨hpayload, hfits, Bool.and_eq_true _ _ ▸ hchecks⟩
        · cases h
      · cases h
    · cases h
  · rintro ⟨hpayload, hfits, hsigned, hpasses⟩
    rw [hpayload]
    simp [hfits, hsigned, hpasses]

def library : JsonWebToken Str where
  decode_base64 := decode_base64
  from_slice := from_slice
  decode_header := decode_header
  is_signed := is_signed
  timestamp := timestamp
  decode := decode
  decode_payload := fun h => (decode_ok.mp h).1
  decode_signed := by
    intro now token key validation claims h
    have hsigned := (decode_ok.mp h).2.2.1
    unfold signed at hsigned
    split at hsigned
    · rename_i header hheader
      rw [Bool.and_eq_true, decide_eq_true_eq] at hsigned
      exact ⟨header, hheader, hsigned⟩
    · cases hsigned
  decode_required := fun h => (passes_iff.mp (decode_ok.mp h).2.2.2).1
  decode_exp_required := by
    intro now token key validation claims value h hrequired hvalue
    have hexp := (passes_iff.mp (decode_ok.mp h).2.2.2).2.1 hrequired
    rwa [time_claim, hvalue, Option.bind_some] at hexp
  decode_exp := by
    intro now token key validation claims value at_ h hvalidate hvalue hat
    refine (passes_iff.mp (decode_ok.mp h).2.2.2).2.2.1 hvalidate at_ ?_
    rw [time_claim, hvalue, Option.bind_some, hat]
  decode_nbf := by
    intro now token key validation claims value at_ h hvalidate hvalue hat
    refine (passes_iff.mp (decode_ok.mp h).2.2.2).2.2.2.1 hvalidate at_ ?_
    rw [time_claim, hvalue, Option.bind_some, hat]
  decode_iss := by
    intro now token key validation claims issuer h hissuer
    exact (passes_iff.mp (decode_ok.mp h).2.2.2).2.2.2.2.1 issuer (text_claim_eq_some.mpr hissuer)
  decode_aud := fun h hvalue => (passes_iff.mp (decode_ok.mp h).2.2.2).2.2.2.2.2 _ hvalue

/-- A claim that names a time is read as that time. -/
theorem lookup_of_time_claim {claims : Claims} {name : String} {at_ : ℕ}
    (h : time_claim claims name = some at_) :
    ∃ value, claims.lookup name.toList = some value ∧ library.timestamp value = some at_ :=
  Option.bind_eq_some_iff.mp h

theorem signed_of_passes {now : ℕ} {token key : Str} {validation : Validation} {claims : Claims}
    (h : Passes library family now token key validation claims) :
    signed token key validation = true := by
  obtain ⟨header, hheader, halg, hsigned⟩ := h.signed
  have hheader : decode_header token = .ok header := hheader
  have hsigned : is_signed token key header.alg = true := hsigned
  rw [signed, hheader]
  simp [halg, hsigned]

theorem passes_of_passes {now : ℕ} {token key : Str} {validation : Validation} {claims : Claims}
    (h : Passes library family now token key validation claims) :
    passes now claims validation = true := by
  rw [passes_iff]
  refine ⟨h.required, fun hexp => ?_, fun _ at_ hat => ?_, fun _ at_ hat => ?_, ?_, ?_⟩
  · have hthere := h.required _ (by simp [SPEC_CLAIMS]) hexp
    obtain ⟨value, hvalue⟩ := Option.isSome_iff_exists.mp hthere
    rw [time_claim, hvalue, Option.bind_some]
    exact h.well_typed.exp value hvalue
  · obtain ⟨value, hvalue, hread⟩ := lookup_of_time_claim hat
    exact h.expires value at_ hvalue hread
  · obtain ⟨value, hvalue, hread⟩ := lookup_of_time_claim hat
    exact h.not_before value at_ hvalue hread
  · intro issuer hissuer
    obtain ⟨own, hown, hlookup⟩ := h.issuer
    cases (text_claim_eq_some.mp hissuer).symm.trans hlookup
    exact hown
  · intro value hvalue
    obtain ⟨own, hown, haudience⟩ := h.audience
    cases hvalue.symm.trans hown
    exact haudience

def key_library : KeyLibrary Str where
  toJsonWebToken := library
  family := family
  decode_family := fun h => by simpa [fits] using (decode_ok.mp h).2.1
  decode_passes := fun h =>
    decode_ok.mpr ⟨h.payload, by simpa [fits] using h.one_family, signed_of_passes h,
      passes_of_passes h⟩

/-- An entry with these algorithms. -/
def entry (algorithms : List Str) : JwtConfig :=
  { issuer := "https://a".toList, audience := [['b']], algorithms := algorithms }

def header : Header := ⟨.RS256, some ['k']⟩

theorem entry_skew (algorithms : List Str) :
    as_secs ((entry algorithms).verifier key_for).clock_skew = 60 :=
  Nat.mul_div_cancel 60 (by decide)

/-- Whatever else is listed besides `RS256`, its tokens are as they should be. -/
theorem usable (algorithms : List Str) : Usable key_library
    ((entry ("RS256".toList :: algorithms)).verifier key_for) NOON (token PAYLOAD) header ['s']
    claims where
  payload := by rfl
  decoded := by rfl
  listed := List.mem_cons_self
  published := ⟨['k'], rfl, rfl⟩
  matching := rfl
  signed := by rfl
  well_typed :=
    { exp := by
        rintro value hvalue
        cases hvalue
        rfl
      nbf := by
        rintro value hvalue
        cases hvalue
      sub := by
        rintro value hvalue
        cases hvalue
        exact ⟨_, rfl⟩
      iss := by
        rintro value hvalue
        cases hvalue
        exact ⟨_, rfl⟩
      aud := by
        rintro value hvalue
        cases hvalue
        exact .inr ⟨[['c'], ['b']], rfl⟩ }
  issuer := by rfl
  audience := ⟨_, rfl, ['b'], List.mem_cons_of_mem _ List.mem_cons_self, List.mem_cons_self⟩
  expires := ⟨.Number "2000".toList, 2000, rfl, rfl, by rw [entry_skew]; decide⟩
  not_before := by
    rintro value at_ hvalue
    cases hvalue
  issued := ⟨1000, rfl, by rw [entry_skew]; decide⟩
  subject := ⟨['u'], rfl, List.cons_ne_nil _ _⟩
  required := List.forall_mem_nil _

end OneKey

open OneKey in
/-- Two algorithms for one kind of key. -/
theorem accepts_rsa : (∃ identity, ((entry ["RS256".toList, "PS256".toList]).verifier
      TwoProviders.key_for).verify key_library.toJsonWebToken TwoProviders.NOON
        (TwoProviders.token PAYLOAD) = .ok identity)
      ↔ OneFamily ["RS256".toList, "PS256".toList] :=
  @accepts_iff_one_family _ _ [entry ["RS256".toList, "PS256".toList]] _ _ _ _ _ _ _ (by rfl)
    List.mem_cons_self (usable ["PS256".toList])

open OneKey in
/-- With `ES256` besides `RS256`, the same token is refused. -/
theorem refuses_mixed :
    [entry ["RS256".toList, "ES256".toList]].forM JwtConfig.validate = .ok ()
      ∧ Usable key_library ((entry ["RS256".toList, "ES256".toList]).verifier TwoProviders.key_for)
        TwoProviders.NOON (TwoProviders.token PAYLOAD) header ['s'] claims
      ∧ ((entry ["RS256".toList, "ES256".toList]).verifier TwoProviders.key_for).verify
          key_library.toJsonWebToken TwoProviders.NOON (TwoProviders.token PAYLOAD)
        = .error (.Invalid "InvalidAlgorithm") :=
  ⟨rfl, usable ["ES256".toList], rfl⟩

end Lagos.Tokens
