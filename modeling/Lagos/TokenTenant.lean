/-
The tenant that the gateway signs for (`JwtVerifier::verify` in `auth/jwt.rs`, `mint` in
`identity.rs`).

A token is accepted when one of its audiences is configured, wherever in the list it stands. The
identity gets the first one, and `mint` signs that as the caller's tenant. The two are one
audience in the tokens whose first entry is configured, and in no others
(`tenant_verified_iff`); a Firebase provider has no such tokens, because there the tenant is the
project that the issuer names (`firebase_tenant_verified`).
-/
import Lagos.TokenAlgorithms

set_option autoImplicit false

open RustStd

namespace Lagos.Tokens

open Lagos.Auth Lagos.Jwks

/-! ## The tenant of a token -/

section Tenant

variable {Key : Type} {jwt : JsonWebToken Key}

/-- A tenant that the gateway's own token asserts of an identity, whatever signs it. -/
def Asserted (cfg : IdentityTokenConfig) (identity : Identity) (tenant : Str) : Prop :=
  ∃ now, ∃ signed : IdentityClaims, signed.tenant = tenant ∧
    ∀ codecs secret, mint codecs now cfg secret identity = codecs.encode signed secret

/-- The tenant is one that the provider was configured for. -/
def TenantVerified (configured : List Str) (cfg : IdentityTokenConfig) (identity : Identity) :
    Prop :=
  identity.audience ∈ configured ∧ ∀ tenant, Asserted cfg identity tenant → tenant ∈ configured

/-- The text of the first entry of a list of audiences, empty where there is none. -/
def first_entry : List Value → Str
  | .String s :: _ => s
  | _ => []

variable (jwt) in
/-- Where a token lists its audiences, the first of the list is configured. -/
def FirstConfigured (configured : List Str) (token : Str) : Prop :=
  ∀ claims items, jwt.payload token = some (.Object claims) →
    claims.lookup "aud".toList = some (.Array items) → first_entry items ∈ configured

/-- What `mint` signs is the audience of the identity, and nothing else. -/
theorem asserted_iff {cfg : IdentityTokenConfig} {identity : Identity} {tenant : Str} :
    Asserted cfg identity tenant ↔ tenant = identity.audience := by
  constructor
  · rintro ⟨now, signed, rfl, hsigned⟩
    -- A signature that shows the tenant shows which one it is.
    let shown : Codecs := ⟨fun _ => .ok [], fun _ => ⟨_, rfl⟩, fun _ => [], fun c _ => .ok c.tenant⟩
    have htenant : Except.ok (ε := String) identity.audience = .ok signed.tenant :=
      hsigned shown []
    exact (Except.ok.inj htenant).symm
  · rintro rfl
    exact ⟨0, ⟨identity.subject, identity.issuer, identity.audience, 0,
      saturating_add_u64 0 cfg.ttl, cfg.audience⟩, rfl, fun _ _ => rfl⟩

theorem tenantVerified_iff {configured : List Str} {cfg : IdentityTokenConfig}
    {identity : Identity} :
    TenantVerified configured cfg identity ↔ identity.audience ∈ configured := by
  constructor
  · exact fun h => h.1
  · refine fun h => ⟨h, fun tenant hasserted => ?_⟩
    rw [asserted_iff.mp hasserted]
    exact h

theorem first_audience_array {claims : Claims} {items : List Value}
    (h : claims.lookup "aud".toList = some (.Array items)) :
    first_audience claims = first_entry items := by
  rw [first_audience, h]
  cases items with
  | nil => rfl
  | cons item items => cases item <;> rfl

/-- The identity of an accepted token has the audience that is read from its claims. -/
theorem jwt_verify_audience {v : JwtVerifier Key} {times : Times} {token : Str}
    {identity : Identity} (h : v.verify jwt times token = .ok identity) :
    identity.audience = first_audience identity.claims := by
  obtain ⟨iss, -, h⟩ := bind_eq_ok.mp h
  split at h
  · cases h
  obtain ⟨header, -, h⟩ := bind_eq_ok.mp h
  obtain ⟨kid, -, h⟩ := bind_eq_ok.mp h
  obtain ⟨key, -, h⟩ := bind_eq_ok.mp h
  split at h
  · cases h
  obtain ⟨claims, -, h⟩ := bind_eq_ok.mp h
  obtain ⟨_, -, h⟩ := bind_eq_ok.mp h
  obtain ⟨_, -, h⟩ := bind_eq_ok.mp h
  obtain ⟨subject, -, h⟩ := bind_eq_ok.mp h
  cases h
  rfl

/-- **The tenant of an accepted token is one that was verified just if the first of its
audiences is.** A token that names one audience has no other, and the library has looked at it. -/
theorem tenant_verified_iff {v : JwtVerifier Key} {times : Times} {token : Str}
    {identity : Identity} (cfg : IdentityTokenConfig)
    (h : v.verify jwt times token = .ok identity) :
    TenantVerified v.audiences cfg identity ↔ FirstConfigured jwt v.audiences token := by
  obtain ⟨iss, -, hverified, -, -⟩ := jwt_verify_ok h
  obtain ⟨value, hvalue, audience, hnamed, hconfigured⟩ := hverified.audience
  rw [tenantVerified_iff, jwt_verify_audience h]
  constructor
  · intro hfirst claims items hpayload hitems
    cases hverified.payload.symm.trans hpayload
    exact first_audience_array hitems ▸ hfirst
  · intro hfirst
    cases value with
    | String s =>
      have hread : first_audience identity.claims = s := by
        rw [first_audience, hvalue]
      obtain rfl := List.mem_singleton.mp hnamed
      exact hread ▸ hconfigured
    | Array items =>
      rw [first_audience_array hvalue]
      exact hfirst _ items hverified.payload hvalue
    | Null | Bool b | Number n | Object fields => cases hnamed

/-- The other kind of provider asserts a project that it was configured for. -/
theorem firebase_tenant_verified {escape_debug : Char → Str} {v : FirebaseVerifier Key}
    {times : Times} {token : Str} {identity : Identity} (cfg : IdentityTokenConfig)
    (h : v.verify jwt escape_debug times token = .ok identity) :
    TenantVerified v.project_ids cfg identity := by
  rw [tenantVerified_iff]
  obtain ⟨iss, -, h⟩ := bind_eq_ok.mp h
  split at h
  · cases h
  split at h
  · cases h
  rename_i hknown
  obtain ⟨header, -, h⟩ := bind_eq_ok.mp h
  obtain ⟨kid, -, h⟩ := bind_eq_ok.mp h
  obtain ⟨key, -, h⟩ := bind_eq_ok.mp h
  obtain ⟨claims, -, h⟩ := bind_eq_ok.mp h
  obtain ⟨subject, -, h⟩ := bind_eq_ok.mp h
  obtain ⟨_, -, h⟩ := bind_eq_ok.mp h
  obtain ⟨_, -, h⟩ := bind_eq_ok.mp h
  cases h
  exact not_not.mp hknown

end Tenant

/-! ## A token for two services -/

namespace TwoServices

open TwoProviders OneKey

/-- A provider of the issuer, for one of the services. -/
def provider (audience : Str) : JwtVerifier Str :=
  ⟨"https://a".toList, [audience], [.RS256], [], SKEW, TwoProviders.key_for⟩

/-- The token lists `c` before `b`, and both providers take it. -/
theorem accepted : ∀ audience ∈ [['b'], ['c']],
    (provider audience).verify key_library.toJsonWebToken NOON (token PAYLOAD)
      = .ok ⟨['u'], "https://a".toList, ['c'], OneKey.claims⟩ := by
  rintro audience haudience
  obtain rfl | haudience := List.mem_cons.mp haudience
  · rfl
  · obtain rfl := List.mem_singleton.mp haudience
    rfl

/-- The token that the gateway makes. -/
def minted : IdentityTokenConfig := ⟨"x-auth-token".toList, "secret".toList, 60, none⟩

end TwoServices

open TwoServices in
/-- The provider of the first audience signs for its own. -/
theorem tenant_verified_first :
    TenantVerified [['c']] minted ⟨['u'], "https://a".toList, ['c'], OneKey.claims⟩
      ↔ FirstConfigured OneKey.key_library.toJsonWebToken [['c']]
        (TwoProviders.token OneKey.PAYLOAD) :=
  tenant_verified_iff minted (accepted ['c'] (List.mem_cons_of_mem _ List.mem_cons_self))

open TwoServices in
/-- The provider of the other one accepts the same token, and the gateway signs for a tenant that
it was not configured for. -/
theorem unverified_tenant :
    (provider ['b']).verify OneKey.key_library.toJsonWebToken TwoProviders.NOON
        (TwoProviders.token OneKey.PAYLOAD)
      = .ok ⟨['u'], "https://a".toList, ['c'], OneKey.claims⟩
      ∧ Asserted minted ⟨['u'], "https://a".toList, ['c'], OneKey.claims⟩ ['c']
      ∧ ¬ TenantVerified (provider ['b']).audiences minted
        ⟨['u'], "https://a".toList, ['c'], OneKey.claims⟩ := by
  refine ⟨accepted ['b'] List.mem_cons_self, asserted_iff.mpr rfl, ?_⟩
  rw [tenantVerified_iff]
  decide

end Lagos.Tokens
