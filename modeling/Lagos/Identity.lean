/-
Describing the verified caller to upstreams (`identity.rs`).

Whether a caller was verified or not, the headers that would describe one are the gateway's:
`identity::apply` sets some of them and `strip_all` none, and neither leaves a single one as
the client sent it (`fate_describe`). What each of them writes is read off as a script, which
depends on the configuration and the identity only.

JSON text, base64 and the signature are made by other crates, which are collected in `Codecs`
with the one thing relied on: a JSON object can always be written down.
-/
import Lagos.Headers

set_option autoImplicit false

open RustStd

namespace Lagos.Auth

open Lagos.Headers

/-! ## Configuration -/

/-- `ClaimMapping`. -/
structure ClaimMapping where
  claim : Str
  when_null : Option Str
  deriving DecidableEq, Repr

/-- `IdentityTokenConfig`. -/
structure IdentityTokenConfig where
  header : Str := "x-auth-token".toList
  secret : Str
  /-- In seconds. -/
  ttl : ℕ
  audience : Option Str
  deriving DecidableEq, Repr

/-- `IdentityConfig`. -/
structure IdentityConfig where
  subject_header : Str := "x-auth-subject".toList
  issuer_header : Str := "x-auth-issuer".toList
  claims_header : Str := "x-auth-claims".toList
  /-- A map, in the order of its keys. -/
  claims : List (Str × ClaimMapping) := []
  token : Option IdentityTokenConfig := none
  deriving DecidableEq, Repr

/-! ## The caller -/

/-- `serde_json::Value`. A number is its text. -/
inductive Value where
  | Null
  | Bool (b : Bool)
  | Number (n : Str)
  | String (s : Str)
  | Array (items : List Value)
  | Object (fields : List (Str × Value))

/-- `auth::Identity`. -/
structure Identity where
  subject : Str
  issuer : Str
  audience : Str
  claims : List (Str × Value)

/-- `to_snake_case`. -/
def to_snake_case (name : Str) : Str :=
  name.flatMap fun c => if 'A' ≤ c ∧ c ≤ 'Z' then ['_', c.toLower] else [c]

/-- A field of an object, under either spelling of its name. -/
def field (fields : List (Str × Value)) (name : Str) : Option Value :=
  (fields.lookup name).or (fields.lookup (to_snake_case name))

/-- The path below a value, in `claim_at`. -/
def descend (current : Value) : List Str → Option Value
  | [] => some current
  | segment :: segments =>
    match current with
    | .Object fields => (field fields segment).bind fun v => descend v segments
    | _ => none

/-- `Identity::claim_at`. -/
def Identity.claim_at (identity : Identity) (path : Str) : Option Value :=
  match split '.' path with
  | [] => none
  | first :: segments => (field identity.claims first).bind fun v => descend v segments

/-- `IdentityClaims`. -/
structure IdentityClaims where
  sub : Str
  iss : Str
  tenant : Str
  iat : ℕ
  exp : ℕ
  aud : Option Str
  deriving DecidableEq, Repr

/-- `IdentityError`. -/
inductive IdentityError where
  | Claim (message : String)
  | Mint (message : String)
  deriving DecidableEq, Repr

/-- What other crates make of an identity. -/
structure Codecs where
  /-- `serde_json::to_vec` of a claim set. -/
  to_vec : List (Str × Value) → Except String (List UInt8)
  /-- It fails for maps whose keys are no strings, and a claim set's keys are. -/
  to_vec_ok : ∀ claims, ∃ json, to_vec claims = .ok json
  /-- `URL_SAFE_NO_PAD.encode`. -/
  encode_base64 : List UInt8 → Str
  /-- `jsonwebtoken::encode` with HS256, under a secret. -/
  encode : IdentityClaims → Str → Except String Str

/-! ## Writing the headers -/

/-- `is_header_safe`. -/
def is_header_safe (value : Str) : Bool := value.all visible

/-- `mint`, at a time in seconds since the epoch. -/
def mint (codecs : Codecs) (now : ℕ) (cfg : IdentityTokenConfig) (secret : Str)
    (identity : Identity) : Except String Str :=
  codecs.encode
    { sub := identity.subject
      iss := identity.issuer
      tenant := identity.audience
      iat := now
      exp := saturating_add_u64 now cfg.ttl
      aud := cfg.audience } secret

/-- A claim's value as text, in `apply_claim_headers`: `none` where a `null` has none. -/
def spelled (header : Str) (mapping : ClaimMapping) : Value → Except IdentityError (Option Str)
  | .String v => .ok (some v)
  | .Number n => .ok (some n)
  | .Bool b => .ok (some (if b then "true".toList else "false".toList))
  | .Null => .ok mapping.when_null
  | .Array _ | .Object _ =>
    .error (.Claim (s!"claim `{text mapping.claim}` is a structure and cannot become header "
      ++ s!"`{text header}`"))

/-- The value of the header for a claim, in `apply_claim_headers`. -/
def rendered (identity : Identity) (header : Str) (mapping : ClaimMapping) :
    Except IdentityError (Option Str) :=
  match identity.claim_at mapping.claim with
  | none => .ok none
  | some value =>
    match spelled header mapping value with
    | .error e => .error e
    | .ok none => .ok none
    | .ok (some v) =>
      if is_header_safe v then .ok (some v)
      else .error (.Claim (s!"claim `{text mapping.claim}` contains a character that cannot "
        ++ s!"appear in header `{text header}`"))

/-- `apply_claim_headers`, the loop over the mappings. -/
def apply_claim_headers (identity : Identity) :
    List (Str × ClaimMapping) → HeaderPlan → Except IdentityError HeaderPlan
  | [], plan => .ok plan
  | (header, mapping) :: claims, plan =>
    if header.isEmpty then apply_claim_headers identity claims plan
    else
      -- Stripped first: on the paths that set nothing the client's copy goes too.
      let plan := plan.strip header
      match rendered identity header mapping with
      | .error e => .error e
      | .ok none => apply_claim_headers identity claims plan
      | .ok (some v) => apply_claim_headers identity claims (plan.set header v)

/-- A header that carries a string of the token, in `apply`. -/
def set_safe (plan : HeaderPlan) (claim : String) (header value : Str) :
    Except IdentityError HeaderPlan :=
  if header.isEmpty then .ok plan
  else if is_header_safe value then .ok (plan.set header value)
  else .error (.Claim
    s!"`{claim}` contains a character that cannot appear in header `{text header}`")

/-- The claim set, in `apply`. -/
def set_claims (codecs : Codecs) (plan : HeaderPlan) (header : Str) (identity : Identity) :
    HeaderPlan :=
  if header.isEmpty then plan
  else
    match codecs.to_vec identity.claims with
    | .ok json => plan.set header (codecs.encode_base64 json)
    | .error _ => plan

/-- The signed token, in `apply`. -/
def set_token (codecs : Codecs) (now : ℕ) (plan : HeaderPlan) (cfg : IdentityConfig)
    (secret : Option Str) (identity : Identity) : Except IdentityError HeaderPlan :=
  match cfg.token, secret with
  | some token_cfg, some secret =>
    match mint codecs now token_cfg secret identity with
    | .ok token => .ok (plan.set token_cfg.header token)
    | .error e => .error (.Mint e)
  | some token_cfg, none => .ok (plan.strip token_cfg.header)
  | none, _ => .ok plan

/-- `identity::apply`. -/
def apply (codecs : Codecs) (now : ℕ) (plan : HeaderPlan) (cfg : IdentityConfig)
    (secret : Option Str) (identity : Identity) : Except IdentityError HeaderPlan := do
  let plan ← set_safe plan "sub" cfg.subject_header identity.subject
  let plan ← set_safe plan "iss" cfg.issuer_header identity.issuer
  let plan := set_claims codecs plan cfg.claims_header identity
  let plan ← apply_claim_headers identity cfg.claims plan
  set_token codecs now plan cfg secret identity

/-- `strip_all`. -/
def strip_all (plan : HeaderPlan) (cfg : IdentityConfig) : HeaderPlan :=
  let plan := ([cfg.subject_header, cfg.issuer_header, cfg.claims_header].filter
    fun h => !h.isEmpty).foldl HeaderPlan.strip plan
  let plan := ((cfg.claims.map Prod.fst).filter fun h => !h.isEmpty).foldl HeaderPlan.strip plan
  match cfg.token with
  | some t => plan.strip t.header
  | none => plan

/-- How `request_filter` describes the caller: as verified, or as nobody. -/
def describe (codecs : Codecs) (now : ℕ) (plan : HeaderPlan) (cfg : IdentityConfig)
    (secret : Option Str) : Option Identity → Except IdentityError HeaderPlan
  | some identity => apply codecs now plan cfg secret identity
  | none => .ok (strip_all plan cfg)

/-! ## What a description writes -/

/-- The headers that describe a caller, lowercased. -/
def IdentityConfig.headers (cfg : IdentityConfig) : List Str :=
  ((([cfg.subject_header, cfg.issuer_header, cfg.claims_header] ++ cfg.claims.map Prod.fst).filter
    fun h => !h.isEmpty) ++ cfg.token.toList.map fun t => t.header).map to_ascii_lowercase

/-- A header that is set to a value, unless it has no name. -/
def set_script (header value : Str) : Script Str Str :=
  if header.isEmpty then [] else [(to_ascii_lowercase header, .put value)]

/-- The claim set. -/
def claims_script (codecs : Codecs) (header : Str) (identity : Identity) : Script Str Str :=
  match codecs.to_vec identity.claims with
  | .ok json => set_script header (codecs.encode_base64 json)
  | .error _ => []

/-- One mapped claim: dropped, and set if it has a value. -/
def claim_script (identity : Identity) (entry : Str × ClaimMapping) : Script Str Str :=
  if entry.1.isEmpty then []
  else
    (to_ascii_lowercase entry.1, .dropped) :: match rendered identity entry.1 entry.2 with
      | .ok (some v) => [(to_ascii_lowercase entry.1, .put v)]
      | _ => []

/-- The signed token. -/
def token_script (codecs : Codecs) (now : ℕ) (cfg : IdentityConfig) (secret : Option Str)
    (identity : Identity) : Script Str Str :=
  cfg.token.toList.map fun t => (to_ascii_lowercase t.header,
    match secret.map fun secret => mint codecs now t secret identity with
    | some (.ok token) => .put token
    | _ => .dropped)

/-- The edits of `describe`. -/
def description (codecs : Codecs) (now : ℕ) (cfg : IdentityConfig) (secret : Option Str) :
    Option Identity → Script Str Str
  | none => Script.drops cfg.headers
  | some identity =>
    set_script cfg.subject_header identity.subject
      ++ (set_script cfg.issuer_header identity.issuer
      ++ (claims_script codecs cfg.claims_header identity
      ++ (cfg.claims.flatMap (claim_script identity)
      ++ token_script codecs now cfg secret identity)))

section Plans

variable {codecs : Codecs} {now : ℕ} {plan plan' : HeaderPlan} {cfg : IdentityConfig}
  {secret : Option Str} {identity : Identity}

theorem fate_set_script (plan : HeaderPlan) (header value n : Str) :
    (if header.isEmpty then plan else plan.set header value).fate n
      = (plan.fate n).seq ((set_script header value).fate n) := by
  rw [set_script]
  split
  · rw [Script.fate_nil, Fate.seq_kept]
  · rw [HeaderPlan.fate_set, Script.fate_singleton]

theorem fate_set_safe {claim : String} {header value : Str}
    (h : set_safe plan claim header value = .ok plan') (n : Str) :
    plan'.fate n = (plan.fate n).seq ((set_script header value).fate n) := by
  rw [← fate_set_script]
  unfold set_safe at h
  split at h
  · rename_i hempty
    rw [if_pos hempty]
    cases h
    rfl
  · rename_i hempty
    rw [if_neg hempty]
    split at h
    · cases h
      rfl
    · cases h

theorem fate_set_claims (plan : HeaderPlan) (header n : Str) :
    (set_claims codecs plan header identity).fate n
      = (plan.fate n).seq ((claims_script codecs header identity).fate n) := by
  rw [set_claims, claims_script]
  cases codecs.to_vec identity.claims with
  | ok json => exact fate_set_script ..
  | error e => simp

theorem fate_apply_claim_headers {claims : List (Str × ClaimMapping)}
    (h : apply_claim_headers identity claims plan = .ok plan') (n : Str) :
    plan'.fate n = (plan.fate n).seq (Script.fate (claims.flatMap (claim_script identity)) n) := by
  induction claims generalizing plan with
  | nil =>
    cases h
    simp
  | cons entry claims ih =>
    obtain ⟨header, mapping⟩ := entry
    rw [apply_claim_headers] at h
    rw [List.flatMap_cons, Script.fate_append, ← Fate.seq_assoc, claim_script]
    by_cases hempty : header.isEmpty = true
    · rw [if_pos hempty] at h
      rw [if_pos hempty, Script.fate_nil, Fate.seq_kept]
      exact ih h
    · rw [if_neg hempty] at h
      rw [if_neg hempty]
      cases hr : rendered identity header mapping with
      | error e => simp [hr] at h
      | ok value =>
        cases value with
        | none =>
          rw [hr] at h
          rw [ih h, HeaderPlan.fate_strip, Script.fate_singleton]
        | some v =>
          rw [hr] at h
          rw [ih h, HeaderPlan.fate_set, HeaderPlan.fate_strip, Script.fate_cons,
            Script.fate_singleton, Fate.seq_assoc (plan.fate n)]
          by_cases hn : to_ascii_lowercase header = n <;> simp [hn]

theorem fate_set_token (h : set_token codecs now plan cfg secret identity = .ok plan') (n : Str) :
    plan'.fate n = (plan.fate n).seq ((token_script codecs now cfg secret identity).fate n) := by
  unfold set_token at h
  unfold token_script
  cases htoken : cfg.token with
  | none =>
    rw [htoken] at h
    cases h
    simp
  | some token_cfg =>
    rw [htoken] at h
    rw [Option.toList_some, List.map_singleton, Script.fate_singleton]
    cases secret with
    | none =>
      cases h
      exact HeaderPlan.fate_strip ..
    | some secret =>
      rw [Option.map_some]
      dsimp only at h
      cases hmint : mint codecs now token_cfg secret identity with
      | error e =>
        rw [hmint] at h
        cases h
      | ok token =>
        rw [hmint] at h
        cases h
        exact HeaderPlan.fate_set ..

theorem fate_strip_all (plan : HeaderPlan) (cfg : IdentityConfig) (n : Str) :
    (strip_all plan cfg).fate n = (plan.fate n).seq (Script.fate (Script.drops cfg.headers) n) := by
  have htoken : ∀ plan : HeaderPlan,
      (match cfg.token with | some t => plan.strip t.header | none => plan)
        = (cfg.token.toList.map fun t => t.header).foldl HeaderPlan.strip plan := by
    intro plan
    cases cfg.token <;> rfl
  rw [strip_all, htoken, ← List.foldl_append, ← List.foldl_append, ← List.append_assoc,
    ← List.filter_append, HeaderPlan.fate_foldl_strip, IdentityConfig.headers]

/-- What describing the caller adds to a plan is the script of the description. -/
theorem fate_describe {identity : Option Identity}
    (h : describe codecs now plan cfg secret identity = .ok plan') (n : Str) :
    plan'.fate n = (plan.fate n).seq ((description codecs now cfg secret identity).fate n) := by
  cases identity with
  | none =>
    cases h
    exact fate_strip_all ..
  | some identity =>
    obtain ⟨p₁, h₁, h⟩ := bind_eq_ok.mp h
    obtain ⟨p₂, h₂, h⟩ := bind_eq_ok.mp h
    obtain ⟨p₄, h₄, h₅⟩ := bind_eq_ok.mp h
    rw [fate_set_token h₅, fate_apply_claim_headers h₄, fate_set_claims, fate_set_safe h₂,
      fate_set_safe h₁, description]
    simp only [Script.fate_append, Fate.seq_assoc]

/-- Every edit of a description puts or drops. -/
theorem description_handles {identity : Option Identity} :
    ∀ e ∈ description codecs now cfg secret identity, e.2 ≠ .kept := by
  have hset : ∀ header value, ∀ e ∈ set_script header value, e.2 ≠ .kept := by
    intro header value e he
    rw [set_script] at he
    split at he
    · cases he
    · rw [List.mem_singleton] at he
      rw [he]
      nofun
  cases identity with
  | none =>
    intro e he
    obtain ⟨k, -, rfl⟩ := List.mem_map.mp he
    nofun
  | some identity =>
    rw [description]
    simp only [List.forall_mem_append]
    refine ⟨hset _ _, hset _ _, ?_, ?_, ?_⟩
    · rw [claims_script]
      split
      · exact hset _ _
      · nofun
    · intro e he
      obtain ⟨entry, -, he⟩ := List.mem_flatMap.mp he
      rw [claim_script] at he
      split at he
      · cases he
      · obtain rfl | he := List.mem_cons.mp he
        · nofun
        · split at he
          · rw [List.mem_singleton] at he
            rw [he]
            nofun
          · cases he
    · intro e he
      obtain ⟨t, -, rfl⟩ := List.mem_map.mp he
      dsimp only
      split <;> nofun

theorem mem_headers {n : Str} :
    n ∈ cfg.headers ↔ (∃ h ∈ [cfg.subject_header, cfg.issuer_header, cfg.claims_header]
        ++ cfg.claims.map Prod.fst, h ≠ [] ∧ to_ascii_lowercase h = n)
      ∨ ∃ t ∈ cfg.token, to_ascii_lowercase t.header = n := by
  simp only [IdentityConfig.headers, List.map_append, List.mem_append, List.mem_map,
    List.mem_filter, Bool.not_eq_true', List.isEmpty_eq_false_iff, Option.mem_toList, and_assoc,
    exists_exists_and_eq_and, Option.mem_def]

/-- A description names the headers of the configuration. -/
theorem mem_names_description {identity : Option Identity} {n : Str} :
    n ∈ (description codecs now cfg secret identity).map Prod.fst ↔ n ∈ cfg.headers := by
  cases identity with
  | none => simp [description, Script.drops]
  | some identity =>
    have hset : ∀ header value, n ∈ (set_script header value).map Prod.fst
        ↔ header ≠ [] ∧ to_ascii_lowercase header = n := by
      intro header value
      rw [set_script]
      cases header <;> simp [eq_comm]
    have hclaims : n ∈ (claims_script codecs cfg.claims_header identity).map Prod.fst
        ↔ cfg.claims_header ≠ [] ∧ to_ascii_lowercase cfg.claims_header = n := by
      -- The claim set can be written down, so its header is never passed over.
      obtain ⟨json, hjson⟩ := codecs.to_vec_ok identity.claims
      rw [claims_script, hjson]
      exact hset ..
    have hclaim : ∀ entry, n ∈ (claim_script identity entry).map Prod.fst
        ↔ entry.1 ≠ [] ∧ to_ascii_lowercase entry.1 = n := by
      intro entry
      rw [claim_script]
      cases entry.1 with
      | nil => simp
      | cons c s =>
        rw [List.isEmpty_cons, if_neg Bool.false_ne_true, List.map_cons, List.mem_cons]
        split <;> simp [eq_comm]
    have hmapped : n ∈ (cfg.claims.flatMap (claim_script identity)).map Prod.fst
        ↔ ∃ h ∈ cfg.claims.map Prod.fst, h ≠ [] ∧ to_ascii_lowercase h = n := by
      rw [List.map_flatMap, List.mem_flatMap]
      simp only [hclaim, List.mem_map, exists_exists_and_eq_and]
    have htoken : n ∈ (token_script codecs now cfg secret identity).map Prod.fst
        ↔ ∃ t ∈ cfg.token, to_ascii_lowercase t.header = n := by
      simp only [token_script, List.map_map, List.mem_map, Option.mem_toList, Function.comp_apply,
        Option.mem_def]
    rw [mem_headers, description]
    simp only [List.map_append, List.mem_append, hset, hclaims, hmapped, htoken, or_and_right,
      exists_or, List.mem_cons, exists_eq_left, List.not_mem_nil, or_false, or_assoc]

/-- The description handles the headers of the configuration, and no others. -/
theorem fate_description {identity : Option Identity} {n : Str} :
    (description codecs now cfg secret identity).fate n = .kept ↔ n ∉ cfg.headers := by
  rw [Script.fate_eq_kept_iff description_handles, mem_names_description]

end Plans

end Lagos.Auth
