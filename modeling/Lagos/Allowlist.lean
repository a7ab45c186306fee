/-
What the allowlist lets through.

In allowlist mode the sweep keeps the headers that are structural, that `forward.headers`
lists, and `Authorization` where it is forwarded. It also keeps every name that either
listener injects and the name client keys are forwarded under, so that it does not fight the
plan. On the listener that injects them the plan sets those names. On the other one nothing
may, and then a header that the client sent under such a name goes through to the backend
(`allowlist_sound_iff`).
-/
import Lagos.HeaderPolicy

set_option autoImplicit false

open RustStd

namespace Lagos.Outbound

open Lagos.Config Lagos.Headers Lagos.Auth Lagos.Routes

/-! ## What may pass -/

/-- The headers that the configuration lets a client send through. -/
def Gateway.allowed (g : Gateway) (n : Str) : Prop :=
  n ∈ STRUCTURAL_HEADERS ∨ n ∈ g.cfg.raw.forward.headers.map to_ascii_lowercase
    ∨ n = AUTHORIZATION ∧ g.cfg.raw.forward.authorization = true

instance (g : Gateway) (n : Str) : Decidable (g.allowed n) :=
  inferInstanceAs (Decidable (_ ∨ _))

/-- The names that the other listener injects. -/
def Gateway.injected_elsewhere (g : Gateway) : List Str :=
  (if g.serves_machine then g.cfg.injected_headers else g.cfg.machine_injected_headers).map
    Prod.fst

/-- A header that the internal listener passes on on purpose. -/
def Gateway.passes_client_key (g : Gateway) (n : Str) : Prop :=
  g.serves_machine = true ∧ g.cfg.client_key_forward_as = some n

/-- A value that the gateway sets itself under a name: some step of the policy puts it there,
and not the one that edits the client's own cookies. -/
def Gateway.Sets (g : Gateway) (crates : Crates) (cx : Ctx) (headers : HeaderMap) (n : Str)
    (value : HeaderValue) : Prop :=
  ∃ client_key_id w v, g.client_key_id crates cx headers = .ok client_key_id
    ∧ (g.policy crates cx client_key_id headers).fate n = .put (w, v) ∧ w ≠ .credentials
    ∧ insertable crates n v = .ok value

/-- Every header sent upstream is allowed, or set by the gateway, or passed on on purpose. -/
def Gateway.Sound (g : Gateway) (crates : Crates) (cx : Ctx) (headers out : HeaderMap) : Prop :=
  ∀ n, out.get_all n ≠ [] →
    g.allowed n ∨ (∃ value, g.Sets crates cx headers n value ∧ out.get_all n = [value])
      ∨ g.passes_client_key n

section Allowlist

variable {crates : Crates} {cfg : GatewayConfig} {r : ResolvedConfig} {serves_machine : Bool}
  {cx : Ctx} {headers out : HeaderMap} {n : Str}

/-- The names that the sweep lets pass. -/
theorem mem_forwardable :
    (Gateway.of_listener r serves_machine).is_forwardable n = true
      ↔ (Gateway.of_listener r serves_machine).allowed n
        ∨ n ∈ (Gateway.of_listener r serves_machine).injected.map Prod.fst
        ∨ n ∈ (Gateway.of_listener r serves_machine).injected_elsewhere
        ∨ r.client_key_forward_as = some n := by
  have hauth : n ∈ (if r.raw.forward.authorization then [AUTHORIZATION] else [])
      ↔ n = AUTHORIZATION ∧ r.raw.forward.authorization = true := by
    cases r.raw.forward.authorization <;> simp
  have hboth : n ∈ r.injected_headers.map Prod.fst ∨ n ∈ r.machine_injected_headers.map Prod.fst
      ↔ n ∈ (Gateway.of_listener r serves_machine).injected.map Prod.fst
        ∨ n ∈ (Gateway.of_listener r serves_machine).injected_elsewhere := by
    rw [Gateway.injected, Gateway.injected_elsewhere, Gateway.of_listener_serves,
      Gateway.of_listener_cfg]
    cases serves_machine
    · exact Iff.rfl
    · exact or_comm
  rw [Gateway.is_forwardable, List.contains_iff_mem, Gateway.of_listener_forwardable, Gateway.new,
    Gateway.allowed, Gateway.of_listener_cfg]
  simp only [List.mem_append, hauth, Option.mem_toList, or_assoc] at hboth ⊢
  rw [← or_assoc (b := n ∈ r.machine_injected_headers.map Prod.fst), hboth, or_assoc]

/-- No client key's id is put under a name that the gateway reserves. -/
theorem value_client_key_reserved (hr : cfg.resolve crates = .ok r) {client_key_id : Option Str}
    (hn : n ∈ RESERVED_CLIENT_KEY_HEADERS) :
    (((Gateway.of_listener r serves_machine).client_key_script client_key_id).fate n).value
      = none := by
  rw [Option.eq_none_iff_forall_ne_some]
  intro v hv
  obtain ⟨-, forward_as, hf, rfl⟩ := value_client_key hv
  rw [Gateway.of_listener_cfg] at hf
  have hfree := ((resolved_of_resolve hr).client_key_forward_as forward_as hf).1
  exact hfree.not_reserved (by rwa [hfree.lower] at hn)

/-- The cookies, where they are rewritten, are what the policy puts under `Cookie`. -/
theorem fate_cookie_rest (hr : cfg.resolve crates = .ok r) {client_key_id : Option Str}
    {rest : Str} (hrest : (Gateway.of_listener r serves_machine).cookie_rest headers = some rest) :
    ((Gateway.of_listener r serves_machine).policy crates cx client_key_id headers).fate COOKIE
      = .put (.credentials, rest) := by
  rw [Fate.eq_put_iff, value_policy, value_client_key_reserved hr (by decide), value_credentials,
    if_pos rfl, hrest]
  rfl

/-- No other step writes what the step of the credentials does. -/
theorem cookie_of_credentials {client_key_id : Option Str} {v : Str}
    (h : ((Gateway.of_listener r serves_machine).policy crates cx client_key_id headers).fate n
      = .put (.credentials, v)) :
    n = COOKIE ∧ (Gateway.of_listener r serves_machine).cookie_rest headers = some v := by
  rw [Fate.eq_put_iff, value_policy, value_credentials] at h
  simp only [Option.or_eq_some_iff, Option.map_eq_some_iff, Option.map_eq_none_iff,
    Prod.mk.injEq, reduceCtorEq, false_and, and_false, exists_false, false_or, true_and,
    exists_eq_right, or_false] at h
  obtain ⟨-, h⟩ := h
  split at h
  · rename_i hn
    exact ⟨hn, h⟩
  · cases h

theorem lower_injected (hr : cfg.resolve crates = .ok r) :
    lower_pairs (Gateway.of_listener r serves_machine).injected
      = (Gateway.of_listener r serves_machine).injected := by
  have h := resolved_of_resolve hr
  rw [Gateway.injected, Gateway.of_listener_cfg, h.injected, h.machine_injected]
  split <;> exact lower_pairs_lower_pairs _

/-- A name that is left alone and let through is allowed, or comes from the other listener, or
is passed on on purpose. -/
theorem let_through (hr : cfg.resolve crates = .ok r)
    (hhandles : ¬ (Gateway.of_listener r serves_machine).Handles headers n)
    (hswept : (Gateway.of_listener r serves_machine).is_forwardable n = true) :
    (Gateway.of_listener r serves_machine).allowed n
      ∨ n ∈ (Gateway.of_listener r serves_machine).injected_elsewhere
      ∨ (Gateway.of_listener r serves_machine).passes_client_key n := by
  obtain hallowed | hinjected | helsewhere | hforward := mem_forwardable.mp hswept
  · exact .inl hallowed
  · refine absurd (.injected ?_) hhandles
    rwa [lower_injected hr]
  · exact .inr (.inl helsewhere)
  · cases serves_machine with
    | true => exact .inr (.inr ⟨rfl, hforward⟩)
    | false =>
      -- On the public listener the name is set or stripped.
      have hfree := ((resolved_of_resolve hr).client_key_forward_as n hforward).1
      refine absurd (.client_key rfl (List.mem_map.mpr ⟨n, ?_, hfree.lower⟩)) hhandles
      rw [Gateway.of_listener_cfg, hforward]
      simp

theorem allowed_of_replaces_host (h : (Gateway.of_listener r serves_machine).replaces_host n) :
    (Gateway.of_listener r serves_machine).allowed n := by
  rw [h.1]
  exact .inl List.mem_cons_self

/-- A name of the other listener that nothing handles arrives as it was sent. -/
theorem allowed_of_sound
    (h : (Gateway.of_listener r serves_machine).forward crates cx headers = .ok out)
    (hsound : (Gateway.of_listener r serves_machine).Sound crates cx headers out)
    (hn : headers.get_all n ≠ [])
    (helsewhere : n ∈ (Gateway.of_listener r serves_machine).injected_elsewhere)
    (hhandles : ¬ (Gateway.of_listener r serves_machine).Handles headers n) :
    (Gateway.of_listener r serves_machine).allowed n
      ∨ (Gateway.of_listener r serves_machine).passes_client_key n := by
  obtain ⟨client_key_id, hkey, hcarried⟩ := carried_of_forward h
  have hkept := (@fate_policy_eq_kept _ crates cx _ _ client_key_id).mpr hhandles
  have hpasses := mem_forwardable.mpr (.inr (.inr (.inl helsewhere)))
  by_cases hreplaced : (Gateway.of_listener r serves_machine).replaces_host n
  · exact .inl (allowed_of_replaces_host hreplaced)
  · have hsent := (hcarried n).kept (by rw [hkept]; rfl)
      (fun hs => absurd hpasses (by rw [hs.2]; exact Bool.false_ne_true)) hreplaced
    obtain hallowed | ⟨value, ⟨key, w, v, hid, hput, -⟩, -⟩ | hpass := hsound n (by rwa [hsent])
    · exact .inl hallowed
    · rw [hkey] at hid
      cases hid
      rw [hkept] at hput
      cases hput
    · exact .inr hpass

/-- So do the cookies that are left of the client's. -/
theorem cookie_allowed_of_sound (hr : cfg.resolve crates = .ok r)
    (h : (Gateway.of_listener r serves_machine).forward crates cx headers = .ok out)
    (hsound : (Gateway.of_listener r serves_machine).Sound crates cx headers out) {rest : Str}
    (hrest : (Gateway.of_listener r serves_machine).cookie_rest headers = some rest) :
    (Gateway.of_listener r serves_machine).allowed COOKIE := by
  obtain ⟨client_key_id, hkey, hcarried⟩ := carried_of_forward h
  have hfate := @fate_cookie_rest _ _ _ _ cx _ hr client_key_id _ hrest
  obtain ⟨value, -, hall⟩ := (hcarried COOKIE).put rest (by rw [hfate]; rfl)
  obtain hallowed | ⟨-, ⟨key, w, v, hid, hput, hw, -⟩, -⟩ | ⟨-, hpass⟩ :=
    hsound COOKIE (by rw [hall]; exact List.cons_ne_nil _ _)
  · exact hallowed
  · rw [hkey] at hid
    cases hid
    rw [hfate] at hput
    cases hput
    exact absurd rfl hw
  · rw [Gateway.of_listener_cfg] at hpass
    have hfree := ((resolved_of_resolve hr).client_key_forward_as COOKIE hpass).1
    exact absurd (by decide) hfree.not_reserved

/-- **The allowlist is sound unless the client uses a name of the other listener.** -/
theorem allowlist_sound_iff (hr : cfg.resolve crates = .ok r)
    (hmode : cfg.forward.mode = .Allowlist)
    (h : (Gateway.of_listener r serves_machine).forward crates cx headers = .ok out) :
    (Gateway.of_listener r serves_machine).Sound crates cx headers out
      ↔ (∀ n, headers.get_all n ≠ [] →
          n ∈ (Gateway.of_listener r serves_machine).injected_elsewhere →
            (Gateway.of_listener r serves_machine).allowed n
              ∨ (Gateway.of_listener r serves_machine).Handles headers n
              ∨ (Gateway.of_listener r serves_machine).passes_client_key n)
        ∧ ((Gateway.of_listener r serves_machine).allowed COOKIE
          ∨ (Gateway.of_listener r serves_machine).cookie_rest headers = none) := by
  constructor
  · intro hsound
    refine ⟨fun n hn helsewhere => ?_, ?_⟩
    · by_cases hhandles : (Gateway.of_listener r serves_machine).Handles headers n
      · exact .inr (.inl hhandles)
      · exact (allowed_of_sound h hsound hn helsewhere hhandles).imp_right .inr
    · cases hrest : (Gateway.of_listener r serves_machine).cookie_rest headers with
      | none => exact .inr rfl
      | some rest => exact .inl (cookie_allowed_of_sound hr h hsound hrest)
  · rintro ⟨hnames, hcookie⟩ n hn
    obtain ⟨client_key_id, hkey, hcarried⟩ := carried_of_forward h
    -- What the policy puts is set, what it drops is gone, and the rest was let through.
    cases hf : ((Gateway.of_listener r serves_machine).policy crates cx client_key_id headers).fate
        n with
    | kept =>
      have hhandles := fate_policy_eq_kept.mp hf
      have hallowlist : (Gateway.of_listener r serves_machine).cfg.raw.forward.mode
          = .Allowlist := by
        rw [Gateway.of_listener_cfg, (resolved_of_resolve hr).raw, hmode]
      have hpasses : (Gateway.of_listener r serves_machine).is_forwardable n = true := by
        by_contra hs
        exact hn ((hcarried n).swept (by rw [hf]; rfl) ⟨hallowlist, by simpa using hs⟩)
      by_cases hreplaced : (Gateway.of_listener r serves_machine).replaces_host n
      · exact .inl (allowed_of_replaces_host hreplaced)
      · rw [(hcarried n).kept (by rw [hf]; rfl)
          (fun hs => absurd hpasses (by rw [hs.2]; exact Bool.false_ne_true)) hreplaced] at hn
        obtain hallowed | helsewhere | hpass := let_through hr hhandles hpasses
        · exact .inl hallowed
        · obtain hallowed | hhandled | hpass := hnames n hn helsewhere
          · exact .inl hallowed
          · exact absurd hhandled hhandles
          · exact .inr (.inr hpass)
        · exact .inr (.inr hpass)
    | dropped => exact absurd ((hcarried n).dropped (by rw [hf]; rfl)) hn
    | put wv =>
      obtain ⟨w, v⟩ := wv
      by_cases hw : w = .credentials
      · subst hw
        obtain ⟨rfl, hrest⟩ := cookie_of_credentials hf
        exact .inl (hcookie.resolve_right (by rw [hrest]; nofun))
      · obtain ⟨value, hvalue, hall⟩ := (hcarried n).put v (by rw [hf]; rfl)
        exact .inr (.inl ⟨value, ⟨client_key_id, w, v, hkey, hf, hw, hvalue⟩, hall⟩)

end Allowlist

/-! ## Two tiers -/

namespace TwoTiers

/-- Only the internal listener injects a key. -/
def config : GatewayConfig where
  inject := { machine := [("X-Internal-Key".toList, "s3cret".toList)] }

def resolved : ResolvedConfig where
  raw := config
  trusted_proxy_ips := []
  injected_headers := []
  machine_injected_headers := [("x-internal-key".toList, "s3cret".toList)]
  identity_secret := none
  machine_secret := none
  client_key_header := none
  client_key_forward_as := none
  client_keys := []
  client_key_exempt := []
  client_key_exempt_groups := []

/-- A request of nobody, from an address that the gateway saw itself. -/
def cx : Ctx where
  draws := ⟨"0b5c".toList, [], [], 0, fun _ => false⟩
  route := RouteConfig.of_input { path_prefix := "users".toList, upstream := "users".toList }
  path := "users".toList
  no_extensions := rfl
  identity := none
  request_id := "0b5c".toList
  peer := some "10.0.0.7".toList
  target := "users:3000".toList

/-- `forged`. -/
def forged : HeaderValue := ⟨[0x66, 0x6f, 0x72, 0x67, 0x65, 0x64], rfl⟩

/-- The client sends the key itself. -/
def headers : HeaderMap := of_fields [("X-Internal-Key".toList, forged)]

/-- What the backend of a listener gets of it. -/
def sent (serves_machine : Bool) : HeaderMap :=
  (((Gateway.of_listener resolved serves_machine).forward plain_crates cx headers).toOption).getD
    ⟨[]⟩

end TwoTiers

open TwoTiers in
/-- On the internal listener the key is the gateway's. -/
theorem allowlist_sound_two_tiers :
    (Gateway.of_listener resolved true).Sound plain_crates cx TwoTiers.headers (sent true) := by
  refine (@allowlist_sound_iff _ config _ _ _ _ _ (by decide +kernel) rfl (by decide +kernel)).mpr
    ⟨fun n _ hn => ?_, .inr (by decide +kernel)⟩
  cases hn

open TwoTiers in
/-- On the public one it is the client's. -/
theorem forged_key_is_forwarded :
    ¬ ∀ (crates : Crates) (cfg : GatewayConfig) (r : ResolvedConfig) (serves_machine : Bool)
        (cx : Ctx) (headers out : HeaderMap), cfg.resolve crates = .ok r →
      cfg.forward.mode = .Allowlist →
      (Gateway.of_listener r serves_machine).forward crates cx headers = .ok out →
      (Gateway.of_listener r serves_machine).Sound crates cx headers out := by
  intro h
  have hsound := h plain_crates config resolved false cx TwoTiers.headers (sent false)
    (by decide +kernel) rfl (by decide +kernel)
  obtain hallowed | ⟨value, ⟨key, w, v, hid, hput, -⟩, -⟩ | ⟨hs, -⟩ :=
    hsound "x-internal-key".toList (by decide +kernel)
  · revert hallowed
    decide +kernel
  · cases hid
    revert hput
    have hkept : ((Gateway.of_listener resolved false).policy plain_crates cx none
        TwoTiers.headers).fate "x-internal-key".toList = .kept := by decide +kernel
    rw [hkept]
    nofun
  · cases hs

end Lagos.Outbound
