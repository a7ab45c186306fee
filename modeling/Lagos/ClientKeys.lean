/-
What a client key proves (`resolve_client_keys` in `config/mod.rs`, `request_filter` in
`proxy.rs`).

The configuration is given secrets by client ids and keeps their digests. A request on a route that
asks for a key is let on for an id exactly if its one field has the secret of that id
(`client_key_recognised`). That a request which has not is taken for a client is a collision of the
digest with one of the secrets, and nothing is assumed of the digest to say so.

Upstream the key is never seen, whether the route asked for it or not, and where ids are forwarded
the backend is sent that of the key and no other (`client_key_forwarded`).
-/
import Lagos.HeaderPolicy
import Lagos.OwnedHeaders

set_option autoImplicit false

open RustStd

namespace Lagos.Outbound

open Lagos.Auth Lagos.Config Lagos.Error Lagos.Headers

/-! ## The keys that are kept -/

/-- A key as it is kept. -/
def kept_key (crates : Crates) (entry : Str × Str) : ClientKey :=
  ⟨entry.1, ClientKey.digest_of crates (utf8_bytes entry.2)⟩

variable {crates : Crates}

/-- One key is kept for each secret, no two with one digest, and no secret is short. -/
theorem client_key_entries_ok {entries : List (Str × Str)} {keys out : List ClientKey}
    (hkeys : (keys.map ClientKey.digest).Nodup)
    (h : client_key_entries crates keys entries = .ok out) :
    out = keys ++ entries.map (kept_key crates) ∧ (out.map ClientKey.digest).Nodup
      ∧ ∀ entry ∈ entries, MIN_CLIENT_KEY_LEN ≤ len entry.2 := by
  induction entries generalizing keys with
  | nil =>
    cases h
    exact ⟨(List.append_nil _).symm, hkeys, fun _ h => absurd h List.not_mem_nil⟩
  | cons entry rest ih =>
    obtain ⟨id, secret⟩ := entry
    unfold client_key_entries at h
    dsimp only at h
    split at h
    · cases h
    · split at h
      · cases h
      · split at h
        · cases h
        · rename_i hlen
          split at h
          · cases h
          · rename_i hnew
            rw [List.find?_eq_none] at hnew
            have hfresh : ClientKey.digest_of crates (utf8_bytes secret)
                ∉ keys.map ClientKey.digest := by
              intro hmem
              obtain ⟨key, hkey, heq⟩ := List.mem_map.mp hmem
              exact hnew key hkey (beq_iff_eq.mpr heq)
            have hnodup :
                ((keys ++ [kept_key crates (id, secret)]).map ClientKey.digest).Nodup := by
              rw [List.map_append, List.nodup_append]
              refine ⟨hkeys, List.nodup_singleton _, ?_⟩
              intro digest hdigest other hother
              obtain rfl := List.mem_singleton.mp hother
              rintro rfl
              exact hfresh hdigest
            obtain ⟨rfl, hout, hrest⟩ := ih hnodup h
            refine ⟨by rw [List.append_assoc, List.map_cons, List.singleton_append], hout, ?_⟩
            intro entry hentry
            obtain rfl | hentry := List.mem_cons.mp hentry
            · exact Nat.le_of_not_lt hlen
            · exact hrest entry hentry

/-- Of keys with different digests, one is found by each. -/
theorem find?_digest {keys : List ClientKey} (h : (keys.map ClientKey.digest).Nodup)
    {digest : List UInt8} {key : ClientKey} :
    keys.find? (fun key => key.matches digest) = some key ↔ key ∈ keys ∧ key.digest = digest := by
  constructor
  · intro hfound
    have hmatches := @List.find?_some _ (fun key : ClientKey => key.matches digest) _ _ hfound
    exact ⟨List.mem_of_find?_eq_some hfound, (beq_iff_eq.mp hmatches).symm⟩
  · rintro ⟨hmem, rfl⟩
    cases hfound : keys.find? (fun other => other.matches key.digest) with
    | none =>
      rw [List.find?_eq_none] at hfound
      exact absurd (beq_iff_eq.mpr rfl) (hfound key hmem)
    | some other =>
      have hmatches := @List.find?_some _ (fun other : ClientKey => other.matches key.digest) _ _
        hfound
      have heq : other.digest = key.digest := (beq_iff_eq.mp hmatches).symm
      rw [List.inj_on_of_nodup_map h (List.mem_of_find?_eq_some hfound) hmem heq]

/-! ## Who a key is of -/

section Keyed

variable {cfg : GatewayConfig} {r : ResolvedConfig} {ck : ClientKeysConfig}
  {headers out : HeaderMap} {cx : Ctx} {id : Str}

/-- What client keys are resolved to. -/
theorem resolved_client_keys (hr : cfg.resolve crates = .ok r)
    (hck : cfg.auth.client_keys = some ck) : r.client_key_header.isSome = true
      ∧ r.client_keys = ck.keys.map (kept_key crates)
      ∧ (r.client_keys.map ClientKey.digest).Nodup
      ∧ ∀ entry ∈ ck.keys, MIN_CLIENT_KEY_LEN ≤ len entry.2 := by
  obtain ⟨-, -, h⟩ := bind_eq_ok.mp hr
  obtain ⟨-, -, h⟩ := bind_eq_ok.mp h
  obtain ⟨keys, hkeys, h⟩ := bind_eq_ok.mp h
  obtain ⟨-, -, h⟩ := bind_eq_ok.mp h
  cases h
  rw [GatewayConfig.resolved_keys, hck] at hkeys
  obtain ⟨k, hk, hkeys⟩ := bind_eq_ok.mp hkeys
  cases hkeys
  obtain ⟨header, -, hk⟩ := bind_eq_ok.mp hk
  obtain ⟨-, -, hk⟩ := bind_eq_ok.mp hk
  obtain ⟨forward_as, -, hk⟩ := bind_eq_ok.mp hk
  obtain ⟨-, -, hk⟩ := bind_eq_ok.mp hk
  obtain ⟨entries, hentries, hk⟩ := bind_eq_ok.mp hk
  obtain ⟨exempt, -, hk⟩ := bind_eq_ok.mp hk
  obtain ⟨groups, -, hk⟩ := bind_eq_ok.mp hk
  cases hk
  have hnil : (([] : List ClientKey).map ClientKey.digest).Nodup := List.nodup_nil
  obtain ⟨rfl, hnodup, hlen⟩ := client_key_entries_ok hnil hentries
  exact ⟨rfl, rfl, hnodup, hlen⟩

/-- A request has one field with a client's secret. -/
def Presents (ck : ClientKeysConfig) (name id : Str) (headers : HeaderMap) : Prop :=
  ∃ secret value, (id, secret) ∈ ck.keys ∧ headers.get_all name = [value]
    ∧ value.bytes = utf8_bytes secret

/-- A request has something else, with the digest of a client's secret. -/
def Collides (crates : Crates) (ck : ClientKeysConfig) (name id : Str) (headers : HeaderMap) :
    Prop :=
  ∃ secret value, (id, secret) ∈ ck.keys ∧ headers.get_all name = [value]
    ∧ value.bytes ≠ utf8_bytes secret
    ∧ crates.digest value.bytes = crates.digest (utf8_bytes secret)

/-- Where a key is required, an id is one whose key has the digest of the only field. -/
theorem client_key_id_iff {g : Gateway} {name : Str}
    (hrequired : g.serves_machine = false ∧ g.cfg.client_key_rule cx.route cx.path = .Required)
    (hname : g.cfg.client_key_header = some name) (hlower : to_ascii_lowercase name = name)
    (hnodup : (g.cfg.client_keys.map ClientKey.digest).Nodup) :
    g.client_key_id crates cx headers = .ok (some id)
      ↔ ∃ value, headers.get_all name = [value] ∧ value.bytes ≠ []
        ∧ ⟨id, crates.digest value.bytes⟩ ∈ g.cfg.client_keys := by
  unfold Gateway.client_key_id
  rw [if_pos hrequired, hname, Option.getD_some, hlower]
  dsimp only
  match hall : headers.get_all name with
  | [] => simp
  | [value] =>
    by_cases hempty : value.bytes = []
    · have hfilter : [value].head?.filter (fun v => !v.bytes.isEmpty) = none := by simp [hempty]
      rw [hfilter]
      simp [hempty]
    · have hfilter : [value].head?.filter (fun v => !v.bytes.isEmpty) = some value := by
        simp [hempty]
      rw [hfilter]
      dsimp only
      cases hfound : g.cfg.client_keys.find? fun key =>
          key.matches (ClientKey.digest_of crates value.bytes) with
      | none =>
        refine iff_of_false (by simp) ?_
        rintro ⟨other, hother, -, hmem⟩
        obtain rfl : value = other := (List.cons.inj hother).1
        have := (find?_digest hnodup).mpr ⟨hmem, rfl⟩
        rw [ClientKey.digest_of] at hfound
        rw [hfound] at this
        cases this
      | some key =>
        obtain ⟨hmem, hdigest⟩ := (find?_digest hnodup).mp hfound
        rw [Option.filter_some, if_pos (by simp)]
        dsimp only
        constructor
        · intro h
          cases h
          exact ⟨value, rfl, hempty, by rwa [← ClientKey.digest_of, ← hdigest]⟩
        · rintro ⟨other, hother, -, hkey⟩
          obtain rfl : value = other := (List.cons.inj hother).1
          have heq := List.inj_on_of_nodup_map hnodup hkey hmem hdigest.symm
          rw [← heq]
  | v :: v' :: rest =>
    refine iff_of_false ?_ (by simp)
    intro h
    split at h
    · cases h
    · split at h
      · cases h
      · rename_i hfilter
        simp at hfilter

/-- Where a key is required, a request is taken for a client or refused. -/
theorem client_key_id_cases {g : Gateway}
    (hrequired : g.serves_machine = false ∧ g.cfg.client_key_rule cx.route cx.path = .Required) :
    (∃ id, g.client_key_id crates cx headers = .ok (some id))
      ∨ ∃ rejection, g.client_key_id crates cx headers = .error rejection
        ∧ rejection.status = 401 := by
  unfold Gateway.client_key_id
  rw [if_pos hrequired]
  dsimp only
  split
  · exact .inr ⟨_, rfl, rfl⟩
  · split
    · exact .inr ⟨_, rfl, rfl⟩
    · exact .inl ⟨_, rfl⟩

/-- **A client key stands for one client.** Where a key is required, a request is taken for a client
exactly if its one field has the secret of that client, unless the digests of two keys collide; any
other is refused with 401. -/
theorem client_key_recognised (hr : cfg.resolve crates = .ok r)
    (hck : cfg.auth.client_keys = some ck) (headers : HeaderMap)
    (hrule : r.client_key_rule cx.route cx.path = .Required) :
    ∃ name, r.client_key_header = some name
      ∧ (∀ id, Presents ck name id headers →
        (Gateway.of_listener r false).client_key_id crates cx headers = .ok (some id))
      ∧ (∀ id, (Gateway.of_listener r false).client_key_id crates cx headers = .ok (some id) →
        Presents ck name id headers ∨ Collides crates ck name id headers)
      ∧ ((∃ id, (Gateway.of_listener r false).client_key_id crates cx headers = .ok (some id))
        ∨ ∃ rejection, (Gateway.of_listener r false).client_key_id crates cx headers
          = .error rejection ∧ rejection.status = 401) := by
  obtain ⟨hsome, hkeys, hnodup, hlen⟩ := resolved_client_keys hr hck
  obtain ⟨name, hname⟩ := Option.isSome_iff_exists.mp hsome
  have hlower := ((resolved_of_resolve hr).client_key_header name hname).lower
  have hcfg : (Gateway.of_listener r false).cfg = r := Gateway.of_listener_cfg _ _
  have hrequired : (Gateway.of_listener r false).serves_machine = false
      ∧ (Gateway.of_listener r false).cfg.client_key_rule cx.route cx.path = .Required :=
    ⟨Gateway.of_listener_serves _ _, by rwa [hcfg]⟩
  have hiff : ∀ id, (Gateway.of_listener r false).client_key_id crates cx headers = .ok (some id)
      ↔ ∃ value, headers.get_all name = [value] ∧ value.bytes ≠ []
        ∧ ⟨id, crates.digest value.bytes⟩ ∈ r.client_keys := by
    intro id
    have h := @client_key_id_iff crates headers cx id _ name hrequired (by rwa [hcfg]) hlower
      (by rwa [hcfg])
    rwa [hcfg] at h
  refine ⟨name, hname, ?_, ?_, client_key_id_cases hrequired⟩
  · rintro id ⟨secret, value, hmem, hall, hbytes⟩
    refine (hiff id).mpr ⟨value, hall, ?_, ?_⟩
    · intro hempty
      have hlong := hlen _ hmem
      rw [← length_utf8_bytes, ← hbytes, hempty] at hlong
      exact absurd hlong (by decide)
    · rw [hkeys, hbytes]
      exact List.mem_map.mpr ⟨(id, secret), hmem, rfl⟩
  · intro id hid
    obtain ⟨value, hall, -, hmem⟩ := (hiff id).mp hid
    rw [hkeys] at hmem
    obtain ⟨⟨id', secret⟩, hentry, heq⟩ := List.mem_map.mp hmem
    obtain ⟨rfl, hdigest⟩ := ClientKey.mk.inj heq
    by_cases hbytes : value.bytes = utf8_bytes secret
    · exact .inl ⟨secret, value, hentry, hall, hbytes⟩
    · exact .inr ⟨secret, value, hentry, hall, hbytes, hdigest.symm⟩

/-! ## What the backend is sent -/

/-- Under a name that is used for nothing else, only a client key's id is put. -/
theorem value_free (hr : cfg.resolve crates = .ok r) {n : Str} (hfree : Free cfg n)
    (client_key_id : Option Str) :
    (((Gateway.of_listener r false).policy crates cx client_key_id headers).fate n).value
      = ((((Gateway.of_listener r false).client_key_script client_key_id).fate n).value.map
        (Prod.mk .client_key)) := by
  have hresolved := resolved_of_resolve hr
  have hne : ∀ reserved ∈ RESERVED_CLIENT_KEY_HEADERS, n ≠ reserved := by
    rintro reserved hreserved rfl
    exact hfree.not_reserved hreserved
  have hidentity : n ∉ (Gateway.of_listener r false).cfg.raw.identity.headers := by
    rw [Gateway.of_listener_cfg, hresolved.raw]
    exact fun h => hfree.not_owned (mem_owned_of_identity h)
  have hinjected : n ∉ (lower_pairs (Gateway.of_listener r false).injected).map Prod.fst := by
    have hinjected : (Gateway.of_listener r false).injected = r.injected_headers := rfl
    rw [hinjected, hresolved.injected, lower_pairs_lower_pairs]
    exact fun h => hfree.not_owned (mem_owned_of_injected (.inl h))
  have hforwarded : ∀ forwarded, ((forwarded_script forwarded).fate n).value = none := by
    intro forwarded
    rw [forwarded_script, Script.fate_append, Script.fate_append, Fate.value_seq, Fate.value_seq,
      value_drops, value_put_some, value_put_some, if_neg (hne _ (by decide)),
      if_neg (hne _ (by decide))]
    rfl
  have hputs : (Script.fate (Script.puts (lower_pairs (Gateway.of_listener r false).injected))
      n).value = none := by
    rw [fate_puts_eq_kept.mpr hinjected, Fate.value_kept]
  have hscript : ((Gateway.of_listener r false).injected_script.fate n).value = none := by
    rw [Gateway.injected_script, Script.fate_append, Script.fate_append, Fate.value_seq,
      Fate.value_seq, value_drops, value_drops, hputs]
    rfl
  have hid : (Script.fate [(X_REQUEST_ID, .put cx.request_id)] n).value = none := by
    rw [Script.fate_singleton, if_neg (Ne.symm (hne _ (by decide))), Fate.value_kept]
  rw [value_policy, value_credentials, if_neg (hne _ (by decide)), value_put_some,
    if_neg (hne _ (by decide)), hforwarded, hscript, hid, fate_description.mpr hidentity,
    Fate.value_kept]
  simp only [Option.map_none, Option.or_none]

/-- What a client key's id comes to. -/
theorem value_client_key_script {g : Gateway} (hserves : g.serves_machine = false)
    {client_key_id : Option Str} {n : Str} :
    ((g.client_key_script client_key_id).fate n).value
      = if (g.cfg.client_key_forward_as.map to_ascii_lowercase) = some n then client_key_id
        else none := by
  rw [Gateway.client_key_script, hserves, if_neg Bool.false_ne_true, Script.fate_append,
    Script.fate_append, Fate.value_seq, Fate.value_seq, value_drops, value_drops, Option.or_none,
    Option.or_none]
  cases g.cfg.client_key_forward_as with
  | none => rfl
  | some forward_as =>
    rw [Option.toList_some, List.flatMap_singleton, value_put_some, Option.map_some]
    by_cases hn : n = to_ascii_lowercase forward_as
    · rw [if_pos hn, if_pos (by rw [hn])]
    · rw [if_neg hn, if_neg fun h => hn (Option.some.inj h).symm]

theorem dropped_of_value {fate : Fate Str} (hkept : fate ≠ .kept) (hvalue : fate.value = none) :
    fate = .dropped := by
  cases fate with
  | kept => exact absurd rfl hkept
  | dropped => rfl
  | put v => cases hvalue

/-- **A key stays with the gateway.** On the public listener no backend is sent the header of client
keys, and under the name that ids are forwarded by it is sent the id of the key that was presented,
or nothing where none is asked for. -/
theorem client_key_forwarded (hr : cfg.resolve crates = .ok r)
    (hck : cfg.auth.client_keys = some ck)
    (h : (Gateway.of_listener r false).forward crates cx headers = .ok out) :
    ∃ name, r.client_key_header = some name ∧ out.get_all name = []
      ∧ ∀ forward_as ∈ r.client_key_forward_as,
        (r.client_key_rule cx.route cx.path = .Required → ∃ id value,
          (Gateway.of_listener r false).client_key_id crates cx headers = .ok (some id)
          ∧ out.get_all forward_as = [value] ∧ value.bytes = utf8_bytes id)
        ∧ (r.client_key_rule cx.route cx.path ≠ .Required → out.get_all forward_as = []) := by
  obtain ⟨hsome, -, -, -⟩ := resolved_client_keys hr hck
  obtain ⟨name, hname⟩ := Option.isSome_iff_exists.mp hsome
  have hresolved := resolved_of_resolve hr
  have hcfg : (Gateway.of_listener r false).cfg = r := Gateway.of_listener_cfg _ _
  have hserves : (Gateway.of_listener r false).serves_machine = false :=
    Gateway.of_listener_serves _ _
  obtain ⟨client_key_id, hkey, hcarried⟩ := carried_of_forward h
  -- Both names are handled, and nothing else is put under them.
  have hfate : ∀ n, Free cfg n → n ∈ r.client_key_header.toList ++ r.client_key_forward_as.toList →
      (((Gateway.of_listener r false).policy crates cx client_key_id headers).fate n).map Prod.snd
          ≠ .kept
        ∧ ((((Gateway.of_listener r false).policy crates cx client_key_id headers).fate n).map
          Prod.snd).value = if r.client_key_forward_as = some n then client_key_id else none := by
    intro n hfree hmem
    constructor
    · rw [ne_eq, fate_eq_kept, not_not]
      refine .client_key hserves (List.mem_map.mpr ⟨n, ?_, hfree.lower⟩)
      rwa [hcfg]
    · have hlower : r.client_key_forward_as.map to_ascii_lowercase = r.client_key_forward_as := by
        cases hf : r.client_key_forward_as with
        | none => rfl
        | some forward_as =>
          rw [Option.map_some, (hresolved.client_key_forward_as forward_as hf).1.lower]
      rw [Fate.value_map, value_free hr hfree, value_client_key_script hserves, hcfg, hlower,
        Option.map_map]
      split
      · cases client_key_id <;> rfl
      · rfl
  refine ⟨name, hname, ?_, ?_⟩
  · obtain ⟨hkept, hvalue⟩ := hfate name (hresolved.client_key_header name hname)
      (by simp [hname])
    have hother : r.client_key_forward_as ≠ some name := fun hf =>
      (hresolved.client_key_forward_as name hf).2 hname
    rw [if_neg hother] at hvalue
    exact (hcarried name).dropped (dropped_of_value hkept hvalue)
  · intro forward_as hforward
    have hforward : r.client_key_forward_as = some forward_as := hforward
    obtain ⟨hkept, hvalue⟩ := hfate forward_as
      (hresolved.client_key_forward_as forward_as hforward).1 (by simp [hforward])
    rw [if_pos hforward] at hvalue
    constructor
    · intro hrule
      have hrequired : (Gateway.of_listener r false).serves_machine = false
          ∧ (Gateway.of_listener r false).cfg.client_key_rule cx.route cx.path = .Required :=
        ⟨hserves, by rwa [hcfg]⟩
      obtain ⟨id, hid⟩ | ⟨rejection, herror, -⟩ := client_key_id_cases hrequired
      · rw [hkey] at hid
        cases hid
        obtain ⟨value, hinsert, hall⟩ := (hcarried forward_as).put id (Fate.eq_put_iff.mpr hvalue)
        exact ⟨id, value, hkey, hall, insertable_bytes hinsert⟩
      · rw [hkey] at herror
        cases herror
    · intro hrule
      have hnone : client_key_id = none := by
        unfold Gateway.client_key_id at hkey
        rw [if_neg (by rw [hcfg]; exact fun h => hrule h.2)] at hkey
        exact (Except.ok.inj hkey).symm
      exact (hcarried forward_as).dropped (dropped_of_value hkept (hvalue.trans hnone))

end Keyed

namespace TwoClients

/-- A shop and a till, of which backends are told. -/
def client_keys : ClientKeysConfig where
  forward_as := some "x-client-id".toList
  keys := [("shop".toList, "0123456789abcdef".toList), ("till".toList, "fedcba9876543210".toList)]

def config : GatewayConfig where
  auth := { client_keys := some client_keys }

def resolved : ResolvedConfig where
  raw := config
  trusted_proxy_ips := []
  injected_headers := []
  machine_injected_headers := []
  identity_secret := none
  machine_secret := none
  client_key_header := some "x-client-key".toList
  client_key_forward_as := some "x-client-id".toList
  client_keys := client_keys.keys.map (kept_key plain_crates)
  client_key_exempt := []
  client_key_exempt_groups := []

theorem resolve_eq : config.resolve plain_crates = .ok resolved := by decide +kernel

/-- The key of the till, which says that it is the shop. -/
def headers : HeaderMap :=
  of_fields [("X-Client-Key".toList, ⟨utf8_bytes "fedcba9876543210".toList, by decide +kernel⟩),
    ("X-Client-Id".toList, ⟨utf8_bytes "shop".toList, by decide +kernel⟩)]

/-- What a public backend gets of them. -/
def sent : HeaderMap :=
  (((Gateway.of_listener resolved false).forward plain_crates TwoTiers.cx headers).toOption).getD
    ⟨[]⟩

end TwoClients

open TwoClients in
/-- It is taken for the till. -/
theorem client_key_recognised_till :
    (Gateway.of_listener resolved false).client_key_id plain_crates TwoTiers.cx headers
      = .ok (some "till".toList) := by
  obtain ⟨name, hname, hpresents, -⟩ :=
    @client_key_recognised plain_crates config resolved client_keys TwoTiers.cx resolve_eq rfl
      headers (by decide +kernel)
  obtain rfl : "x-client-key".toList = name := Option.some.inj hname
  refine hpresents _ ⟨"fedcba9876543210".toList, ⟨_, by decide +kernel⟩, by decide +kernel, ?_, rfl⟩
  decide +kernel

open TwoClients in
/-- The backend is told so, and does not see the key. -/
theorem client_key_forwarded_till : sent.get_all "x-client-key".toList = []
    ∧ ∃ value, sent.get_all "x-client-id".toList = [value]
      ∧ value.bytes = utf8_bytes "till".toList := by
  obtain ⟨name, hname, hhidden, hforward⟩ :=
    @client_key_forwarded plain_crates config resolved client_keys headers sent TwoTiers.cx
      resolve_eq rfl (by decide +kernel)
  obtain rfl : "x-client-key".toList = name := Option.some.inj hname
  obtain ⟨hrequired, -⟩ := hforward "x-client-id".toList rfl
  obtain ⟨id, value, hid, hall, hbytes⟩ := hrequired (by decide +kernel)
  have htill : (Gateway.of_listener resolved false).client_key_id plain_crates TwoTiers.cx headers
      = .ok (some "till".toList) := by decide +kernel
  rw [htill] at hid
  cases hid
  exact ⟨hhidden, value, hall, hbytes⟩

end Lagos.Outbound
