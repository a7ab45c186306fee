/-
The address of the caller, at the four places that ask for it (`headers.rs`, `proxy.rs`).

The access log, `X-Real-IP` and `X-Forwarded-For` take it from the chain of trusted hops for the
depth that the socket is trusted to (`Gateway.chain`), while a limit is handed the depth that was
configured, and no chain where the socket is not trusted. Both come to the same
(`counted_address_eq`). Only the configuration itself can have another value sent under those
names: by describing the caller in one of them, or by injecting one where there is no socket
address (`Gateway.Takes`).
-/
import Lagos.TrustedProxies
import Lagos.TokenCookies

set_option autoImplicit false

open RustStd

namespace Lagos.Outbound

open Lagos.Config Lagos.Headers Lagos.Auth Lagos.Admission

/-! ## The chain -/

/-- The hops that are believed, and the socket. -/
def Gateway.chain (g : Gateway) (crates : Crates) (peer : Option Str) (headers : HeaderMap) :
    List Str :=
  let trusted := g.cfg.trusted_proxy_depth crates peer g.cfg.raw.forward.trusted_proxies
  trusted_suffix crates.is_ip (if trusted > 0 then forwarded_for_chain headers else none) peer
    trusted

/-- `ctx.client_ip`, in `request_filter`. -/
def Gateway.client_ip (g : Gateway) (crates : Crates) (peer : Option Str) (headers : HeaderMap) :
    Option Str :=
  (g.forwarded crates peer headers).2

/-- A chain that ends with the socket, and is that alone or has all the trusted hops. -/
structure Vouched (trusted : ℕ) (peer : Option Str) (chain : List Str) : Prop where
  last : chain.getLast? = peer
  length : peer ≠ none → chain.length = 1 ∨ chain.length = trusted + 1
  valid : ∀ entry ∈ chain.dropLast, is_ip_addr entry = true

section Chains

variable {g : Gateway} {crates : Crates} {peer : Option Str} {headers : HeaderMap}

theorem vouched_trusted_suffix (forwarded_for : Option Str) (trusted : ℕ) :
    Vouched trusted peer (trusted_suffix is_ip_addr forwarded_for peer trusted) := by
  cases peer with
  | none => exact ⟨rfl, fun h => absurd rfl h, List.forall_mem_nil _⟩
  | some p =>
    have halone : Vouched trusted (some p) [p] :=
      ⟨rfl, fun _ => .inl rfl, List.forall_mem_nil _⟩
    -- Too few hops, or one that is no address, and the socket stands alone.
    have hentries : ∀ entries : List Str, Vouched trusted (some p)
        (if trusted = 0 ∨ entries.length < trusted then [p]
        else if (entries.drop (entries.length - trusted)).all is_ip_addr then
          entries.drop (entries.length - trusted) ++ [p]
        else [p]) := by
      intro entries
      split_ifs with hshort hvalid
      · exact halone
      · refine ⟨List.getLast?_concat, fun _ => .inr ?_, ?_⟩
        · rw [List.length_append, List.length_drop, List.length_singleton]
          omega
        · rw [List.dropLast_concat]
          exact List.all_eq_true.mp hvalid
      · exact halone
    exact hentries _

/-- Without a chain there is nobody but the socket. -/
theorem trusted_suffix_none (is_ip : Str → Bool) (trusted : ℕ) :
    trusted_suffix is_ip none peer trusted = peer.toList := by
  cases peer with
  | none => rfl
  | some p => exact if_pos (Nat.eq_zero_or_pos trusted)

/-- Either the configured depth is believed, or nothing. -/
theorem trusted_proxy_depth_eq (cfg : ResolvedConfig) (configured : ℕ) :
    cfg.trusted_proxy_depth crates peer configured = configured
      ∨ ∀ n, cfg.trusted_proxy_depth crates peer n = 0 := by
  unfold ResolvedConfig.trusted_proxy_depth
  cases peer with
  | none => exact .inr fun _ => rfl
  | some ip =>
    dsimp only
    split
    · exact .inr fun _ => rfl
    · split
      · exact .inl rfl
      · exact .inr fun _ => rfl

/-- **A limit counts the address that is forwarded.** -/
theorem counted_address_eq (hip : crates.is_ip = is_ip_addr) :
    client_address (forwarded g crates g.cfg.raw.forward.trusted_proxies peer headers) peer
        g.cfg.raw.forward.trusted_proxies = g.client_ip crates peer headers := by
  have hchain : g.client_ip crates peer headers = (g.chain crates peer headers).head? := rfl
  rw [hchain, client_address, forwarded, Gateway.chain, hip]
  obtain hdepth | hdepth := @trusted_proxy_depth_eq crates peer g.cfg
    g.cfg.raw.forward.trusted_proxies
  · rw [hdepth]
  · -- The socket is not trusted, and the depth asked for makes no difference.
    rw [hdepth, if_neg (Nat.lt_irrefl 0), trusted_suffix_none, trusted_suffix_none]

/-- A chain reads as its entries. -/
theorem entries_of_chain {chain : List Str} (hne : chain ≠ [])
    (h : ∀ entry ∈ chain, is_ip_addr entry = true) :
    entries_of (", ".toList.intercalate chain) = chain := by
  rw [entries_of_intercalate hne]
  refine (List.flatMap_congr fun entry hentry => ?_).trans (List.flatMap_singleton' chain)
  have haddr := h entry hentry
  have hcomma : ',' ∉ entry := by
    intro hmem
    have hchar := List.all_eq_true.mp (all_addr_char haddr) ',' hmem
    revert hchar
    decide
  rw [entries_of_single hcomma, trim_addr haddr]

theorem visible_addr {entry : Str} (h : is_ip_addr entry = true) : entry.all visible = true :=
  List.all_eq_true.mpr fun c hc =>
    visible_of_addr_char (List.all_eq_true.mp (all_addr_char h) c hc)

/-- It can be read, as its first entry can. -/
theorem visible_chain {chain : List Str} (h : ∀ entry ∈ chain, is_ip_addr entry = true) :
    (", ".toList.intercalate chain).all visible = true := by
  rw [List.all_eq_true]
  intro c hc
  obtain hc | ⟨entry, hentry, hc⟩ := mem_intercalate hc
  · obtain rfl | rfl : c = ',' ∨ c = ' ' := by simpa using hc
    · decide
    · decide
  · exact List.all_eq_true.mp (visible_addr (h entry hentry)) c hc

/-- All of it is addresses if the socket's is. -/
theorem Vouched.addresses {trusted : ℕ} {chain : List Str} (h : Vouched trusted peer chain)
    (hpeer : ∀ ip ∈ peer, is_ip_addr ip = true) : ∀ entry ∈ chain, is_ip_addr entry = true := by
  intro entry hentry
  have hne : chain ≠ [] := List.ne_nil_of_mem hentry
  rw [← List.dropLast_append_getLast hne, List.mem_append, List.mem_singleton] at hentry
  obtain hentry | rfl := hentry
  · exact h.valid entry hentry
  · exact hpeer _ (h.last ▸ List.getLast?_eq_some_getLast hne)

end Chains

/-! ## What is sent -/

/-- The configuration has a value of its own for a header of the client's address: it describes the
caller there, or injects it and there is no socket address to replace it. -/
def Gateway.Takes (g : Gateway) (cx : Ctx) (n : Str) : Prop :=
  n ∈ g.cfg.raw.identity.headers ∨ cx.peer = none ∧ n ∈ (lower_pairs g.injected).map Prod.fst

section Sent

variable {crates : Crates} {cfg : GatewayConfig} {r : ResolvedConfig} {serves_machine : Bool}
  {cx : Ctx} {headers out : HeaderMap} {n : Str}

/-- The names of the client's address. -/
def address_names : List Str := [X_FORWARDED_FOR, X_REAL_IP]

/-- What the gateway has for each of them. -/
def Gateway.address (g : Gateway) (crates : Crates) (cx : Ctx) (headers : HeaderMap) (n : Str) :
    Option Str :=
  if n = X_REAL_IP then (g.forwarded crates cx.peer headers).2
  else (g.forwarded crates cx.peer headers).1

theorem isSome_address (g : Gateway) (n : Str) :
    (g.address crates cx headers n).isSome = cx.peer.isSome := by
  unfold Gateway.address
  split
  · exact (isSome_forwarded_for _ _ _ _).2
  · exact (isSome_forwarded_for _ _ _ _).1

/-- **No other step puts anything there**, unless the configuration takes the name. -/
theorem puts_own_address (hr : cfg.resolve crates = .ok r) (hn : n ∈ address_names)
    (htakes : ¬ (Gateway.of_listener r serves_machine).Takes cx n) (client_key_id : Option Str) :
    (Gateway.of_listener r serves_machine).puts crates cx client_key_id headers n
      = (Gateway.of_listener r serves_machine).address crates cx headers n := by
  obtain ⟨hidentity, hinjected⟩ := not_or.mp htakes
  have hkey : (((Gateway.of_listener r serves_machine).client_key_script client_key_id).fate
      n).value = none := by
    by_contra hsome
    obtain ⟨v, hv⟩ := Option.ne_none_iff_exists'.mp hsome
    obtain ⟨-, forward_as, hfwd, rfl⟩ := value_client_key hv
    rw [Gateway.of_listener_cfg] at hfwd
    -- The id of a key is forwarded under no reserved name, and both names are.
    have hfree := ((resolved_of_resolve hr).client_key_forward_as forward_as hfwd).1
    rw [hfree.lower] at hn
    have hreserved : ∀ name ∈ address_names, name ∈ RESERVED_CLIENT_KEY_HEADERS := by decide
    exact hfree.not_reserved (hreserved _ hn)
  have hdescribed : (Gateway.of_listener r serves_machine).described crates cx n = none := by
    rw [Gateway.described, fate_description.mpr hidentity, Fate.value_kept]
  -- An injected value is only left where the address does not replace it.
  have hinjects : (Gateway.of_listener r serves_machine).address crates cx headers n = none →
      (Gateway.of_listener r serves_machine).injects n = none := by
    intro hnone
    have hpeer : cx.peer = none := by
      rw [← Option.isNone_iff_eq_none, ← Option.not_isSome,
        ← @isSome_address crates cx headers (Gateway.of_listener r serves_machine) n, hnone]
      rfl
    have hputs := fate_puts_eq_kept.mpr fun h => hinjected ⟨hpeer, h⟩
    rw [Gateway.injects, Gateway.injected_script, Script.fate_append, Script.fate_append,
      Fate.value_seq, Fate.value_seq, value_drops, value_drops, hputs]
    rfl
  have hother : ∀ n ∈ address_names, n ≠ COOKIE ∧ n ≠ TRACEPARENT ∧ n ≠ X_REQUEST_ID := by decide
  obtain ⟨hcookie, htrace, hid⟩ := hother n hn
  have hforwarded : ((if n = X_REAL_IP then
        ((Gateway.of_listener r serves_machine).forwarded crates cx.peer headers).2 else none).or
      (if n = X_FORWARDED_FOR then
        ((Gateway.of_listener r serves_machine).forwarded crates cx.peer headers).1 else none))
      = (Gateway.of_listener r serves_machine).address crates cx headers n := by
    unfold Gateway.address
    obtain rfl | rfl : n = X_FORWARDED_FOR ∨ n = X_REAL_IP := by simpa [address_names] using hn
    · simp [show X_FORWARDED_FOR ≠ X_REAL_IP by decide]
    · simp [show X_REAL_IP ≠ X_FORWARDED_FOR by decide]
  rw [puts_eq, hkey, if_neg hcookie, hdescribed, if_neg htrace, if_neg hid, Option.none_or,
    Option.none_or, Option.none_or, Option.none_or, Option.none_or, ← Option.or_assoc, hforwarded]
  cases haddress : (Gateway.of_listener r serves_machine).address crates cx headers n with
  | some v => rfl
  | none => exact hinjects haddress

/-- What is sent under the names is what the gateway has for them. -/
theorem sent_address (hr : cfg.resolve crates = .ok r) (hn : n ∈ address_names)
    (htakes : ¬ (Gateway.of_listener r serves_machine).Takes cx n)
    (h : (Gateway.of_listener r serves_machine).forward crates cx headers = .ok out)
    (hvisible : ∀ v ∈ (Gateway.of_listener r serves_machine).address crates cx headers n,
      v.all visible = true) :
    (out.get_all n).map HeaderValue.to_str
      = ((Gateway.of_listener r serves_machine).address crates cx headers n).toList.map some := by
  obtain ⟨client_key_id, -, hcarried⟩ := carried_of_forward h
  have hputs := @puts_own_address _ _ _ _ _ headers _ hr hn htakes client_key_id
  rw [Gateway.puts] at hputs
  have hsent := hcarried n
  cases hfate : (((Gateway.of_listener r serves_machine).policy crates cx client_key_id
      headers).fate n).map Prod.snd with
  -- The client's own copy never gets through: the names are always handled.
  | kept => exact absurd (Gateway.Handles.forwarded hn) (fate_eq_kept.mp hfate)
  | dropped =>
    rw [hfate, Fate.value_dropped] at hputs
    rw [hsent.dropped hfate, ← hputs]
    rfl
  | put v =>
    rw [hfate, Fate.value_put] at hputs
    obtain ⟨value, hvalue, hall⟩ := hsent.put v hfate
    rw [← hputs] at hvisible
    obtain ⟨value', hvalue', hread⟩ := from_str_visible (hvisible v rfl)
    have hsame : value = value' := by
      have hfrom := from_str_of_insertable hvalue
      rw [hvalue'] at hfrom
      exact (Option.some.inj hfrom).symm
    rw [hall, ← hputs, List.map_singleton, hsame, hread]
    rfl

end Sent

/-- What a limit or a cap by address makes of a request without one. -/
def unaddressed (missing : MissingKey) (route_id : Str) : Except KeyError (Option Str) :=
  match missing with
  | .Reject => .error .Missing
  | .Route => .ok (some (route_id ++ ['|']))
  | .Ip => .error .Missing
  | .Skip => .ok none

/-- The key that a limit or a cap by address counts a request under. -/
def counted (missing : MissingKey) (route_id : Str) (address : Option Str) :
    Except KeyError (Option Str) :=
  match address with
  | some ip => .ok (some (route_id ++ '|' :: ip))
  | none => unaddressed missing route_id

section Counted

variable {g : Gateway} {crates : Crates} {peer : Option Str} {headers : HeaderMap}

theorem isSome_client_ip : (g.client_ip crates peer headers).isSome = peer.isSome :=
  (isSome_forwarded_for _ _ _ _).2

theorem limit_key_ip (hip : crates.is_ip = is_ip_addr) {s : Selector} (hkey : s.key = .Ip)
    (htrusted : s.trusted_proxies = g.cfg.raw.forward.trusted_proxies) (route_id : Str)
    (subject : Option Str) :
    limit_key g crates headers s route_id subject peer
      = counted s.missing route_id (g.client_ip crates peer headers) := by
  have haddress : key_for s.key s.trusted_proxies route_id subject
      (forwarded g crates s.trusted_proxies peer headers) peer (fun _ => none)
      = (g.client_ip crates peer headers).map fun ip => route_id ++ '|' :: ip := by
    rw [hkey, htrusted, ← counted_address_eq hip]
    rfl
  rw [hkey] at haddress
  unfold limit_key admission_key
  rw [hkey]
  dsimp only [bind, Except.bind]
  rw [haddress]
  cases hclient : g.client_ip crates peer headers with
  | some ip => rfl
  | none =>
    have hpeer : peer = none := by
      rw [← Option.isNone_iff_eq_none, ← Option.not_isSome,
        ← @isSome_client_ip g crates peer headers, hclient]
      rfl
    rw [hpeer, counted]
    cases s.missing <;> rfl

end Counted

namespace OneHop

/-- The crates for one trusted socket. -/
def crates : Crates :=
  { plain_crates with
    is_ip := is_ip_addr
    is_network := fun _ => true
    contains := fun range ip => range == ip }

/-- The caller is described under some name. -/
def config (subject_header : Str) : GatewayConfig where
  forward := { trusted_proxies := 1, trusted_proxy_ips := ["10.0.0.7".toList] }
  identity := { subject_header := subject_header }

def resolved (subject_header : Str) : ResolvedConfig where
  raw := config subject_header
  trusted_proxy_ips := ["10.0.0.7".toList]
  injected_headers := []
  machine_injected_headers := []
  identity_secret := none
  machine_secret := none
  client_key_header := none
  client_key_forward_as := none
  client_keys := []
  client_key_exempt := []
  client_key_exempt_groups := []

/-- `203.0.113.9`. -/
def caller : HeaderValue :=
  ⟨[0x32, 0x30, 0x33, 0x2e, 0x30, 0x2e, 0x31, 0x31, 0x33, 0x2e, 0x39], rfl⟩

def headers : HeaderMap := of_fields [("X-Forwarded-For".toList, caller)]

/-- What a backend is sent of them. -/
def sent (subject_header : Str) : HeaderMap :=
  (((Gateway.of_listener (resolved subject_header) false).forward crates OwnCookie.cx
    headers).toOption).getD ⟨[]⟩

theorem peer_is_ip : ∀ ip ∈ OwnCookie.cx.peer, is_ip_addr ip = true := by
  intro ip hip
  cases hip
  decide +kernel

end OneHop

end Lagos.Outbound
