/-
The headers that the gateway owns, and what a client can do about them.

Two requests may differ in the fields a client sent under owned names, in any way. For every
other name, and for every owned name that is written from the configuration and the caller
alone, the backend is sent the same for both. Three steps write from what the client sent: the
forwarded chain, the trace and the cookies. As long as none of them writes something of the
client's under an owned name (`Unread`), owned headers are the gateway's own; if one does, they
are not (`owned_headers_immune`).
-/
import Lagos.Allowlist
import Lagos.HeaderReads

set_option autoImplicit false

open RustStd

namespace Lagos.Outbound

open Lagos.Config Lagos.Headers Lagos.Auth Lagos.Routes

/-! ## What is owned -/

/-- How many of the hops in front of the gateway are believed. -/
def Gateway.depth (g : Gateway) (crates : Crates) (cx : Ctx) : ℕ :=
  g.cfg.trusted_proxy_depth crates cx.peer g.cfg.raw.forward.trusted_proxies

/-- The headers that the gateway owns on its listener. -/
def Gateway.owns (g : Gateway) (crates : Crates) (cx : Ctx) (n : Str) : Prop :=
  n ∈ g.cfg.raw.identity.headers ∨ n ∈ g.injected.map Prod.fst
    ∨ (g.serves_machine = false ∧ g.cfg.client_key_forward_as = some n)
    ∨ n = X_REAL_IP ∨ (n = X_FORWARDED_FOR ∧ g.depth crates cx = 0)

instance (g : Gateway) (crates : Crates) (cx : Ctx) (n : Str) :
    Decidable (g.owns crates cx n) := inferInstanceAs (Decidable (_ ∨ _))

/-- Two requests that differ in their owned headers only. -/
def Gateway.Alike (g : Gateway) (crates : Crates) (cx : Ctx) (headers headers' : HeaderMap) :
    Prop :=
  ∀ n, ¬ g.owns crates cx n → headers.get_all n = headers'.get_all n

/-- A request without the owned fields. -/
def Gateway.bare (g : Gateway) (crates : Crates) (cx : Ctx) (headers : HeaderMap) : HeaderMap :=
  headers.without (g.owns crates cx)

/-- The value that the gateway has for a header itself: what the policy puts there for the
request without the owned fields. -/
def Gateway.own_value (g : Gateway) (crates : Crates) (cx : Ctx) (client_key_id : Option Str)
    (headers : HeaderMap) (n : Str) : Option Str :=
  g.puts crates cx client_key_id (g.bare crates cx headers) n

/-- A header is sent once, with the gateway's own value, or not at all. -/
def Gateway.Once (g : Gateway) (crates : Crates) (cx : Ctx) (headers out : HeaderMap) (n : Str) :
    Prop :=
  out.get_all n = [] ∨ ∃ client_key_id v value,
    g.client_key_id crates cx headers = .ok client_key_id
      ∧ g.own_value crates cx client_key_id headers n = some v
      ∧ insertable crates n v = .ok value ∧ out.get_all n = [value]

/-- Nothing is read from the client's fields that ends up under an owned name: where cookies are
left, a trace could be continued or hops are believed, and no later step overwrites what was
written from them, they say what the gateway would have written without them. -/
structure Gateway.Unread (g : Gateway) (crates : Crates) (cx : Ctx) (headers : HeaderMap) :
    Prop where
  cookie : g.owns crates cx COOKIE → ∀ rest, g.cookie_rest headers = some rest →
    (g.described crates cx COOKIE).or (g.injects COOKIE) = some rest
  trace : g.owns crates cx TRACEPARENT → g.described crates cx TRACEPARENT = none →
    g.traceparent cx.draws headers = g.traceparent cx.draws ⟨[]⟩
  chain : g.owns crates cx X_FORWARDED_FOR → g.described crates cx X_FORWARDED_FOR = none →
    (g.forwarded crates cx.peer headers).1 = cx.peer
  address : g.owns crates cx X_FORWARDED_FOR → g.described crates cx X_REAL_IP = none →
    (g.forwarded crates cx.peer headers).2 = cx.peer

section Owned

variable {crates : Crates} {cfg : GatewayConfig} {r : ResolvedConfig} {serves_machine : Bool}
  {cx : Ctx} {headers headers' out out' : HeaderMap} {n : Str}

/-- An owned header is handled, whatever the request. -/
theorem handles_of_owns (hr : cfg.resolve crates = .ok r)
    (h : (Gateway.of_listener r serves_machine).owns crates cx n) :
    (Gateway.of_listener r serves_machine).Handles headers n := by
  obtain h | h | ⟨hs, h⟩ | rfl | ⟨rfl, -⟩ := h
  · exact .identity h
  · exact .injected (by rwa [lower_injected hr])
  · rw [Gateway.of_listener_cfg] at h
    have hfree := ((resolved_of_resolve hr).client_key_forward_as n h).1
    refine .client_key hs (List.mem_map.mpr ⟨n, ?_, hfree.lower⟩)
    rw [Gateway.of_listener_cfg, h]
    simp
  · exact .forwarded (by simp)
  · exact .forwarded (by simp)

/-- One fate, and what is kept the same for both: the same is sent. -/
theorem Carried.sent_eq {g : Gateway} {target : Str} {fate : Fate Str}
    (h : Carried g crates target headers out fate n)
    (h' : Carried g crates target headers' out' fate n)
    (hkept : fate = .kept → headers.get_all n = headers'.get_all n) :
    out.get_all n = out'.get_all n := by
  cases fate with
  | kept =>
    by_cases hs : g.swept n
    · rw [h.swept rfl hs, h'.swept rfl hs]
    · by_cases hhost : g.replaces_host n
      · obtain ⟨value, hv, hall⟩ := h.host rfl hs hhost
        obtain ⟨value', hv', hall'⟩ := h'.host rfl hs hhost
        rw [hv] at hv'
        cases hv'
        rw [hall, hall']
      · rw [h.kept rfl hs hhost, h'.kept rfl hs hhost, hkept rfl]
  | dropped => rw [h.dropped rfl, h'.dropped rfl]
  | put v =>
    obtain ⟨value, hv, hall⟩ := h.put v rfl
    obtain ⟨value', hv', hall'⟩ := h'.put v rfl
    rw [hv] at hv'
    cases hv'
    rw [hall, hall']

/-- Two fates that do not keep anything: the same is sent just if the same is put. -/
theorem Carried.sent_eq_iff {g : Gateway} {target : Str} {fate fate' : Fate Str}
    (h : Carried g crates target headers out fate n)
    (h' : Carried g crates target headers' out' fate' n) (hne : fate ≠ .kept)
    (hne' : fate' ≠ .kept) : out.get_all n = out'.get_all n ↔ fate.value = fate'.value := by
  cases fate with
  | kept => exact absurd rfl hne
  | dropped =>
    rw [h.dropped rfl]
    cases fate' with
    | kept => exact absurd rfl hne'
    | dropped => simp [h'.dropped rfl]
    | put v' =>
      obtain ⟨value', -, hall'⟩ := h'.put v' rfl
      simp [hall']
  | put v =>
    obtain ⟨value, hv, hall⟩ := h.put v rfl
    rw [hall]
    cases fate' with
    | kept => exact absurd rfl hne'
    | dropped => simp [h'.dropped rfl]
    | put v' =>
      obtain ⟨value', hv', hall'⟩ := h'.put v' rfl
      rw [hall', Fate.value_put, Fate.value_put, Option.some.injEq, List.cons.injEq]
      constructor
      · rintro ⟨rfl, -⟩
        exact insertable_inj hv hv'
      · rintro rfl
        rw [hv] at hv'
        cases hv'
        exact ⟨rfl, rfl⟩

/-- The header client keys are read from is not owned. -/
theorem not_owns_client_key_header (hr : cfg.resolve crates = .ok r)
    (hn : r.client_key_header = some n) :
    ¬ (Gateway.of_listener r serves_machine).owns crates cx n := by
  have hresolved := resolved_of_resolve hr
  have hfree := hresolved.client_key_header n hn
  rintro (h | h | ⟨-, h⟩ | rfl | ⟨rfl, -⟩)
  · rw [Gateway.of_listener_cfg, hresolved.raw] at h
    exact hfree.not_owned (mem_owned_of_identity h)
  · refine hfree.not_owned (mem_owned_of_injected ?_)
    rw [Gateway.injected, Gateway.of_listener_cfg, hresolved.injected,
      hresolved.machine_injected] at h
    split at h
    · exact .inr h
    · exact .inl h
  · rw [Gateway.of_listener_cfg] at h
    exact (hresolved.client_key_forward_as n h).2 hn
  · exact hfree.not_reserved (by decide)
  · exact hfree.not_reserved (by decide)

/-- Only the cookies of a request have a say in what is handled. -/
theorem Gateway.Handles.of_cookies {g : Gateway} (h : g.Handles headers n)
    (hcookies : n = COOKIE → g.rewrites_cookies headers = g.rewrites_cookies headers') :
    g.Handles headers' n := by
  cases h with
  | hop h => exact .hop h
  | injected h => exact .injected h
  | machine hs h => exact .machine hs h
  | forwarded h => exact .forwarded h
  | request_id h => exact .request_id h
  | trace hs h => exact .trace hs h
  | identity h => exact .identity h
  | authorization hs h => exact .authorization hs h
  | cookies hs h => exact .cookies (hcookies h ▸ hs) h
  | client_key hs h => exact .client_key hs h

section Pairs

variable (hr : cfg.resolve crates = .ok r)
  (halike : (Gateway.of_listener r serves_machine).Alike crates cx headers headers')

include hr halike in
/-- So both requests present the same key. -/
theorem client_key_id_congr :
    (Gateway.of_listener r serves_machine).client_key_id crates cx headers
      = (Gateway.of_listener r serves_machine).client_key_id crates cx headers' := by
  unfold Gateway.client_key_id
  split
  · rename_i hrequired
    rw [Gateway.of_listener_cfg] at hrequired ⊢
    cases hheader : r.client_key_header with
    | none =>
      rw [ResolvedConfig.client_key_rule, if_pos (.inl hheader)] at hrequired
      cases hrequired.2
    | some header =>
      rw [Option.getD_some, ((resolved_of_resolve hr).client_key_header header hheader).lower,
        halike header (not_owns_client_key_header hr hheader)]
  · rfl

include halike in
/-- A name that is not owned has the same fate for both. -/
theorem fate_congr (hn : ¬ (Gateway.of_listener r serves_machine).owns crates cx n)
    (client_key_id : Option Str) :
    (((Gateway.of_listener r serves_machine).policy crates cx client_key_id headers).fate n).map
        Prod.snd
      = (((Gateway.of_listener r serves_machine).policy crates cx client_key_id headers').fate
        n).map Prod.snd := by
  rw [Fate.ext_iff, fate_eq_kept, fate_eq_kept]
  refine ⟨not_congr ⟨?_, ?_⟩, ?_⟩
  · exact fun h => h.of_cookies fun hcookie => (cookies_congr (halike COOKIE (hcookie ▸ hn))).1
  · exact fun h => h.of_cookies fun hcookie => (cookies_congr (halike COOKIE (hcookie ▸ hn))).1.symm
  · refine puts_congr (fun h => halike COOKIE (h ▸ hn)) (fun h => halike TRACEPARENT (h ▸ hn)) ?_
      client_key_id
    rintro (rfl | rfl)
    · exact absurd (.inr (.inr (.inr (.inl rfl)))) hn
    · exact halike X_FORWARDED_FOR hn

variable (h : (Gateway.of_listener r serves_machine).forward crates cx headers = .ok out)
  (h' : (Gateway.of_listener r serves_machine).forward crates cx headers' = .ok out')

include hr halike h h' in
/-- What the backend is sent under a name that is not owned is the same for both; under an
owned name it is just if the policy puts the same. -/
theorem sent_eq_iff : ∃ client_key_id,
    (Gateway.of_listener r serves_machine).client_key_id crates cx headers = .ok client_key_id
    ∧ ∀ n, (¬ (Gateway.of_listener r serves_machine).owns crates cx n → out.get_all n = out'.get_all n)
      ∧ ((Gateway.of_listener r serves_machine).owns crates cx n →
        (out.get_all n = out'.get_all n
          ↔ (Gateway.of_listener r serves_machine).puts crates cx client_key_id headers n
            = (Gateway.of_listener r serves_machine).puts crates cx client_key_id headers' n)) := by
  obtain ⟨client_key_id, hkey, hcarried⟩ := carried_of_forward h
  obtain ⟨client_key_id', hkey', hcarried'⟩ := carried_of_forward h'
  have hsame := hkey'
  rw [← client_key_id_congr hr halike, hkey] at hsame
  cases hsame
  refine ⟨client_key_id, hkey, fun n => ⟨fun hn => ?_, fun hn => ?_⟩⟩
  · have hfate := fate_congr halike hn client_key_id
    exact Carried.sent_eq (hcarried n) (hfate ▸ hcarried' n) fun _ => halike n hn
  · refine Carried.sent_eq_iff (hcarried n) (hcarried' n) ?_ ?_
    · exact fun hf => fate_eq_kept.mp hf (handles_of_owns hr hn)
    · exact fun hf => fate_eq_kept.mp hf (handles_of_owns hr hn)

include hr in
theorem value_cookie (client_key_id : Option Str) (headers : HeaderMap) :
    (Gateway.of_listener r serves_machine).puts crates cx client_key_id headers COOKIE
      = ((Gateway.of_listener r serves_machine).cookie_rest headers).or
        (((Gateway.of_listener r serves_machine).described crates cx COOKIE).or
        ((Gateway.of_listener r serves_machine).injects COOKIE)) := by
  rw [puts_eq, value_client_key_reserved hr (by decide), if_pos rfl,
    if_neg (by decide), if_neg (by decide), if_neg (by decide), if_neg (by decide)]
  simp only [Option.none_or]

include hr in
theorem value_trace (client_key_id : Option Str) (headers : HeaderMap) :
    (Gateway.of_listener r serves_machine).puts crates cx client_key_id headers TRACEPARENT
      = ((Gateway.of_listener r serves_machine).described crates cx TRACEPARENT).or
        (((Gateway.of_listener r serves_machine).traceparent cx.draws headers).or
        ((Gateway.of_listener r serves_machine).injects TRACEPARENT)) := by
  rw [puts_eq, value_client_key_reserved hr (by decide), if_neg (by decide),
    if_pos rfl, if_neg (by decide), if_neg (by decide), if_neg (by decide)]
  simp only [Option.none_or]

include hr in
theorem value_address (client_key_id : Option Str) (headers : HeaderMap) :
    (Gateway.of_listener r serves_machine).puts crates cx client_key_id headers X_REAL_IP
      = ((Gateway.of_listener r serves_machine).described crates cx X_REAL_IP).or
        (((Gateway.of_listener r serves_machine).forwarded crates cx.peer headers).2.or
        ((Gateway.of_listener r serves_machine).injects X_REAL_IP)) := by
  rw [puts_eq, value_client_key_reserved hr (by decide), if_neg (by decide),
    if_neg (by decide), if_neg (by decide), if_pos rfl, if_neg (by decide)]
  simp only [Option.none_or]

include hr in
theorem value_chain (client_key_id : Option Str) (headers : HeaderMap) :
    (Gateway.of_listener r serves_machine).puts crates cx client_key_id headers X_FORWARDED_FOR
      = ((Gateway.of_listener r serves_machine).described crates cx X_FORWARDED_FOR).or
        (((Gateway.of_listener r serves_machine).forwarded crates cx.peer headers).1.or
        ((Gateway.of_listener r serves_machine).injects X_FORWARDED_FOR)) := by
  rw [puts_eq, value_client_key_reserved hr (by decide), if_neg (by decide),
    if_neg (by decide), if_neg (by decide), if_neg (by decide), if_pos rfl]
  simp only [Option.none_or]

/-- Under every other name nothing is written from the client's fields. -/
theorem value_other (client_key_id : Option Str) {g : Gateway} (headers headers' : HeaderMap)
    (hn : n ∉ [COOKIE, TRACEPARENT, X_REAL_IP, X_FORWARDED_FOR]) :
    g.puts crates cx client_key_id headers n = g.puts crates cx client_key_id headers' n := by
  simp only [List.mem_cons, List.not_mem_nil, or_false, not_or] at hn
  exact puts_congr (fun h => absurd h hn.1) (fun h => absurd h hn.2.1)
    (fun h => absurd h (not_or.mpr hn.2.2)) client_key_id

end Pairs

/-! ## What is read -/

theorem get_all_bare (g : Gateway) (headers : HeaderMap) (n : Str) :
    (g.bare crates cx headers).get_all n
      = if g.owns crates cx n then [] else headers.get_all n :=
  MultiMap.get_all_without headers _ n

theorem get_all_bare_owned {g : Gateway} (headers : HeaderMap) (hn : g.owns crates cx n) :
    (g.bare crates cx headers).get_all n = [] := by
  rw [get_all_bare, if_pos hn]

theorem alike_bare (g : Gateway) (headers : HeaderMap) :
    g.Alike crates cx headers (g.bare crates cx headers) := by
  intro n hn
  rw [get_all_bare, if_neg hn]

/-- A request of owned fields only is like one without any. -/
theorem alike_nil {g : Gateway} {headers : HeaderMap}
    (h : ∀ n ∈ headers.keys, g.owns crates cx n) : g.Alike crates cx headers ⟨[]⟩ :=
  fun n hn => MultiMap.get_all_eq_nil_of_not_mem fun hkey => hn (h n hkey)

/-- Under the owned names the policy puts the gateway's own values just if nothing was read. -/
theorem own_values_iff_unread (hr : cfg.resolve crates = .ok r) (client_key_id : Option Str) :
    (∀ n, (Gateway.of_listener r serves_machine).owns crates cx n →
      (Gateway.of_listener r serves_machine).puts crates cx client_key_id headers n
        = (Gateway.of_listener r serves_machine).own_value crates cx client_key_id headers n)
    ↔ (Gateway.of_listener r serves_machine).Unread crates cx headers := by
  have htraced := @isSome_traceparent (Gateway.of_listener r serves_machine) cx.draws headers
  obtain ⟨hchain, haddress⟩ :=
    @isSome_forwarded (Gateway.of_listener r serves_machine) crates cx.peer headers
  have hbare : ∀ {n}, (Gateway.of_listener r serves_machine).owns crates cx n →
      ((Gateway.of_listener r serves_machine).bare crates cx headers).get_all n = [] :=
    fun hn => get_all_bare_owned headers hn
  constructor
  · intro hsame
    refine ⟨fun hn => ?_, fun hn => ?_, fun hn => ?_, fun hn => ?_⟩
    · have hvalue := hsame COOKIE hn
      rwa [Gateway.own_value, value_cookie hr, value_cookie hr, cookie_rest_of_nil (hbare hn),
        Option.none_or, or_eq_iff] at hvalue
    · have hvalue := hsame TRACEPARENT hn
      rwa [Gateway.own_value, value_trace hr, value_trace hr, traceparent_of_nil (hbare hn),
        described_or_eq_iff, or_eq_or_iff (htraced _)] at hvalue
    · have hvalue := hsame X_FORWARDED_FOR hn
      rwa [Gateway.own_value, value_chain hr, value_chain hr, forwarded_of_nil (hbare hn),
        described_or_eq_iff, or_eq_or_iff hchain] at hvalue
    · have hvalue := hsame X_REAL_IP (.inr (.inr (.inr (.inl rfl))))
      rwa [Gateway.own_value, value_address hr, value_address hr, forwarded_of_nil (hbare hn),
        described_or_eq_iff, or_eq_or_iff haddress] at hvalue
  · intro hunread n hn
    rw [Gateway.own_value]
    by_cases hother : n ∉ [COOKIE, TRACEPARENT, X_REAL_IP, X_FORWARDED_FOR]
    · exact value_other client_key_id headers _ hother
    · simp only [List.mem_cons, List.not_mem_nil, or_false, not_not] at hother
      obtain rfl | rfl | rfl | rfl := hother
      · rw [value_cookie hr, value_cookie hr, cookie_rest_of_nil (hbare hn), Option.none_or,
          or_eq_iff]
        exact hunread.cookie hn
      · rw [value_trace hr, value_trace hr, traceparent_of_nil (hbare hn), described_or_eq_iff,
          or_eq_or_iff (htraced _)]
        exact hunread.trace hn
      · rw [value_address hr, value_address hr, described_or_eq_iff]
        intro hdescribed
        -- The address is read off the chain, which need not be owned.
        by_cases hxff : (Gateway.of_listener r serves_machine).owns crates cx X_FORWARDED_FOR
        · rw [forwarded_of_nil (hbare hxff), hunread.address hxff hdescribed]
        · rw [forwarded_congr (alike_bare _ headers X_FORWARDED_FOR hxff)]
      · rw [value_chain hr, value_chain hr, forwarded_of_nil (hbare hn), described_or_eq_iff,
          or_eq_or_iff hchain]
        exact hunread.chain hn

/-- Requests that are alike are the same without the owned fields. -/
theorem own_value_congr {g : Gateway} (halike : g.Alike crates cx headers headers')
    (client_key_id : Option Str) (n : Str) :
    g.own_value crates cx client_key_id headers n
      = g.own_value crates cx client_key_id headers' n := by
  have hsame : (g.bare crates cx headers).Same (g.bare crates cx headers') := by
    intro name
    rw [get_all_bare, get_all_bare]
    split
    · rfl
    · rename_i hname
      exact halike name hname
  exact puts_congr (fun _ => hsame COOKIE) (fun _ => hsame TRACEPARENT)
    (fun _ => hsame X_FORWARDED_FOR) client_key_id

/-- An owned header is sent once with the gateway's own value, or not at all, just if the policy
puts that value. -/
theorem once_iff (hr : cfg.resolve crates = .ok r)
    (h : (Gateway.of_listener r serves_machine).forward crates cx headers = .ok out)
    {client_key_id : Option Str}
    (hkey : (Gateway.of_listener r serves_machine).client_key_id crates cx headers
      = .ok client_key_id)
    (hn : (Gateway.of_listener r serves_machine).owns crates cx n) :
    (Gateway.of_listener r serves_machine).Once crates cx headers out n
      ↔ (Gateway.of_listener r serves_machine).puts crates cx client_key_id headers n
        = (Gateway.of_listener r serves_machine).own_value crates cx client_key_id headers n := by
  obtain ⟨key, hkey', hcarried⟩ := carried_of_forward h
  rw [hkey] at hkey'
  cases hkey'
  have hcarried := hcarried n
  have hnone :
      (Gateway.of_listener r serves_machine).puts crates cx client_key_id headers n = none →
      (Gateway.of_listener r serves_machine).own_value crates cx client_key_id headers n = none :=
    puts_eq_none fun hname => get_all_bare_owned headers (hname ▸ hn)
  rw [Gateway.puts] at hnone ⊢
  cases hf : (((Gateway.of_listener r serves_machine).policy crates cx client_key_id
      headers).fate n).map Prod.snd with
  | kept =>
    exact absurd (handles_of_owns hr hn) (fate_eq_kept.mp hf)
  | dropped =>
    rw [hf] at hnone
    exact iff_of_true (.inl (hcarried.dropped hf)) (hnone rfl).symm
  | put v =>
    obtain ⟨value, hvalue, hall⟩ := hcarried.put v hf
    rw [Gateway.Once, hall, hkey, Fate.value_put]
    constructor
    · rintro (hempty | ⟨key, v', value', hkey', hown, hvalue', hsent⟩)
      · cases hempty
      · cases hkey'
        cases hsent
        rw [hown, insertable_inj hvalue hvalue']
    · exact fun hown => .inr ⟨client_key_id, v, value, rfl, hown.symm, hvalue, rfl⟩

/-- A caller that cannot be described is refused. -/
theorem forward_of_apply_error {g : Gateway} {identity : Identity} {e : IdentityError}
    (hidentity : cx.identity = some identity)
    (h : apply crates.toCodecs cx.draws.now (g.undescribed_plan crates cx headers)
      g.cfg.raw.identity g.cfg.identity_secret identity = .error e) :
    g.forward crates cx headers ≠ .ok out := by
  intro hout
  obtain ⟨plan, hplan, -⟩ := bind_eq_ok.mp hout
  unfold Gateway.header_plan at hplan
  obtain ⟨key, -, hplan⟩ := bind_eq_ok.mp hplan
  obtain ⟨described, hdescribed, -⟩ := bind_eq_ok.mp hplan
  rw [hidentity, describe, h] at hdescribed
  cases hdescribed

/-- **The client has no say in the headers that the gateway owns**, except through the three
steps that write what they read from the client: the requests that differ in owned headers only
are sent as the same just if those steps agree, and however they differ an owned header is sent
once, with what the gateway put there, or not at all. A caller that cannot be described is not
served. -/
theorem owned_headers_immune (hr : cfg.resolve crates = .ok r) :
    (∀ headers identity e, cx.identity = some identity →
      apply crates.toCodecs cx.draws.now
        ((Gateway.of_listener r serves_machine).undescribed_plan crates cx headers)
        r.raw.identity r.identity_secret identity = .error e →
      ∀ out, (Gateway.of_listener r serves_machine).forward crates cx headers ≠ .ok out)
    ∧ ∀ fields fields' out out',
      (Gateway.of_listener r serves_machine).Alike crates cx (of_fields fields)
        (of_fields fields') →
      (Gateway.of_listener r serves_machine).forward crates cx (of_fields fields) = .ok out →
      (Gateway.of_listener r serves_machine).forward crates cx (of_fields fields') = .ok out' →
      ((out.Same out'
          ∧ ∀ n, (Gateway.of_listener r serves_machine).owns crates cx n →
            (Gateway.of_listener r serves_machine).Once crates cx (of_fields fields) out n
              ∧ (Gateway.of_listener r serves_machine).Once crates cx (of_fields fields') out' n)
        ↔ (Gateway.of_listener r serves_machine).Unread crates cx (of_fields fields)
          ∧ (Gateway.of_listener r serves_machine).Unread crates cx (of_fields fields')) := by
  refine ⟨fun headers identity e hidentity herror out => ?_, ?_⟩
  · refine forward_of_apply_error hidentity (e := e) ?_
    rwa [Gateway.of_listener_cfg]
  · intro fields fields' out out' halike h h'
    obtain ⟨client_key_id, hkey, -⟩ := carried_of_forward h
    have hkey' := (client_key_id_congr hr halike).symm.trans hkey
    have hunread :=
      @own_values_iff_unread _ _ _ serves_machine cx (of_fields fields) hr client_key_id
    have hunread' :=
      @own_values_iff_unread _ _ _ serves_machine cx (of_fields fields') hr client_key_id
    constructor
    · rintro ⟨-, honce⟩
      exact ⟨hunread.mp fun n hn => (once_iff hr h hkey hn).mp (honce n hn).1,
        hunread'.mp fun n hn => (once_iff hr h' hkey' hn).mp (honce n hn).2⟩
    · rintro ⟨hread, hread'⟩
      refine ⟨fun n => ?_, fun n hn => ⟨(once_iff hr h hkey hn).mpr (hunread.mpr hread n hn),
        (once_iff hr h' hkey' hn).mpr (hunread'.mpr hread' n hn)⟩⟩
      obtain ⟨key, hkey'', hsent⟩ := sent_eq_iff hr halike h h'
      rw [hkey] at hkey''
      cases hkey''
      by_cases hn : (Gateway.of_listener r serves_machine).owns crates cx n
      · rw [(hsent n).2 hn, hunread.mpr hread n hn, hunread'.mpr hread' n hn]
        exact own_value_congr halike client_key_id n
      · exact (hsent n).1 hn

end Owned

/-! ## A cookie of the gateway's -/

namespace OwnCookie

/-- A cookie is injected, and the client's session is taken out of its own. -/
def config : GatewayConfig where
  forward := { authorization := false }
  inject := { headers := [("Cookie".toList, "tier=internal".toList)] }
  auth := { jwt := ["https://id".toList], token_cookies := ["session".toList] }

def resolved : ResolvedConfig where
  raw := config
  trusted_proxy_ips := []
  injected_headers := [("cookie".toList, "tier=internal".toList)]
  machine_injected_headers := []
  identity_secret := none
  machine_secret := none
  client_key_header := none
  client_key_forward_as := none
  client_keys := []
  client_key_exempt := []
  client_key_exempt_groups := []

/-- A request of a caller that was verified. -/
def cx : Ctx :=
  { TwoTiers.cx with identity := some ⟨"u1".toList, "https://id".toList, "app".toList, []⟩ }

/-- `root`. -/
def root : HeaderValue := ⟨[0x72, 0x6f, 0x6f, 0x74], rfl⟩

/-- The client says that it is somebody else, under two spellings. -/
def twice_root : List (Str × HeaderValue) :=
  [("X-Auth-Subject".toList, root), ("x-auth-subject".toList, root)]

/-- `tier=root`. -/
def tier_root : HeaderValue := ⟨[0x74, 0x69, 0x65, 0x72, 0x3d, 0x72, 0x6f, 0x6f, 0x74], rfl⟩

/-- What a public backend gets of these fields. -/
def sent (fields : List (Str × HeaderValue)) : HeaderMap :=
  (((Gateway.of_listener resolved false).forward plain_crates cx (of_fields fields)).toOption).getD
    ⟨[]⟩

end OwnCookie

open OwnCookie in
/-- The client may say who it is, twice over. -/
theorem owned_headers_immune_subject :
    (sent twice_root).Same (sent [])
      ∧ ∀ n, (Gateway.of_listener resolved false).owns plain_crates OwnCookie.cx n →
        (Gateway.of_listener resolved false).Once plain_crates OwnCookie.cx (of_fields twice_root)
            (sent twice_root) n
          ∧ (Gateway.of_listener resolved false).Once plain_crates OwnCookie.cx (of_fields [])
            (sent []) n := by
  have hrest : ∀ fields ∈ [twice_root, []],
      (Gateway.of_listener resolved false).cookie_rest (of_fields fields) = none := by
    decide +kernel
  have hpeer : ∀ fields ∈ [twice_root, []],
      (Gateway.of_listener resolved false).forwarded plain_crates OwnCookie.cx.peer
        (of_fields fields) = (OwnCookie.cx.peer, OwnCookie.cx.peer) := by
    decide +kernel
  have htrace : ¬ (Gateway.of_listener resolved false).owns plain_crates OwnCookie.cx
      TRACEPARENT := by
    decide +kernel
  have hread : ∀ fields ∈ [twice_root, []],
      (Gateway.of_listener resolved false).Unread plain_crates OwnCookie.cx
        (of_fields fields) := by
    intro fields hfields
    refine ⟨fun _ rest h => ?_, fun h => absurd h htrace, fun _ _ => ?_, fun _ _ => ?_⟩
    · rw [hrest fields hfields] at h
      cases h
    · rw [hpeer fields hfields]
    · rw [hpeer fields hfields]
  have halike : (Gateway.of_listener resolved false).Alike plain_crates OwnCookie.cx
      (of_fields twice_root) (of_fields []) := by
    refine alike_nil ?_
    decide +kernel
  have hresolve : config.resolve plain_crates = .ok resolved := by decide +kernel
  have hsent : (Gateway.of_listener resolved false).forward plain_crates OwnCookie.cx
      (of_fields twice_root) = .ok (sent twice_root) := by
    decide +kernel
  have hsent' : (Gateway.of_listener resolved false).forward plain_crates OwnCookie.cx
      (of_fields []) = .ok (sent []) := by
    decide +kernel
  exact ((owned_headers_immune hresolve).2 twice_root [] (sent twice_root) (sent []) halike hsent
    hsent').mpr ⟨hread twice_root (by simp), hread [] (by simp)⟩

open OwnCookie in
/-- But a cookie of its own takes the place of the gateway's. -/
theorem cookie_overrides_injected :
    ¬ ∀ (crates : Crates) (cfg : GatewayConfig) (r : ResolvedConfig) (serves_machine : Bool)
        (cx : Ctx) (fields fields' : List (Str × HeaderValue)) (out out' : HeaderMap),
      cfg.resolve crates = .ok r →
      (Gateway.of_listener r serves_machine).Alike crates cx (of_fields fields)
        (of_fields fields') →
      (Gateway.of_listener r serves_machine).forward crates cx (of_fields fields) = .ok out →
      (Gateway.of_listener r serves_machine).forward crates cx (of_fields fields') = .ok out' →
      out.Same out'
        ∧ ∀ n, (Gateway.of_listener r serves_machine).owns crates cx n →
          (Gateway.of_listener r serves_machine).Once crates cx (of_fields fields) out n
            ∧ (Gateway.of_listener r serves_machine).Once crates cx (of_fields fields') out' n := by
  intro h
  have halike : (Gateway.of_listener resolved false).Alike plain_crates OwnCookie.cx
      (of_fields [("Cookie".toList, tier_root)]) (of_fields []) := by
    refine alike_nil ?_
    decide +kernel
  have hsame := (h plain_crates config resolved false OwnCookie.cx
    [("Cookie".toList, tier_root)] [] (sent [("Cookie".toList, tier_root)]) (sent [])
    (by decide +kernel) halike (by decide +kernel) (by decide +kernel)).1 COOKIE
  revert hsame
  decide +kernel

end Lagos.Outbound
