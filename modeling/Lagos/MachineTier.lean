/-
Machine callers (`proxy.rs`): how the internal listener checks the credential of one, and what
becomes of the headers it came in.

The names a credential is read from are configured. The names it is removed under are two that
are written in the code. Under any other name it goes on like every other header, unless some
step of the policy names it or the sweep takes it away; and a step that writes from the
client's fields may write it out again (`machine_credential_stays_iff`).
-/
import Lagos.HeaderReads

set_option autoImplicit false

open RustStd

namespace Lagos.Outbound

open Lagos.Config Lagos.Error Lagos.Headers Lagos.Auth Lagos.Routes

/-! ## The check -/

/-- `DEFAULT_MACHINE_HEADERS`, in `request_filter`. -/
def DEFAULT_MACHINE_HEADERS : List Str := ["x-internal-api-key".toList, "x-api-key".toList]

/-- The names that a machine caller's credential is read from, in `request_filter`. -/
def ResolvedConfig.machine_headers (cfg : ResolvedConfig) : List Str :=
  match cfg.raw.auth.machine with
  | some m => m.headers
  | none => DEFAULT_MACHINE_HEADERS

/-- The credential that a request presents: nothing, where it has none that can be read. -/
def presented_credential (names : List Str) (headers : HeaderMap) : Str :=
  ((names.findSome? (header headers)).bind HeaderValue.to_str).getD []

/-- The check of a route of the machine tier, in `request_filter`. -/
def ResolvedConfig.authenticate_machine (cfg : ResolvedConfig) (headers : HeaderMap) :
    Except Rejection Unit :=
  match cfg.machine_secret with
  | none =>
    .error (.unavailable "Machine authentication is not configured" "no_machine_secret")
  | some expected =>
    if presented_credential cfg.machine_headers headers = expected then .ok ()
    else .error (.not_found "gateway.machine.rejected" "bad_machine_credential")

theorem authenticate_machine_ok {cfg : ResolvedConfig} {headers : HeaderMap} :
    cfg.authenticate_machine headers = .ok ()
      ↔ cfg.machine_secret = some (presented_credential cfg.machine_headers headers) := by
  unfold ResolvedConfig.authenticate_machine
  cases cfg.machine_secret with
  | none => exact iff_of_false nofun nofun
  | some expected =>
    dsimp only
    split
    · rename_i h
      exact iff_of_true rfl (by rw [h])
    · rename_i h
      exact iff_of_false nofun fun hsame => h (Option.some.inj hsame).symm

/-- It is refused where there is no secret, or another one. -/
theorem authenticate_machine_error {cfg : ResolvedConfig} {headers : HeaderMap}
    {rejection : Rejection} (h : cfg.authenticate_machine headers = .error rejection) :
    (cfg.machine_secret = none
        ∧ rejection = .unavailable "Machine authentication is not configured" "no_machine_secret")
      ∨ rejection = .not_found "gateway.machine.rejected" "bad_machine_credential" := by
  unfold ResolvedConfig.authenticate_machine at h
  split at h
  · rename_i hnone
    cases h
    exact .inl ⟨hnone, rfl⟩
  · split at h
    · cases h
    · cases h
      exact .inr rfl

/-- A request for a route of the machine tier that runs no extensions. -/
structure MachineRequest where
  draws : Draws
  route : RouteConfig
  path : Str
  no_extensions : route.extensions = []
  machine : route.auth = .Machine
  headers : HeaderMap
  peer : Option Str
  target : Str

/-- What is settled about it before its headers are planned: a machine is no identity. -/
def MachineRequest.cx (req : MachineRequest) : Ctx where
  draws := req.draws
  route := req.route
  path := req.path
  no_extensions := req.no_extensions
  identity := none
  request_id := (client_request_id req.headers).getD req.draws.uuid
  peer := req.peer
  target := req.target

/-- What the backend is sent of its headers, or why it is refused. -/
def Gateway.serve_machine (g : Gateway) (crates : Crates) (req : MachineRequest) :
    Except Rejection HeaderMap := do
  g.cfg.authenticate_machine req.headers
  g.forward crates req.cx req.headers

/-! ## What becomes of a name -/

/-- The request without its fields of these names. -/
def MachineRequest.without (req : MachineRequest) (names : List Str) : MachineRequest :=
  { req with headers := req.headers.without fun n => n ∈ names.map to_ascii_lowercase }

/-- A name is not sent, or it is sent once, with the value that the gateway puts there for the
request without the fields of these names, or with the backend's authority. -/
def Gateway.Withheld (g : Gateway) (crates : Crates) (req : MachineRequest) (names : List Str)
    (out : HeaderMap) (n : Str) : Prop :=
  out.get_all n = []
    ∨ (∃ v value, g.puts crates (req.without names).cx none (req.without names).headers n = some v
        ∧ insertable crates n v = .ok value ∧ out.get_all n = [value])
    ∨ (g.replaces_host n
        ∧ ∃ value, insertable crates HOST req.target = .ok value ∧ out.get_all n = [value])

/-- The client sends no field of a name, or some step keeps it from passing. -/
def Gateway.Stops (g : Gateway) (headers : HeaderMap) (n : Str) : Prop :=
  headers.get_all n = [] ∨ g.Handles headers n ∨ g.swept n ∨ g.replaces_host n

/-- Nothing is written under a name from the client's fields of these names: it is none of the
five that are, or what is written there is what the gateway would have written without them. -/
structure Gateway.Unrelayed (g : Gateway) (crates : Crates) (req : MachineRequest)
    (names : List Str) (n : Str) : Prop where
  cookie : n = COOKIE → ∀ rest, g.cookie_rest req.headers = some rest →
    g.injects COOKIE = some rest
  request_id : n = X_REQUEST_ID → ∀ id, client_request_id req.headers = some id →
    id = req.draws.uuid
  trace : n = TRACEPARENT →
    g.traceparent req.draws req.headers = g.traceparent req.draws ⟨[]⟩
  address : n = X_REAL_IP → X_FORWARDED_FOR ∈ names.map to_ascii_lowercase →
    (g.forwarded crates req.peer req.headers).2 = req.peer
  chain : n = X_FORWARDED_FOR → (g.forwarded crates req.peer req.headers).1 = req.peer

section Machine

variable {crates : Crates} {r : ResolvedConfig} {req : MachineRequest} {names : List Str}
  {n : Str} {out : HeaderMap}

theorem get_all_without_names (req : MachineRequest) (names : List Str) (n : Str) :
    (req.without names).headers.get_all n
      = if n ∈ names.map to_ascii_lowercase then [] else req.headers.get_all n :=
  MultiMap.get_all_without req.headers _ n

theorem without_nil (hn : n ∈ names.map to_ascii_lowercase) :
    (req.without names).headers.get_all n = [] := by
  rw [get_all_without_names, if_pos hn]

/-- For a machine, what is put is what five steps put. -/
theorem puts_machine (g : Gateway) (hs : g.serves_machine = true) (req : MachineRequest) (n : Str) :
    g.puts crates req.cx none req.headers n
      = (if n = COOKIE then g.cookie_rest req.headers else none).or
        ((if n = TRACEPARENT then g.traceparent req.draws req.headers else none).or
        ((if n = X_REQUEST_ID then some req.cx.request_id else none).or
        ((if n = X_REAL_IP then (g.forwarded crates req.peer req.headers).2 else none).or
        ((if n = X_FORWARDED_FOR then (g.forwarded crates req.peer req.headers).1 else none).or
        (g.injects n))))) := by
  have hkey : ((g.client_key_script none).fate n).value = none := by
    rw [Gateway.client_key_script, if_pos hs, Script.fate_nil, Fate.value_kept]
  have hdescribed : g.described crates req.cx n = none := value_drops g.cfg.raw.identity.headers
  rw [puts_eq, hkey, hdescribed, Option.none_or, Option.none_or]
  rfl

/-- The request id is the client's, if it has one. -/
theorem request_id_eq_iff (hn : X_REQUEST_ID ∈ names.map to_ascii_lowercase) :
    req.cx.request_id = (req.without names).cx.request_id
      ↔ ∀ id, client_request_id req.headers = some id → id = req.draws.uuid := by
  have hnone : client_request_id (req.without names).headers = none := by
    rw [client_request_id, header_str, header, MultiMap.get,
      show to_ascii_lowercase X_REQUEST_ID = X_REQUEST_ID from by decide, without_nil hn]
    rfl
  rw [MachineRequest.cx, MachineRequest.cx, hnone]
  cases client_request_id req.headers with
  | none => exact iff_of_true rfl (by simp)
  | some id => exact ⟨fun h _ hid => Option.some.inj hid ▸ h, fun h => h id rfl⟩

theorem puts_cookie (g : Gateway) (hs : g.serves_machine = true) (req : MachineRequest) :
    g.puts crates req.cx none req.headers COOKIE
      = (g.cookie_rest req.headers).or (g.injects COOKIE) := by
  rw [puts_machine g hs, if_pos rfl, if_neg (by decide), if_neg (by decide), if_neg (by decide),
    if_neg (by decide)]
  simp only [Option.none_or]

theorem puts_trace (g : Gateway) (hs : g.serves_machine = true) (req : MachineRequest) :
    g.puts crates req.cx none req.headers TRACEPARENT
      = (g.traceparent req.draws req.headers).or (g.injects TRACEPARENT) := by
  rw [puts_machine g hs, if_neg (by decide), if_pos rfl, if_neg (by decide), if_neg (by decide),
    if_neg (by decide)]
  simp only [Option.none_or]

theorem puts_request_id (g : Gateway) (hs : g.serves_machine = true) (req : MachineRequest) :
    g.puts crates req.cx none req.headers X_REQUEST_ID = some req.cx.request_id := by
  rw [puts_machine g hs, if_neg (by decide), if_neg (by decide), if_pos rfl, if_neg (by decide),
    if_neg (by decide)]
  simp only [Option.none_or, Option.some_or]

theorem puts_address (g : Gateway) (hs : g.serves_machine = true) (req : MachineRequest) :
    g.puts crates req.cx none req.headers X_REAL_IP
      = (g.forwarded crates req.peer req.headers).2.or (g.injects X_REAL_IP) := by
  rw [puts_machine g hs, if_neg (by decide), if_neg (by decide), if_neg (by decide), if_pos rfl,
    if_neg (by decide)]
  simp only [Option.none_or]

theorem puts_chain (g : Gateway) (hs : g.serves_machine = true) (req : MachineRequest) :
    g.puts crates req.cx none req.headers X_FORWARDED_FOR
      = (g.forwarded crates req.peer req.headers).1.or (g.injects X_FORWARDED_FOR) := by
  rw [puts_machine g hs, if_neg (by decide), if_neg (by decide), if_neg (by decide),
    if_neg (by decide), if_pos rfl]
  simp only [Option.none_or]

/-- Under every other name nothing is written from the client's fields. -/
theorem puts_without {g : Gateway} (hs : g.serves_machine = true)
    (hn : n ∉ [COOKIE, X_REQUEST_ID, TRACEPARENT, X_REAL_IP, X_FORWARDED_FOR]) :
    g.puts crates req.cx none req.headers n
      = g.puts crates (req.without names).cx none (req.without names).headers n := by
  simp only [List.mem_cons, List.not_mem_nil, or_false, not_or] at hn
  obtain ⟨hcookie, hid, htrace, hreal, hxff⟩ := hn
  rw [puts_machine g hs, puts_machine g hs]
  simp only [if_neg hcookie, if_neg hid, if_neg htrace, if_neg hreal, if_neg hxff]

theorem unrelayed_of_not_mem {g : Gateway}
    (hn : n ∉ [COOKIE, X_REQUEST_ID, TRACEPARENT, X_REAL_IP, X_FORWARDED_FOR]) :
    g.Unrelayed crates req names n := by
  simp only [List.mem_cons, List.not_mem_nil, or_false, not_or] at hn
  exact ⟨fun h => absurd h hn.1, fun h => absurd h hn.2.1, fun h => absurd h hn.2.2.1,
    fun h => absurd h hn.2.2.2.1, fun h => absurd h hn.2.2.2.2⟩

/-- The same is put with and without the fields just if nothing is written from them. -/
theorem puts_without_iff {g : Gateway} (hs : g.serves_machine = true)
    (hn : n ∈ names.map to_ascii_lowercase) :
    g.puts crates req.cx none req.headers n
        = g.puts crates (req.without names).cx none (req.without names).headers n
      ↔ g.Unrelayed crates req names n := by
  have htraced := @isSome_traceparent g req.draws req.headers ⟨[]⟩
  have hpeer := @isSome_forwarded g crates req.peer req.headers
  by_cases hread : n ∈ [COOKIE, X_REQUEST_ID, TRACEPARENT, X_REAL_IP, X_FORWARDED_FOR]
  · simp only [List.mem_cons, List.not_mem_nil, or_false] at hread
    have hgone := @without_nil req _ _ hn
    obtain rfl | rfl | rfl | rfl | rfl := hread
    · rw [puts_cookie g hs, puts_cookie g hs, cookie_rest_of_nil hgone, Option.none_or, or_eq_iff]
      refine ⟨fun h => ⟨fun _ => h, ?_, ?_, ?_, ?_⟩, fun h => h.cookie rfl⟩ <;>
        exact fun hname => absurd hname (by decide)
    · rw [puts_request_id g hs, puts_request_id g hs, Option.some.injEq, request_id_eq_iff hn]
      refine ⟨fun h => ⟨?_, fun _ => h, ?_, ?_, ?_⟩, fun h => h.request_id rfl⟩ <;>
        exact fun hname => absurd hname (by decide)
    · have hfresh : g.traceparent req.draws (req.without names).headers
          = g.traceparent req.draws ⟨[]⟩ := traceparent_of_nil hgone
      rw [puts_trace g hs, puts_trace g hs, show (req.without names).draws = req.draws from rfl,
        hfresh, or_eq_or_iff htraced]
      refine ⟨fun h => ⟨?_, ?_, fun _ => h, ?_, ?_⟩, fun h => h.trace rfl⟩ <;>
        exact fun hname => absurd hname (by decide)
    · rw [puts_address g hs, puts_address g hs, show (req.without names).peer = req.peer from rfl]
      -- The address is read off the chain, which need not be one of the names.
      by_cases hxff : X_FORWARDED_FOR ∈ names.map to_ascii_lowercase
      · rw [forwarded_of_nil (without_nil hxff), show (req.peer, req.peer).2 = req.peer from rfl,
          or_eq_or_iff hpeer.2]
        refine ⟨fun h => ⟨?_, ?_, ?_, fun _ _ => h, ?_⟩, fun h => h.address rfl hxff⟩ <;>
          exact fun hname => absurd hname (by decide)
      · have hkept : (req.without names).headers.get_all X_FORWARDED_FOR
            = req.headers.get_all X_FORWARDED_FOR := by rw [get_all_without_names, if_neg hxff]
        rw [forwarded_congr hkept]
        refine iff_of_true rfl ⟨?_, ?_, ?_, fun _ h => absurd h hxff, ?_⟩ <;>
          exact fun hname => absurd hname (by decide)
    · rw [puts_chain g hs, puts_chain g hs, show (req.without names).peer = req.peer from rfl,
        forwarded_of_nil hgone, show (req.peer, req.peer).1 = req.peer from rfl,
        or_eq_or_iff hpeer.1]
      refine ⟨fun h => ⟨?_, ?_, ?_, ?_, fun _ => h⟩, fun h => h.chain rfl⟩ <;>
        exact fun hname => absurd hname (by decide)
  · exact iff_of_true (puts_without hs hread) (unrelayed_of_not_mem hread)

/-- What a name has upstream, case by case of what the policy does to it. -/
theorem withheld_iff {g : Gateway} (hs : g.serves_machine = true)
    (h : g.forward crates req.cx req.headers = .ok out) (hn : n ∈ names.map to_ascii_lowercase) :
    g.Withheld crates req names out n ↔ g.Stops req.headers n ∧ g.Unrelayed crates req names n := by
  obtain ⟨client_key_id, hkey, hcarried⟩ := carried_of_forward h
  have hnokey : g.client_key_id crates req.cx req.headers = .ok none :=
    if_neg fun h => absurd (hs.symm.trans h.1) (by decide)
  rw [hnokey] at hkey
  cases hkey
  have hcarried := hcarried n
  have hcx : { req.cx with request_id := (req.without names).cx.request_id }
      = (req.without names).cx := rfl
  have hnone : g.puts crates req.cx none req.headers n = none →
      g.puts crates (req.without names).cx none (req.without names).headers n = none := by
    rw [← hcx]
    exact puts_eq_none fun hname => without_nil (hname ▸ hn)
  rw [← puts_without_iff hs hn]
  generalize hown : g.puts crates (req.without names).cx none (req.without names).headers n = own
    at hnone ⊢
  cases hf : ((g.policy crates req.cx none req.headers).fate n).map Prod.snd with
  | kept =>
    have hput : g.puts crates req.cx none req.headers n = none := by rw [Gateway.puts, hf]; rfl
    have hhandles : ¬ g.Handles req.headers n := fate_eq_kept.mp hf
    rw [Gateway.Withheld, hown, hput, hnone hput, and_iff_left rfl]
    constructor
    · rintro (hnil | ⟨v, value, hv, -⟩ | ⟨hhost, -⟩)
      · by_cases hsw : g.swept n
        · exact .inr (.inr (.inl hsw))
        · by_cases hhost : g.replaces_host n
          · exact .inr (.inr (.inr hhost))
          · exact .inl ((hcarried.kept hf hsw hhost).symm.trans hnil)
      · cases hv
      · exact .inr (.inr (.inr hhost))
    · intro hstops
      by_cases hsw : g.swept n
      · exact .inl (hcarried.swept hf hsw)
      · by_cases hhost : g.replaces_host n
        · exact .inr (.inr ⟨hhost, hcarried.host hf hsw hhost⟩)
        · obtain hnil | hhandled | hswept | hreplaced := hstops
          · exact .inl ((hcarried.kept hf hsw hhost).trans hnil)
          · exact absurd hhandled hhandles
          · exact absurd hswept hsw
          · exact absurd hreplaced hhost
  | dropped =>
    have hput : g.puts crates req.cx none req.headers n = none := by rw [Gateway.puts, hf]; rfl
    have hhandles : g.Handles req.headers n := handles_of_ne_kept (hf.trans_ne (by simp))
    rw [hput, hnone hput]
    exact iff_of_true (.inl (hcarried.dropped hf)) ⟨.inr (.inl hhandles), rfl⟩
  | put v =>
    have hput : g.puts crates req.cx none req.headers n = some v := by rw [Gateway.puts, hf]; rfl
    have hhandles : g.Handles req.headers n := handles_of_ne_kept (hf.trans_ne (by simp))
    obtain ⟨value, hvalue, hall⟩ := hcarried.put v hf
    rw [Gateway.Withheld, hown, hput, hall]
    constructor
    · rintro (hnil | ⟨v', value', hv', hvalue', hsent⟩ | ⟨hhost, hvalue'⟩)
      · cases hnil
      · cases hsent
        rw [hv', insertable_inj hvalue hvalue']
        exact ⟨.inr (.inl hhandles), rfl⟩
      · -- `Host` is none of the names that are written from the client's fields.
        have hsame := @puts_without crates req names n _ hs (by rw [hhost.1]; decide)
        rw [hput, hown] at hsame
        exact ⟨.inr (.inl hhandles), hsame⟩
    · rintro ⟨-, hsame⟩
      exact .inr (.inl ⟨v, value, hsame.symm, hvalue, rfl⟩)

/-- **The machine credential is withheld where its name is stopped**: none of the headers it is
read from reaches the backend as the client sent it, just if each of them is stopped and none of
them is written from what the client sent. -/
theorem machine_credential_withheld_iff
    (h : (Gateway.of_listener r true).serve_machine crates req = .ok out) :
    (∀ m ∈ r.machine_headers, (Gateway.of_listener r true).Withheld crates req r.machine_headers out
        (to_ascii_lowercase m))
      ↔ ∀ m ∈ r.machine_headers,
        (Gateway.of_listener r true).Stops req.headers (to_ascii_lowercase m)
          ∧ (Gateway.of_listener r true).Unrelayed crates req r.machine_headers
            (to_ascii_lowercase m) := by
  obtain ⟨-, -, h⟩ := bind_eq_ok.mp h
  exact forall₂_congr fun m hm =>
    withheld_iff (Gateway.of_listener_serves r true) h (List.mem_map_of_mem hm)

end Machine

/-! ## Two machine callers -/

namespace MachineToken

/-- A configuration that reads the credential from these headers. -/
def config (names : List Str) : GatewayConfig where
  forward := { mode := .Passthrough }
  auth := { machine := some { headers := names, secret := "s3cret".toList } }

def resolved (names : List Str) : ResolvedConfig where
  raw := config names
  trusted_proxy_ips := []
  injected_headers := []
  machine_injected_headers := []
  identity_secret := none
  machine_secret := some "s3cret".toList
  client_key_header := none
  client_key_forward_as := none
  client_keys := []
  client_key_exempt := []
  client_key_exempt_groups := []

/-- `s3cret`. -/
def s3cret : HeaderValue := ⟨[0x73, 0x33, 0x63, 0x72, 0x65, 0x74], rfl⟩

/-- A machine caller that has its credential under this name. -/
def request (name : Str) : MachineRequest where
  draws := ⟨"0b5c".toList, [], [], 0, fun _ => false⟩
  route := { RouteConfig.of_input { path_prefix := "jobs".toList, upstream := "jobs".toList } with
    auth := .Machine }
  path := "jobs".toList
  no_extensions := rfl
  machine := rfl
  headers := of_fields [(name, s3cret)]
  peer := some "10.0.0.7".toList
  target := "jobs:3000".toList

/-- What its backend is sent. -/
def sent (names : List Str) (name : Str) : HeaderMap :=
  (((Gateway.of_listener (resolved names) true).serve_machine plain_crates
    (request name)).toOption).getD ⟨[]⟩

end MachineToken

open MachineToken in
/-- Under the names that come without saying it stays. -/
theorem machine_credential_withheld_default :
    (Gateway.of_listener (resolved DEFAULT_MACHINE_HEADERS) true).Withheld plain_crates
      (request "x-api-key".toList) (resolved DEFAULT_MACHINE_HEADERS).machine_headers
      (sent DEFAULT_MACHINE_HEADERS "x-api-key".toList)
      (to_ascii_lowercase "x-api-key".toList) := by
  have hserved : (Gateway.of_listener (resolved DEFAULT_MACHINE_HEADERS) true).serve_machine
      plain_crates (request "x-api-key".toList)
        = .ok (sent DEFAULT_MACHINE_HEADERS "x-api-key".toList) := by
    decide +kernel
  refine (machine_credential_withheld_iff hserved).mpr (fun m hm => ⟨.inr (.inl ?_), ?_⟩)
    "x-api-key".toList (by decide)
  · have hmachine : ∀ m ∈ DEFAULT_MACHINE_HEADERS, to_ascii_lowercase m ∈ machine_names := by decide
    exact .machine (Gateway.of_listener_serves _ true) (hmachine m hm)
  · have hother : ∀ m ∈ DEFAULT_MACHINE_HEADERS, to_ascii_lowercase m
        ∉ [COOKIE, X_REQUEST_ID, TRACEPARENT, X_REAL_IP, X_FORWARDED_FOR] := by decide
    exact unrelayed_of_not_mem (hother m hm)

open MachineToken in
/-- Under a name of the operator's choice it is sent to the backend. -/
theorem machine_credential_travels :
    ¬ ∀ (crates : Crates) (cfg : GatewayConfig) (r : ResolvedConfig) (req : MachineRequest)
        (out : HeaderMap), cfg.resolve crates = .ok r →
      (Gateway.of_listener r true).serve_machine crates req = .ok out →
      ∀ m ∈ r.machine_headers, (Gateway.of_listener r true).Withheld crates req r.machine_headers
        out (to_ascii_lowercase m) := by
  intro h
  have hsent : (sent ["x-machine-token".toList] "x-machine-token".toList).get_all
      "x-machine-token".toList = [s3cret] := by decide +kernel
  have hlower : to_ascii_lowercase "x-machine-token".toList = "x-machine-token".toList := by decide
  have hputs : (Gateway.of_listener (resolved ["x-machine-token".toList]) true).puts plain_crates
      ((request "x-machine-token".toList).without ["x-machine-token".toList]).cx none
      ((request "x-machine-token".toList).without ["x-machine-token".toList]).headers
      "x-machine-token".toList = none := by decide +kernel
  obtain hnil | ⟨v, value, hv, -⟩ | ⟨⟨hhost, -⟩, -⟩ := h plain_crates
    (config ["x-machine-token".toList]) (resolved ["x-machine-token".toList])
    (request "x-machine-token".toList)
    (sent ["x-machine-token".toList] "x-machine-token".toList) (by decide +kernel)
    (by decide +kernel) "x-machine-token".toList List.mem_cons_self
  · rw [hlower, hsent] at hnil
    cases hnil
  · rw [hlower] at hv
    cases hputs.symm.trans hv
  · revert hhost
    decide

end Lagos.Outbound
