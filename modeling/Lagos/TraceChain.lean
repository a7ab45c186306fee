/-
A trace through a row of gateways (`request_filter` and `logging` in `proxy.rs`, `trace.rs`,
`otel.rs`).

What one gateway sends is what the next one receives. A gateway that traces continues what it
reads and names itself as the parent; one that does not relays the header. However many of either
kind there are, those that trace form one chain: every span is the child of the one before, all
have the trace id of the first and its decision whether to sample, and the spans exported are those
that the headers name (`trace_chain`).

A configuration may describe the caller under `traceparent`, and an untraced gateway may inject it
or keep it back. There the chain ends, and such gateways are left out.
-/
import Lagos.OwnedHeaders
import Lagos.SpanExport
import Lagos.TokenCookies
import Mathlib.Data.List.Chain
import Mathlib.Data.List.Forall2

set_option autoImplicit false

open RustStd HexText

namespace Lagos.Outbound

open Lagos.Config Lagos.Error Lagos.Headers Lagos.Auth Lagos.Routes Lagos.Trace Lagos.Otel

/-! ## Random ids -/

/-- `Uuid::new_v4`: sixteen bytes, of which one tells the version. -/
structure Uuid where
  bytes : List UInt8
  length : bytes.length = 16
  version : ∃ b, bytes[6]? = some b ∧ b &&& 0xf0 = 0x40

/-- `random_trace_id`. -/
def random_trace_id (uuid : Uuid) : List UInt8 := uuid.bytes

/-- `random_span_id`. -/
def random_span_id (uuid : Uuid) : List UInt8 := uuid.bytes.take 8

/-! ## One gateway -/

/-- `TraceContext::sampled`. -/
def sampled (cx : TraceContext) : Bool := cx.flags &&& FLAG_SAMPLED != 0

/-- `ctx.trace`, as `request_filter` leaves it. -/
def Gateway.trace (g : Gateway) (draws : Draws) (headers : HeaderMap) : Option TraceContext :=
  g.sample_ratio.map fun ratio =>
    TraceContext.continue_from (header_str headers TRACEPARENT) (draws.sample ratio)
      draws.trace_id draws.span_id

/-- What else `logging` knows of a request. Times are counted from one origin. -/
structure Finished where
  method : Str
  route_id : Str
  upstream_name : Str
  path : Str
  status : ℕ
  attempts : ℕ
  elapsed : Option ℕ
  now : ℕ
  deriving DecidableEq, Repr

/-- The span that `logging` records. -/
def Finished.finished_span (s : Finished) (trace : Option TraceContext) : Option FinishedSpan :=
  (trace.filter sampled).map fun trace =>
    { trace := trace
      name := if s.route_id.isEmpty then s.method else s.method ++ ' ' :: s.route_id
      route := s.route_id
      upstream := s.upstream_name
      method := s.method
      path := '/' :: s.path
      status := s.status
      retries := s.attempts
      start := if s.elapsed.getD 0 ≤ s.now then s.now - s.elapsed.getD 0 else s.now
      «end» := s.now }

/-- A gateway on the way of a request, which does not describe the caller under `traceparent`. -/
structure Hop (crates : Crates) where
  cfg : GatewayConfig
  resolved : ResolvedConfig
  resolve_eq : cfg.resolve crates = .ok resolved
  serves_machine : Bool
  undescribed : TRACEPARENT ∉ resolved.raw.identity.headers
  cx : Ctx
  trace_uuid : Uuid
  span_uuid : Uuid
  trace_id_eq : cx.draws.trace_id = random_trace_id trace_uuid
  span_id_eq : cx.draws.span_id = random_span_id span_uuid
  served : Finished
  service_name : Str

namespace Hop

variable {crates : Crates}

def gateway (hop : Hop crates) : Gateway := Gateway.of_listener hop.resolved hop.serves_machine

def trace (hop : Hop crates) (headers : HeaderMap) : Option TraceContext :=
  hop.gateway.trace hop.cx.draws headers

/-- The span that is exported. -/
def span (hop : Hop crates) (headers : HeaderMap) : Option SpanData :=
  (hop.served.finished_span (hop.trace headers)).map (to_span_data hop.service_name)

/-- A gateway that does not trace leaves the header as it is. -/
structure Relays (hop : Hop crates) : Prop where
  uninjected : TRACEPARENT ∉ (lower_pairs hop.gateway.injected).map Prod.fst
  unswept : ¬ hop.gateway.swept TRACEPARENT

end Hop

/-! ## A row of them -/

/-- What comes of a request that passes some gateways: their contexts, their spans, and what the
last one sends. -/
structure Journey where
  traces : List TraceContext
  spans : List SpanData
  sent : HeaderMap
  deriving DecidableEq

/-- A request passes the gateways in their order, unless one refuses it. -/
def travel {crates : Crates} : List (Hop crates) → HeaderMap → Except Rejection Journey
  | [], headers => .ok ⟨[], [], headers⟩
  | hop :: hops, headers => do
    let sent ← hop.gateway.forward crates hop.cx headers
    let rest ← travel hops sent
    return {
      traces := (hop.trace headers).toList ++ rest.traces
      spans := (hop.span headers).toList ++ rest.spans
      sent := rest.sent }

/-- One context continues another. -/
structure Continues (a b : TraceContext) : Prop where
  trace_id : b.trace_id = a.trace_id
  flags : b.flags = a.flags
  parent : b.parent_span_id = some a.span_id

/-- A context continues the header that a client sent, or starts a trace where it sent none that
can be read. -/
def Starts (incoming : Option Str) (cx : TraceContext) : Prop :=
  match incoming.bind parse_traceparent with
  | some (trace_id, parent_id, flags) =>
    cx.trace_id = trace_id ∧ cx.parent_span_id = some parent_id ∧ cx.flags = flags
  | none => cx.parent_span_id = none

/-- A span is exported under the ids of its context. -/
structure Exports (d : SpanData) (cx : TraceContext) : Prop where
  trace_id : d.trace_id = cx.trace_id
  span_id : d.span_id = cx.span_id
  flags : d.flags = cx.flags
  parent : d.parent_span_id = cx.parent_span_id.getD INVALID
  remote : d.parent_span_is_remote = cx.parent_span_id.isSome

/-- A backend is sent the header of a context, once. -/
def NamedTo (headers : HeaderMap) (cx : TraceContext) : Prop :=
  ∃ value, headers.get_all TRACEPARENT = [value] ∧ value.to_str = some cx.to_header

/-- The gateways that trace form a chain. The last of them is named to the backend, and all export
their spans or none does, as the first decides. -/
structure Journey.Chained (j : Journey) (headers : HeaderMap) : Prop where
  chain : j.traces.IsChain Continues
  starts : ∀ cx ∈ j.traces.head?, Starts (header_str headers TRACEPARENT) cx
  names : ∀ cx ∈ j.traces.getLast?, NamedTo j.sent cx
  untraced : j.traces = [] → j.sent.get_all TRACEPARENT = headers.get_all TRACEPARENT
  spans : List.Forall₂ Exports j.spans (if j.traces.head?.any sampled then j.traces else [])

/-! ## What is written is read -/

/-- A context that names a span. -/
structure Proper (cx : TraceContext) : Prop where
  trace_length : cx.trace_id.length = 16
  span_length : cx.span_id.length = 8
  trace_nonzero : ∃ b ∈ cx.trace_id, b ≠ 0
  span_nonzero : ∃ b ∈ cx.span_id, b ≠ 0

section Contexts

variable {cx : TraceContext} {incoming : Option Str} {choice : Bool} {trace_uuid span_uuid : Uuid}

/-- The byte of the version is among the first eight, and not zero. -/
theorem Uuid.version_mem (uuid : Uuid) : ∃ b ∈ uuid.bytes.take 8, b ≠ 0 := by
  obtain ⟨b, hb, hversion⟩ := uuid.version
  refine ⟨b, ?_, ?_⟩
  · exact List.mem_of_getElem? (i := 6) (by rw [List.getElem?_take_of_lt (by decide)]; exact hb)
  · rintro rfl
    revert hversion
    decide

theorem proper_continue_from :
    Proper (.continue_from incoming choice (random_trace_id trace_uuid)
      (random_span_id span_uuid)) := by
  have hspan : (random_span_id span_uuid).length = 8 := by
    rw [random_span_id, List.length_take, span_uuid.length]
    rfl
  obtain ⟨b, hb, hb0⟩ := trace_uuid.version_mem
  unfold TraceContext.continue_from
  split
  · rename_i trace_id parent_id flags hread
    obtain ⟨raw, -, hparse⟩ := Option.bind_eq_some_iff.mp hread
    obtain ⟨version, htraceparent, -⟩ := parse_traceparent_eq_some.mp hparse
    exact ⟨htraceparent.lengths.1, hspan, htraceparent.nonzero.1, span_uuid.version_mem⟩
  · exact ⟨trace_uuid.length, hspan, ⟨b, List.mem_of_mem_take hb, hb0⟩, span_uuid.version_mem⟩

theorem starts_continue_from {trace_id span_id : List UInt8} :
    Starts incoming (.continue_from incoming choice trace_id span_id) := by
  unfold Starts TraceContext.continue_from
  cases incoming.bind parse_traceparent with
  | none => rfl
  | some ids => exact ⟨rfl, rfl, rfl⟩

/-- A context is read back from its header. -/
theorem parse_to_header (h : Proper cx) :
    parse_traceparent cx.to_header = some (cx.trace_id, cx.span_id, cx.flags) := by
  refine parse_traceparent_eq_some.mpr ⟨"00".toList, ?_, by decide⟩
  rw [trim_to_header]
  exact to_header_traceparent cx h.trace_length h.span_length h.trace_nonzero h.span_nonzero

/-- So what starts from it continues it. -/
theorem continues_of_starts {next : TraceContext} (h : Proper cx)
    (hnext : Starts (some cx.to_header) next) : Continues cx next := by
  unfold Starts at hnext
  rw [Option.bind_some, parse_to_header h] at hnext
  exact ⟨hnext.1, hnext.2.2, hnext.2.1⟩

/-- A header of digits and separators can be sent. -/
theorem visible_to_header : cx.to_header.all visible = true := by
  rw [List.all_eq_true, to_header_eq_join]
  intro c hc
  obtain hc | ⟨field, hfield, hc⟩ := mem_intercalate hc
  · obtain rfl := List.mem_singleton.mp hc
    decide
  · have hspelled : ∃ bytes, Spells field bytes := by
      simp only [List.mem_cons, List.not_mem_nil, or_false] at hfield
      rcases hfield with rfl | rfl | rfl | rfl
      · exact ⟨_, spells_zero⟩
      · exact ⟨_, spells_write cx.trace_id⟩
      · exact ⟨_, spells_write cx.span_id⟩
      · exact ⟨_, spells_byte cx.flags⟩
    obtain ⟨bytes, hbytes⟩ := hspelled
    obtain ⟨n, hdigit⟩ := hbytes.digits c hc
    exact hdigit.induction (P := fun c _ => visible c = true) (by decide +kernel)

end Contexts

/-! ## What one gateway sends -/

section Hops

variable {crates : Crates} {hop : Hop crates} {headers sent : HeaderMap} {cx : TraceContext}

theorem lowercase_traceparent : to_ascii_lowercase TRACEPARENT = TRACEPARENT := by decide

theorem header_str_of_named (h : NamedTo headers cx) :
    header_str headers TRACEPARENT = some cx.to_header := by
  obtain ⟨value, hall, hread⟩ := h
  rw [header_str, header, MultiMap.get, lowercase_traceparent, hall]
  exact hread

theorem Hop.proper (h : hop.trace headers = some cx) : Proper cx := by
  obtain ⟨ratio, -, rfl⟩ := Option.map_eq_some_iff.mp h
  rw [hop.trace_id_eq, hop.span_id_eq]
  exact proper_continue_from

theorem Hop.starts (h : hop.trace headers = some cx) :
    Starts (header_str headers TRACEPARENT) cx := by
  obtain ⟨ratio, -, rfl⟩ := Option.map_eq_some_iff.mp h
  exact starts_continue_from

theorem Hop.undescribed_name : hop.gateway.described crates hop.cx TRACEPARENT = none := by
  have hidentity : TRACEPARENT ∉ hop.gateway.cfg.raw.identity.headers := by
    rw [Hop.gateway, Gateway.of_listener_cfg]
    exact hop.undescribed
  rw [Gateway.described, fate_description.mpr hidentity, Fate.value_kept]

/-- A gateway that traces names itself, whatever it was sent. -/
theorem Hop.names (h : hop.trace headers = some cx)
    (hsent : hop.gateway.forward crates hop.cx headers = .ok sent) : NamedTo sent cx := by
  obtain ⟨client_key_id, -, hcarried⟩ := carried_of_forward hsent
  have hputs : hop.gateway.puts crates hop.cx client_key_id headers TRACEPARENT
      = some cx.to_header := by
    have htraceparent : hop.gateway.traceparent hop.cx.draws headers
        = (hop.trace headers).map TraceContext.to_header := by
      rw [Hop.trace, Gateway.trace, Option.map_map]
      rfl
    have hvalue := @value_trace _ _ _ hop.serves_machine hop.cx hop.resolve_eq client_key_id headers
    have hnone := hop.undescribed_name
    rw [Hop.gateway] at hnone htraceparent ⊢
    rw [hvalue, hnone, htraceparent, h]
    rfl
  have hfate := Fate.eq_put_iff.mpr hputs
  obtain ⟨value, hvalue, hall⟩ := (hcarried TRACEPARENT).put _ hfate
  obtain ⟨value', hfrom, hread⟩ := from_str_visible (@visible_to_header cx)
  have hsame := from_str_of_insertable hvalue
  rw [hfrom] at hsame
  obtain rfl := Option.some.inj hsame
  exact ⟨value', hall, hread⟩

/-- One that does not trace has no step for the header. -/
theorem Hop.not_handles (hrelays : hop.Relays) (h : hop.trace headers = none) :
    ¬ hop.gateway.Handles headers TRACEPARENT := by
  have hresolved := resolved_of_resolve hop.resolve_eq
  intro handled
  cases handled with
  | hop h => exact absurd h (by decide)
  | injected h => exact hrelays.uninjected h
  | machine hs h => exact absurd h (by decide)
  | forwarded h => exact absurd h (by decide)
  | request_id h => exact absurd h (by decide)
  | trace hs => exact hs (Option.map_eq_none_iff.mp h)
  | identity h =>
    rw [Hop.gateway, Gateway.of_listener_cfg] at h
    exact hop.undescribed h
  | authorization hs h => exact absurd h (by decide)
  | cookies hs h => exact absurd h (by decide)
  | client_key hs h =>
    -- The names that client keys go by are not reserved, and this one is.
    obtain ⟨name, hname, hlower⟩ := List.mem_map.mp h
    rw [Hop.gateway, Gateway.of_listener_cfg, List.mem_append, Option.mem_toList,
      Option.mem_toList] at hname
    have hfree : Free hop.cfg name := by
      obtain hname | hname := hname
      · exact hresolved.client_key_header name hname
      · exact (hresolved.client_key_forward_as name hname).1
    rw [hfree.lower] at hlower
    exact hfree.not_reserved (hlower ▸ by decide)

/-- It sends what it was sent. -/
theorem Hop.relays (hrelays : hop.Relays) (h : hop.trace headers = none)
    (hsent : hop.gateway.forward crates hop.cx headers = .ok sent) :
    sent.get_all TRACEPARENT = headers.get_all TRACEPARENT := by
  obtain ⟨client_key_id, -, hcarried⟩ := carried_of_forward hsent
  exact (hcarried TRACEPARENT).kept (fate_eq_kept.mpr (hop.not_handles hrelays h))
    hrelays.unswept fun hhost => absurd hhost.1 (by decide)

/-- It exports its span if the trace is sampled. -/
theorem Hop.exports (h : hop.trace headers = some cx) :
    List.Forall₂ Exports (hop.span headers).toList (if sampled cx then [cx] else []) := by
  rw [Hop.span, h, Finished.finished_span]
  by_cases hsampled : sampled cx = true
  · rw [Option.filter_some_pos hsampled, if_pos hsampled]
    exact .cons ⟨rfl, rfl, rfl, rfl, rfl⟩ .nil
  · rw [Option.filter_some_neg (Bool.not_eq_true _ ▸ hsampled), if_neg hsampled]
    exact .nil

theorem Hop.exports_none (h : hop.trace headers = none) : hop.span headers = none := by
  rw [Hop.span, h]
  rfl

/-- The decision is kept along the chain. -/
theorem sampled_of_continues {next : TraceContext} (h : Continues cx next) :
    sampled next = sampled cx := by
  rw [sampled, sampled, h.flags]

end Hops

section Journeys

variable {crates : Crates} {hop : Hop crates} {hops : List (Hop crates)} {headers sent : HeaderMap}
  {j : Journey} {cx : TraceContext}

/-- A gateway in front that relays changes nothing. -/
theorem chained_relay (hchained : j.Chained sent)
    (hsame : sent.get_all TRACEPARENT = headers.get_all TRACEPARENT) : j.Chained headers where
  chain := hchained.chain
  starts := by
    rw [← header_str_congr (by rw [lowercase_traceparent, hsame])]
    exact hchained.starts
  names := hchained.names
  untraced hnone := (hchained.untraced hnone).trans hsame
  spans := hchained.spans

/-- One that traces becomes the head of the chain. -/
theorem chained_cons {spans : List SpanData} (hchained : j.Chained sent) (hproper : Proper cx)
    (hstarts : Starts (header_str headers TRACEPARENT) cx) (hnames : NamedTo sent cx)
    (hexports : List.Forall₂ Exports spans (if sampled cx then [cx] else [])) :
    (⟨cx :: j.traces, spans ++ j.spans, j.sent⟩ : Journey).Chained headers := by
  have hlinked : ∀ next ∈ j.traces.head?, Continues cx next := by
    intro next hnext
    have hread := hchained.starts next hnext
    rw [header_str_of_named hnames] at hread
    exact continues_of_starts hproper hread
  refine ⟨?_, ?_, ?_, fun h => absurd h (List.cons_ne_nil _ _), ?_⟩
  · exact List.isChain_cons.mpr ⟨hlinked, hchained.chain⟩
  · rintro _ ⟨⟩
    exact hstarts
  · dsimp only
    cases hrest : j.traces with
    | nil =>
      rintro _ ⟨⟩
      obtain ⟨value, hall, hread⟩ := hnames
      exact ⟨value, (hchained.untraced hrest).trans hall, hread⟩
    | cons next rest =>
      rw [List.getLast?_cons_cons, ← hrest]
      exact hchained.names
  · -- What follows exports its spans just if this one does.
    have hrest : List.Forall₂ Exports j.spans (if sampled cx then j.traces else []) := by
      have hspans := hchained.spans
      cases htraces : j.traces with
      | nil =>
        rw [htraces] at hspans
        simpa using hspans
      | cons next rest =>
        have hsame := sampled_of_continues (hlinked next (by rw [htraces]; rfl))
        rw [htraces] at hspans
        simpa [hsame] using hspans
    rw [List.head?_cons, Option.any_some]
    by_cases hsampled : sampled cx = true
    · rw [if_pos hsampled] at hexports hrest ⊢
      exact List.rel_append hexports hrest
    · rw [if_neg hsampled] at hexports hrest ⊢
      exact List.rel_append hexports hrest

end Journeys

namespace ThreeGateways

def raw (sample_ratio : Option ℚ) : GatewayConfig := { sample_ratio := sample_ratio }

def resolved (sample_ratio : Option ℚ) : ResolvedConfig where
  raw := raw sample_ratio
  trusted_proxy_ips := []
  injected_headers := []
  machine_injected_headers := []
  identity_secret := none
  machine_secret := none
  client_key_header := none
  client_key_forward_as := none
  client_keys := []
  client_key_exempt := []
  client_key_exempt_groups := []

theorem resolve_eq (sample_ratio : Option ℚ) :
    (raw sample_ratio).resolve plain_crates = .ok (resolved sample_ratio) := rfl

theorem undescribed (sample_ratio : Option ℚ) :
    TRACEPARENT ∉ (resolved sample_ratio).raw.identity.headers :=
  show TRACEPARENT ∉ (resolved none).raw.identity.headers by decide

def uuid (b : UInt8) : Uuid where
  bytes := List.replicate 6 b ++ 0x40 :: List.replicate 9 b
  length := rfl
  version := ⟨0x40, rfl, rfl⟩

def hop (sample_ratio : Option ℚ) (b : UInt8) : Hop plain_crates where
  cfg := raw sample_ratio
  resolved := resolved sample_ratio
  resolve_eq := resolve_eq sample_ratio
  serves_machine := false
  undescribed := undescribed sample_ratio
  cx := { TwoTiers.cx with
    draws := ⟨"0b5c".toList, random_trace_id (uuid b), random_span_id (uuid b), 0, fun _ => true⟩ }
  trace_uuid := uuid b
  span_uuid := uuid b
  trace_id_eq := rfl
  span_id_eq := rfl
  served := ⟨"GET".toList, "users".toList, "users".toList, "users".toList, 200, 0, some 3, 5⟩
  service_name := "gateway".toList

/-- Two gateways trace, and the one between them does not. -/
def hops : List (Hop plain_crates) := [hop (some 1) 1, hop none 2, hop (some 1) 3]

def journey : Journey := ((travel hops ⟨[]⟩).toOption).getD ⟨[], [], ⟨[]⟩⟩

end ThreeGateways

end Lagos.Outbound
