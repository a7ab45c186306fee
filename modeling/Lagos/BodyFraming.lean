/-
What the header policy does to the framing of a request's body (`proxy.rs`, `headers.rs`).

Two lists name the headers that delimit a body. The allowlist never sweeps
`STRUCTURAL_HEADERS`, because a request without them is no longer well formed; the base plan
strips `HOP_BY_HOP`, which shares `transfer-encoding` with the first. A `Content-Length` so
arrives as it was sent unless some step names it, and a chunked body arrives with a
`transfer-encoding` only where some later step sets one again.

A route may run extensions, which are lent the plan and come last. What they are is not known
here, only what can be done to a plan: it is replaced by a new one, names are set and names
are stripped.
-/
import Lagos.HeaderPolicy

set_option autoImplicit false

open RustStd

namespace Lagos.Outbound

open Lagos.Config Lagos.Error Lagos.Headers Lagos.Auth Lagos.Routes

/-! ## Framing -/

def CONTENT_LENGTH : Str := "content-length".toList
def TRANSFER_ENCODING : Str := "transfer-encoding".toList

/-- The last coding of the body is `chunked`. -/
def is_chunked (headers : HeaderMap) : Bool :=
  (((headers.get_all TRANSFER_ENCODING).getLast?.bind HeaderValue.to_str).bind fun codings =>
    (split ',' codings).getLast?.map fun coding => to_ascii_lowercase (trim coding))
      == some "chunked".toList

/-- Nothing but its chunks says where the body ends. -/
def chunked_only (headers : HeaderMap) : Bool :=
  (headers.get_all CONTENT_LENGTH).isEmpty && is_chunked headers

/-- What is sent delimits the body the way it came. -/
structure FramingKept (headers out : HeaderMap) : Prop where
  length : headers.get_all CONTENT_LENGTH ≠ [] →
    out.get_all CONTENT_LENGTH = headers.get_all CONTENT_LENGTH
  chunked : chunked_only headers = true → out.get_all TRANSFER_ENCODING ≠ []

theorem fields_of_chunked_only {headers : HeaderMap} (h : chunked_only headers = true) :
    headers.get_all TRANSFER_ENCODING ≠ [] := by
  intro hnil
  rw [chunked_only, is_chunked, hnil, Bool.and_eq_true] at h
  exact absurd h.2 (by decide)

theorem header_value_ext {v w : HeaderValue} (h : v.bytes = w.bytes) : v = w := by
  cases v
  cases w
  cases h
  rfl

/-! ## Routes with extensions -/

/-- What an extension does to a plan that it keeps. -/
inductive PlanEdit where
  | set (name value : Str)
  | strip (name : Str)
  deriving DecidableEq, Repr

def PlanEdit.apply (plan : HeaderPlan) : PlanEdit → HeaderPlan
  | .set name value => plan.set name value
  | .strip name => plan.strip name

/-- What the extensions of a route did to the plan, where none refused the request
(`ExtensionRegistry::run_chain`). -/
structure Chain where
  /-- One of them put a new plan in its place. -/
  replaced : Bool
  /-- What was done to the plan since. -/
  edits : List PlanEdit
  deriving DecidableEq, Repr

/-- No extension did anything. -/
def Chain.idle : Chain := ⟨false, []⟩

/-- What is left of a plan. -/
def Chain.run (chain : Chain) (plan : HeaderPlan) : HeaderPlan :=
  chain.edits.foldl PlanEdit.apply (if chain.replaced then HeaderPlan.new else plan)

/-- What a request comes with, on any route. -/
structure ExtendedCtx where
  /-- All of it but the extensions, which no step before them looks at. -/
  cx : Ctx
  route : RouteConfig
  route_eq : cx.route = { route with extensions := [] }
  chain : Chain
  idle : route.extensions = [] → chain = .idle

/-- What a backend is sent of the headers of a request on any route, or why it is refused. -/
def Gateway.forward_extended (g : Gateway) (crates : Crates) (cx : ExtendedCtx)
    (headers : HeaderMap) : Except Rejection HeaderMap := do
  let plan ← g.header_plan crates cx.cx headers
  g.upstream_request_filter crates cx.cx.target (cx.chain.run plan) headers

/-- A route that runs no extensions is served as before. -/
theorem forward_extended_of_nil {g : Gateway} {crates : Crates} {cx : ExtendedCtx}
    {headers : HeaderMap} (h : cx.route.extensions = []) :
    g.forward_extended crates cx headers = g.forward crates cx.cx headers := by
  rw [Gateway.forward_extended, Gateway.forward, cx.idle h]
  rfl

/-- The edits of extensions, under the names that a plan keeps them by. -/
def PlanEdit.edit : PlanEdit → Str × Fate Str
  | .set name value => (to_ascii_lowercase name, .put value)
  | .strip name => (to_ascii_lowercase name, .dropped)

def Chain.script (chain : Chain) : Script Str Str := chain.edits.map PlanEdit.edit

/-- Every edit puts or drops, so that a name is left alone just if none names it. -/
theorem fate_edits_eq_kept {edits : List PlanEdit} {n : Str} :
    Script.fate (edits.map PlanEdit.edit) n = .kept
      ↔ n ∉ (edits.map PlanEdit.edit).map Prod.fst := by
  refine Script.fate_eq_kept_iff fun e he => ?_
  obtain ⟨edit, -, rfl⟩ := List.mem_map.mp he
  cases edit with
  | set name value => simp [PlanEdit.edit]
  | strip name => simp [PlanEdit.edit]

theorem fate_apply (plan : HeaderPlan) (e : PlanEdit) (n : Str) :
    (e.apply plan).fate n = (plan.fate n).seq (Script.fate [e.edit] n) := by
  cases e with
  | set name value => rw [PlanEdit.apply, HeaderPlan.fate_set, PlanEdit.edit, Script.fate_singleton]
  | strip name => rw [PlanEdit.apply, HeaderPlan.fate_strip, PlanEdit.edit, Script.fate_singleton]

theorem fate_run (chain : Chain) (plan : HeaderPlan) (n : Str) :
    (chain.run plan).fate n
      = (if chain.replaced then .kept else plan.fate n).seq (chain.script.fate n) := by
  -- By induction on the edits, whatever plan they begin with.
  have hedits : ∀ (edits : List PlanEdit) (p : HeaderPlan),
      (edits.foldl PlanEdit.apply p).fate n
        = (p.fate n).seq (Script.fate (edits.map PlanEdit.edit) n) := by
    intro edits
    induction edits with
    | nil => exact fun p => (Fate.seq_kept _).symm
    | cons e edits ih =>
      intro p
      rw [List.foldl_cons, ih, fate_apply, Fate.seq_assoc, ← Script.fate_append, List.map_cons,
        List.singleton_append]
  rw [Chain.run, Chain.script, hedits]
  cases chain.replaced <;> rfl

/-! ## The framing headers in the plan -/

section Framing

variable (g : Gateway) (crates : Crates) (cx : ExtendedCtx) (headers : HeaderMap) (n : Str)

/-- No step names it, or the extensions took the plan that did away. -/
def Gateway.Untouched : Prop :=
  (cx.chain.replaced = true ∨ ¬ g.Handles headers n) ∧ n ∉ cx.chain.script.map Prod.fst

/-- The value that a step sets last, among the steps whose headers are configured: the
extensions, the client key, the description of the caller and the headers injected. -/
def Gateway.set_last : Option Str :=
  (cx.chain.script.fate n).value.or
    (if cx.chain.replaced then none
    else
      let key := (g.client_key_id crates cx.cx headers).toOption.join
      let described := description crates.toCodecs cx.cx.draws.now g.cfg.raw.identity
        g.cfg.identity_secret cx.cx.identity
      ((g.client_key_script key).fate n).value.or ((described.fate n).value.or
        (Script.fate (Script.puts (lower_pairs g.injected)) n).value))

/-- The policy leaves the framing of the request as it is: no step touches its length, or the
last sets the same one, and where only chunks delimit the body no step touches that or one sets
it again. -/
structure Gateway.LeavesFraming : Prop where
  length : headers.get_all CONTENT_LENGTH ≠ [] → g.Untouched cx headers CONTENT_LENGTH
    ∨ ∃ value, headers.get_all CONTENT_LENGTH = [value]
      ∧ (g.set_last crates cx headers CONTENT_LENGTH).map utf8_bytes = some value.bytes
  chunked : chunked_only headers = true → g.Untouched cx headers TRANSFER_ENCODING
    ∨ g.set_last crates cx headers TRANSFER_ENCODING ≠ none

end Framing

section

variable {g : Gateway} {crates : Crates} {cx : ExtendedCtx} {client_key_id : Option Str}
  {headers out : HeaderMap} {n : Str}

/-- The names that steps set whatever the configuration says. -/
def fixed_names : List Str := [X_FORWARDED_FOR, X_REAL_IP, X_REQUEST_ID, TRACEPARENT, COOKIE]

/-- Besides those only what is configured sets a value. -/
theorem value_policy_of_configured (hn : n ∉ fixed_names) :
    (((g.policy crates cx.cx client_key_id headers).fate n).map Prod.snd).value
      = ((g.client_key_script client_key_id).fate n).value.or
        (((description crates.toCodecs cx.cx.draws.now g.cfg.raw.identity g.cfg.identity_secret
          cx.cx.identity).fate n).value.or
        (Script.fate (Script.puts (lower_pairs g.injected)) n).value) := by
  simp only [fixed_names, List.mem_cons, List.not_mem_nil, or_false, not_or] at hn
  obtain ⟨hxff, hreal, hid, htrace, hcookie⟩ := hn
  have hinjected : (g.injected_script.fate n).value
      = (Script.fate (Script.puts (lower_pairs g.injected)) n).value := by
    rw [Gateway.injected_script, Script.fate_append, Script.fate_append, Fate.value_seq,
      Fate.value_seq, value_drops, value_drops, Option.none_or, Option.or_none]
  have hforwarded : ((forwarded_script (g.forwarded crates cx.cx.peer headers)).fate n).value
      = none := by
    rw [forwarded_script, Script.fate_append, Script.fate_append, Fate.value_seq, Fate.value_seq,
      value_drops, value_put_some, value_put_some, if_neg hxff, if_neg hreal]
    rfl
  have hrequest : (Script.fate [(X_REQUEST_ID, .put cx.cx.request_id)] n).value = none := by
    rw [Script.fate_singleton, if_neg (Ne.symm hid)]
    rfl
  rw [Fate.value_map, value_policy, value_credentials, if_neg hcookie, value_put_some,
    if_neg htrace, hrequest, hforwarded, hinjected]
  simp only [Option.map_none, Option.none_or, Option.map_or, Option.map_map, Function.comp_def,
    Option.map_id']

/-- A plan that is run comes to what its steps come to. -/
theorem fate_extended {plan : HeaderPlan} (h : g.header_plan crates cx.cx headers = .ok plan)
    (hn : n ∉ fixed_names) :
    ((cx.chain.run plan).fate n = .kept ↔ g.Untouched cx headers n)
      ∧ ((cx.chain.run plan).fate n).value = g.set_last crates cx headers n := by
  obtain ⟨key, hkey, hfate⟩ := fate_header_plan h
  have hnamed : cx.chain.script.fate n = .kept ↔ n ∉ cx.chain.script.map Prod.fst :=
    fate_edits_eq_kept
  -- With a new plan in its place, nothing is left of what the steps before have done.
  rw [fate_run, hfate n, Fate.seq_eq_kept, hnamed, Fate.value_seq, Gateway.set_last,
    Gateway.Untouched, hkey]
  cases cx.chain.replaced with
  | true => simp
  | false => simp [fate_eq_kept, value_policy_of_configured hn, Except.toOption]

/-- The gateway of a listener never sweeps or replaces the framing of a request. -/
theorem structural_passes {cfg : ResolvedConfig} {serves_machine : Bool}
    (hn : n ∈ [CONTENT_LENGTH, TRANSFER_ENCODING]) :
    ¬ (Gateway.of_listener cfg serves_machine).swept n
      ∧ ¬ (Gateway.of_listener cfg serves_machine).replaces_host n ∧ n ∉ fixed_names := by
  -- Both are names that bypass the allowlist, and no step sets them of its own accord.
  have hstructural : n ∈ STRUCTURAL_HEADERS ∧ n ≠ HOST ∧ n ∉ fixed_names := by
    revert n
    decide
  refine ⟨fun hs => ?_, fun hs => hstructural.2.1 hs.1, hstructural.2.2⟩
  have hforwardable : n ∈ (Gateway.of_listener cfg serves_machine).forwardable := by
    rw [Gateway.of_listener_forwardable, Gateway.new]
    simp [hstructural.1]
  have hpasses : (Gateway.of_listener cfg serves_machine).is_forwardable n = true :=
    List.contains_iff_mem.mpr hforwardable
  rw [hs.2] at hpasses
  cases hpasses

/-- What becomes of a framing header: it is sent as it came, or one value is sent that a step
set, or it is not sent. -/
theorem framing_field {cfg : ResolvedConfig} {serves_machine : Bool}
    (h : (Gateway.of_listener cfg serves_machine).forward_extended crates cx headers = .ok out)
    (hn : n ∈ [CONTENT_LENGTH, TRANSFER_ENCODING]) :
    ((Gateway.of_listener cfg serves_machine).Untouched cx headers n
        ∧ out.get_all n = headers.get_all n)
      ∨ ¬ (Gateway.of_listener cfg serves_machine).Untouched cx headers n
        ∧ ((∃ value, ((Gateway.of_listener cfg serves_machine).set_last crates cx headers n).map
              utf8_bytes = some value.bytes ∧ out.get_all n = [value])
          ∨ (Gateway.of_listener cfg serves_machine).set_last crates cx headers n = none
            ∧ out.get_all n = []) := by
  obtain ⟨plan, hplan, h⟩ := bind_eq_ok.mp h
  obtain ⟨hswept, hhost, hfixed⟩ := structural_passes (n := n) hn
  obtain ⟨hkept, hvalue⟩ := fate_extended hplan hfixed
  have hcarried := carried_of_filter h n
  have htouched : (cx.chain.run plan).fate n ≠ .kept →
      ¬ (Gateway.of_listener cfg serves_machine).Untouched cx headers n :=
    fun hne hu => hne (hkept.mpr hu)
  cases hf : (cx.chain.run plan).fate n with
  | kept => exact .inl ⟨hkept.mp hf, hcarried.kept hf hswept hhost⟩
  | dropped =>
    refine .inr ⟨htouched (by simp [hf]), .inr ⟨?_, hcarried.dropped hf⟩⟩
    -- A name that is only stripped has no last value.
    rw [← hvalue, hf, Fate.value_dropped]
  | put v =>
    obtain ⟨value, hinsert, hall⟩ := hcarried.put v hf
    refine .inr ⟨htouched (by simp [hf]), .inl ⟨value, ?_, hall⟩⟩
    rw [← hvalue, hf, Fate.value_put, Option.map_some, insertable_bytes hinsert]

end

/-! ## Two uploads -/

namespace Uploads

def resolved : ResolvedConfig where
  raw := {}
  trusted_proxy_ips := []
  injected_headers := []
  machine_injected_headers := []
  identity_secret := none
  machine_secret := none
  client_key_header := none
  client_key_forward_as := none
  client_keys := []
  client_key_exempt := []
  client_key_exempt_groups := []

def route : RouteConfig :=
  RouteConfig.of_input { path_prefix := "files".toList, upstream := "files".toList }

/-- An upload of nobody to a route that runs no extensions. -/
def cx : ExtendedCtx where
  cx :=
    { draws := ⟨"0b5c".toList, [], [], 0, fun _ => false⟩
      route := route
      path := "files".toList
      no_extensions := rfl
      identity := none
      request_id := "0b5c".toList
      peer := some "10.0.0.7".toList
      target := "files:3000".toList }
  route := route
  route_eq := rfl
  chain := .idle
  idle := fun _ => rfl

/-- `5`, and `chunked`. -/
def measured : HeaderMap := of_fields [("Content-Length".toList, ⟨[0x35], rfl⟩)]
def chunks : HeaderMap := of_fields [("Transfer-Encoding".toList,
  ⟨[0x63, 0x68, 0x75, 0x6e, 0x6b, 0x65, 0x64], rfl⟩)]

/-- What the backend gets of an upload with these headers. -/
def sent (headers : HeaderMap) : HeaderMap :=
  (((Gateway.of_listener resolved false).forward_extended plain_crates cx headers).toOption).getD
    ⟨[]⟩

end Uploads

end Lagos.Outbound
