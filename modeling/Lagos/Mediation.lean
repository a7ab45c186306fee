/-
What is so of a request that is answered (`request_filter` and `proxy_upstream_filter`).

Nothing reaches the cache or an upstream but through all the gates of its route: `Cleared` lists
them, each with what has to be in the record of what was asked, and `admitted_cleared` is the
statement. It holds whatever the answers are. The two theorems beside it are about every request,
let in or not. Every question is asked at most once and in one order, and after an answer that
refuses nothing is asked any more (`consults_in_order`). And what is dear is asked only of
requests that have passed what is cheap (`verifier_guarded`): no signature is checked for a request
that its limit refused, or that lacks the client key.
-/
import Lagos.Pipeline
import Lagos.Refusals

set_option autoImplicit false

open RustStd

namespace Lagos.Outbound

open Lagos.Admission Lagos.Auth Lagos.Config Lagos.Csrf Lagos.Error Lagos.Headers Lagos.Path
open Lagos.Routes
open Lagos.Jwks (AuthError)
open Lagos.Proxy (PendingSlot)
open Asking

/-! ## What each stage leaves in the record -/

/-- A limit let the request pass: it has no key and is not counted, or it was counted and
allowed. -/
def Entry.LimitPassed (e : Entry) (crates : Crates) (route : RouteConfig) (subject : Option Str)
    (a : Arrival) (log : List Consult) (cfg : RateLimitConfig) : Prop :=
  ∃ key, limit_key e.gateway crates a.request.headers (.of_limit cfg) route.id subject a.peer
      = .ok key
    ∧ ∀ k ∈ key, ∃ decision, decision.allowed = true ∧ .limit k decision ∈ log

/-- A configured key was presented, in the only field of its header. -/
def Gateway.KeyPresented (g : Gateway) (crates : Crates) (headers : HeaderMap)
    (client_key_id : Option Str) : Prop :=
  ∃ v, headers.get_all (to_ascii_lowercase (g.cfg.client_key_header.getD [])) = [v]
    ∧ v.bytes ≠ [] ∧ ∃ key ∈ g.cfg.client_keys,
      key.digest = crates.digest v.bytes ∧ client_key_id = some key.id

section Stages

variable {σ : Type} {e : Entry} {o : Outside σ} {crates : Crates} {route : RouteConfig}
  {path : Str} {a : Arrival} {s t : σ} {log : List Consult} {subject : Option Str}
  {identity : Option Identity}

theorem check_rate_limit_passes {limit : Option RateLimitConfig}
    (h : (e.check_rate_limit o crates route subject a limit).Passes s log t ()) :
    ∀ cfg ∈ limit, e.LimitPassed crates route subject a log cfg := by
  rintro cfg rfl
  unfold Entry.check_rate_limit at h
  dsimp only at h
  unfold Entry.LimitPassed
  split at h
  · exact absurd h not_passes_fail
  · rename_i hkey
    exact ⟨none, hkey, nofun⟩
  · rename_i key hkey
    refine ⟨some key, hkey, fun k hk => ?_⟩
    cases hk
    obtain ⟨qs, m, decision, qs', hask, hrest, rfl⟩ := passes_bind.mp h
    obtain ⟨rfl, -⟩ := passes_ask.mp hask
    split at hrest
    · rename_i hallowed
      exact ⟨decision, hallowed, by simp⟩
    · exact absurd hrest not_passes_fail

theorem check_client_key_ok {g : Gateway} {headers : HeaderMap} {client_key_id : Option Str}
    (h : g.check_client_key crates route path headers = .ok client_key_id)
    (hserves : g.serves_machine = false) (hrule : g.cfg.client_key_rule route path = .Required) :
    g.KeyPresented crates headers client_key_id := by
  unfold Gateway.check_client_key at h
  rw [if_pos ⟨hserves, hrule⟩] at h
  dsimp only at h
  split at h
  · cases h
  · rename_i presented hpresented
    obtain ⟨hhead, hne⟩ := Option.filter_eq_some_iff.mp hpresented
    split at h
    · cases h
    · rename_i key hkey
      obtain ⟨hfind, hlen⟩ := Option.filter_eq_some_iff.mp hkey
      cases h
      refine ⟨presented, ?_, by simpa using hne, key, List.mem_of_find?_eq_some hfind, ?_, rfl⟩
      · obtain ⟨tail, hall⟩ := List.head?_eq_some_iff.mp hhead
        have hlen' := of_decide_eq_true hlen
        rw [hall, List.length_cons] at hlen'
        rw [hall, List.length_eq_zero_iff.mp (by omega : tail.length = 0)]
      · have hmatches := List.find?_some hfind
        exact (beq_iff_eq.mp hmatches).symm

/-- A request has the identity that the verifier found in its token, or none and no token. -/
theorem verify_token_passes {escape_debug : Char → Str} {token : Option (Str × Credential)}
    (h : (verify_token o escape_debug token).Passes s log t identity) :
    (token = none ∧ identity = none) ∨ ∃ tok credential id, token = some (tok, credential)
      ∧ identity = some id ∧ .verify tok (.ok id) ∈ log := by
  unfold verify_token at h
  split at h
  · obtain ⟨-, -, rfl⟩ := passes_pure.mp h
    exact .inl ⟨rfl, rfl⟩
  · rename_i tok credential
    obtain ⟨qs, m, answer, qs', hask, hlift, rfl⟩ := passes_bind.mp h
    obtain ⟨rfl, -⟩ := passes_ask.mp hask
    obtain ⟨-, -, hverified⟩ := passes_lift.mp hlift
    cases answer with
    | error error => cases hverified
    | ok id =>
      cases hverified
      exact .inr ⟨tok, credential, id, rfl, rfl, by simp⟩

theorem check_bindings_ok (h : check_bindings route identity a = .ok ()) :
    ∀ b ∈ route.bindings, ∃ id, identity = some id
      ∧ ∃ v, b.supplied a.query (only_field a.request.headers) = some v
        ∧ b.proven id = some v := by
  intro b hb
  unfold check_bindings at h
  rw [if_neg (by simpa using List.ne_nil_of_mem hb)] at h
  cases identity with
  | none => cases h
  | some id =>
    dsimp only at h
    split at h
    · rename_i hall
      exact ⟨id, rfl, Binding.permits_iff.mp (List.all_eq_true.mp hall b hb)⟩
    · cases h

theorem run_extensions_passes {plan plan' : HeaderPlan}
    (h : (run_extensions o route path identity plan a).Passes s log t plan') :
    route.extensions ≠ [] → ∃ chain : Chain, .extensions route.extensions (.ok chain) ∈ log
      ∧ plan' = chain.run plan := by
  intro hne
  unfold run_extensions at h
  rw [if_neg (by simpa using hne)] at h
  obtain ⟨qs, m, answer, qs', hask, hlift, rfl⟩ := passes_bind.mp h
  obtain ⟨rfl, -⟩ := passes_ask.mp hask
  obtain ⟨-, -, hran⟩ := passes_lift.mp hlift
  cases answer with
  | error rejection => cases hran
  | ok chain =>
    cases hran
    exact ⟨chain, by simp, rfl⟩

theorem take_pending_passes {ctx : Admitted} (h : (take_pending o ctx).Passes s log t ()) :
    ∀ slot ∈ ctx.concurrency, .slot slot true ∈ log := by
  intro slot hslot
  unfold take_pending at h
  rw [hslot] at h
  obtain ⟨qs, m, granted, qs', hask, hrest, rfl⟩ := passes_bind.mp h
  obtain ⟨rfl, -⟩ := passes_ask.mp hask
  cases granted with
  | true => simp
  | false => exact absurd hrest not_passes_fail

theorem ask_circuit_passes {ctx : Admitted} (h : (e.ask_circuit o ctx).Passes s log t ()) :
    ctx.route.upstream ∈ e.breakers → .circuit ctx.route.upstream none ∈ log := by
  intro hbreaker
  unfold Entry.ask_circuit at h
  rw [if_pos hbreaker] at h
  obtain ⟨qs, m, cooldown, qs', hask, hrest, rfl⟩ := passes_bind.mp h
  obtain ⟨rfl, -⟩ := passes_ask.mp hask
  cases cooldown with
  | none => simp
  | some cooldown => exact absurd hrest not_passes_fail

end Stages

/-! ## Gates -/

section Gates

variable (e : Entry) (parse : Str → Option Url) (crates : Crates) (table : RouteTable)
  (a : Arrival) (log : List Consult) (ctx : Admitted)

/-- Who a limit may count a request as. -/
def subject_of (cfg : RateLimitConfig) (identity : Option Identity) : Option Str :=
  if cfg.key = .Identity then identity.map Identity.subject else none

/-- What `request_filter` has made sure of, of a request that goes on. -/
structure Entry.Permitted : Prop where
  small : content_length_over_limit a.request.headers e.door.site.max_body = false
  unreserved : e.gateway.serves_machine = false →
    ∀ name ∈ e.gateway.cfg.raw.reject, is_present a.request.headers name = false
  /-- Its path is under a mount, can be read in one way, and is not on the deny-list. -/
  located : ∃ raw, strip_base e.door.site.base_paths a.request.path = some raw
    ∧ canonicalize_proxy_path raw = some ctx.path ∧ table.is_denied ctx.path = false
  allowlisted : table.match_request (header_str a.request.headers HOST) ctx.path a.request.method
    = some ctx.route
  upstream : ctx.route.upstream ∈ e.door.site.upstreams
  machine : ctx.route.auth = .Machine →
    e.gateway.cfg.authenticate_machine a.request.headers = .ok ()
  limit : ∀ cfg ∈ limit_of ctx.route,
    e.LimitPassed crates ctx.route (subject_of cfg ctx.identity) a log cfg
  client_key : e.gateway.serves_machine = false →
    e.gateway.cfg.client_key_rule ctx.route ctx.path = .Required →
    e.gateway.KeyPresented crates a.request.headers ctx.client_key_id
  /-- Nobody is let in unnamed where a token is required, or was presented to be read. -/
  anonymous : ctx.identity = none → ctx.route.auth ≠ .Required
    ∧ (ctx.route.auth.verifies = true → e.door.presented a.request.headers = none)
  /-- The verifier has found the identity in the token of the request, on a tier that reads it,
  and a cookie's token came from where it may. -/
  identified : ∀ id ∈ ctx.identity, ctx.route.auth.verifies = true
    ∧ ∃ token credential, e.door.presented a.request.headers = some (token, credential)
      ∧ ctx.credential = some credential ∧ len token ≤ e.door.max_token
      ∧ e.door.check_origin parse a.request = .ok () ∧ .verify token (.ok id) ∈ log
  bindings : ∀ b ∈ ctx.route.bindings, ∃ id, ctx.identity = some id
    ∧ ∃ v, b.supplied a.query (only_field a.request.headers) = some v ∧ b.proven id = some v
  extensions : ctx.route.extensions ≠ [] →
    ∃ chain : Chain, .extensions ctx.route.extensions (.ok chain) ∈ log
  /-- A cap has a slot in view for whom the request is counted as. -/
  concurrency : ∀ cap ∈ ctx.route.concurrency, ∃ key,
    limit_key e.gateway crates a.request.headers (.of_cap cap) ctx.route.id
      (ctx.identity.map Identity.subject) a.peer = .ok key
    ∧ ctx.concurrency = key.map (pending_slot cap ctx.route.id)

/-- What is so of a request that is answered. -/
structure Entry.Cleared (source : Source) : Prop extends e.Permitted parse crates table a log ctx where
  /-- The cache answers a `GET` or `HEAD` without cookies, on a route that is no event stream. -/
  cached : source = .cache → ctx.route.cache = true ∧ ctx.route.sse = false
    ∧ (a.request.method = "GET".toList ∨ a.request.method = "HEAD".toList)
    ∧ a.request.headers.get_all COOKIE = [] ∧ .cache true ∈ log
  slot : source = .upstream → ∀ slot ∈ ctx.concurrency, .slot slot true ∈ log
  circuit : source = .upstream → ctx.route.upstream ∈ e.breakers →
    .circuit ctx.route.upstream none ∈ log

end Gates

section

variable {σ : Type} {e : Entry} {o : Outside σ} {parse : Str → Option Url} {crates : Crates}
  {escape_debug : Char → Str} {table : RouteTable} {route : RouteConfig} {path : Str} {a : Arrival}
  {s t : σ} {log : List Consult} {ctx : Admitted}

theorem Entry.LimitPassed.mono {subject : Option Str} {cfg : RateLimitConfig}
    {log' : List Consult} (h : e.LimitPassed crates route subject a log cfg) (hsub : log ⊆ log') :
    e.LimitPassed crates route subject a log' cfg := by
  obtain ⟨key, hkey, hcounted⟩ := h
  refine ⟨key, hkey, fun k hk => ?_⟩
  obtain ⟨decision, hallowed, hmem⟩ := hcounted k hk
  exact ⟨decision, hallowed, hsub hmem⟩

/-- What is in a record stays in a longer one. -/
theorem Entry.Permitted.mono {log' : List Consult} (h : e.Permitted parse crates table a log ctx)
    (hsub : log ⊆ log') : e.Permitted parse crates table a log' ctx where
  small := h.small
  unreserved := h.unreserved
  located := h.located
  allowlisted := h.allowlisted
  upstream := h.upstream
  machine := h.machine
  limit cfg hcfg := (h.limit cfg hcfg).mono hsub
  client_key := h.client_key
  anonymous := h.anonymous
  identified id hid := by
    obtain ⟨hverifies, token, credential, hpresented, hcredential, hlen, horigin, hmem⟩ :=
      h.identified id hid
    exact ⟨hverifies, token, credential, hpresented, hcredential, hlen, horigin, hsub hmem⟩
  bindings := h.bindings
  extensions hne := by
    obtain ⟨chain, hmem⟩ := h.extensions hne
    exact ⟨chain, hsub hmem⟩
  concurrency := h.concurrency

/-- A token is read on a tier that verifies, and one that is too long is not passed on. -/
theorem read_token_some {d : Door} {req : Request} {token : Str} {credential : Credential}
    (h : d.read_token parse route req = .ok (some (token, credential))) :
    route.auth.verifies = true ∧ len token ≤ d.max_token := by
  have hpresented := (read_token_ok h).2
  unfold Door.read_token at h
  split at h
  · cases h
  · rename_i hverifies
    refine ⟨Bool.eq_true_of_not_eq_false hverifies, ?_⟩
    split at h
    · cases h
    · obtain ⟨⟨⟩, -, h⟩ := bind_eq_ok.mp h
      rw [hpresented] at h
      dsimp only at h
      split at h
      · cases h
      · rename_i hshort
        exact Nat.le_of_not_lt hshort

/-- No token is read where the tier asks for none, or where it need not have one and there is
none. -/
theorem read_token_none {d : Door} {req : Request}
    (h : d.read_token parse route req = .ok none) :
    route.auth ≠ .Required ∧ (route.auth.verifies = true → d.presented req.headers = none) := by
  unfold Door.read_token at h
  split at h
  · rename_i hverifies
    refine ⟨fun hrequired => ?_, fun h' => absurd (h'.symm.trans hverifies) (by decide)⟩
    rw [hrequired] at hverifies
    cases hverifies
  · split at h
    · cases h
    · obtain ⟨⟨⟩, -, h⟩ := bind_eq_ok.mp h
      cases hpresented : d.presented req.headers with
      | some presented =>
        rw [hpresented] at h
        dsimp only at h
        split at h
        · cases h
        · split at h <;> cases h
      | none =>
        rw [hpresented] at h
        dsimp only at h
        split at h
        · rename_i hoptional
          exact ⟨by rw [hoptional]; decide, fun _ => rfl⟩
        · cases h

/-- The limit of a route is the first or the second. -/
theorem limit_cases {cfg : RateLimitConfig} (h : cfg ∈ limit_of route) :
    (cfg.key ≠ .Identity ∧ cfg ∈ first_limit route) ∨ (cfg.key = .Identity ∧ cfg ∈ second_limit route) := by
  by_cases hkey : cfg.key = .Identity
  · exact .inr ⟨hkey, Option.filter_eq_some_iff.mpr ⟨h, by simpa using hkey⟩⟩
  · exact .inl ⟨hkey, Option.filter_eq_some_iff.mpr ⟨h, by simpa using hkey⟩⟩

theorem key_slot_ok {subject : Option Str} {slot : Option PendingSlot}
    (h : e.key_slot crates route subject a = .ok slot) :
    ∀ cap ∈ route.concurrency, ∃ key,
      limit_key e.gateway crates a.request.headers (.of_cap cap) route.id subject a.peer = .ok key
      ∧ slot = key.map (pending_slot cap route.id) := by
  intro cap hcap
  unfold Entry.key_slot at h
  rw [hcap] at h
  dsimp only at h
  generalize hkey : limit_key e.gateway crates a.request.headers (.of_cap cap) route.id subject
    a.peer = key at h ⊢
  cases key with
  | error error => cases h
  | ok key =>
    cases h
    exact ⟨key, rfl, rfl⟩

theorem not_over_limit (h : e.door.site.check_size a.request = .ok ()) :
    content_length_over_limit a.request.headers e.door.site.max_body = false := by
  unfold Site.check_size at h
  split at h
  · cases h
  · rename_i hsmall
    exact Bool.eq_false_of_not_eq_true hsmall

theorem not_reserved (h : e.door.site.check_reserved a.request = .ok ())
    (hserves : e.gateway.serves_machine = false) :
    ∀ name ∈ e.gateway.cfg.raw.reject, is_present a.request.headers name = false := by
  intro name hname
  unfold Site.check_reserved at h
  rw [if_neg (by rw [hserves]; decide)] at h
  split at h
  · cases h
  · rename_i hnone
    exact Bool.eq_false_of_not_eq_true (List.find?_eq_none.mp hnone name hname)

theorem locate_ok {site : Site} {req : Request} (h : site.locate table req = .ok path) :
    ∃ raw, strip_base site.base_paths req.path = some raw
      ∧ canonicalize_proxy_path raw = some path ∧ table.is_denied path = false := by
  unfold Site.locate at h
  split at h
  · cases h
  · rename_i raw hraw
    split at h
    · cases h
    · rename_i path' hcanonical
      split at h
      · cases h
      · rename_i hallowed
        cases h
        exact ⟨raw, hraw, hcanonical, Bool.eq_false_of_not_eq_true hallowed⟩

/-- A request goes on to the policy of its route. -/
theorem request_filter_routed
    (h : (e.request_filter o parse crates escape_debug table a).Passes s log t ctx) :
    ∃ route path, e.door.site.route_request table a.request = .ok (route, path)
      ∧ (e.check_policy o parse crates escape_debug route path a).Passes s log t ctx := by
  obtain ⟨⟨route, path⟩, hrouted, hpolicy⟩ := passes_lift_bind.mp h
  refine ⟨route, path, ?_, passes_mapError.mp hpolicy⟩
  cases hroute : e.door.site.route_request table a.request with
  | error stop =>
    rw [hroute] at hrouted
    cases hrouted
  | ok routed =>
    rw [hroute] at hrouted
    cases hrouted
    rfl

/-- What a request has passed that goes on. -/
theorem request_filter_permitted
    (h : (e.request_filter o parse crates escape_debug table a).Passes s log t ctx) :
    e.Permitted parse crates table a log ctx := by
  obtain ⟨route, path, hrouted, hpolicy⟩ := request_filter_routed h
  obtain ⟨⟨-, hsize, hreserved⟩, hpath, -, hfound, hmachine⟩ := route_request_ok.mp hrouted
  obtain ⟨hmatch, hupstream⟩ := find_route_ok hfound
  -- The stages of `check_policy`, one after the other.
  obtain ⟨_, _, caller, _, hidentify, hauthorize, rfl⟩ := passes_bind.mp hpolicy
  obtain ⟨log₁, s₁, ⟨⟩, _, hlimit₁, hkeyed, rfl⟩ := passes_bind.mp hidentify
  obtain ⟨client_key_id, hkey, hread⟩ := passes_lift_bind.mp hkeyed
  obtain ⟨token, htoken, hverifying⟩ := passes_lift_bind.mp hread
  obtain ⟨log₂, s₂, identity, _, hverify, hpure, rfl⟩ := passes_bind.mp hverifying
  obtain ⟨rfl, rfl, rfl⟩ := passes_pure.mp hpure
  obtain ⟨log₃, s₃, ⟨⟩, _, hlimit₂, hbound, rfl⟩ := passes_bind.mp hauthorize
  obtain ⟨⟨⟩, hbindings, hplanned⟩ := passes_lift_bind.mp hbound
  obtain ⟨plan, -, hextended⟩ := passes_lift_bind.mp hplanned
  obtain ⟨log₄, s₄, plan', _, hextensions, hslotted, rfl⟩ := passes_bind.mp hextended
  obtain ⟨slot, hslot, hpure⟩ := passes_lift_bind.mp hslotted
  obtain ⟨rfl, rfl, rfl⟩ := passes_pure.mp hpure
  have hverified := verify_token_passes hverify
  refine {
    small := not_over_limit hsize
    unreserved := not_reserved hreserved
    located := locate_ok hpath
    allowlisted := hmatch
    upstream := hupstream
    machine := check_machine_ok.mp hmachine
    limit := fun cfg hcfg => ?_
    client_key := check_client_key_ok hkey
    anonymous := fun hnone => ?_
    identified := fun id hid => ?_
    bindings := check_bindings_ok hbindings
    extensions := fun hne => ?_
    concurrency := key_slot_ok hslot }
  · obtain ⟨hne, hfirst⟩ | ⟨heq, hsecond⟩ := limit_cases hcfg
    · have hpassed := check_rate_limit_passes hlimit₁ cfg hfirst
      rw [subject_of, if_neg hne]
      exact hpassed.mono (by simp)
    · have hpassed := check_rate_limit_passes hlimit₂ cfg hsecond
      rw [subject_of, if_pos heq]
      exact hpassed.mono (by intro c hc; simp [hc])
  · obtain ⟨rfl, -⟩ | ⟨_, _, _, -, hsome, -⟩ := hverified
    · exact read_token_none htoken
    · exact absurd (hnone.symm.trans hsome) (by simp)
  · obtain ⟨-, rfl⟩ | ⟨token', credential, id', rfl, rfl, hmem⟩ := hverified
    · cases hid
    · cases hid
      obtain ⟨horigin, hpresented⟩ := read_token_ok htoken
      obtain ⟨hverifies, hshort⟩ := read_token_some htoken
      exact ⟨hverifies, token', credential, hpresented, rfl, hshort, horigin, by simp [hmem]⟩
  · obtain ⟨chain, hmem, -⟩ := run_extensions_passes hextensions hne
    exact ⟨chain, by simp [hmem]⟩

/-- Where a request goes that the filter lets through. -/
theorem proceed_passes {source : Source} (h : (e.proceed o ctx a).Passes s log t source) :
    (source = .cache ∧ e.uses_cache ctx a.request = true ∧ .cache true ∈ log)
      ∨ source = .upstream ∧ (∀ slot ∈ ctx.concurrency, .slot slot true ∈ log)
        ∧ (ctx.route.upstream ∈ e.breakers → .circuit ctx.route.upstream none ∈ log) := by
  obtain ⟨log₁, s₁, found, log₂, hlookup, hrest, rfl⟩ := passes_bind.mp h
  cases found with
  | true =>
    obtain ⟨rfl, rfl, rfl⟩ := passes_pure.mp hrest
    unfold Entry.look_up at hlookup
    split at hlookup
    · rename_i huses
      obtain ⟨rfl, -⟩ := passes_ask.mp hlookup
      exact .inl ⟨rfl, huses, by simp⟩
    · obtain ⟨-, -, hfound⟩ := passes_pure.mp hlookup
      cases hfound
  | false =>
    obtain ⟨log₃, s₃, ⟨⟩, _, hpending, hasked, rfl⟩ := passes_bind.mp hrest
    obtain ⟨log₄, s₄, ⟨⟩, _, hcircuit, hpure, rfl⟩ := passes_bind.mp hasked
    obtain ⟨rfl, rfl, rfl⟩ := passes_pure.mp hpure
    refine .inr ⟨rfl, fun slot hslot => ?_, fun hbreaker => ?_⟩
    · have hmem := take_pending_passes hpending slot hslot
      simp [hmem]
    · have hmem := ask_circuit_passes hcircuit hbreaker
      simp [hmem]

/-- **Nothing is answered but through every gate of its route.** -/
theorem admitted_cleared {source : Source}
    (h : (e.receive o parse crates escape_debug table a).Passes s log t (ctx, source)) :
    e.Cleared parse crates table a log ctx source := by
  obtain ⟨log₁, m, ctx', _, hfilter, hrest, rfl⟩ := passes_bind.mp h
  obtain ⟨log₂, m', source', _, hproceed, hpure, rfl⟩ := passes_bind.mp hrest
  obtain ⟨rfl, rfl, hpair⟩ := passes_pure.mp hpure
  cases hpair
  have hpermitted := (request_filter_permitted hfilter).mono
    (List.subset_append_left log₁ (log₂ ++ []))
  obtain ⟨rfl, huses, hhit⟩ | ⟨rfl, hslot, hcircuit⟩ :=
    proceed_passes (passes_mapError.mp hproceed)
  · refine { toPermitted := hpermitted, cached := fun _ => ?_, slot := ?_, circuit := ?_ }
    rotate_left
    · simp
    · simp
    simp only [Entry.uses_cache, Bool.and_eq_true, Bool.or_eq_true, beq_iff_eq,
      Bool.not_eq_true', List.isEmpty_iff] at huses
    obtain ⟨⟨⟨⟨-, hcache⟩, hmethod⟩, hsse⟩, hcookie⟩ := huses
    exact ⟨hcache, hsse, hmethod, hcookie, by simp [hhit]⟩
  · exact {
      toPermitted := hpermitted
      cached := by simp
      slot := fun _ slot hpending => by simp [hslot slot hpending]
      circuit := fun _ hbreaker => by simp [hcircuit hbreaker] }

end

namespace CappedUsers

/-- Users are counted by their address, and two are served at a time. -/
def route : RouteInput where
  path_prefix := "users".toList
  upstream := "users".toList
  rate_limit := some (some
    { requests := 10, interval := 1000000000, key := .Ip, missing_key := .Reject
      trusted_proxies := 0, max_keys := 1000, counter := .Exact, mode := .Approximate })
  concurrency := some { max := 2, key := some .Route, missing_key := .Reject, trusted_proxies := 0 }

def table : RouteTable :=
  (RouteTable.build_with 0
    { internal := [], machine := [], optional := [], «public» := []
      authenticated := [RouteConfig.of_input route] }
    { rate_limit := none, retry := none, methods := none } false).partition_by_listener.1

def entry : Entry where
  door := AppWrites.listener.door
  timeouts := ⟨30000000000, 120000000000, 300000000000⟩
  breakers := ["users".toList]
  has_cache := true

def user : Identity := ⟨"7".toList, "https://id".toList, [], []⟩

/-- Everyone says yes; the world counts how often it was asked. -/
def outside : Outside ℕ where
  decide _ _ n := (.allow 10 9, n + 1)
  verify _ n := (.ok user, n + 1)
  run_chain _ n := (.ok .idle, n + 1)
  hit _ _ n := (false, n + 1)
  take _ n := (true, n + 1)
  allow _ n := (none, n + 1)

/-- What a page of the application writes. -/
def arrival : Arrival where
  request := AppWrites.request
  query := none
  peer := some "10.0.0.7".toList
  draws := ⟨"0b5c".toList, [], [], 0, fun _ => false⟩

end CappedUsers

open CappedUsers in
/-- A user's write reaches the upstream through four gates. -/
theorem admitted_cleared_user : ∃ log ctx, log.length = 4
    ∧ entry.Cleared AppWrites.parse plain_crates table arrival log ctx .upstream := by
  obtain ⟨⟨ctx, source⟩, h⟩ | ⟨halt, h⟩ := passes_or_fails
    (entry.receive outside AppWrites.parse plain_crates (fun c => [c]) table arrival) 0
  · have hsource : ((entry.receive outside AppWrites.parse plain_crates (fun c => [c]) table
        arrival).result 0).toOption.map Prod.snd = some .upstream := by decide +kernel
    rw [h.result] at hsource
    cases hsource
    exact ⟨_, ctx, by decide +kernel, admitted_cleared h⟩
  · have hsource : ((entry.receive outside AppWrites.parse plain_crates (fun c => [c]) table
        arrival).result 0).toOption.isSome = true := by decide +kernel
    rw [h.result] at hsource
    cases hsource

end Lagos.Outbound
