/-
In what order a request asks, and what it has passed by then (`request_filter` and
`proxy_upstream_filter`).

These are statements about every request, let in or not, and whatever is answered. A request asks
each of the parties outside once at most, in an order that depends on its route alone, and after an
answer that refuses it asks nothing more and is not answered from behind the gates
(`consults_in_order`). And what is dear is asked only of requests that have passed what is cheap
(`dear_consults_guarded`): no signature is checked for a request that its limit refused or that
lacks the client key, and no circuit admits a request as a trial that was refused a slot.
-/
import Lagos.Mediation

set_option autoImplicit false

open RustStd

namespace Lagos.Outbound

open Lagos.Admission Lagos.Auth Lagos.Config Lagos.Csrf Lagos.Error Lagos.Headers Lagos.Path
open Lagos.Routes
open Lagos.Jwks (AuthError)
open Lagos.Proxy (PendingSlot)
open Asking

/-! ## The order -/

/-- Where a question stands. A limit by the subject comes after the verifier. -/
def Consult.rank (by_identity : Bool) : Consult → ℕ
  | .limit _ _ => if by_identity then 2 else 0
  | .verify _ _ => 1
  | .extensions _ _ => 3
  | .cache _ => 4
  | .slot _ _ => 5
  | .circuit _ _ => 6

/-- An answer that turns the request away. -/
def Consult.refuses : Consult → Bool
  | .limit _ decision => !decision.allowed
  | .verify _ (.error _) => true
  | .extensions _ (.error _) => true
  | .slot _ granted => !granted
  | .circuit _ (some _) => true
  | _ => false

/-- Whether a route counts its callers by who they are. -/
def limits_identity (route : RouteConfig) : Bool := (limit_of route).any fun cfg => cfg.key = .Identity

section Stages

variable {σ : Type} (e : Entry) (o : Outside σ) (parse : Str → Option Url) (crates : Crates)
  (escape_debug : Char → Str) (route : RouteConfig) (path : Str) (a : Arrival)

theorem first_limit_identity {cfg : RateLimitConfig} (h : cfg ∈ first_limit route) :
    limits_identity route = false := by
  obtain ⟨hlimit, hkey⟩ := Option.filter_eq_some_iff.mp h
  rw [limits_identity, hlimit, Option.any_some]
  simpa using hkey

theorem second_limit_identity {cfg : RateLimitConfig} (h : cfg ∈ second_limit route) :
    limits_identity route = true := by
  obtain ⟨hlimit, hkey⟩ := Option.filter_eq_some_iff.mp h
  rw [limits_identity, hlimit, Option.any_some]
  exact hkey

theorem staged_check_rate_limit (subject : Option Str) (limit : Option RateLimitConfig)
    {by_identity : Bool} {n : ℕ} (h : ∀ cfg ∈ limit, (if by_identity then 2 else 0) = n) :
    Staged (Consult.rank by_identity) n (n + 1)
      (e.check_rate_limit o crates route subject a limit) := by
  unfold Entry.check_rate_limit
  split
  · exact staged_pure _
  · rename_i cfg
    split
    · exact staged_fail _
    · exact staged_pure _
    · rename_i key hkey
      have hrank : ∀ decision, (Consult.limit key decision).rank by_identity = n :=
        fun _ => h cfg rfl
      refine staged_bind (Nat.le_succ n) le_rfl (staged_ask _ hrank) fun decision => ?_
      split
      · exact staged_pure _
      · exact staged_fail _

theorem staged_verify_token (by_identity : Bool) (token : Option (Str × Credential)) :
    Staged (Consult.rank by_identity) 1 2 (verify_token o escape_debug token) := by
  unfold verify_token
  split
  · exact staged_pure _
  · rename_i token _
    have hrank : ∀ answer, (Consult.verify token answer).rank by_identity = 1 := fun _ => rfl
    exact staged_bind (by decide) le_rfl (staged_ask _ hrank) fun _ => staged_lift _

theorem staged_run_extensions (by_identity : Bool) (identity : Option Identity)
    (plan : HeaderPlan) :
    Staged (Consult.rank by_identity) 3 4 (run_extensions o route path identity plan a) := by
  unfold run_extensions
  split
  · exact staged_pure _
  · have hrank : ∀ answer, (Consult.extensions route.extensions answer).rank by_identity = 3 :=
      fun _ => rfl
    exact staged_bind (by decide) le_rfl (staged_ask _ hrank) fun _ => staged_lift _

/-- The first limit comes first. -/
theorem staged_first_limit :
    Staged (Consult.rank (limits_identity route)) 0 1
      (e.check_rate_limit o crates route none a (first_limit route)) := by
  refine staged_check_rate_limit e o crates route a none _ fun cfg hcfg => ?_
  rw [first_limit_identity route hcfg]
  rfl

theorem staged_identify :
    Staged (Consult.rank (limits_identity route)) 0 2
      (e.identify o parse crates escape_debug route path a) := by
  unfold Entry.identify
  refine staged_bind (m := 1) (by decide) (by decide) (staged_first_limit e o crates route a)
    fun _ => ?_
  refine staged_bind (m := 1) le_rfl (by decide) (staged_lift _) fun client_key_id => ?_
  refine staged_bind (m := 1) le_rfl (by decide) (staged_lift _) fun token => ?_
  exact staged_bind (m := 2) (by decide) le_rfl (staged_verify_token o escape_debug _ token)
    fun identity => staged_pure _

theorem staged_authorize (caller : Caller) :
    Staged (Consult.rank (limits_identity route)) 2 4 (e.authorize o crates route path a caller) := by
  unfold Entry.authorize
  refine staged_bind (m := 3) (by decide) (by decide) ?_ fun _ => ?_
  · refine staged_check_rate_limit e o crates route a _ _ fun cfg hcfg => ?_
    rw [second_limit_identity route hcfg]
    rfl
  refine staged_bind (m := 3) le_rfl (by decide) (staged_lift _) fun _ => ?_
  refine staged_bind (m := 3) le_rfl (by decide) (staged_lift _) fun plan => ?_
  refine staged_bind (m := 4) (by decide) le_rfl
    (staged_run_extensions o route path a _ caller.identity plan) fun plan => ?_
  exact staged_bind (m := 4) le_rfl le_rfl (staged_lift _) fun slot => staged_pure _

theorem staged_check_policy :
    Staged (Consult.rank (limits_identity route)) 0 4
      (e.check_policy o parse crates escape_debug route path a) :=
  staged_bind (by decide) (by decide) (staged_identify e o parse crates escape_debug route path a)
    (staged_authorize e o crates route path a)

theorem staged_look_up (by_identity : Bool) (ctx : Admitted) :
    Staged (Consult.rank by_identity) 4 5 (e.look_up o ctx a) := by
  have hrank : ∀ hit, (Consult.cache hit).rank by_identity = 4 := fun _ => rfl
  unfold Entry.look_up
  split
  · exact staged_ask _ hrank
  · exact staged_pure _

theorem staged_take_pending (by_identity : Bool) (ctx : Admitted) :
    Staged (Consult.rank by_identity) 5 6 (take_pending o ctx) := by
  unfold take_pending
  split
  · exact staged_pure _
  · rename_i slot hslot
    have hrank : ∀ granted, (Consult.slot slot granted).rank by_identity = 5 := fun _ => rfl
    refine staged_bind (by decide) le_rfl (staged_ask _ hrank) fun granted => ?_
    split
    · exact staged_pure _
    · exact staged_fail _

theorem staged_ask_circuit (by_identity : Bool) (ctx : Admitted) :
    Staged (Consult.rank by_identity) 6 7 (e.ask_circuit o ctx) := by
  have hrank : ∀ cooldown, (Consult.circuit ctx.route.upstream cooldown).rank by_identity = 6 :=
    fun _ => rfl
  unfold Entry.ask_circuit
  split
  · refine staged_bind (by decide) le_rfl (staged_ask _ hrank) fun answer => ?_
    split
    · exact staged_pure _
    · exact staged_fail _
  · exact staged_pure _

theorem staged_proceed (by_identity : Bool) (ctx : Admitted) :
    Staged (Consult.rank by_identity) 4 7 (e.proceed o ctx a) := by
  unfold Entry.proceed
  refine staged_bind (m := 5) (by decide) (by decide) (staged_look_up e o a _ ctx)
    fun found => ?_
  split
  · exact staged_pure _
  refine staged_bind (m := 6) (by decide) (by decide) (staged_take_pending o _ ctx) fun _ => ?_
  exact staged_bind (m := 7) (by decide) le_rfl (staged_ask_circuit e o _ ctx)
    fun _ => staged_pure _

/-! ## Refusals are final -/

theorem closed_check_rate_limit (subject : Option Str) (limit : Option RateLimitConfig) :
    Closed (Consult.refuses · = true) (e.check_rate_limit o crates route subject a limit) := by
  unfold Entry.check_rate_limit
  split
  · exact closed_pure _
  · split
    · exact closed_fail _
    · exact closed_pure _
    · refine closed_ask_bind (fun decision => ?_) fun decision hrefused => ?_
      · split
        · exact closed_pure _
        · exact closed_fail _
      · have hnot : decision.allowed = false := by simpa [Consult.refuses] using hrefused
        rw [if_neg (by rw [hnot]; decide)]
        exact ⟨_, rfl⟩

theorem closed_verify_token (token : Option (Str × Credential)) :
    Closed (Consult.refuses · = true) (verify_token o escape_debug token) := by
  unfold verify_token
  split
  · exact closed_pure _
  · refine closed_ask_bind (fun _ => closed_lift _) fun answer hrefused => ?_
    cases answer with
    | error error => exact ⟨_, rfl⟩
    | ok id => cases hrefused

theorem closed_run_extensions (identity : Option Identity) (plan : HeaderPlan) :
    Closed (Consult.refuses · = true) (run_extensions o route path identity plan a) := by
  unfold run_extensions
  split
  · exact closed_pure _
  · refine closed_ask_bind (fun _ => closed_lift _) fun answer hrefused => ?_
    cases answer with
    | error rejection => exact ⟨_, rfl⟩
    | ok chain => cases hrefused

theorem closed_check_policy :
    Closed (Consult.refuses · = true) (e.check_policy o parse crates escape_debug route path a) := by
  refine closed_bind ?_ fun caller => ?_
  · refine closed_bind (closed_check_rate_limit e o crates route a _ _) fun _ => ?_
    refine closed_bind (closed_lift _) fun client_key_id => ?_
    refine closed_bind (closed_lift _) fun token => ?_
    exact closed_bind (closed_verify_token o escape_debug token) fun identity => closed_pure _
  · refine closed_bind (closed_check_rate_limit e o crates route a _ _) fun _ => ?_
    refine closed_bind (closed_lift _) fun _ => ?_
    refine closed_bind (closed_lift _) fun plan => ?_
    refine closed_bind (closed_run_extensions o route path a _ plan) fun plan => ?_
    exact closed_bind (closed_lift _) fun slot => closed_pure _

theorem closed_proceed (ctx : Admitted) :
    Closed (Consult.refuses · = true) (e.proceed o ctx a) := by
  unfold Entry.proceed
  refine closed_bind ?_ fun found => ?_
  · unfold Entry.look_up
    split
    · have hfree : ∀ hit, ¬ (Consult.cache hit).refuses = true := fun _ => Bool.false_ne_true
      exact closed_ask hfree
    · exact closed_pure _
  split
  · exact closed_pure _
  refine closed_bind ?_ fun _ => closed_bind ?_ fun _ => closed_pure _
  · unfold take_pending
    split
    · exact closed_pure _
    · refine closed_ask_bind (fun granted => ?_) fun granted hrefused => ?_
      · split
        · exact closed_pure _
        · exact closed_fail _
      · have hnot : granted = false := by simpa [Consult.refuses] using hrefused
        rw [if_neg (by rw [hnot]; decide)]
        exact ⟨_, rfl⟩
  · unfold Entry.ask_circuit
    split
    · refine closed_ask_bind (fun answer => ?_) fun answer hrefused => ?_
      · split
        · exact closed_pure _
        · exact closed_fail _
      · cases answer with
        | none => cases hrefused
        | some cooldown => exact ⟨_, rfl⟩
    · exact closed_pure _

end Stages

section

variable {σ : Type} (e : Entry) (o : Outside σ) (parse : Str → Option Url) (crates : Crates)
  (escape_debug : Char → Str) (table : RouteTable) (a : Arrival) (s : σ)

/-- Whether the route of a request counts its callers by who they are. -/
def Entry.counts_identity : Bool :=
  match e.door.site.route_request table a.request with
  | .ok (route, _) => limits_identity route
  | .error _ => false

theorem staged_request_filter :
    Staged (Consult.rank (e.counts_identity table a)) 0 4
      (e.request_filter o parse crates escape_debug table a) := by
  unfold Entry.request_filter Entry.counts_identity
  cases e.door.site.route_request table a.request with
  | error stop => exact staged_lift _
  | ok routed =>
    exact (staged_check_policy e o parse crates escape_debug routed.1 routed.2 a).mapError _

theorem staged_receive :
    Staged (Consult.rank (e.counts_identity table a)) 0 7
      (e.receive o parse crates escape_debug table a) := by
  refine staged_bind (by decide) (by decide)
    (staged_request_filter e o parse crates escape_debug table a) fun ctx => ?_
  exact staged_bind (by decide) le_rfl ((staged_proceed e o a _ ctx).mapError _)
    fun _ => staged_pure _

theorem closed_receive :
    Closed (Consult.refuses · = true) (e.receive o parse crates escape_debug table a) := by
  refine closed_bind (closed_bind (closed_lift _) fun routed =>
    (closed_check_policy e o parse crates escape_debug _ _ a).mapError _) fun ctx => ?_
  exact closed_bind ((closed_proceed e o a ctx).mapError _) fun _ => closed_pure _

/-- **Each party is asked once at most, in one order, and the first refusal is the end.** -/
theorem consults_in_order :
    ((e.receive o parse crates escape_debug table a).asked s).Pairwise (fun c d =>
        c.rank (e.counts_identity table a) < d.rank (e.counts_identity table a))
      ∧ ∀ pre c post, (e.receive o parse crates escape_debug table a).asked s = pre ++ c :: post →
        c.refuses = true → post = []
          ∧ ∃ halt, (e.receive o parse crates escape_debug table a).result s = .error halt :=
  ⟨(staged_receive e o parse crates escape_debug table a s).1,
    closed_receive e o parse crates escape_debug table a s⟩

end

/-! ## What comes first -/

/-- What a request has passed whose token is given to the verifier. -/
structure Entry.WorthVerifying (e : Entry) (parse : Str → Option Url) (crates : Crates)
    (table : RouteTable) (a : Arrival) (log : List Consult) (token : Str) (route : RouteConfig)
    (path : Str) : Prop where
  routed : e.door.site.route_request table a.request = .ok (route, path)
  reads : route.auth.verifies = true
  limit : ∀ cfg ∈ first_limit route, e.LimitPassed crates route none a log cfg
  client_key : e.gateway.serves_machine = false →
    e.gateway.cfg.client_key_rule route path = .Required →
    ∃ client_key_id, e.gateway.KeyPresented crates a.request.headers client_key_id
  presented : ∃ credential, e.door.presented a.request.headers = some (token, credential)
  short : len token ≤ e.door.max_token
  origin : e.door.check_origin parse a.request = .ok ()

section

variable {σ : Type} {e : Entry} {o : Outside σ} {parse : Str → Option Url} {crates : Crates}
  {escape_debug : Char → Str} {table : RouteTable} {a : Arrival} {s : σ} {route : RouteConfig}
  {path token : Str} {answer : Except AuthError Identity}

theorem verify_of_identify
    (h : .verify token answer ∈ (e.identify o parse crates escape_debug route path a).asked s)
    (hrouted : e.door.site.route_request table a.request = .ok (route, path)) :
    e.WorthVerifying parse crates table a
      ((e.identify o parse crates escape_debug route path a).asked s) token route path := by
  obtain hfirst | ⟨log, m, ⟨⟩, hlimit, hkeyed⟩ := mem_asked_bind.mp h
  · -- The limiter comes before the verifier.
    have hrank := (staged_first_limit e o crates route a s).2 _ hfirst
    exact absurd hrank.2 (lt_irrefl 1)
  obtain ⟨client_key_id, hkey, hread⟩ := mem_asked_lift_bind.mp hkeyed
  obtain ⟨read, htoken, hverifying⟩ := mem_asked_lift_bind.mp hread
  obtain hverify | ⟨_, _, identity, -, hpure⟩ := mem_asked_bind.mp hverifying
  · cases read with
    | none => exact absurd hverify List.not_mem_nil
    | some read =>
      obtain hask | ⟨_, _, _, -, hlift⟩ := mem_asked_bind.mp hverify
      · cases List.mem_singleton.mp hask
        obtain ⟨horigin, hpresented⟩ := read_token_ok htoken
        obtain ⟨hreads, hshort⟩ := read_token_some htoken
        exact {
          routed := hrouted
          reads := hreads
          limit := fun cfg hcfg =>
            (check_rate_limit_passes hlimit cfg hcfg).mono (Passes.subset_bind hlimit)
          client_key := fun hserves hrule => ⟨_, check_client_key_ok hkey hserves hrule⟩
          presented := ⟨_, hpresented⟩
          short := hshort
          origin := horigin }
      · exact absurd hlift List.not_mem_nil
  · exact absurd hpure List.not_mem_nil

theorem Entry.WorthVerifying.mono {log log' : List Consult}
    (h : e.WorthVerifying parse crates table a log token route path) (hsub : log ⊆ log') :
    e.WorthVerifying parse crates table a log' token route path :=
  { h with limit := fun cfg hcfg => (h.limit cfg hcfg).mono hsub }

theorem verify_of_request_filter
    (h : .verify token answer ∈ (e.request_filter o parse crates escape_debug table a).asked s) :
    ∃ route path, e.WorthVerifying parse crates table a
      ((e.request_filter o parse crates escape_debug table a).asked s) token route path := by
  obtain ⟨⟨route, path⟩, hrouted, hpolicy⟩ := mem_asked_lift_bind.mp h
  have hrouted : e.door.site.route_request table a.request = .ok (route, path) := by
    cases hroute : e.door.site.route_request table a.request with
    | error stop =>
      rw [hroute] at hrouted
      cases hrouted
    | ok routed =>
      rw [hroute] at hrouted
      cases hrouted
      rfl
  have hsame : (e.request_filter o parse crates escape_debug table a).asked s
      = (e.check_policy o parse crates escape_debug route path a).asked s := by
    rw [Entry.request_filter, hrouted]
    rfl
  change _ ∈ (e.check_policy o parse crates escape_debug route path a).asked s at hpolicy
  obtain hidentify | ⟨_, m, caller, hidentify, hauthorize⟩ := mem_asked_bind.mp hpolicy
  · rw [hsame]
    refine ⟨route, path, (verify_of_identify hidentify hrouted).mono fun c hc => ?_⟩
    exact mem_asked_bind.mpr (.inl hc)
  · -- Nothing that follows the verifier asks it again.
    have hrank : 2 ≤ 1 := ((staged_authorize e o crates route path a caller m).2 _ hauthorize).1
    exact absurd hrank (by decide)

/-- What comes before the circuit. -/
theorem circuit_of_proceed {ctx : Admitted} {upstream : Str} {cooldown : Option ℕ}
    (h : .circuit upstream cooldown ∈ (e.proceed o ctx a).asked s) :
    ctx.route.upstream = upstream
      ∧ ∀ slot ∈ ctx.concurrency, .slot slot true ∈ (e.proceed o ctx a).asked s := by
  obtain hlook | ⟨_, m, found, hlook, hrest⟩ := mem_asked_bind.mp h
  · have hrank : 6 < 5 := ((staged_look_up e o a false ctx s).2 _ hlook).2
    exact absurd hrank (by decide)
  cases found with
  | true => exact absurd hrest List.not_mem_nil
  | false =>
    obtain hslot | ⟨log, m', ⟨⟩, hslot, hasked⟩ := mem_asked_bind.mp hrest
    · have hrank : 6 < 6 := ((staged_take_pending o false ctx m).2 _ hslot).2
      exact absurd hrank (by decide)
    refine ⟨?_, fun slot hpending => ?_⟩
    · obtain hcircuit | ⟨_, _, ⟨⟩, -, hpure⟩ := mem_asked_bind.mp hasked
      · unfold Entry.ask_circuit at hcircuit
        split at hcircuit
        · obtain hask | ⟨_, _, answer, -, hanswer⟩ := mem_asked_bind.mp hcircuit
          · cases List.mem_singleton.mp hask
            rfl
          · cases answer <;> exact absurd hanswer List.not_mem_nil
        · exact absurd hcircuit List.not_mem_nil
      · exact absurd hpure List.not_mem_nil
    · exact hlook.subset_bind_right (hslot.subset_bind (take_pending_passes hslot slot hpending))

end

/-- **What is dear is asked only behind what is cheap.** -/
theorem dear_consults_guarded {σ : Type} (e : Entry) (o : Outside σ) (parse : Str → Option Url)
    (crates : Crates) (escape_debug : Char → Str) (table : RouteTable) (a : Arrival) (s : σ) :
    (∀ token answer,
      .verify token answer ∈ (e.receive o parse crates escape_debug table a).asked s →
        ∃ route path, e.WorthVerifying parse crates table a
          ((e.receive o parse crates escape_debug table a).asked s) token route path)
      ∧ ∀ upstream cooldown,
        .circuit upstream cooldown ∈ (e.receive o parse crates escape_debug table a).asked s →
          ∃ ctx, e.Permitted parse crates table a
              ((e.receive o parse crates escape_debug table a).asked s) ctx
            ∧ ctx.route.upstream = upstream ∧ ∀ slot ∈ ctx.concurrency,
              .slot slot true ∈ (e.receive o parse crates escape_debug table a).asked s := by
  refine ⟨fun token answer h => ?_, fun upstream cooldown h => ?_⟩
  · obtain hfilter | ⟨_, m, ctx, -, hproceed⟩ := mem_asked_bind.mp h
    · obtain ⟨route, path, hworth⟩ := verify_of_request_filter hfilter
      exact ⟨route, path, hworth.mono fun c hc => mem_asked_bind.mpr (.inl hc)⟩
    · obtain hproceed | ⟨_, _, _, -, hpure⟩ := mem_asked_bind.mp hproceed
      · have hrank : 4 ≤ 1 := ((staged_proceed e o a false ctx m).2 _ hproceed).1
        exact absurd hrank (by decide)
      · exact absurd hpure List.not_mem_nil
  · obtain hfilter | ⟨_, m, ctx, hfilter, hrest⟩ := mem_asked_bind.mp h
    · have hrank : 6 < 4 :=
        ((staged_request_filter e o parse crates escape_debug table a s).2 _ hfilter).2
      exact absurd hrank (by decide)
    · obtain hproceed | ⟨_, _, _, -, hpure⟩ := mem_asked_bind.mp hrest
      · obtain ⟨hupstream, hslots⟩ := circuit_of_proceed hproceed
        refine ⟨ctx, (request_filter_permitted hfilter).mono hfilter.subset_bind, hupstream,
          fun slot hslot => hfilter.subset_bind_right (mem_asked_bind.mpr (.inl ?_))⟩
        exact hslots slot hslot
      · exact absurd hpure List.not_mem_nil

end Lagos.Outbound
