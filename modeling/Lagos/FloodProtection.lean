/-
How many signatures are checked for one caller (`request_filter`, with a limiter that counts in
one process).

A token is verified before its bearer has proved anything, so what bounds the checks is the limit
that was asked before. `Entry.serve` is a run of requests in the order in which their limits are
asked, through limiters that keep windows for their keys; the verifier, the extensions and the rest
are as they like. What becomes of a key's window is the history of the times at which the requests
of that key came, and a request whose token is verified is one that the history allowed
(`verifications_le_admissions`). So in any time of one interval at most twice the limit of one key
are verified (`verifier_not_flooded`).
-/
import Lagos.Consults

set_option autoImplicit false

open RustStd

namespace Lagos.Outbound

open Lagos.Admission Lagos.Auth Lagos.Config Lagos.Csrf Lagos.Error Lagos.Headers Lagos.Routes
open Lagos.RateLimit (Decision Window History Limiter checks admissions_in_span)
open Asking

/-! ## Limiters that count -/

/-- The time, the windows that the limiter of each route keeps, and the rest of the world. -/
structure Counting (τ : Type) where
  now : Instant
  windows : RouteConfig → AList fun _ : Str => Window
  rest : τ

/-- The limiter of a policy that counts exactly, in one process. -/
def exact_limiter (cfg : RateLimitConfig) : Limiter Unit where
  counters := .Exact ∅
  limit := cfg.requests
  interval := cfg.interval
  mode := .Approximate

/-- An answer from the rest of the world. -/
def Counting.elsewhere {τ α : Type} (answer : τ → α × τ) (w : Counting τ) : α × Counting τ :=
  ((answer w.rest).1, { w with rest := (answer w.rest).2 })

/-- The answer of a limiter, at the time of the world. -/
def Counting.decide {τ : Type} (route : RouteConfig) (key : Str) (w : Counting τ) :
    Decision × Counting τ :=
  match limit_of route with
  | none => (.allow 0 0, w)
  | some cfg =>
    let (windows, decision) := (exact_limiter cfg).check_exact ℚ (w.windows route) key w.now
    (decision, { w with windows := Function.update w.windows route windows })

/-- The limiters count, and all others answer as they did. -/
def Outside.counting {τ : Type} (o : Outside τ) : Outside (Counting τ) where
  decide := Counting.decide
  verify token := Counting.elsewhere (o.verify token)
  run_chain cx := Counting.elsewhere (o.run_chain cx)
  hit ctx headers := Counting.elsewhere (o.hit ctx headers)
  take slot := Counting.elsewhere (o.take slot)
  allow upstream := Counting.elsewhere (o.allow upstream)

/-! ## A run of requests -/

/-- A request that was served: when its limit was asked, and all that it asked. -/
structure Served where
  now : Instant
  arrival : Arrival
  log : List Consult

def Consult.is_verify : Consult → Bool
  | .verify _ _ => true
  | _ => false

section Serve

variable {τ : Type} (e : Entry) (o : Outside τ) (parse : Str → Option Url) (crates : Crates)
  (escape_debug : Char → Str) (table : RouteTable)

/-- Requests, one after the other, each at its time. -/
def Entry.serve : List (Instant × Arrival) → Counting τ → List Served
  | [], _ => []
  | (now, a) :: rest, w =>
    let x := e.receive o.counting parse crates escape_debug table a
    ⟨now, a, x.asked { w with now := now }⟩ :: Entry.serve rest (x.after { w with now := now })

/-- Whether a request is counted on this route, under this key. -/
def Entry.counts (route : RouteConfig) (cfg : RateLimitConfig) (key : Str) (a : Arrival) : Bool :=
  match e.door.site.route_request table a.request with
  | .ok (matched, _) => matched == route
    && (limit_key e.gateway crates a.request.headers (.of_limit cfg) route.id none a.peer).toOption
      == some (some key)
  | .error _ => false

end Serve

section

variable {τ : Type} {e : Entry} {o : Outside τ} {parse : Str → Option Url} {crates : Crates}
  {escape_debug : Char → Str} {table : RouteTable} {route matched : RouteConfig} {path key : Str}
  {cfg : RateLimitConfig} {a : Arrival} {w : Counting τ}

theorem decide_other (h : matched ≠ route) (k : Str) :
    (Counting.decide matched k w).2.windows route = w.windows route := by
  unfold Counting.decide
  split
  · rfl
  · exact Function.update_of_ne h.symm _ _

/-- A limit on another route leaves the windows of this one, -/
theorem leaves_other_limit (h : matched ≠ route) (subject : Option Str)
    (limit : Option RateLimitConfig) :
    Leaves (fun w : Counting τ => w.windows route)
      (e.check_rate_limit o.counting crates matched subject a limit) := by
  unfold Entry.check_rate_limit
  split
  · exact leaves_pure _
  · split
    · exact leaves_fail _
    · exact leaves_pure _
    · refine leaves_bind (leaves_ask fun w => decide_other h _) fun decision => ?_
      split
      · exact leaves_pure _
      · exact leaves_fail _

/-- and so does everyone who is not a limiter. -/
theorem leaves_elsewhere {α : Type} {record : α → Consult} (answer : τ → α × τ) :
    Leaves (fun w : Counting τ => w.windows route)
      (ask record (Counting.elsewhere answer) : Asking (Counting τ) Consult Refusal α) :=
  leaves_ask fun _ => rfl

theorem leaves_verify_token (token : Option (Str × Credential)) :
    Leaves (fun w : Counting τ => w.windows route)
      (verify_token o.counting escape_debug token) := by
  unfold verify_token
  split
  · exact leaves_pure _
  · exact leaves_bind (leaves_elsewhere _) fun _ => leaves_lift _

theorem leaves_authorize (h : second_limit matched = none ∨ matched ≠ route) (caller : Caller) :
    Leaves (fun w : Counting τ => w.windows route)
      (e.authorize o.counting crates matched path a caller) := by
  refine leaves_bind ?_ fun _ => leaves_bind (leaves_lift _) fun _ =>
    leaves_bind (leaves_lift _) fun plan => leaves_bind ?_ fun plan =>
    leaves_bind (leaves_lift _) fun _ => leaves_pure _
  · obtain hnone | hne := h
    · rw [hnone]
      exact leaves_pure _
    · exact leaves_other_limit hne _ _
  · unfold run_extensions
    split
    · exact leaves_pure _
    · exact leaves_bind (leaves_elsewhere _) fun _ => leaves_lift _

theorem leaves_proceed (ctx : Admitted) :
    Leaves (fun w : Counting τ => w.windows route) (e.proceed o.counting ctx a) := by
  refine leaves_bind ?_ fun found => ?_
  · unfold Entry.look_up
    split
    · exact leaves_elsewhere _
    · exact leaves_pure _
  split
  · exact leaves_pure _
  refine leaves_bind ?_ fun _ => leaves_bind ?_ fun _ => leaves_pure _
  · unfold take_pending
    split
    · exact leaves_pure _
    · refine leaves_bind (leaves_elsewhere _) fun granted => ?_
      split
      · exact leaves_pure _
      · exact leaves_fail _
  · unfold Entry.ask_circuit
    split
    · refine leaves_bind (leaves_elsewhere _) fun answer => ?_
      split
      · exact leaves_pure _
      · exact leaves_fail _
    · exact leaves_pure _

/-- What follows the first limit leaves the windows. -/
theorem windows_after_first (h : second_limit matched = none ∨ matched ≠ route) :
    ((e.check_policy o.counting parse crates escape_debug matched path a).after w).windows route
      = ((e.check_rate_limit o.counting crates matched none a (first_limit matched)).after
          w).windows route := by
  have hpart := part_after_bind (p := fun w : Counting τ => w.windows route)
    (x := e.identify o.counting parse crates escape_debug matched path a)
    (f := e.authorize o.counting crates matched path a) (leaves_authorize h) w
  refine hpart.trans ?_
  exact part_after_bind (p := fun w : Counting τ => w.windows route) (fun _ =>
    leaves_bind (leaves_lift _) fun _ => leaves_bind (leaves_lift _) fun _ =>
      leaves_bind (leaves_verify_token _) fun _ => leaves_pure _) w

/-- A request that is routed leaves the windows as its first limit does. -/
theorem windows_after_receive
    (hrouted : e.door.site.route_request table a.request = .ok (matched, path))
    (h : second_limit matched = none ∨ matched ≠ route) :
    ((e.receive o.counting parse crates escape_debug table a).after w).windows route
      = ((e.check_rate_limit o.counting crates matched none a (first_limit matched)).after
          w).windows route := by
  refine (part_after_bind (p := fun w : Counting τ => w.windows route) (fun ctx =>
    leaves_bind ((leaves_proceed ctx).mapError _) fun _ => leaves_pure _) w).trans ?_
  unfold Entry.request_filter
  rw [hrouted]
  exact windows_after_first h

/-- A request on another route leaves the windows of this one. -/
theorem windows_after_other
    (h : ∀ path, e.door.site.route_request table a.request ≠ .ok (route, path)) :
    ((e.receive o.counting parse crates escape_debug table a).after w).windows route
      = w.windows route := by
  cases hrouted : e.door.site.route_request table a.request with
  | error stop =>
    refine (part_after_bind (p := fun w : Counting τ => w.windows route) (fun ctx =>
      leaves_bind ((leaves_proceed ctx).mapError _) fun _ => leaves_pure _) w).trans ?_
    unfold Entry.request_filter
    rw [hrouted]
    rfl
  | ok routed =>
    obtain ⟨matched, path⟩ := routed
    have hne : matched ≠ route := by
      rintro rfl
      exact h path hrouted
    rw [windows_after_receive hrouted (.inr hne)]
    exact leaves_other_limit hne none (first_limit matched) w

/-! ## What a key's window becomes -/

theorem limits_of_first (h : cfg ∈ first_limit route) :
    limit_of route = some cfg ∧ second_limit route = none := by
  obtain ⟨hlimit, hkey⟩ := Option.filter_eq_some_iff.mp h
  refine ⟨hlimit, ?_⟩
  have hne : cfg.key ≠ .Identity := by simpa using hkey
  rw [second_limit, hlimit, Option.filter_some, if_neg (by simpa using hne)]

/-- A request that is counted is told what the window of its key says. -/
theorem check_first_limit (hcfg : cfg ∈ first_limit route) {k : Str}
    (hkey : limit_key e.gateway crates a.request.headers (.of_limit cfg) route.id none a.peer
      = .ok (some k)) :
    ((e.check_rate_limit o.counting crates route none a (first_limit route)).after w).windows route
        = ((exact_limiter cfg).check_exact ℚ (w.windows route) k w.now).1
      ∧ .limit k ((exact_limiter cfg).check_exact ℚ (w.windows route) k w.now).2
        ∈ (e.check_rate_limit o.counting crates route none a (first_limit route)).asked w := by
  have hdecide : Counting.decide route k w
      = (((exact_limiter cfg).check_exact ℚ (w.windows route) k w.now).2,
        { w with windows := (Function.update w.windows route
          ((exact_limiter cfg).check_exact ℚ (w.windows route) k w.now).1) }) := by
    rw [Counting.decide, (limits_of_first hcfg).1]
  rw [show first_limit route = some cfg from hcfg]
  unfold Entry.check_rate_limit
  dsimp only
  rw [hkey]
  dsimp only
  rw [after_ask_bind, asked_ask_bind]
  change _ = _ ∧ Consult.limit k _ ∈ Consult.limit k (Counting.decide route k w).1 :: _
  have hafter : ∀ (decision : Decision) (w' : Counting τ),
      ((if decision.allowed = true then pure ()
        else fail (.rate_limited (RateLimit.retry_after_secs decision)) :
          Asking (Counting τ) Consult Refusal Unit).after w') = w' := by
    intro decision w'
    cases decision.allowed <;> rfl
  rw [hafter]
  change (Counting.decide route k w).2.windows route = _ ∧ _
  rw [hdecide]
  exact ⟨Function.update_self _ _ _, List.mem_cons_self⟩

/-- One that is not counted leaves the windows. -/
theorem check_first_limit_uncounted (hcfg : cfg ∈ first_limit route)
    (hkey : ∀ k, limit_key e.gateway crates a.request.headers (.of_limit cfg) route.id none a.peer
      ≠ .ok (some k)) :
    ((e.check_rate_limit o.counting crates route none a (first_limit route)).after w).windows route
      = w.windows route := by
  rw [show first_limit route = some cfg from hcfg]
  unfold Entry.check_rate_limit
  dsimp only
  cases hlimit : limit_key e.gateway crates a.request.headers (.of_limit cfg) route.id none
    a.peer with
  | error error => rfl
  | ok key =>
    cases key with
    | none => rfl
    | some k => exact absurd hlimit (hkey k)

theorem counts_iff : e.counts crates table route cfg key a = true
    ↔ (∃ path, e.door.site.route_request table a.request = .ok (route, path))
      ∧ limit_key e.gateway crates a.request.headers (.of_limit cfg) route.id none a.peer
        = .ok (some key) := by
  have hoption : ∀ r : Except KeyError (Option Str), r.toOption = some (some key)
      ↔ r = .ok (some key) := by
    intro r
    cases r <;> simp [Except.toOption]
  unfold Entry.counts
  cases e.door.site.route_request table a.request with
  | error stop => simp
  | ok routed =>
    obtain ⟨matched, path⟩ := routed
    simp only [Bool.and_eq_true, beq_iff_eq, hoption, Except.ok.injEq, Prod.mk.injEq,
      exists_and_left, exists_eq', and_true]

/-- A request that is counted under a key makes one check of its window, -/
theorem lookup_after_counted (o : Outside τ) (parse : Str → Option Url)
    (escape_debug : Char → Str) (hcfg : cfg ∈ first_limit route)
    (hcounts : e.counts crates table route cfg key a = true) {h : History}
    (hw : (w.windows route).lookup key = h.window) :
    (((e.receive o.counting parse crates escape_debug table a).after w).windows route).lookup key
        = (h.check cfg.requests cfg.interval w.now).window
      ∧ .limit key (h.decision cfg.requests cfg.interval w.now)
        ∈ (e.receive o.counting parse crates escape_debug table a).asked w := by
  obtain ⟨⟨path, hrouted⟩, hkey⟩ := counts_iff.mp hcounts
  obtain ⟨hafter, hasked⟩ := check_first_limit (o := o) (w := w) hcfg hkey
  obtain ⟨hlookup, hdecision⟩ :=
    (exact_limiter cfg).check_exact_history (w.windows route) key w.now h hw
  rw [windows_after_receive hrouted (.inl (limits_of_first hcfg).2), hafter]
  refine ⟨hlookup, ?_⟩
  rw [hdecision] at hasked
  refine asked_subset_bind _ _ w ?_
  have hpolicy := asked_subset_bind _ (e.authorize o.counting crates route path a) w
    (asked_subset_bind _ (fun _ => .lift (e.gateway.check_client_key crates route path
      a.request.headers) >>= fun client_key_id => .lift (e.door.read_token parse route a.request)
      >>= fun token => verify_token o.counting escape_debug token >>= fun identity =>
        pure ⟨client_key_id, token.map Prod.snd, identity⟩) w hasked)
  unfold Entry.request_filter
  rw [hrouted]
  exact hpolicy

/-- and any other request leaves the window. -/
theorem lookup_after_uncounted (hcfg : cfg ∈ first_limit route)
    (hcounts : e.counts crates table route cfg key a = false) :
    (((e.receive o.counting parse crates escape_debug table a).after w).windows route).lookup key
      = (w.windows route).lookup key := by
  by_cases hroute : ∃ path, e.door.site.route_request table a.request = .ok (route, path)
  · obtain ⟨path, hrouted⟩ := hroute
    rw [windows_after_receive hrouted (.inl (limits_of_first hcfg).2)]
    by_cases hkey : ∃ k, limit_key e.gateway crates a.request.headers (.of_limit cfg) route.id none
        a.peer = .ok (some k)
    · obtain ⟨k, hk⟩ := hkey
      have hne : key ≠ k := by
        rintro rfl
        rw [counts_iff.mpr ⟨⟨path, hrouted⟩, hk⟩] at hcounts
        cases hcounts
      rw [(check_first_limit hcfg hk).1]
      exact AList.lookup_insert_ne hne
    · rw [check_first_limit_uncounted hcfg fun k hk => hkey ⟨k, hk⟩]
  · rw [windows_after_other fun path hrouted => hroute ⟨path, hrouted⟩]

/-- A request whose token is verified was allowed by the window of its key. -/
theorem allowed_of_verified (hcfg : cfg ∈ first_limit route)
    (hcounts : e.counts crates table route cfg key a = true) {h : History}
    (hw : (w.windows route).lookup key = h.window)
    (hverified : ((e.receive o.counting parse crates escape_debug table a).asked w).any
      Consult.is_verify = true) :
    (h.decision cfg.requests cfg.interval w.now).allowed = true := by
  obtain ⟨-, hlimit⟩ := lookup_after_counted o parse escape_debug hcfg hcounts hw
  obtain ⟨c, hc, hverify⟩ := List.any_eq_true.mp hverified
  have hsorted := (staged_receive e o.counting parse crates escape_debug table a w).1
  by_contra hrefused
  -- The limiter's refusal would have been the last that the request heard,
  obtain ⟨pre, post, hlog⟩ := List.append_of_mem hlimit
  obtain ⟨rfl, -⟩ := closed_receive e o.counting parse crates escape_debug table a w pre _ post hlog
    (by simpa [Consult.refuses] using hrefused)
  -- but the verifier is not asked before it.
  rw [hlog] at hc hsorted
  obtain ⟨⟨path, hrouted⟩, -⟩ := counts_iff.mp hcounts
  have hfirst : e.counts_identity table a = false := by
    rw [Entry.counts_identity, hrouted]
    exact first_limit_identity route hcfg
  obtain hbefore | hlast := List.mem_append.mp hc
  · have hlt := (List.pairwise_append.mp hsorted).2.2 c hbefore _ List.mem_cons_self
    rw [hfirst] at hlt
    exact absurd hlt (Nat.not_lt_zero _)
  · rw [List.mem_singleton.mp hlast] at hverify
    cases hverify

/-- The verifications of one key are among the admissions of its history. -/
theorem verifications_le_admissions (e : Entry) (o : Outside τ) (parse : Str → Option Url)
    (crates : Crates) (escape_debug : Char → Str) (table : RouteTable) (key : Str)
    (hcfg : cfg ∈ first_limit route) (p : Instant → Bool) (arrivals : List (Instant × Arrival)) (w : Counting τ) (h : History)
    (hw : (w.windows route).lookup key = h.window) :
    (e.serve o parse crates escape_debug table arrivals w).countP (fun x => p x.now
        && (e.counts crates table route cfg key x.arrival && x.log.any Consult.is_verify))
      + h.answers.countP (fun b => b.decision.allowed && p b.now)
    ≤ (((arrivals.filter fun x => e.counts crates table route cfg key x.2).map Prod.fst).foldl
        (History.check cfg.requests cfg.interval) h).answers.countP
        fun b => b.decision.allowed && p b.now := by
  induction arrivals generalizing w h with
  | nil => exact (Nat.zero_add _).le
  | cons x arrivals ih =>
    obtain ⟨now, a⟩ := x
    rw [Entry.serve, List.countP_cons]
    cases hcounts : e.counts crates table route cfg key a with
    | false =>
      rw [List.filter_cons_of_neg (by simp [hcounts])]
      have hafter := ih ((e.receive o.counting parse crates escape_debug table a).after
        { w with now := now }) h
        ((lookup_after_uncounted (w := { w with now := now }) hcfg hcounts).trans hw)
      simpa [hcounts] using hafter
    | true =>
      obtain ⟨hlookup, -⟩ := lookup_after_counted (w := { w with now := now }) o parse
        escape_debug hcfg hcounts hw
      have hafter := ih _ _ hlookup
      rw [List.filter_cons_of_pos (by simp [hcounts]), List.map_cons, List.foldl_cons]
      -- The new answer is counted if this request is.
      have hnew : (h.check cfg.requests cfg.interval now).answers.countP
            (fun b => b.decision.allowed && p b.now)
          = h.answers.countP (fun b => b.decision.allowed && p b.now)
            + if (h.decision cfg.requests cfg.interval now).allowed && p now then 1 else 0 := by
        rw [History.check, List.countP_append, List.countP_singleton]
        rfl
      have hone : (if p now && (true && ((e.receive o.counting parse crates escape_debug table
            a).asked { w with now := now }).any Consult.is_verify) then 1 else 0)
          ≤ if (h.decision cfg.requests cfg.interval now).allowed && p now then 1 else 0 := by
        split
        · rename_i hcounted
          simp only [Bool.true_and, Bool.and_eq_true] at hcounted
          have hallowed := allowed_of_verified (w := { w with now := now }) hcfg hcounts hw
            hcounted.2
          rw [if_pos (by simpa [hcounted.1] using hallowed)]
        · exact Nat.zero_le _
      dsimp only at hafter ⊢
      rw [hnew] at hafter
      omega

end

namespace CappedUsers

/-- The limit of the users, -/
def limit : RateLimitConfig :=
  { requests := 10, interval := 1000000000, key := .Ip, missing_key := .Reject
    trusted_proxies := 0, max_keys := 1000, counter := .Exact, mode := .Approximate }

/-- and their route in the table. -/
def limited : RouteConfig := table.routes.head?.getD (RouteConfig.of_input route)

/-- The requests of their address whose tokens are verified. -/
def verifications (arrivals : List (Instant × Arrival)) : ℕ :=
  (entry.serve outside AppWrites.parse plain_crates (fun c => [c]) table arrivals
    ⟨0, fun _ => ∅, 0⟩).countP fun x => Decidable.decide (5 ≤ x.now ∧ x.now ≤ 5 + 1000000000)
      && (entry.counts plain_crates table limited limit "users|10.0.0.7".toList x.arrival
        && x.log.any Consult.is_verify)

/-- Three of them. -/
def visits : List (Instant × Arrival) := [(0, arrival), (5, arrival), (9, arrival)]

end CappedUsers

end Lagos.Outbound
