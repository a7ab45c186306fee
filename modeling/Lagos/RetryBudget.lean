/-
How often a request is sent again (`fail_to_connect` and `error_while_proxy` in `proxy.rs`).

Two hooks share the counters of a request. A connect failure first moves on to another address
of the upstream, which the policy of the route does not pay for, and only then asks the policy;
a transport error only asks the policy, and only where Pingora would send the request again. So
each resend is paid for by one of two counters, `attempts` or `dns_failovers`, and neither can
outgrow its bound, however the failures follow each other and whatever DNS answers in between.

What the error said before a hook saw it is another matter: `fail_to_connect` leaves an error
alone that it does not want repeated. A resend counts here as requested by that hook if it asks
for it where the error did not.
-/
import Lagos.Retry

set_option autoImplicit false

open RustStd

namespace Lagos.Retry

open Lagos.Config

/-! ## What the hooks request -/

/-- `fail_to_connect` asks for another attempt, of an error that asks for none. -/
def connect_asks (ctx : Ctx) (replayable : Bool) : Bool :=
  (fail_to_connect ctx replayable (.Decided false)).2.retry

/-- Whatever the error says, the hook asks or leaves it as it is. -/
theorem fail_to_connect_answer (ctx : Ctx) (replayable : Bool) (e : RetryType) :
    (fail_to_connect ctx replayable e).2
      = if connect_asks ctx replayable then .Decided true else e := by
  unfold connect_asks fail_to_connect
  split
  · rfl
  · split
    · rfl
    · split <;> rfl

/-- Pingora's own rule for an error on an established connection. -/
def pingora_resends (replayable client_reused : Bool) (e : RetryType) : Bool :=
  (e.decide_reuse (client_reused && replayable)).retry

/-- A hook requests that the request be sent again. -/
def Exchange.requests (s : Exchange) (a : Attempt) : Bool :=
  match a.outcome with
  | .Unconnected replayable _ => connect_asks (s.offered a) replayable
  | .Broken replayable client_reused e =>
    (error_while_proxy (s.offered a) replayable client_reused e).2.retry
  | .Over => false

/-- Whether the request could be sent again from the retry buffer when the attempt failed. -/
def Outcome.replayable : Outcome → Bool
  | .Unconnected replayable _ => replayable
  | .Broken replayable _ _ => replayable
  | .Over => true

/-! ## The counters -/

theorem toNat_saturating_add_one {a b : UInt32} (h : a < b) :
    (saturating_add a 1).toNat = a.toNat + 1 := by
  have hlt : a.toNat < b.toNat := UInt32.lt_iff_toNat_lt.mp h
  have hb : b.toNat < 4294967296 := b.toNat_lt
  have hroom : a.toNat + (1 : UInt32).toNat ≤ U32_MAX := by
    simp [U32_MAX]
    omega
  rw [saturating_add, if_pos hroom, UInt32.toNat_add]
  simp
  omega

theorem should_retry_bounds {policy : Policy} {failure : Failure} {attempts_made : UInt32}
    {method : Str} {replayable : Bool}
    (h : should_retry policy failure attempts_made method replayable = true) :
    attempts_made < policy.attempts ∧ replayable = true := by
  unfold should_retry at h
  split at h
  · cases h
  · rename_i hleft
    rw [not_or] at hleft
    exact ⟨UInt32.not_le.mp hleft.1, by simpa using hleft.2⟩

/-- What a connect failure does to the counters: nothing where the hook does not ask; otherwise
the buffer can be replayed, and one of the two counters pays for it and stays within bounds. -/
theorem fail_to_connect_counts {ctx : Ctx} {policy : Policy} (hpolicy : ctx.retry = some policy)
    (haddrs : ctx.dns_candidates ≤ U64_MAX) (replayable : Bool) (e : RetryType) :
    connect_asks ctx replayable = false ∧ (fail_to_connect ctx replayable e).1 = ctx
      ∨ connect_asks ctx replayable = true ∧ replayable = true
        ∧ (ctx.dns_failovers + 1 < ctx.dns_candidates
            ∧ (fail_to_connect ctx replayable e).1.dns_failovers = ctx.dns_failovers + 1
            ∧ (fail_to_connect ctx replayable e).1.attempts = ctx.attempts
          ∨ ctx.attempts < policy.attempts
            ∧ (fail_to_connect ctx replayable e).1.dns_failovers = ctx.dns_failovers
            ∧ (fail_to_connect ctx replayable e).1.attempts = saturating_add ctx.attempts 1) := by
  unfold connect_asks fail_to_connect
  split
  · rename_i hfailover
    obtain ⟨hreplayable, hlt⟩ := hfailover
    -- The counter is below a length, so it does not saturate.
    have hexact : saturating_add_u64 ctx.dns_failovers 1 = ctx.dns_failovers + 1 := by
      unfold saturating_add_u64 at hlt ⊢
      omega
    exact .inr ⟨rfl, hreplayable, .inl ⟨hexact ▸ hlt, hexact, rfl⟩⟩
  · -- No further address, or no way to send the body again: now the policy is asked.
    simp only [hpolicy]
    by_cases hretry : should_retry policy .Connect ctx.attempts ctx.method replayable = true
    · obtain ⟨hleft, hreplayable⟩ := should_retry_bounds hretry
      simp only [hretry, if_true]
      exact .inr ⟨rfl, hreplayable, .inr ⟨hleft, trivial, trivial⟩⟩
    · simp only [hretry]
      exact .inl ⟨rfl, rfl⟩

/-- What a transport error does to them, on a route with a policy. -/
theorem error_while_proxy_counts {ctx : Ctx} {policy : Policy} (hpolicy : ctx.retry = some policy)
    (replayable client_reused : Bool) (e : RetryType) :
    (error_while_proxy ctx replayable client_reused e).2.retry = false
        ∧ (error_while_proxy ctx replayable client_reused e).1 = ctx
      ∨ (error_while_proxy ctx replayable client_reused e).2.retry = true
        ∧ pingora_resends replayable client_reused e = true ∧ replayable = true
        ∧ ctx.attempts < policy.attempts
        ∧ (error_while_proxy ctx replayable client_reused e).1
          = { ctx with attempts := saturating_add ctx.attempts 1 } := by
  unfold error_while_proxy pingora_resends
  simp only [hpolicy]
  cases hown : (e.decide_reuse (client_reused && replayable)).retry with
  | false => exact .inl ⟨by simpa using hown, rfl⟩
  | true =>
    -- Pingora would send it again, and the policy can only narrow that.
    by_cases hretry : should_retry policy .Transport ctx.attempts ctx.method replayable = true
    · obtain ⟨hleft, hreplayable⟩ := should_retry_bounds hretry
      simp only [hretry, if_true]
      exact .inr ⟨by simpa using hown, trivial, hreplayable, hleft, rfl⟩
    · simp only [hretry]
      exact .inl ⟨rfl, rfl⟩

/-- **What an attempt does to the counters.** -/
theorem after_counts {s : Exchange} {a : Attempt} {policy : Policy}
    (hpolicy : s.ctx.retry = some policy) (haddrs : a.addresses ≤ U64_MAX) :
    s.requests a = false ∧ (s.after a).ctx.dns_failovers = s.ctx.dns_failovers
        ∧ (s.after a).ctx.attempts = s.ctx.attempts
      ∨ s.requests a = true
        ∧ (s.ctx.dns_failovers + 1 < a.addresses
            ∧ (s.after a).ctx.dns_failovers = s.ctx.dns_failovers + 1
            ∧ (s.after a).ctx.attempts = s.ctx.attempts
          ∨ s.ctx.attempts < policy.attempts
            ∧ (s.after a).ctx.dns_failovers = s.ctx.dns_failovers
            ∧ (s.after a).ctx.attempts = saturating_add s.ctx.attempts 1) := by
  have hoffered : (s.offered a).retry = some policy := hpolicy
  unfold Exchange.requests Exchange.after
  cases a.outcome with
  | Unconnected replayable e =>
    obtain ⟨hasks, hsame⟩ | ⟨hasks, -, hpaid⟩ :=
      fail_to_connect_counts hoffered haddrs replayable e
    · exact .inl ⟨hasks, (congrArg Ctx.dns_failovers hsame :), (congrArg Ctx.attempts hsame :)⟩
    · exact .inr ⟨hasks, hpaid⟩
  | Broken replayable client_reused e =>
    obtain ⟨hasks, hsame⟩ | ⟨hasks, -, -, hleft, hpaid⟩ :=
      error_while_proxy_counts hoffered replayable client_reused e
    · exact .inl ⟨hasks, (congrArg Ctx.dns_failovers hsame :), (congrArg Ctx.attempts hsame :)⟩
    · exact .inr ⟨hasks, .inr ⟨hleft, (congrArg Ctx.dns_failovers hpaid :),
        (congrArg Ctx.attempts hpaid :)⟩⟩
  | Over => exact .inl ⟨rfl, rfl, rfl⟩

/-- No hook requests a resend of a body that cannot be replayed. -/
theorem requests_replayable {s : Exchange} {a : Attempt} {policy : Policy}
    (hpolicy : s.ctx.retry = some policy) (haddrs : a.addresses ≤ U64_MAX)
    (h : s.requests a = true) : a.outcome.replayable = true := by
  have hoffered : (s.offered a).retry = some policy := hpolicy
  unfold Exchange.requests at h
  unfold Outcome.replayable
  cases hout : a.outcome with
  | Unconnected replayable e =>
    rw [hout] at h
    obtain ⟨hasks, -⟩ | ⟨-, hreplayable, -⟩ := fail_to_connect_counts hoffered haddrs replayable e
    · exact absurd (hasks.symm.trans h) Bool.false_ne_true
    · exact hreplayable
  | Broken replayable client_reused e =>
    rw [hout] at h
    obtain ⟨hasks, -⟩ | ⟨-, -, hreplayable, -⟩ :=
      error_while_proxy_counts hoffered replayable client_reused e
    · exact absurd (hasks.symm.trans h) Bool.false_ne_true
    · exact hreplayable
  | Over => rfl

/-! ## A request -/

/-- An attempt, where the addresses fit a list. -/
structure Tried where
  attempt : Attempt
  bounded : attempt.addresses ≤ U64_MAX

/-- A request, with what is counted of it. -/
structure Tally where
  exchange : Exchange
  /-- How often a hook requested that it be sent again. -/
  requested : ℕ := 0
  /-- The most addresses that an attempt could choose from. -/
  most : ℕ := 0
  deriving DecidableEq, Repr

/-- A request that has not been sent, on a route with a policy. -/
def Tally.start (method : Str) (policy : Policy) : Tally :=
  { exchange := { ctx := { method := method, retry := some policy } } }

/-- After another attempt, whether or not Pingora would have made it. -/
def Tally.after (s : Tally) (x : Tried) : Tally where
  exchange := s.exchange.after x.attempt
  requested := s.requested + if s.exchange.requests x.attempt then 1 else 0
  most := max s.most x.attempt.addresses

/-- The invariant: every resend that was requested is paid for. -/
structure Tally.Paid (policy : Policy) (s : Tally) : Prop where
  route : s.exchange.ctx.retry = some policy
  requested : s.requested = s.exchange.ctx.attempts.toNat + s.exchange.ctx.dns_failovers
  attempts : s.exchange.ctx.attempts ≤ policy.attempts
  failovers : s.exchange.ctx.dns_failovers ≤ s.most - 1

theorem start_paid (method : Str) (policy : Policy) : (Tally.start method policy).Paid policy :=
  ⟨rfl, rfl, UInt32.zero_le, Nat.zero_le _⟩

theorem after_paid {policy : Policy} {s : Tally} (hs : s.Paid policy) (x : Tried) :
    (s.after x).Paid policy := by
  obtain ⟨hroute, hrequested, hattempts, hfailovers⟩ := hs
  have hmost : s.most - 1 ≤ max s.most x.attempt.addresses - 1 := by omega
  have hkeeps := (after_keeps s.exchange x.attempt).2.trans hroute
  obtain ⟨hasks, hfails, hattempt⟩ | ⟨hasks, ⟨hlt, hfails, hattempt⟩ | ⟨hleft, hfails, hattempt⟩⟩ :=
    after_counts hroute x.bounded
  · refine ⟨hkeeps, ?_, ?_, ?_⟩
    · simp [Tally.after, hasks, hfails, hattempt, hrequested]
    · exact hattempt ▸ hattempts
    · exact hfails ▸ hfailovers.trans hmost
  · -- Paid for by a further address, of which this answer had one.
    refine ⟨hkeeps, ?_, ?_, ?_⟩
    · simp [Tally.after, hasks, hfails, hattempt, hrequested, Nat.add_assoc]
    · exact hattempt ▸ hattempts
    · simp only [Tally.after, hfails]
      omega
  · -- Paid for by the policy, which had an attempt left.
    have hmore := toNat_saturating_add_one hleft
    refine ⟨hkeeps, ?_, ?_, ?_⟩
    · simp only [Tally.after, hasks, hfails, hattempt, hrequested, hmore, if_true]
      omega
    · simp only [Tally.after, hattempt]
      rw [UInt32.le_iff_toNat_le, hmore]
      exact UInt32.lt_iff_toNat_lt.mp hleft
    · exact hfails ▸ hfailovers.trans hmost

/-- After any attempts. -/
theorem foldl_paid {policy : Policy} {s : Tally} (hs : s.Paid policy) (tried : List Tried) :
    (tried.foldl Tally.after s).Paid policy := by
  induction tried generalizing s with
  | nil => exact hs
  | cons x tried ih => exact ih (after_paid hs x)

/-- **The retry budget.** Whatever attempts fail and how, the hooks request no more resends than
the policy has attempts and DNS further addresses, and neither counter outgrows its part. Nor do
they request one of a body that cannot be replayed, or after a transport error one that Pingora
would not have made. -/
theorem retry_budget (method : Str) (policy : Policy) (tried : List Tried) :
    let s := tried.foldl Tally.after (Tally.start method policy)
    s.requested ≤ policy.attempts.toNat + (s.most - 1)
      ∧ s.exchange.ctx.dns_failovers ≤ s.most - 1
      ∧ s.exchange.ctx.attempts ≤ policy.attempts
      ∧ ∀ x : Tried, s.exchange.requests x.attempt = true →
        x.attempt.outcome.replayable = true
        ∧ ∀ replayable client_reused e, x.attempt.outcome = .Broken replayable client_reused e →
          pingora_resends replayable client_reused e = true := by
  intro s
  have hs : s.Paid policy := foldl_paid (start_paid method policy) tried
  refine ⟨?_, hs.failovers, hs.attempts,
    fun x hx => ⟨requests_replayable hs.route x.bounded hx, ?_⟩⟩
  · have hattempts := UInt32.le_iff_toNat_le.mp hs.attempts
    have hfailovers := hs.failovers
    have hrequested := hs.requested
    omega
  · intro replayable client_reused e hout
    have hoffered : (s.exchange.offered x.attempt).retry = some policy := hs.route
    rw [Exchange.requests, hout] at hx
    obtain ⟨hasks, -⟩ | ⟨-, hpingora, -⟩ :=
      error_while_proxy_counts hoffered replayable client_reused e
    · exact absurd (hasks.symm.trans hx) Bool.false_ne_true
    · exact hpingora

/-- One retry and three addresses make three resends, and no fourth. -/
example :
    let refused : Tried := ⟨⟨3, .Unconnected true (.Decided false)⟩, by decide⟩
    ((List.replicate 5 refused).foldl Tally.after
      (Tally.start "GET".toList ⟨1, true, true, false⟩)).requested = 3 := by
  decide

end Lagos.Retry
