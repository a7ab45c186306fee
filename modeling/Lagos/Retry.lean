/-
Sending a request again (`retry.rs`, `fail_to_connect` and `error_while_proxy` of `proxy.rs`).

Pingora makes one attempt after the other, and makes another one exactly when the error that a
hook returns says so. Of an error only that is kept here. An exchange is a run of attempts, each
of which may have found other addresses of the upstream (`Exchange.step`).

What the rules are for is that a request which must not be repeated reaches an upstream at most
once. That is up to `error_while_proxy`, and it is so in the runs in which Pingora's own answer
is always narrowed (`not_resent_iff`).
-/
import Lagos.Config
import Lagos.Lib.Run

set_option autoImplicit false

open RustStd StepRun

namespace Lagos.Retry

open Lagos.Config

/-! ## The rules -/

/-- `IDEMPOTENT`. -/
def IDEMPOTENT : List Str :=
  ["GET".toList, "HEAD".toList, "OPTIONS".toList, "TRACE".toList, "PUT".toList, "DELETE".toList]

/-- `is_idempotent`. -/
def is_idempotent (method : Str) : Bool :=
  IDEMPOTENT.any fun m => to_ascii_lowercase m = to_ascii_lowercase method

/-- `Failure`. -/
inductive Failure where
  | Connect
  | Transport
  deriving DecidableEq, Repr

/-- `Policy::should_retry`. -/
def should_retry (self : Policy) (failure : Failure) (attempts_made : UInt32) (method : Str)
    (body_replayable : Bool) : Bool :=
  if attempts_made ≥ self.attempts ∨ body_replayable = false then false
  else
    match failure with
    | .Connect => self.on_connect
    | .Transport => self.on_transport && (self.non_idempotent || is_idempotent method)

/-! ## The hooks -/

/-- `pingora::RetryType`. -/
inductive RetryType where
  | Decided (retry : Bool)
  | ReusedOnly
  deriving DecidableEq, Repr

/-- `RetryType::decide_reuse`. -/
def RetryType.decide_reuse (reused : Bool) : RetryType → RetryType
  | .ReusedOnly => .Decided reused
  | .Decided retry => .Decided retry

/-- `RetryType::retry`, once it is decided. -/
def RetryType.retry : RetryType → Bool
  | .Decided retry => retry
  | .ReusedOnly => false

/-- The fields of the per-request context that the hooks read or write. -/
structure Ctx where
  method : Str
  retry : Option Policy
  attempts : UInt32 := 0
  dns_candidates : ℕ := 0
  dns_attempts : UInt32 := 0
  dns_failovers : ℕ := 0
  deriving DecidableEq, Repr

/-- `Gateway::fail_to_connect`. -/
def fail_to_connect (ctx : Ctx) (replayable : Bool) (e : RetryType) : Ctx × RetryType :=
  if replayable = true ∧ saturating_add_u64 ctx.dns_failovers 1 < ctx.dns_candidates then
    ({ ctx with
        dns_failovers := saturating_add_u64 ctx.dns_failovers 1
        dns_attempts := saturating_add ctx.dns_attempts 1 }, .Decided true)
  else
    match ctx.retry with
    | none => (ctx, e)
    | some policy =>
      if should_retry policy .Connect ctx.attempts ctx.method replayable then
        ({ ctx with
            attempts := saturating_add ctx.attempts 1
            dns_attempts := saturating_add ctx.dns_attempts 1 }, .Decided true)
      else (ctx, e)

/-- `Gateway::error_while_proxy`. -/
def error_while_proxy (ctx : Ctx) (replayable client_reused : Bool) (e : RetryType) :
    Ctx × RetryType :=
  match ctx.retry with
  | none => (ctx, e.decide_reuse (client_reused && replayable))
  | some policy =>
    if (e.decide_reuse (client_reused && replayable)).retry = false then
      (ctx, e.decide_reuse (client_reused && replayable))
    else if should_retry policy .Transport ctx.attempts ctx.method replayable then
      ({ ctx with attempts := saturating_add ctx.attempts 1 },
        e.decide_reuse (client_reused && replayable))
    else (ctx, .Decided false)

/-! ## An exchange -/

/-- How an attempt ends. An attempt that ends well or fails elsewhere is not repeated. -/
inductive Outcome where
  | Unconnected (replayable : Bool) (e : RetryType)
  | Broken (replayable client_reused : Bool) (e : RetryType)
  | Over
  deriving DecidableEq, Repr

/-- An attempt, with the number of addresses that `upstream_peer` had to choose from. -/
structure Attempt where
  addresses : ℕ
  outcome : Outcome
  deriving DecidableEq, Repr

structure Exchange where
  ctx : Ctx
  /-- Whether the request is to be sent. -/
  sending : Bool := true
  /-- How often it may have reached an upstream. -/
  deliveries : ℕ := 0
  deriving DecidableEq, Repr

/-- The context of an attempt. -/
def Exchange.offered (s : Exchange) (a : Attempt) : Ctx :=
  { s.ctx with dns_candidates := a.addresses }

/-- An exchange after an attempt. -/
def Exchange.after (s : Exchange) (a : Attempt) : Exchange :=
  match a.outcome with
  | .Unconnected replayable e =>
    let (ctx, e) := fail_to_connect (s.offered a) replayable e
    ⟨ctx, e.retry, s.deliveries⟩
  | .Broken replayable client_reused e =>
    let (ctx, e) := error_while_proxy (s.offered a) replayable client_reused e
    ⟨ctx, e.retry, s.deliveries + 1⟩
  | .Over => ⟨s.offered a, false, s.deliveries + 1⟩

/-- There is another attempt as long as the request is to be sent. -/
def Exchange.step (s : Exchange) (a : Attempt) : Option Exchange :=
  if s.sending = true then some (s.after a) else none

/-- After an error on an established connection, the request is not sent again. -/
def NotResent (s : Exchange) (a : Attempt) : Prop :=
  match a.outcome with
  | .Broken replayable client_reused e =>
    (error_while_proxy (s.offered a) replayable client_reused e).2.retry = false
  | _ => True

/-- Where Pingora would send a request again after an error on an established connection, the
route has a policy, and the method is none that it repeats or the policy is at its end. -/
def Narrowed (s : Exchange) (a : Attempt) : Prop :=
  match a.outcome with
  | .Broken replayable client_reused e =>
    (e.decide_reuse (client_reused && replayable)).retry = true →
      ∃ policy ∈ s.ctx.retry, is_idempotent s.ctx.method = false ∨ policy.on_transport = false
        ∨ policy.attempts ≤ s.ctx.attempts ∨ replayable = false
  | _ => True

/-! ## One attempt -/

theorem should_retry_transport {policy : Policy} {attempts_made : UInt32} {method : Str}
    {replayable : Bool} (h : policy.non_idempotent = false) :
    should_retry policy .Transport attempts_made method replayable = false ↔
      is_idempotent method = false ∨ policy.on_transport = false
        ∨ policy.attempts ≤ attempts_made ∨ replayable = false := by
  unfold should_retry
  rw [h, Bool.false_or]
  split
  · rename_i hspent
    exact iff_of_true rfl (.inr (.inr hspent))
  · rename_i hleft
    rw [Bool.and_eq_false_iff, ← or_assoc, or_iff_left hleft, or_comm]

/-- A hook touches the counters of a request, not what it asks for. -/
theorem fail_to_connect_keeps (ctx : Ctx) (replayable : Bool) (e : RetryType) :
    (fail_to_connect ctx replayable e).1.method = ctx.method
      ∧ (fail_to_connect ctx replayable e).1.retry = ctx.retry := by
  unfold fail_to_connect
  split
  · exact ⟨rfl, rfl⟩
  · split
    · exact ⟨rfl, rfl⟩
    · split <;> exact ⟨rfl, rfl⟩

theorem error_while_proxy_keeps (ctx : Ctx) (replayable client_reused : Bool) (e : RetryType) :
    (error_while_proxy ctx replayable client_reused e).1.method = ctx.method
      ∧ (error_while_proxy ctx replayable client_reused e).1.retry = ctx.retry := by
  unfold error_while_proxy
  split
  · exact ⟨rfl, rfl⟩
  · split
    · exact ⟨rfl, rfl⟩
    · split <;> exact ⟨rfl, rfl⟩

/-- Without a policy the answer is Pingora's; a policy can only turn it down. -/
theorem error_while_proxy_retry (ctx : Ctx) (replayable client_reused : Bool) (e : RetryType) :
    (error_while_proxy ctx replayable client_reused e).2.retry = false ↔
      ((e.decide_reuse (client_reused && replayable)).retry = true → ∃ policy ∈ ctx.retry,
        should_retry policy .Transport ctx.attempts ctx.method replayable = false) := by
  unfold error_while_proxy
  cases hretry : ctx.retry with
  | none => simp
  | some policy =>
    cases hown : (e.decide_reuse (client_reused && replayable)).retry with
    | false => simp [hown]
    | true =>
      cases hagain : should_retry policy .Transport ctx.attempts ctx.method replayable with
      | false => simp [hagain, RetryType.retry]
      | true => simp [hown, hagain]

theorem after_keeps (s : Exchange) (a : Attempt) :
    (s.after a).ctx.method = s.ctx.method ∧ (s.after a).ctx.retry = s.ctx.retry := by
  unfold Exchange.after
  split
  · exact fail_to_connect_keeps (s.offered a) _ _
  · exact error_while_proxy_keeps (s.offered a) _ _ _
  · exact ⟨rfl, rfl⟩

theorem not_resent_iff_narrowed {s : Exchange} {a : Attempt}
    (h : ∀ policy ∈ s.ctx.retry, policy.non_idempotent = false) :
    NotResent s a ↔ Narrowed s a := by
  unfold NotResent Narrowed
  split
  · rw [error_while_proxy_retry]
    refine imp_congr_right fun _ => exists_congr fun policy => and_congr_right fun hpolicy => ?_
    exact should_retry_transport (h policy hpolicy)
  · rfl

/-- Once a request has reached an upstream, it is not to be sent. -/
def Exchange.Once (s : Exchange) : Prop :=
  s.deliveries ≤ 1 ∧ (s.sending = true → s.deliveries = 0)

theorem once_after {s : Exchange} {a : Attempt} (honce : s.Once) (hsending : s.sending = true)
    (hnot : NotResent s a) : (s.after a).Once := by
  have hfirst : s.deliveries = 0 := honce.2 hsending
  unfold NotResent at hnot
  unfold Exchange.after
  cases houtcome : a.outcome with
  | Unconnected replayable e => exact ⟨honce.1, fun _ => hfirst⟩
  | Broken replayable client_reused e =>
    rw [houtcome] at hnot
    refine ⟨by simp [hfirst], fun hagain => ?_⟩
    exact absurd hagain (by simp [hnot])
  | Over => exact ⟨by simp [hfirst], nofun⟩

/-! ## Whole exchanges -/

/-- **No second delivery.** On a route whose policy, if there is one, does not allow repeating
what is not idempotent, no error on an established connection leads to another attempt exactly
in the exchanges in which Pingora's answer is narrowed at each of them. Then the request
reaches an upstream at most once. -/
theorem not_resent_iff {ctx : Ctx} {attempts : List Attempt} {t : Exchange}
    (hpolicy : ∀ policy ∈ ctx.retry, policy.non_idempotent = false)
    (hrun : run Exchange.step ⟨ctx, true, 0⟩ attempts = some t) :
    (Along Exchange.step NotResent ⟨ctx, true, 0⟩ attempts ↔
        Along Exchange.step Narrowed ⟨ctx, true, 0⟩ attempts)
      ∧ (Along Exchange.step NotResent ⟨ctx, true, 0⟩ attempts → t.deliveries ≤ 1) := by
  constructor
  · refine along_congr (I := fun s => s.ctx.retry = ctx.retry) rfl ?_ ?_ hrun
    · intro s a t hsame _ hstep
      obtain ⟨-, rfl⟩ := eq_of_guarded hstep
      exact (after_keeps s a).2.trans hsame
    · exact fun s a t hsame _ => not_resent_iff_narrowed (hsame ▸ hpolicy)
  · intro hnot
    have honce : t.Once := by
      refine run_invariant (I := Exchange.Once) ⟨Nat.zero_le 1, fun _ => rfl⟩ ?_ hrun hnot
      intro s a t honce hnot hstep
      obtain ⟨hsending, rfl⟩ := eq_of_guarded hstep
      exact once_after honce hsending hnot
    exact honce.1

/-! ## A payment -/

namespace Payment

def POST : Str := "POST".toList

/-- Two retries, of connect failures and transport errors. -/
def policy : Policy := ⟨2, true, true, false⟩

/-- The connection that was kept alive is closed by the other side. -/
def closed : Attempt := ⟨1, .Broken true true .ReusedOnly⟩

def refused : Attempt := ⟨1, .Unconnected true (.Decided false)⟩

end Payment

open Payment in
/-- With a policy, a `POST` is sent again after a connect failure and not after that. -/
theorem not_resent_payment :
    (Along Exchange.step NotResent ⟨⟨POST, some policy, 0, 0, 0, 0⟩, true, 0⟩ [refused, closed] ↔
        Along Exchange.step Narrowed ⟨⟨POST, some policy, 0, 0, 0, 0⟩, true, 0⟩ [refused, closed])
      ∧ (Along Exchange.step NotResent ⟨⟨POST, some policy, 0, 0, 0, 0⟩, true, 0⟩
          [refused, closed] → 1 ≤ 1) :=
  @not_resent_iff ⟨POST, some policy, 0, 0, 0, 0⟩ [refused, closed]
    ⟨⟨POST, some policy, 1, 1, 1, 0⟩, false, 1⟩ (by rintro p hp; cases hp; rfl) (by decide)

open Payment in
/-- Without a policy, a `POST` that may have been acted on is sent again, and delivered twice. -/
theorem resent_without_policy :
    POST ∉ IDEMPOTENT
      ∧ run Exchange.step ⟨⟨POST, none, 0, 0, 0, 0⟩, true, 0⟩ [closed, ⟨1, .Over⟩]
        = some ⟨⟨POST, none, 0, 1, 0, 0⟩, false, 2⟩
      ∧ (error_while_proxy ⟨POST, none, 0, 1, 0, 0⟩ true true .ReusedOnly).2.retry = true := by
  decide

end Lagos.Retry
