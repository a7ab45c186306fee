/-
Going through the addresses of an upstream (`choose_dns_address`, `upstream_peer` and
`fail_to_connect`, `proxy.rs`).

Every request that goes upstream takes a number from one counter, and begins with the address at
that number. A connect failure takes it to the next address, on any route, as long as there is one
it has not been to; only then does the retry policy of its route begin to count. The requests of a
gateway take their numbers and make their attempts in any order (`Dialers.step`).

Two things come of it. A request that ends in a connect failure has been to every address
(`dials_every_address`), and it ends: the attempts are no more than the addresses and what the
policy allows together (`attempts_bounded`).

The first holds while the numbers do not run over: where they do, the next address after the last
number is the first of the list, whatever stood before it.
-/
import Lagos.Retry
import Mathlib.Data.List.Rotate

set_option autoImplicit false

open RustStd StepRun

namespace Lagos.Retry

open Lagos.Config

/-! ## The next address -/

/-- `choose_dns_address`. -/
def choose_dns_address {α : Type} (addrs : List α) (start : ℕ) (attempt : UInt32) : Option α :=
  addrs[(start + attempt.toNat) % (U64_MAX + 1) % max addrs.length 1]?

/-- A request on its way upstream. No step reads the addresses that it has been to. -/
structure Dialing (α : Type) where
  exchange : Exchange
  dns_start : Option ℕ := none
  dialed : List α := []
  deriving DecidableEq, Repr

/-- The requests of a gateway, and the number that the next of them begins with. -/
structure Dialers (R α : Type) where
  dns_next : ℕ
  requests : R → Dialing α

/-- One attempt of a request, with the addresses that were found for it. -/
structure Dial (R α : Type) where
  request : R
  addrs : List α
  outcome : Outcome
  deriving DecidableEq, Repr

section Dialers

variable {R α : Type} [DecidableEq R]

/-- No request has made an attempt. -/
def Dialers.start (method : R → Str) (retry : R → Option Policy) : Dialers R α where
  dns_next := 0
  requests r := { exchange := { ctx := { method := method r, retry := retry r } } }

/-- `ctx.dns_start.get_or_insert_with`. -/
def Dialers.number (g : Dialers R α) (r : R) : ℕ := (g.requests r).dns_start.getD g.dns_next

/-- `fetch_add`, for a request without a number. -/
def Dialers.next (g : Dialers R α) (r : R) : ℕ :=
  if (g.requests r).dns_start.isSome then g.dns_next else (g.dns_next + 1) % (U64_MAX + 1)

/-- `Gateway::upstream_peer`, and the attempt at the address it chooses. Without one the request is
over. -/
def Dialing.dial (s : Dialing α) (start : ℕ) (d : Dial R α) : Dialing α :=
  match choose_dns_address d.addrs start s.exchange.ctx.dns_attempts with
  | some addr => ⟨s.exchange.after ⟨d.addrs.length, d.outcome⟩, some start, s.dialed ++ [addr]⟩
  | none =>
    ⟨{ s.exchange with ctx.dns_candidates := d.addrs.length, sending := false }, some start,
      s.dialed⟩

/-- An attempt of a request that is to be sent. -/
def Dialers.step (g : Dialers R α) (d : Dial R α) : Option (Dialers R α) :=
  if (g.requests d.request).exchange.sending = true then
    some {
      dns_next := g.next d.request
      requests := Function.update g.requests d.request
        ((g.requests d.request).dial (g.number d.request) d) }
  else none

end Dialers

/-! ## What a connect failure leads to -/

/-- It leads to another address while there is one, and to another attempt by the policy only
then. -/
theorem fail_to_connect_cases (ctx : Ctx) (e : RetryType) :
    (saturating_add_u64 ctx.dns_failovers 1 < ctx.dns_candidates
        ∧ fail_to_connect ctx true e = ({ ctx with
            dns_failovers := saturating_add_u64 ctx.dns_failovers 1
            dns_attempts := saturating_add ctx.dns_attempts 1 }, .Decided true))
      ∨ ctx.dns_candidates ≤ saturating_add_u64 ctx.dns_failovers 1
        ∧ (fail_to_connect ctx true e).1.dns_failovers = ctx.dns_failovers
        ∧ ((fail_to_connect ctx true e).1.dns_attempts = ctx.dns_attempts
          ∨ (fail_to_connect ctx true e).1.dns_attempts = saturating_add ctx.dns_attempts 1) := by
  by_cases hnext : saturating_add_u64 ctx.dns_failovers 1 < ctx.dns_candidates
  · refine .inl ⟨hnext, ?_⟩
    rw [fail_to_connect, if_pos ⟨rfl, hnext⟩]
  · refine .inr ⟨Nat.le_of_not_lt hnext, ?_⟩
    rw [fail_to_connect, if_neg fun h => hnext h.2]
    split
    · exact ⟨rfl, .inl rfl⟩
    · split
      · exact ⟨rfl, .inr rfl⟩
      · exact ⟨rfl, .inl rfl⟩

/-- An error on a connection leaves the addresses. -/
theorem error_while_proxy_dns (ctx : Ctx) (replayable client_reused : Bool) (e : RetryType) :
    (error_while_proxy ctx replayable client_reused e).1.dns_failovers = ctx.dns_failovers
      ∧ (error_while_proxy ctx replayable client_reused e).1.dns_attempts = ctx.dns_attempts := by
  unfold error_while_proxy
  split
  · exact ⟨rfl, rfl⟩
  · split
    · exact ⟨rfl, rfl⟩
    · split <;> exact ⟨rfl, rfl⟩

/-- What an attempt does to the counters of addresses, where a body can be sent again. -/
theorem after_dns (s : Exchange) (a : Attempt) (h : ∀ e, a.outcome ≠ .Unconnected false e) :
    (saturating_add_u64 s.ctx.dns_failovers 1 < a.addresses
        ∧ (s.after a).ctx.dns_failovers = saturating_add_u64 s.ctx.dns_failovers 1
        ∧ (s.after a).ctx.dns_attempts = saturating_add s.ctx.dns_attempts 1)
      ∨ (s.after a).ctx.dns_failovers = s.ctx.dns_failovers
        ∧ ((s.after a).ctx.dns_attempts = s.ctx.dns_attempts
          ∨ (s.after a).ctx.dns_attempts = saturating_add s.ctx.dns_attempts 1) := by
  unfold Exchange.after
  cases houtcome : a.outcome with
  | Unconnected replayable e =>
    cases replayable with
    | false => exact absurd houtcome (h e)
    | true =>
      obtain ⟨hnext, hafter⟩ | ⟨-, hafter⟩ := fail_to_connect_cases (s.offered a) e
      · refine .inl ⟨hnext, ?_, ?_⟩
        · simp only [hafter]
          rfl
        · simp only [hafter]
          rfl
      · exact .inr hafter
  | Broken replayable client_reused e =>
    obtain ⟨hfailovers, hattempts⟩ :=
      error_while_proxy_dns (s.offered a) replayable client_reused e
    exact .inr ⟨hfailovers, .inl hattempts⟩
  | Over => exact .inr ⟨rfl, .inl rfl⟩

/-! ## Every address -/

/-- The address at an offset from where a request begins has been dialed. -/
def Dialing.Covers {α : Type} (s : Dialing α) (addrs : List α) (k : ℕ) : Prop :=
  ∃ start ∈ s.dns_start, ∀ a, addrs[(start + k) % addrs.length]? = some a → a ∈ s.dialed

/-- A request has been to as many addresses, one after the other, as it has counted attempts. -/
structure Dialing.InOrder {α : Type} (s : Dialing α) (addrs : List α) (bound : ℕ) : Prop where
  number : ∀ start ∈ s.dns_start, start < bound
  covers : ∀ k < s.exchange.ctx.dns_attempts.toNat, k < addrs.length → s.Covers addrs k
  failovers : s.exchange.ctx.dns_failovers ≤ s.exchange.ctx.dns_attempts.toNat

section InOrder

variable {R α : Type} {addrs : List α} {bound bound' start : ℕ} {s : Dialing α} {d : Dial R α}

/-- While the numbers do not run over, an attempt is at the address at its offset. -/
theorem choose_dns_address_eq {attempt : UInt32} (haddrs : 0 < addrs.length)
    (h : start + attempt.toNat ≤ U64_MAX) :
    choose_dns_address addrs start attempt = addrs[(start + attempt.toNat) % addrs.length]? := by
  rw [choose_dns_address, Nat.mod_eq_of_lt (Nat.lt_succ_of_le h), Nat.max_eq_left haddrs]

/-- An offset that was covered stays covered. -/
theorem covers_dial (hstart : ∀ n ∈ s.dns_start, start = n) {k : ℕ} (h : s.Covers addrs k) :
    (s.dial start d).Covers addrs k := by
  obtain ⟨n, hn, hdialed⟩ := h
  obtain rfl := hstart n hn
  unfold Dialing.dial
  split
  · exact ⟨start, rfl, fun a ha => List.mem_append_left _ (hdialed a ha)⟩
  · exact ⟨start, rfl, hdialed⟩

/-- An attempt covers the offset that is next. -/
theorem covers_next (hd : d.addrs = addrs) (haddrs : 0 < addrs.length)
    (h : start + s.exchange.ctx.dns_attempts.toNat ≤ U64_MAX) :
    (s.dial start d).Covers addrs s.exchange.ctx.dns_attempts.toNat := by
  have hlt := Nat.mod_lt (start + s.exchange.ctx.dns_attempts.toNat) haddrs
  unfold Dialing.dial
  rw [hd, choose_dns_address_eq haddrs h, List.getElem?_eq_getElem hlt]
  refine ⟨start, rfl, fun a ha => ?_⟩
  rw [List.getElem?_eq_getElem hlt] at ha
  cases ha
  exact List.mem_append_right _ (List.mem_singleton_self _)

/-- What an attempt does to the counters. -/
theorem dial_dns (s : Dialing α) (start : ℕ) (h : ∀ e, d.outcome ≠ .Unconnected false e) :
    (saturating_add_u64 s.exchange.ctx.dns_failovers 1 < d.addrs.length
        ∧ (s.dial start d).exchange.ctx.dns_failovers
          = saturating_add_u64 s.exchange.ctx.dns_failovers 1
        ∧ (s.dial start d).exchange.ctx.dns_attempts
          = saturating_add s.exchange.ctx.dns_attempts 1)
      ∨ (s.dial start d).exchange.ctx.dns_failovers = s.exchange.ctx.dns_failovers
        ∧ ((s.dial start d).exchange.ctx.dns_attempts = s.exchange.ctx.dns_attempts
          ∨ (s.dial start d).exchange.ctx.dns_attempts
            = saturating_add s.exchange.ctx.dns_attempts 1) := by
  unfold Dialing.dial
  split
  · exact after_dns s.exchange ⟨d.addrs.length, d.outcome⟩ h
  · exact .inr ⟨rfl, .inl rfl⟩

/-- The attempts are counted one by one. -/
theorem dns_attempts_dial (s : Dialing α) (start : ℕ)
    (h : ∀ e, d.outcome ≠ .Unconnected false e) :
    s.exchange.ctx.dns_attempts.toNat ≤ (s.dial start d).exchange.ctx.dns_attempts.toNat
      ∧ (s.dial start d).exchange.ctx.dns_attempts.toNat
        ≤ s.exchange.ctx.dns_attempts.toNat + 1 := by
  have hone : (1 : UInt32).toNat = 1 := rfl
  have hmax := toNat_le_max s.exchange.ctx.dns_attempts
  obtain ⟨-, -, hcounted⟩ | ⟨-, hkept | hcounted⟩ := dial_dns s start h
  · rw [hcounted, toNat_saturating_add, hone]
    omega
  · rw [hkept]
    omega
  · rw [hcounted, toNat_saturating_add, hone]
    omega

/-- An attempt keeps the order. -/
theorem Dialing.InOrder.dial (h : s.InOrder addrs bound) (hd : d.addrs = addrs)
    (hreplayable : ∀ e, d.outcome ≠ .Unconnected false e)
    (hstart : ∀ n ∈ s.dns_start, start = n) (hbound : start < bound')
    (hfew : bound' + U32_MAX ≤ U64_MAX) (hlen : addrs.length ≤ U32_MAX) :
    (s.dial start d).InOrder addrs bound' := by
  have hmax := toNat_le_max s.exchange.ctx.dns_attempts
  obtain ⟨hgrows, hcounted⟩ := dns_attempts_dial s start hreplayable
  refine ⟨fun n hn => ?_, fun k hk hkn => ?_, ?_⟩
  · have hnumber : (s.dial start d).dns_start = some start := by
      unfold Dialing.dial
      split <;> rfl
    rw [hnumber] at hn
    cases hn
    exact hbound
  · obtain hlt | rfl := Nat.lt_or_eq_of_le (Nat.le_of_lt_succ (Nat.lt_of_lt_of_le hk hcounted))
    · exact covers_dial hstart (h.covers k hlt hkn)
    · exact covers_next hd (Nat.zero_lt_of_lt hkn) (by omega)
  · have hle := h.failovers
    obtain ⟨hlast, hfailovers, hattempts⟩ | ⟨hfailovers, -⟩ := dial_dns s start hreplayable
    · -- A failover is to an address of the list, so the attempts do not saturate before it.
      have hone : (1 : UInt32).toNat = 1 := rfl
      rw [hd] at hlast
      rw [hfailovers, hattempts, toNat_saturating_add, hone]
      exact le_min ((Nat.min_le_left _ _).trans (Nat.succ_le_succ hle)) (hlast.le.trans hlen)
    · rw [hfailovers]
      exact hle.trans hgrows

theorem Dialing.InOrder.mono (h : s.InOrder addrs bound) (hle : bound ≤ bound') :
    s.InOrder addrs bound' :=
  { h with number := fun n hn => Nat.lt_of_lt_of_le (h.number n hn) hle }

/-- What a connect failure that ends a request has left untried. -/
theorem failovers_of_over {e : RetryType}
    (hd : d.outcome = .Unconnected true e) (haddrs : 0 < d.addrs.length)
    (hfew : start + s.exchange.ctx.dns_attempts.toNat ≤ U64_MAX)
    (hover : (s.dial start d).exchange.sending = false) :
    d.addrs.length ≤ saturating_add_u64 s.exchange.ctx.dns_failovers 1 := by
  have hlt := Nat.mod_lt (start + s.exchange.ctx.dns_attempts.toNat) haddrs
  unfold Dialing.dial at hover
  rw [choose_dns_address_eq haddrs hfew, List.getElem?_eq_getElem hlt] at hover
  simp only [Exchange.after, hd] at hover
  obtain ⟨-, hnext⟩ | ⟨hlast, -⟩ := fail_to_connect_cases
    (s.exchange.offered ⟨d.addrs.length, .Unconnected true e⟩) e
  · rw [hnext] at hover
    cases hover
  · exact hlast

/-- A request that has been to every offset has been to every address. -/
theorem dialed_of_covers (h : ∀ k < addrs.length, s.Covers addrs k) {a : α} (ha : a ∈ addrs) :
    a ∈ s.dialed := by
  obtain ⟨start, hstart, -⟩ := h 0 (List.length_pos_of_mem ha)
  -- The address stands at some offset from where the request began.
  obtain ⟨k, hrotated, hoffset⟩ := List.getElem_of_mem ((List.mem_rotate (n := start)).mpr ha)
  have hk : k < addrs.length := by rwa [List.length_rotate] at hrotated
  obtain ⟨start', hstart', hdialed⟩ := h k hk
  obtain rfl : start = start' := Option.some.inj (hstart.symm.trans hstart')
  refine hdialed a ?_
  rw [Nat.add_comm, ← List.getElem?_rotate hk, List.getElem?_eq_getElem hrotated, hoffset]

end InOrder

section Run

variable {R α : Type} [DecidableEq R] {addrs : List α} {r : R}

/-- A request has the same addresses at each of its attempts, and a body that can be sent again. -/
def Steady (r : R) (addrs : List α) (d : Dial R α) : Prop :=
  d.request = r → d.addrs = addrs ∧ ∀ e, d.outcome ≠ .Unconnected false e

/-- One attempt, of whatever request, keeps the order of each. -/
theorem step_inOrder {g g' : Dialers R α} {d : Dial R α} {count : ℕ}
    (hnext : g.dns_next ≤ count) (horder : (g.requests r).InOrder addrs count)
    (hsteady : Steady r addrs d) (hfew : count + 1 + U32_MAX ≤ U64_MAX)
    (hlen : addrs.length ≤ U32_MAX) (h : g.step d = some g') :
    g'.dns_next ≤ count + 1 ∧ (g'.requests r).InOrder addrs (count + 1) := by
  obtain ⟨-, rfl⟩ := eq_of_guarded h
  refine ⟨?_, ?_⟩
  · change g.next d.request ≤ count + 1
    unfold Dialers.next
    split
    · omega
    · exact (Nat.mod_le _ _).trans (Nat.succ_le_succ hnext)
  · by_cases hr : d.request = r
    · subst hr
      obtain ⟨haddrs, hreplayable⟩ := hsteady rfl
      dsimp only
      rw [Function.update_self]
      refine horder.dial haddrs hreplayable (fun n hn => ?_) ?_ hfew hlen
      · rw [Dialers.number, hn, Option.getD_some]
      · unfold Dialers.number
        cases hstart : (g.requests d.request).dns_start with
        | none => exact Nat.lt_succ_of_le hnext
        | some start => exact Nat.lt_succ_of_lt (horder.number start hstart)
    · dsimp only
      rw [Function.update_of_ne (Ne.symm hr)]
      exact horder.mono (Nat.le_succ count)

/-- Any number of attempts does. -/
theorem run_inOrder {method : R → Str} {retry : R → Option Policy} {dials : List (Dial R α)}
    {g : Dialers R α} (hsteady : ∀ d ∈ dials, Steady r addrs d)
    (hfew : dials.length + U32_MAX ≤ U64_MAX) (hlen : addrs.length ≤ U32_MAX)
    (hrun : run Dialers.step (.start method retry) dials = some g) :
    g.dns_next ≤ dials.length ∧ (g.requests r).InOrder addrs dials.length := by
  have hrule : dials.length + U32_MAX ≤ U64_MAX →
      g.dns_next ≤ dials.length ∧ (g.requests r).InOrder addrs dials.length := by
    have halong : Along Dialers.step (fun _ d => Steady r addrs d) (.start method retry) dials :=
      along_of_forall fun d hd _ => hsteady d hd
    refine run_induction (P := fun es g => es.length + U32_MAX ≤ U64_MAX →
      g.dns_next ≤ es.length ∧ (g.requests r).InOrder addrs es.length) ?_ ?_ hrun halong
    · intro _
      exact ⟨Nat.le_refl 0, by simp [Dialers.start], fun k hk => absurd hk (Nat.not_lt_zero k),
        Nat.le_refl 0⟩
    · intro es d g g' _ hes hd hstep hroom
      rw [List.length_append, List.length_singleton] at hroom ⊢
      obtain ⟨hnext, horder⟩ := hes (by omega)
      exact step_inOrder hnext horder hd hroom hlen hstep
  exact hrule hfew

/-- **No address is left out.** Whatever other requests do, one that ends in a connect failure has
been to every address of its upstream. -/
theorem dials_every_address {method : R → Str} {retry : R → Option Policy}
    {before : List (Dial R α)} {e : RetryType} {g : Dialers R α}
    (hsteady : ∀ d ∈ before, Steady r addrs d)
    (hfew : before.length + U32_MAX ≤ U64_MAX) (hlen : addrs.length ≤ U32_MAX)
    (hrun : run Dialers.step (.start method retry) (before ++ [⟨r, addrs, .Unconnected true e⟩])
      = some g)
    (hover : (g.requests r).exchange.sending = false) :
    ∀ a ∈ addrs, a ∈ (g.requests r).dialed := by
  obtain ⟨m, hbefore, hlast⟩ := run_concat.mp hrun
  obtain ⟨hnext, horder⟩ := run_inOrder hsteady (by omega) hlen hbefore
  obtain ⟨-, rfl⟩ := eq_of_guarded hlast
  have hstart : ∀ n ∈ (m.requests r).dns_start, m.number r = n := by
    intro n hn
    rw [Dialers.number, hn, Option.getD_some]
  have hbound : m.number r ≤ before.length := by
    unfold Dialers.number
    cases hnumber : (m.requests r).dns_start with
    | none => exact hnext
    | some start => exact (horder.number start hnumber).le
  have hmax := toNat_le_max (m.requests r).exchange.ctx.dns_attempts
  dsimp only at hover ⊢
  rw [Function.update_self] at hover ⊢
  intro a ha
  have hlast := failovers_of_over (d := ⟨r, addrs, .Unconnected true e⟩) rfl
    (List.length_pos_of_mem ha) (by omega) hover
  have hcounted : addrs.length ≤ (m.requests r).exchange.ctx.dns_attempts.toNat + 1 :=
    hlast.trans ((Nat.min_le_left _ _).trans (Nat.succ_le_succ horder.failovers))
  refine dialed_of_covers (fun k hk => ?_) ha
  obtain hlt | rfl := Nat.lt_or_eq_of_le (Nat.le_of_lt_succ (Nat.lt_of_lt_of_le hk hcounted))
  · exact covers_dial hstart (horder.covers k hlt hk)
  · exact covers_next rfl (Nat.zero_lt_of_lt hk) (by omega)

end Run

/-! ## It ends -/

/-- Whether an attempt is one of those that are bounded: without a policy an error on a connection
that was kept alive is Pingora's to repeat. -/
def Attempt.bounded (retry : Option Policy) (a : Attempt) : Bool :=
  retry.isSome || match a.outcome with
    | .Unconnected _ _ => true
    | _ => false

/-- The attempts that a policy allows. -/
def allowed (retry : Option Policy) : ℕ := (retry.map (·.attempts.toNat)).getD 0

/-- The attempts so far are the addresses that were gone on to and the attempts of the policy. -/
structure Exchange.Counted (s : Exchange) (retry : Option Policy) (most count : ℕ) : Prop where
  retry_eq : s.ctx.retry = retry
  failovers : s.ctx.dns_failovers < most
  attempts : s.ctx.attempts.toNat ≤ allowed retry
  count_le : s.sending = true → count ≤ s.ctx.dns_failovers + s.ctx.attempts.toNat

section Counted

variable {s : Exchange} {retry : Option Policy} {most count : ℕ} {a : Attempt}

theorem should_retry_lt {policy : Policy} {failure : Failure} {made : UInt32} {method : Str}
    {replayable : Bool} (h : should_retry policy failure made method replayable = true) :
    made < policy.attempts := by
  unfold should_retry at h
  split at h
  · cases h
  · rename_i hleft
    exact UInt32.not_le.mp fun hle => hleft (.inl hle)

/-- An attempt by the policy is counted, and there is room for it. -/
theorem attempts_succ {policy : Policy} {failure : Failure} {made : UInt32} {method : Str}
    {replayable : Bool} (h : should_retry policy failure made method replayable = true) :
    (saturating_add made 1).toNat = made.toNat + 1 ∧ made.toNat + 1 ≤ policy.attempts.toNat := by
  have hlt : made.toNat < policy.attempts.toNat := should_retry_lt h
  have hmax := toNat_le_max policy.attempts
  have hone : (1 : UInt32).toNat = 1 := rfl
  rw [toNat_saturating_add, hone]
  omega

/-- A connect failure that a request survives is counted. -/
theorem fail_to_connect_counted (ctx : Ctx) (replayable : Bool) {e : RetryType}
    (hfailovers : ctx.dns_failovers < most) (hattempts : ctx.attempts.toNat ≤ allowed ctx.retry)
    (hcandidates : ctx.dns_candidates ≤ most) (hmost : most ≤ U64_MAX) (hown : e.retry = false) :
    (fail_to_connect ctx replayable e).1.dns_failovers < most
      ∧ (fail_to_connect ctx replayable e).1.attempts.toNat ≤ allowed ctx.retry
      ∧ ((fail_to_connect ctx replayable e).2.retry = true →
        ctx.dns_failovers + ctx.attempts.toNat + 1
          ≤ (fail_to_connect ctx replayable e).1.dns_failovers
            + (fail_to_connect ctx replayable e).1.attempts.toNat) := by
  have hnext : saturating_add_u64 ctx.dns_failovers 1 = ctx.dns_failovers + 1 :=
    Nat.min_eq_left ((Nat.succ_le_of_lt hfailovers).trans hmost)
  unfold fail_to_connect
  split
  · rename_i hagain
    rw [hnext] at hagain ⊢
    exact ⟨Nat.lt_of_lt_of_le hagain.2 hcandidates, hattempts, fun _ => by dsimp only; omega⟩
  · cases hretry : ctx.retry with
    | none =>
      rw [hretry] at hattempts
      exact ⟨hfailovers, hattempts, fun hagain => by simp [hown] at hagain⟩
    | some policy =>
      rw [hretry] at hattempts
      dsimp only
      split
      · rename_i hagain
        obtain ⟨hadded, hroom⟩ := attempts_succ hagain
        dsimp only
        rw [hadded]
        exact ⟨hfailovers, hroom, fun _ => (Nat.add_assoc _ _ _).le⟩
      · exact ⟨hfailovers, hattempts, fun hagain => by simp [hown] at hagain⟩

/-- So is an error on a connection that it survives, if there is a policy. -/
theorem error_while_proxy_counted (ctx : Ctx) (replayable client_reused : Bool) (e : RetryType)
    (hattempts : ctx.attempts.toNat ≤ allowed ctx.retry) :
    (error_while_proxy ctx replayable client_reused e).1.attempts.toNat ≤ allowed ctx.retry
      ∧ ((error_while_proxy ctx replayable client_reused e).2.retry = true →
        ctx.attempts.toNat + (if ctx.retry.isSome then 1 else 0)
          ≤ (error_while_proxy ctx replayable client_reused e).1.attempts.toNat) := by
  unfold error_while_proxy
  cases hretry : ctx.retry with
  | none =>
    rw [hretry] at hattempts
    exact ⟨hattempts, fun _ => Nat.le_refl _⟩
  | some policy =>
    rw [hretry] at hattempts
    dsimp only
    split
    · rename_i hover
      exact ⟨hattempts, fun hagain => by simp [hover] at hagain⟩
    · split
      · rename_i hagain
        obtain ⟨hadded, hroom⟩ := attempts_succ hagain
        dsimp only
        rw [hadded]
        exact ⟨hroom, fun _ => Nat.le_refl _⟩
      · exact ⟨hattempts, by simp [RetryType.retry]⟩

/-- One attempt. Pingora itself does not repeat one that has not connected. -/
theorem Exchange.Counted.after (h : s.Counted retry most count) (hsending : s.sending = true)
    (hown : ∀ replayable e, a.outcome = .Unconnected replayable e → e.retry = false)
    (haddresses : a.addresses ≤ most) (hmost : most ≤ U64_MAX) :
    (s.after a).Counted retry most (count + if a.bounded retry then 1 else 0) := by
  have hcount := h.count_le hsending
  have hattempts := h.attempts
  have hkeeps := (after_keeps s a).2.trans h.retry_eq
  rw [← h.retry_eq] at hattempts
  cases houtcome : a.outcome with
  | Unconnected replayable e =>
    obtain ⟨hfailovers, hroom, hagain⟩ := fail_to_connect_counted (s.offered a) replayable
      h.failovers hattempts haddresses hmost (hown replayable e houtcome)
    have hbounded : a.bounded retry = true := by simp [Attempt.bounded, houtcome]
    unfold Exchange.after at hkeeps ⊢
    simp only [houtcome] at hkeeps ⊢
    rw [hbounded, if_pos rfl]
    refine ⟨hkeeps, hfailovers, h.retry_eq ▸ hroom, fun hsends => ?_⟩
    exact (Nat.succ_le_succ hcount).trans (hagain hsends)
  | Broken replayable client_reused e =>
    obtain ⟨hroom, hagain⟩ :=
      error_while_proxy_counted (s.offered a) replayable client_reused e hattempts
    have hdns := error_while_proxy_dns (s.offered a) replayable client_reused e
    have hbounded : a.bounded retry = retry.isSome := by simp [Attempt.bounded, houtcome]
    unfold Exchange.after at hkeeps ⊢
    simp only [houtcome] at hkeeps ⊢
    rw [hbounded]
    refine ⟨hkeeps, hdns.1.trans_lt h.failovers, h.retry_eq ▸ hroom, fun hsends => ?_⟩
    have hadded := hagain hsends
    change _ + (if s.ctx.retry.isSome then 1 else 0) ≤ _ at hadded
    rw [h.retry_eq] at hadded
    dsimp only
    rw [hdns.1]
    exact (Nat.add_le_add_right hcount _).trans
      ((Nat.add_assoc _ _ _).le.trans (Nat.add_le_add_left hadded _))
  | Over =>
    unfold Exchange.after at hkeeps ⊢
    simp only [houtcome] at hkeeps ⊢
    exact ⟨hkeeps, h.failovers, h.attempts, by simp⟩

end Counted

/-- What `Counted` asks of an attempt. -/
def Attempt.Within (a : Attempt) (most : ℕ) : Prop :=
  (∀ replayable e, a.outcome = .Unconnected replayable e → e.retry = false) ∧ a.addresses ≤ most

theorem run_counted {method : Str} {retry : Option Policy} {attempts : List Attempt} {most : ℕ}
    {t : Exchange} (hpos : 0 < most) (hmost : most ≤ U64_MAX)
    (hwithin : ∀ a ∈ attempts, a.Within most)
    (hrun : run Exchange.step { ctx := { method := method, retry := retry } } attempts = some t) :
    t.Counted retry most (attempts.countP (·.bounded retry)) := by
  have halong : Along Exchange.step (fun _ a => a.Within most)
      { ctx := { method := method, retry := retry } } attempts :=
    along_of_forall fun a ha _ => hwithin a ha
  refine run_induction (P := fun es s => s.Counted retry most (es.countP (·.bounded retry)))
    ⟨rfl, hpos, Nat.zero_le _, fun _ => Nat.zero_le _⟩ ?_ hrun halong
  intro es a s s' _ hcounted ha hstep
  obtain ⟨hsending, rfl⟩ := eq_of_guarded hstep
  rw [List.countP_append, List.countP_singleton]
  exact hcounted.after hsending ha.1 ha.2 hmost

/-- **The attempts are bounded** by the most addresses that were ever found and the attempts that
the policy allows, together. -/
theorem attempts_bounded {method : Str} {retry : Option Policy} {attempts : List Attempt}
    {most : ℕ} {t : Exchange} (hpos : 0 < most) (hmost : most ≤ U64_MAX)
    (hwithin : ∀ a ∈ attempts, a.Within most)
    (hrun : run Exchange.step { ctx := { method := method, retry := retry } } attempts = some t) :
    attempts.countP (·.bounded retry) ≤ most + allowed retry := by
  cases attempts using List.reverseRecOn with
  | nil => exact Nat.zero_le _
  | append_singleton before a =>
    -- The last attempt is made by a request that is still to be sent.
    obtain ⟨m, hbefore, hlast⟩ := run_concat.mp hrun
    obtain ⟨hsending, -⟩ := eq_of_guarded hlast
    have hcounted := run_counted hpos hmost
      (fun b hb => hwithin b (List.mem_append_left [a] hb)) hbefore
    have hcount := hcounted.count_le hsending
    have hfailovers := hcounted.failovers
    have hattempts := hcounted.attempts
    rw [List.countP_append, List.countP_singleton]
    split <;> omega

/-! ## A payment with two addresses -/

namespace Payment

/-- The connection is refused, at each of two addresses. -/
def refused_twice : List (Dial Bool ℕ) :=
  [⟨true, [10, 11], .Unconnected true (.Decided false)⟩, ⟨false, [10, 11], .Over⟩]

end Payment

open Payment in
/-- A payment that is refused has been to both addresses, while another request went on. -/
theorem dials_every_address_payment : ∃ g : Dialers Bool ℕ,
    (g.requests true).exchange.sending = false ∧ ∀ a ∈ [10, 11], a ∈ (g.requests true).dialed := by
  obtain ⟨g, hg⟩ : ∃ g, run Dialers.step (.start (fun _ => POST) fun _ => none)
      (refused_twice ++ [⟨true, [10, 11], .Unconnected true (.Decided false)⟩]) = some g :=
    Option.isSome_iff_exists.mp (by decide)
  have hover : (g.requests true).exchange.sending = false := by
    have hmap := congrArg (Option.map fun g => (g.requests true).exchange.sending) hg
    exact Option.some.inj (hmap.symm.trans (by decide))
  have hsteady : ∀ d ∈ refused_twice, Steady true [10, 11] d := by
    intro d hd hr
    obtain rfl | rfl := List.mem_pair.mp hd
    · exact ⟨rfl, by simp⟩
    · cases hr
  exact ⟨g, hover, dials_every_address hsteady (by decide) (by decide) hg hover⟩

open Payment in
/-- With two addresses and two attempts by the policy there are four, all of which are made. -/
theorem attempts_bounded_payment :
    (List.replicate 4 (⟨2, .Unconnected true (.Decided false)⟩ : Attempt)).countP
      (·.bounded (some policy)) ≤ 2 + allowed (some policy) :=
  @attempts_bounded POST (some policy) _ 2 ⟨⟨POST, some policy, 2, 2, 3, 1⟩, false, 0⟩ (by decide)
    (by decide) (by
      intro a ha
      obtain rfl := List.eq_of_mem_replicate ha
      exact ⟨by rintro _ _ ⟨⟩; rfl, by decide⟩) (by decide)

end Lagos.Retry
