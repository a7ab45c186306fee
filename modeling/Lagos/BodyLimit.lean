/-
The size of a request's body, counted as it passes (`request_body_filter` in `proxy.rs`,
`add_body_chunk` in `headers.rs`).

The total is kept with the request, and nothing resets it when the request is sent again. What
was read of the body before passes through the filter once more in each attempt, so it is counted
once more, and a body that is not too large may be refused for having been sent twice
(`body_cap_iff`). The other half of the limit does not depend on this: no attempt forwards more
than is allowed.
-/
import Lagos.Retry
import Mathlib.Algebra.Order.Ring.Nat

set_option autoImplicit false

open RustStd StepRun

namespace Lagos.Retry

open Lagos.Config

/-! ## The filter -/

/-- `Bytes`. -/
abbrev Chunk := List UInt8

/-- `add_body_chunk`. -/
def add_body_chunk (already chunk_len max : ℕ) : Option ℕ :=
  let next := saturating_add_u64 already chunk_len
  if next ≤ max then some next else none

/-- `Gateway::request_body_filter`: `ctx.body_bytes` after a chunk, or the status of the error. -/
def request_body_filter (max_body body_bytes : ℕ) (body : Option Chunk) : Except ℕ ℕ :=
  match body with
  | none => .ok body_bytes
  | some chunk =>
    match add_body_chunk body_bytes chunk.length max_body with
    | some next => .ok next
    | none => .error 413

/-- What has become of the chunks of an attempt. -/
structure Passed where
  /-- `ctx.body_bytes`. -/
  body_bytes : ℕ
  forwarded : List Chunk
  /-- Whether one was answered with a 413. -/
  refused : Bool
  deriving DecidableEq, Repr

/-- The chunks of an attempt, one after the other, until one is refused. -/
def pass (max_body : ℕ) : ℕ → List Chunk → Passed
  | body_bytes, [] => ⟨body_bytes, [], false⟩
  | body_bytes, chunk :: chunks =>
    match request_body_filter max_body body_bytes (some chunk) with
    | .error _ => ⟨body_bytes, [], true⟩
    | .ok next =>
      let rest := pass max_body next chunks
      { rest with forwarded := chunk :: rest.forwarded }

/-! ## A request with a body -/

/-- An attempt to send a body, with the chunks that are passed through the filter in its course:
what was buffered of the body before, then what arrives. -/
structure Delivery (body : List UInt8) where
  attempt : Attempt
  chunks : List Chunk
  /-- It sends the body from its beginning. -/
  beginning : chunks.flatten <+: body
  /-- Nothing is read before there is a connection. -/
  unconnected : ∀ replayable e, attempt.outcome = .Unconnected replayable e → chunks = []

variable {body : List UInt8}

/-- How many bytes that are. -/
def Delivery.size (d : Delivery body) : ℕ := d.chunks.flatten.length

/-- A request as its context has it. -/
structure Upload where
  exchange : Exchange
  body_bytes : ℕ := 0
  deriving DecidableEq, Repr

/-- The attempt as it ends: if a chunk was refused with an error, which is none that Pingora
would try again after. -/
def Delivery.ended (d : Delivery body) (p : Passed) : Attempt :=
  if p.refused then { d.attempt with outcome := .Broken true true (.Decided false) } else d.attempt

/-- A request after another attempt. -/
def Upload.step (max_body : ℕ) (s : Upload) (d : Delivery body) : Option Upload :=
  let p := pass max_body s.body_bytes d.chunks
  (s.exchange.step (d.ended p)).map fun exchange => ⟨exchange, p.body_bytes⟩

/-- No chunk of an attempt is answered with a 413. -/
def Unrefused (max_body : ℕ) (s : Upload) (d : Delivery body) : Prop :=
  (pass max_body s.body_bytes d.chunks).refused = false

/-- An attempt forwards no more than is allowed. -/
def Capped (max_body : ℕ) (s : Upload) (d : Delivery body) : Prop :=
  (pass max_body s.body_bytes d.chunks).forwarded.flatten.length ≤ max_body

/-- The bytes of all attempts. -/
def total_size (deliveries : List (Delivery body)) : ℕ := (deliveries.map Delivery.size).sum

/-! ## One attempt -/

theorem saturating_add_assoc (a b c : ℕ) :
    saturating_add_u64 (saturating_add_u64 a b) c = saturating_add_u64 a (b + c) := by
  unfold saturating_add_u64
  omega

/-- What an attempt adds to the total is what it forwards, and the total stays within the cap. -/
theorem pass_forwards {max_body body_bytes : ℕ} (hcap : body_bytes ≤ max_body)
    (hmax : max_body ≤ U64_MAX) (chunks : List Chunk) :
    (pass max_body body_bytes chunks).body_bytes
        = saturating_add_u64 body_bytes (pass max_body body_bytes chunks).forwarded.flatten.length
      ∧ (pass max_body body_bytes chunks).body_bytes ≤ max_body := by
  induction chunks generalizing body_bytes with
  | nil => exact ⟨(min_eq_left (hcap.trans hmax)).symm, hcap⟩
  | cons chunk chunks ih =>
    unfold pass request_body_filter add_body_chunk
    by_cases hfits : saturating_add_u64 body_bytes chunk.length ≤ max_body
    · simp only [if_pos hfits]
      obtain ⟨htotal, hle⟩ := ih hfits
      refine ⟨?_, hle⟩
      rw [htotal, saturating_add_assoc, List.flatten_cons, List.length_append]
    · simp only [if_neg hfits]
      exact ⟨(min_eq_left (hcap.trans hmax)).symm, hcap⟩

/-- An attempt is refused unless all of it fits, and then all of it is forwarded. -/
theorem pass_refused {max_body body_bytes : ℕ} (hcap : body_bytes ≤ max_body)
    (chunks : List Chunk) :
    ((pass max_body body_bytes chunks).refused = false
        ↔ saturating_add_u64 body_bytes chunks.flatten.length ≤ max_body)
      ∧ ((pass max_body body_bytes chunks).refused = false →
        (pass max_body body_bytes chunks).forwarded = chunks) := by
  induction chunks generalizing body_bytes with
  | nil => exact ⟨iff_of_true rfl ((min_le_left _ _).trans hcap), fun _ => rfl⟩
  | cons chunk chunks ih =>
    rw [List.flatten_cons, List.length_append, ← saturating_add_assoc]
    unfold pass request_body_filter add_body_chunk
    by_cases hfits : saturating_add_u64 body_bytes chunk.length ≤ max_body
    · simp only [if_pos hfits]
      obtain ⟨hiff, hall⟩ := ih hfits
      exact ⟨hiff, fun h => by rw [hall h]⟩
    · simp only [if_neg hfits]
      refine ⟨iff_of_false Bool.true_eq_false.mp fun h => hfits (le_trans ?_ h),
        fun h => by cases h⟩
      unfold saturating_add_u64
      omega

/-! ## Whole requests -/

theorem step_eq_some {max_body : ℕ} {s t : Upload} {d : Delivery body}
    (h : s.step max_body d = some t) :
    t.body_bytes = (pass max_body s.body_bytes d.chunks).body_bytes := by
  obtain ⟨exchange, -, rfl⟩ := Option.map_eq_some_iff.mp h
  rfl

/-- No attempt of a run is refused just if all of them fit together. -/
theorem along_unrefused_iff {max_body : ℕ} (hmax : max_body ≤ U64_MAX)
    {deliveries : List (Delivery body)}
    {s t : Upload} (hcap : s.body_bytes ≤ max_body)
    (hrun : run (Upload.step max_body) s deliveries = some t) :
    Along (Upload.step max_body) (Unrefused max_body) s deliveries
      ↔ saturating_add_u64 s.body_bytes (total_size deliveries) ≤ max_body := by
  induction deliveries generalizing s with
  | nil => exact iff_of_true trivial ((min_le_left _ _).trans hcap)
  | cons d deliveries ih =>
    rw [run_cons] at hrun
    obtain ⟨m, hstep, hrest⟩ := Option.bind_eq_some_iff.mp hrun
    have htotal : total_size (d :: deliveries) = d.size + total_size deliveries := by
      simp [total_size]
    obtain ⟨hiff, hall⟩ := pass_refused hcap d.chunks
    obtain ⟨hbytes, hle⟩ := pass_forwards hcap hmax d.chunks
    rw [along_cons, htotal, ← saturating_add_assoc]
    have hm : m.body_bytes ≤ max_body := by
      rw [step_eq_some hstep]
      exact hle
    have hsame : (∀ t ∈ s.step max_body d,
          Along (Upload.step max_body) (Unrefused max_body) t deliveries)
        ↔ Along (Upload.step max_body) (Unrefused max_body) m deliveries := by
      rw [hstep]
      simp
    rw [hsame, ih hm hrest]
    by_cases hrefused : Unrefused max_body s d
    · rw [and_iff_right hrefused, step_eq_some hstep, hbytes, hall hrefused]
      rfl
    · refine iff_of_false (fun h => hrefused h.1) fun h => hrefused (hiff.mpr (le_trans ?_ h))
      unfold saturating_add_u64 Delivery.size
      omega

/-- The cap holds for a request, not for an attempt: a body that is not too large is never refused,
and of one that is, no attempt forwards more than is allowed. -/
def CapPerRequest (max_body : ℕ) (s : Upload) (deliveries : List (Delivery body)) : Prop :=
  (body.length ≤ max_body → Along (Upload.step max_body) (Unrefused max_body) s deliveries)
    ∧ (max_body < body.length → Along (Upload.step max_body) (Capped max_body) s deliveries)

/-- All attempts together fit, if the body does. With the largest cap there is, everything does, and
it remains that no attempt sends more than that. -/
def FitsTogether (max_body : ℕ) (deliveries : List (Delivery body)) : Prop :=
  if body.length ≤ max_body then total_size deliveries ≤ max_body ∨ max_body = U64_MAX
  else max_body = U64_MAX → ∀ d ∈ deliveries, d.size ≤ max_body

instance (max_body : ℕ) (deliveries : List (Delivery body)) :
    Decidable (FitsTogether max_body deliveries) :=
  inferInstanceAs (Decidable (if body.length ≤ max_body then
    total_size deliveries ≤ max_body ∨ max_body = U64_MAX
    else max_body = U64_MAX → ∀ d ∈ deliveries, d.size ≤ max_body))

/-- An attempt is capped, except under the largest cap, where what it sends is forwarded. -/
theorem capped_iff {max_body : ℕ} (hmax : max_body ≤ U64_MAX) {s : Upload} {d : Delivery body}
    (hcap : s.body_bytes ≤ max_body) :
    Capped max_body s d ↔ (max_body = U64_MAX → d.size ≤ max_body) := by
  obtain ⟨hbytes, hle⟩ := pass_forwards hcap hmax d.chunks
  obtain ⟨hiff, hall⟩ := pass_refused hcap d.chunks
  unfold Capped
  by_cases hlargest : max_body = U64_MAX
  · rw [hall (hiff.mpr ((min_le_right _ _).trans_eq hlargest.symm))]
    exact ⟨fun h _ => h, fun h => h hlargest⟩
  · refine iff_of_true ?_ fun h => absurd h hlargest
    rw [hbytes] at hle
    unfold saturating_add_u64 at hle
    omega

theorem along_capped_iff {max_body : ℕ} (hmax : max_body ≤ U64_MAX)
    {deliveries : List (Delivery body)}
    {s t : Upload} (hcap : s.body_bytes ≤ max_body)
    (hrun : run (Upload.step max_body) s deliveries = some t) :
    Along (Upload.step max_body) (Capped max_body) s deliveries
      ↔ (max_body = U64_MAX → ∀ d ∈ deliveries, d.size ≤ max_body) := by
  have hsame : Along (Upload.step max_body) (Capped max_body) s deliveries
      ↔ Along (Upload.step max_body) (fun _ d => max_body = U64_MAX → d.size ≤ max_body) s
        deliveries := by
    refine along_congr (I := fun s => s.body_bytes ≤ max_body) hcap ?_ ?_ hrun
    · intro s d t hcap _ hstep
      rw [step_eq_some hstep]
      exact (pass_forwards hcap hmax d.chunks).2
    · exact fun s d t hcap _ => capped_iff hmax hcap
  rw [hsame]
  constructor
  · exact fun h hlargest d hd => forall_of_along hrun h d hd hlargest
  · exact fun h => along_of_forall fun d hd _ hlargest => h hlargest d hd

/-- **The cap is kept per request** just in the runs in which all attempts fit together: every
attempt counts what it sends of the body once more. -/
theorem body_cap_iff {max_body : ℕ} (hmax : max_body ≤ U64_MAX) {ctx : Ctx}
    {deliveries : List (Delivery body)} {t : Upload}
    (hrun : run (Upload.step max_body) ⟨⟨ctx, true, 0⟩, 0⟩ deliveries = some t) :
    CapPerRequest max_body ⟨⟨ctx, true, 0⟩, 0⟩ deliveries ↔ FitsTogether max_body deliveries := by
  unfold CapPerRequest FitsTogether
  rw [along_unrefused_iff hmax (Nat.zero_le _) hrun, along_capped_iff hmax (Nat.zero_le _) hrun]
  by_cases hbody : body.length ≤ max_body
  · rw [if_pos hbody, forall_prop_of_true hbody, and_iff_left fun h => absurd hbody (not_le.mpr h)]
    unfold saturating_add_u64
    dsimp only
    omega
  · rw [if_neg hbody, forall_prop_of_true (not_le.mp hbody), and_iff_right fun h => absurd h hbody]

namespace Replay

def ctx : Ctx where
  method := "GET".toList
  retry := none

/-- Of a body of two bytes, all is sent before the connection that was kept alive is closed. -/
def closed : Delivery [1, 2] where
  attempt := ⟨1, .Broken true true .ReusedOnly⟩
  chunks := [[1], [2]]
  beginning := by decide
  unconnected _ _ h := by cases h

/-- Pingora sends what it buffered. -/
def again : Delivery [1, 2] where
  attempt := ⟨1, .Over⟩
  chunks := [[1, 2]]
  beginning := by decide
  unconnected _ _ h := by cases h

end Replay

open Replay in
/-- Where four bytes are allowed there is room for both attempts. -/
theorem body_cap_replay : CapPerRequest 4 ⟨⟨ctx, true, 0⟩, 0⟩ [closed, again] :=
  (@body_cap_iff _ 4 (by decide) ctx [closed, again]
    ⟨⟨{ ctx with dns_candidates := 1 }, false, 2⟩, 4⟩ (by decide)).mpr (by decide)

open Replay in
/-- Where three are allowed the second attempt is answered with a 413. -/
theorem replayed_body_refused :
    ¬ ∀ (body : List UInt8) (max_body : ℕ) (ctx : Ctx) (deliveries : List (Delivery body))
      (t : Upload), max_body ≤ U64_MAX →
      run (Upload.step max_body) ⟨⟨ctx, true, 0⟩, 0⟩ deliveries = some t →
      CapPerRequest max_body ⟨⟨ctx, true, 0⟩, 0⟩ deliveries := by
  intro h
  have hcap := h [1, 2] 3 ctx [closed, again]
    ⟨⟨{ ctx with dns_candidates := 1 }, false, 2⟩, 2⟩ (by decide) (by decide)
  have hagain := (hcap.1 (by decide)).2 ⟨⟨{ ctx with dns_candidates := 1 }, true, 1⟩, 2⟩ (by decide)
  have hrefused : (pass 3 2 again.chunks).refused = true := by decide
  exact Bool.false_ne_true (hagain.1.symm.trans hrefused)

end Lagos.Retry
