/-
A shared limiter under any wall clock (`ratelimit/shared.rs`).

The clock may be set back by any amount between two readings, and both a request and a
reconciliation roll a shard by what they read. A shard never goes back: a reading from before
its bucket leaves it as it is. So the bucket only grows, what is admitted while it stays is
counted in `own_current`, and what the other replicas report can only leave less of the limit.

That a full count is refused rests on how `f64` rounds as little as this: conversion, addition
and multiplication keep the order (`F64.Lawful`).
-/
import Lagos.SharedCounters
import Mathlib.Tactic.Linarith

set_option autoImplicit false

open RustStd

namespace Lagos.RateLimit

/-! ## What is relied on of `f64` -/

/-- `u128::MAX`. -/
def U128_MAX : ℕ := 340282366920938463463374607431768211455

/-- The order of `f64` and its operations on what the limiter computes. A value that `>=` holds
of with anything is not a NaN; a `u128` converts to a finite number. -/
class F64.Lawful (F : Type) [F64 F] : Prop where
  trans : ∀ {x y z : F}, F64.ge x y = true → F64.ge y z = true → F64.ge x z = true
  of_nat_mono : ∀ {m n : ℕ}, m ≤ n → F64.ge (F64.of_nat n : F) (F64.of_nat m) = true
  /-- A quotient of two numbers, the second of them not zero, is a number. -/
  div_number : ∀ {m n : ℕ}, m ≤ U128_MAX → 0 < n → n ≤ U128_MAX →
    F64.ge (F64.of_nat m / F64.of_nat n : F) (F64.of_nat m / F64.of_nat n) = true
  clamp_ge : ∀ {x : F}, F64.ge x x = true →
    F64.ge (F64.clamp x (F64.of_nat 0) (F64.of_nat 1)) (F64.of_nat 0) = true
  clamp_le : ∀ {x : F}, F64.ge x x = true →
    F64.ge (F64.of_nat 1) (F64.clamp x (F64.of_nat 0) (F64.of_nat 1)) = true
  /-- Only a number compares. -/
  number : ∀ {x y : F}, F64.ge x y = true → F64.ge x x = true
  one_sub_ge : ∀ {x : F}, F64.ge (F64.of_nat 1) x = true →
    F64.ge (F64.of_nat 1 - x) (F64.of_nat 0) = true
  one_sub_le : ∀ {x : F}, F64.ge x (F64.of_nat 0) = true →
    F64.ge (F64.of_nat 1) (F64.of_nat 1 - x) = true
  mul_ge : ∀ {n : ℕ} {x : F}, n ≤ U128_MAX → F64.ge x (F64.of_nat 0) = true →
    F64.ge (F64.of_nat 1) x = true → F64.ge (F64.of_nat n * x) (F64.of_nat 0) = true
  add_ge : ∀ {n : ℕ} {x : F}, n ≤ U128_MAX → F64.ge x (F64.of_nat 0) = true →
    F64.ge (x + F64.of_nat n) (F64.of_nat n) = true

section Decide

variable {F : Type} [F64 F] [F64.Lawful F]

/-- A count that has reached the limit is refused, whatever the weight of what came before. -/
theorem lt_of_allowed {previous current limit : ℕ} {progress : F} {interval : Duration}
    (hp : previous ≤ U128_MAX) (hc : current ≤ U128_MAX) (hx : F64.ge progress progress = true)
    (h : (decide previous current progress limit interval).allowed = true) : current < limit := by
  by_contra hfull
  have hge := F64.Lawful.clamp_ge hx
  have hle := F64.Lawful.clamp_le hx
  have hweight := F64.Lawful.mul_ge hp (F64.Lawful.one_sub_ge hle) (F64.Lawful.one_sub_le hge)
  have hest := F64.Lawful.trans (F64.Lawful.add_ge hc hweight)
    (F64.Lawful.of_nat_mono (F := F) (Nat.le_of_not_lt hfull))
  unfold decide at h
  simp only [hest, if_true] at h
  cases h

/-- How far through its bucket a moment is, is a number. -/
theorem progress_at_number (now : SystemTime) {interval : Duration} (hi : 0 < interval)
    (hmax : interval ≤ U128_MAX) :
    F64.ge (progress_at F now interval) (progress_at F now interval) = true := by
  have hmod : now.nanos.toNat % interval ≤ U128_MAX :=
    Nat.le_trans (Nat.le_of_lt (Nat.mod_lt _ hi)) hmax
  exact F64.Lawful.number (F64.Lawful.clamp_ge (F64.Lawful.div_number hmod hi hmax))

end Decide

/-- Exact arithmetic keeps the order. -/
instance F64.exact_lawful : F64.Lawful ℚ where
  trans {x y z} hxy hyz := decide_eq_true (le_trans (of_decide_eq_true hyz) (of_decide_eq_true hxy))
  of_nat_mono hmn := decide_eq_true (Nat.cast_le.mpr hmn)
  div_number _ _ _ := decide_eq_true (le_refl _)
  clamp_ge := by
    intro x _
    refine decide_eq_true ?_
    change ((0 : ℕ) : ℚ) ≤ if x < ((0 : ℕ) : ℚ) then ((0 : ℕ) : ℚ)
      else if ((1 : ℕ) : ℚ) < x then ((1 : ℕ) : ℚ) else x
    split
    · exact le_refl _
    · rename_i h0
      split
      · norm_num
      · exact not_lt.mp h0
  clamp_le := by
    intro x _
    refine decide_eq_true ?_
    change (if x < ((0 : ℕ) : ℚ) then ((0 : ℕ) : ℚ)
      else if ((1 : ℕ) : ℚ) < x then ((1 : ℕ) : ℚ) else x) ≤ ((1 : ℕ) : ℚ)
    split
    · norm_num
    · split
      · exact le_refl _
      · rename_i h1
        exact not_lt.mp h1
  number _ := decide_eq_true (le_refl _)
  one_sub_ge := by
    intro x h
    have hle : x ≤ ((1 : ℕ) : ℚ) := of_decide_eq_true h
    refine decide_eq_true ?_
    change ((0 : ℕ) : ℚ) ≤ ((1 : ℕ) : ℚ) - x
    push_cast at hle ⊢
    linarith
  one_sub_le := by
    intro x h
    have hle : ((0 : ℕ) : ℚ) ≤ x := of_decide_eq_true h
    refine decide_eq_true ?_
    change ((1 : ℕ) : ℚ) - x ≤ ((1 : ℕ) : ℚ)
    push_cast at hle ⊢
    linarith
  mul_ge := by
    intro n x _ h _
    have hle : ((0 : ℕ) : ℚ) ≤ x := of_decide_eq_true h
    refine decide_eq_true ?_
    change ((0 : ℕ) : ℚ) ≤ (n : ℚ) * x
    rw [Nat.cast_zero] at hle ⊢
    exact mul_nonneg (Nat.cast_nonneg n) hle
  add_ge := by
    intro n x _ h
    have hle : ((0 : ℕ) : ℚ) ≤ x := of_decide_eq_true h
    refine decide_eq_true ?_
    change (n : ℚ) ≤ x + n
    rw [Nat.cast_zero] at hle
    linarith

/-! ## Runs -/

/-- Everything that is done to the store but dropping a key. A reconciliation takes a batch, and
folds the totals it got back in or returns the keys. -/
inductive SharedOp where
  | check (source : Uuid) (key : Str) (now : SystemTime)
  | pending (now : SystemTime) (order : List Str)
  | apply (batch : Batch) (totals : List Totals)
  | put_back (batch : Batch)

/-- What the clock was read as. -/
def SharedOp.reading : SharedOp → Option SystemTime
  | .check _ _ now => some now
  | .pending now _ => some now
  | .apply _ _ => none
  | .put_back _ => none

namespace SharedCounters

variable (F : Type) [F64 F] (cfg : SharedConfig)

/-- The store after an operation, and the decision on the key if it was one. -/
def operate (c : SharedCounters) : SharedOp → SharedCounters × Option (Str × Decision)
  | .check source key now =>
    let res := c.check_at cfg F source key now
    (res.1, some (key, res.2))
  | .pending now order => ((c.pending cfg now order).1, none)
  | .apply batch totals => (c.apply batch totals, none)
  | .put_back batch => (c.put_back batch, none)

/-- The store after some operations. -/
def after (c : SharedCounters) (ops : List SharedOp) : SharedCounters :=
  ops.foldl (fun c op => (c.operate F cfg op).1) c

/-- The bucket of a key's shard, and what was counted in it here. A new shard is in the first
bucket. -/
def bucket (c : SharedCounters) (key : Str) : ℕ := ((c.shards.lookup key).map Shard.bucket).getD 0

def own (c : SharedCounters) (key : Str) : ℕ := ((c.shards.lookup key).map Shard.own_current).getD 0

/-- What one operation was for a key: the bucket before and after it, and whether it admitted a
request. -/
structure Tick where
  before : ℕ
  after : ℕ
  admitted : Bool
  deriving DecidableEq, Repr

/-- Whether an operation admitted a request for the key. -/
def admits (c : SharedCounters) (key : Str) (op : SharedOp) : Bool :=
  (c.operate F cfg op).2.any fun d => d.1 == key && d.2.allowed

/-- A run, as a key sees it. -/
def ticks (key : Str) : SharedCounters → List SharedOp → List Tick
  | _, [] => []
  | c, op :: ops =>
    ⟨c.bucket key, (c.operate F cfg op).1.bucket key, c.admits F cfg key op⟩
      :: ticks key (c.operate F cfg op).1 ops

variable {F cfg}

/-! ## One operation -/

/-- An answer leaves the bucket and the own count of every shard. -/
theorem apply_line_keeps (lines : List ((Publish × Str) × Totals)) (key : Str) (s : Shard) :
    (lines.foldl (fun s line => if line.1.2 = key then s.apply line.1.1 line.2 else s) s).bucket
        = s.bucket ∧
      (lines.foldl (fun s line => if line.1.2 = key then s.apply line.1.1 line.2 else s)
        s).own_current = s.own_current := by
  induction lines generalizing s with
  | nil => exact ⟨rfl, rfl⟩
  | cons line lines ih =>
    rw [List.foldl_cons]
    obtain ⟨hbucket, hown⟩ := ih (if line.1.2 = key then s.apply line.1.1 line.2 else s)
    rw [hbucket, hown]
    split
    · exact ⟨Shard.apply_bucket s _ _, (Shard.apply_own s _ _).2.1⟩
    · exact ⟨rfl, rfl⟩

/-- What one operation may do to a key: the bucket grows or stays, the count starts again where
it grows, and a request is admitted only where there is room. -/
structure Moved (limit before after own own' : ℕ) (admitted : Bool) : Prop where
  le : before ≤ after
  own_eq : own' = (if before < after then 0 else own) + if admitted then 1 else 0
  room : admitted = true → (if before < after then 0 else own) < limit

theorem Moved.same {limit before own : ℕ} : Moved limit before before own own false where
  le := Nat.le_refl before
  own_eq := by rw [if_neg (Nat.lt_irrefl before), if_neg Bool.false_ne_true, Nat.add_zero]
  room h := nomatch h

end SharedCounters

/-- Rolling on starts the count again. -/
theorem Shard.roll_to_own (s : Shard) (b : ℕ) :
    (s.roll_to b).own_current = if s.bucket < b then 0 else s.own_current := by
  unfold Shard.roll_to
  by_cases h : s.bucket < b
  · rw [if_neg (Nat.not_le_of_lt h), if_pos h]
  · rw [if_pos (Nat.le_of_not_lt h), if_neg h]

theorem Shard.roll_to_moved (s : Shard) (b limit : ℕ) :
    SharedCounters.Moved limit s.bucket (s.roll_to b).bucket s.own_current
      (s.roll_to b).own_current false where
  le := by
    rw [Shard.roll_to_bucket]
    exact Nat.le_max_left _ _
  own_eq := by
    have hiff : (s.bucket < max s.bucket b) ↔ s.bucket < b := by omega
    rw [Shard.roll_to_bucket, s.roll_to_own]
    simp [hiff]
  room h := nomatch h

/-- **One check of a shard.** -/
theorem Shard.check_moved {F : Type} [F64 F] [F64.Lawful F] (s : Shard) (b : ℕ) {progress : F}
    (hx : F64.ge progress progress = true) {limit : ℕ} (hlimit : limit ≤ U64_MAX)
    (interval : Duration) :
    SharedCounters.Moved limit s.bucket (s.check F b progress limit interval).1.bucket s.own_current
      (s.check F b progress limit interval).1.own_current
      (s.check F b progress limit interval).2.allowed := by
  have hsmall : U64_MAX ≤ U128_MAX := by decide
  have hcheck : (s.check F b progress limit interval).1.own_current
      = if (s.check F b progress limit interval).2.allowed
        then saturating_add_u64 (s.roll_to b).own_current 1 else (s.roll_to b).own_current := by
    unfold Shard.check
    simp only
    split <;> rfl
  have hown := s.roll_to_own b
  have hroom : (s.check F b progress limit interval).2.allowed = true →
      (s.roll_to b).own_current < limit := by
    intro h
    have hlt : saturating_add_u64 (s.roll_to b).own_current (s.roll_to b).remote_current < limit :=
      lt_of_allowed (F := F) (Nat.le_trans (Nat.min_le_right _ _) hsmall)
        (Nat.le_trans (Nat.min_le_right _ _) hsmall) hx h
    unfold saturating_add_u64 at hlt
    omega
  rw [Shard.check_bucket]
  have hiff : (s.bucket < max s.bucket b) ↔ s.bucket < b := by omega
  refine ⟨Nat.le_max_left _ _, ?_, ?_⟩
  · simp only [hiff]
    rw [hcheck, ← hown]
    cases hallowed : (s.check F b progress limit interval).2.allowed with
    | false => simp
    | true =>
      have hlt := hroom hallowed
      have hsat : saturating_add_u64 (s.roll_to b).own_current 1
          = (s.roll_to b).own_current + 1 := by
        rw [saturating_add_u64]
        omega
      rw [if_pos rfl, if_pos rfl, hsat]
  · simp only [hiff]
    rw [← hown]
    exact hroom

namespace SharedCounters

variable {F : Type} [F64 F] {cfg : SharedConfig}

theorem insert_key (c : SharedCounters) (key : Str) (s : Shard) :
    ({ c with shards := c.shards.insert key s } : SharedCounters).bucket key = s.bucket ∧
      ({ c with shards := c.shards.insert key s } : SharedCounters).own key = s.own_current := by
  unfold bucket own
  simp only [AList.lookup_insert]
  exact ⟨rfl, rfl⟩

/-- An operation that leaves the key's shard does nothing to the key. -/
theorem moved_of_lookup {c c' : SharedCounters} {key : Str} (limit : ℕ)
    (h : c'.shards.lookup key = c.shards.lookup key) :
    Moved limit (c.bucket key) (c'.bucket key) (c.own key) (c'.own key) false := by
  rw [bucket, own, bucket, own, h]
  exact .same

theorem interval_pos (cfg : SharedConfig) : 0 < cfg.interval :=
  Nat.lt_of_lt_of_le (by decide) cfg.interval_ge

/-- From the epoch on, every reading has a bucket. -/
theorem bucket_at_of_epoch {now : SystemTime} (hnow : 0 ≤ now.nanos) :
    bucket_at now cfg.interval = some (now.nanos.toNat / cfg.interval) := by
  rw [bucket_at_eq cfg.interval_ge, if_neg (not_lt.mpr hnow)]

/-- A request may be of the key, or of another. -/
theorem check_moved [F64.Lawful F] (hlimit : cfg.limit ≤ U64_MAX) (hmax : cfg.interval ≤ U128_MAX)
    (c : SharedCounters) (key : Str) (source : Uuid) (key' : Str) {now : SystemTime}
    (hnow : 0 ≤ now.nanos) :
    Moved cfg.limit (c.bucket key) ((c.operate F cfg (.check source key' now)).1.bucket key)
      (c.own key) ((c.operate F cfg (.check source key' now)).1.own key)
      (c.admits F cfg key (.check source key' now)) := by
  have hnumber := progress_at_number (F := F) now (interval_pos cfg) hmax
  unfold admits operate
  simp only [check_at_of_some (bucket_at_of_epoch hnow)]
  by_cases hkey : key' = key
  · subst hkey
    have hmoved := Shard.check_moved ((c.shards.lookup key').getD { source := source })
      (now.nanos.toNat / cfg.interval) hnumber hlimit cfg.interval
    -- A new shard is where a key without one is taken to be.
    have hbefore : c.bucket key' = ((c.shards.lookup key').getD { source := source }).bucket ∧
        c.own key' = ((c.shards.lookup key').getD { source := source }).own_current := by
      unfold bucket own
      cases c.shards.lookup key' <;> exact ⟨rfl, rfl⟩
    rw [hbefore.1, hbefore.2, (insert_key c key' _).1, (insert_key c key' _).2]
    simpa only [Option.any_some, beq_self_eq_true, Bool.true_and] using hmoved
  · have hno : (key' == key) = false := beq_false_of_ne hkey
    simp only [Option.any_some, hno, Bool.false_and]
    exact moved_of_lookup _ (AList.lookup_insert_ne (Ne.symm hkey))

/-- The start of a tick rolls the shards of its batch. -/
theorem pending_moved (c : SharedCounters) (key : Str) (now : SystemTime) (order : List Str) :
    Moved cfg.limit (c.bucket key) ((c.pending cfg now order).1.bucket key) (c.own key)
      ((c.pending cfg now order).1.own key) false := by
  unfold pending
  cases hb : bucket_at now cfg.interval with
  | none => exact .same
  | some b =>
    have hlookup := @lookup_snapshot cfg b c.shards (c.take_batch cfg order).2 key
    unfold bucket own
    simp only [hlookup]
    cases c.shards.lookup key with
    | none => exact .same
    | some s =>
      simp only [Option.map_some, Option.getD_some]
      by_cases hmem : key ∈ (c.take_batch cfg order).2
      · rw [if_pos hmem]
        exact s.roll_to_moved b _
      · rw [if_neg hmem]
        exact .same

/-- The totals of a tick are about the others. -/
theorem apply_moved (limit : ℕ) (c : SharedCounters) (key : Str) (batch : Batch)
    (totals : List Totals) :
    Moved limit (c.bucket key) ((c.apply batch totals).bucket key) (c.own key)
      ((c.apply batch totals).own key) false := by
  unfold apply
  split
  · exact .same
  · unfold bucket own
    rw [lookup_apply_lines]
    cases c.shards.lookup key with
    | none => exact .same
    | some s =>
      obtain ⟨hbucket, hown⟩ := apply_line_keeps
        ((batch.publishes.zip batch.entries).zip totals) key s
      simp only [Option.map_some, Option.getD_some, hbucket, hown]
      exact .same

/-- **One operation.** -/
theorem operate_moved [F64.Lawful F] (hlimit : cfg.limit ≤ U64_MAX)
    (hmax : cfg.interval ≤ U128_MAX) (c : SharedCounters) (key : Str) (op : SharedOp)
    (hepoch : ∀ now ∈ op.reading, 0 ≤ now.nanos) :
    Moved cfg.limit (c.bucket key) ((c.operate F cfg op).1.bucket key) (c.own key)
      ((c.operate F cfg op).1.own key) (c.admits F cfg key op) := by
  cases op with
  | check source key' now => exact check_moved hlimit hmax c key source key' (hepoch now rfl)
  | pending now order => exact pending_moved c key now order
  | apply batch totals => exact apply_moved cfg.limit c key batch totals
  | put_back batch => exact .same

/-! ## Every run -/

section Runs

variable [F64.Lawful F]

/-- What a key may still be admitted in a bucket. -/
def room (limit : ℕ) (c : SharedCounters) (key : Str) (b : ℕ) : ℕ :=
  if c.bucket key < b then limit else if c.bucket key = b then limit - c.own key else 0

/-- No bucket admits more than there is room for in it. -/
theorem admitted_le_room (hlimit : cfg.limit ≤ U64_MAX) (hmax : cfg.interval ≤ U128_MAX)
    (key : Str) (b : ℕ) (c : SharedCounters) {ops : List SharedOp}
    (hepoch : ∀ op ∈ ops, ∀ now ∈ op.reading, 0 ≤ now.nanos) :
    (ticks F cfg key c ops).countP (fun t => t.admitted && t.after == b)
      ≤ room cfg.limit c key b := by
  induction ops generalizing c with
  | nil => exact Nat.zero_le _
  | cons op ops ih =>
    obtain ⟨hop, hops⟩ := List.forall_mem_cons.mp hepoch
    obtain ⟨hle, hown, hroom⟩ := operate_moved (F := F) hlimit hmax c key op hop
    have hrest := ih (c.operate F cfg op).1 hops
    rw [ticks, List.countP_cons]
    simp only
    unfold room at hrest ⊢
    -- The step either stays in its bucket or begins a new one; both counts say so.
    cases hadmitted : c.admits F cfg key op with
    | false =>
      rw [hadmitted, if_neg Bool.false_ne_true, Nat.add_zero] at hown
      rw [Bool.false_and, if_neg Bool.false_ne_true]
      split_ifs at hown hrest ⊢ <;> omega
    | true =>
      have hlt := hroom hadmitted
      rw [hadmitted, if_pos rfl] at hown
      rw [Bool.true_and]
      by_cases hb : (c.operate F cfg op).1.bucket key = b
      · rw [if_pos (beq_iff_eq.mpr hb)]
        split_ifs at hown hrest hlt ⊢ <;> omega
      · have hno : ((c.operate F cfg op).1.bucket key == b) = false := beq_false_of_ne hb
        rw [hno, if_neg Bool.false_ne_true]
        split_ifs at hown hrest hlt ⊢ <;> omega

/-- What is admitted in all is bounded by how often the bucket grows. -/
theorem admitted_le_increases (hlimit : cfg.limit ≤ U64_MAX) (hmax : cfg.interval ≤ U128_MAX)
    (key : Str) (c : SharedCounters) {ops : List SharedOp}
    (hepoch : ∀ op ∈ ops, ∀ now ∈ op.reading, 0 ≤ now.nanos) :
    (ticks F cfg key c ops).countP Tick.admitted ≤ cfg.limit - c.own key
      + cfg.limit * (ticks F cfg key c ops).countP
        (fun t => Decidable.decide (t.before < t.after)) := by
  induction ops generalizing c with
  | nil => exact Nat.zero_le _
  | cons op ops ih =>
    obtain ⟨hop, hops⟩ := List.forall_mem_cons.mp hepoch
    obtain ⟨hle, hown, hroom⟩ := operate_moved (F := F) hlimit hmax c key op hop
    have hrest := ih (c.operate F cfg op).1 hops
    rw [ticks, List.countP_cons, List.countP_cons]
    simp only [decide_eq_true_eq]
    by_cases hgrows : c.bucket key < (c.operate F cfg op).1.bucket key
    · -- A new bucket starts from nothing, and brings the limit once more.
      rw [if_pos hgrows] at hown hroom
      rw [if_pos hgrows, Nat.mul_add, Nat.mul_one]
      cases hadmitted : c.admits F cfg key op with
      | false =>
        rw [if_neg Bool.false_ne_true]
        omega
      | true =>
        have hlt := hroom hadmitted
        rw [hadmitted, if_pos rfl] at hown
        rw [if_pos rfl]
        omega
    · -- In the same bucket, what is admitted is taken from what was left.
      rw [if_neg hgrows] at hown hroom
      rw [if_neg hgrows, Nat.add_zero]
      cases hadmitted : c.admits F cfg key op with
      | false =>
        rw [hadmitted, if_neg Bool.false_ne_true, Nat.add_zero] at hown
        rw [if_neg Bool.false_ne_true]
        omega
      | true =>
        have hlt := hroom hadmitted
        rw [hadmitted, if_pos rfl] at hown
        rw [if_pos rfl]
        omega

/-- The bucket never goes back. -/
theorem ticks_le (hlimit : cfg.limit ≤ U64_MAX) (hmax : cfg.interval ≤ U128_MAX)
    (key : Str) (c : SharedCounters) {ops : List SharedOp}
    (hepoch : ∀ op ∈ ops, ∀ now ∈ op.reading, 0 ≤ now.nanos) :
    ∀ t ∈ ticks F cfg key c ops, t.before ≤ t.after := by
  induction ops generalizing c with
  | nil => exact List.forall_mem_nil _
  | cons op ops ih =>
    obtain ⟨hop, hops⟩ := List.forall_mem_cons.mp hepoch
    exact List.forall_mem_cons.mpr
      ⟨(operate_moved (F := F) hlimit hmax c key op hop).le, ih _ hops⟩

end Runs

/-! ## A step back -/

/-- What a shard keeps: its bucket and every count, but for what it admits. -/
structure Kept (s s' : Shard) : Prop where
  bucket : s'.bucket = s.bucket
  own_current : s.own_current ≤ s'.own_current
  own_previous : s'.own_previous = s.own_previous
  remote_current : s'.remote_current = s.remote_current
  remote_previous : s'.remote_previous = s.remote_previous

theorem Kept.refl (s : Shard) : Kept s s := ⟨rfl, Nat.le_refl _, rfl, rfl, rfl⟩

theorem kept_check [F64.Lawful F] {s : Shard} {b limit : ℕ} {progress : F}
    (hlimit : limit ≤ U64_MAX) (hx : F64.ge progress progress = true) (hback : b ≤ s.bucket)
    (interval : Duration) : Kept s (s.check F b progress limit interval).1 := by
  have hbucket := Shard.check_bucket s b progress limit interval
  rw [Nat.max_eq_left hback] at hbucket
  have hmoved := Shard.check_moved s b hx hlimit interval
  have hown := hmoved.own_eq
  rw [hbucket, if_neg (Nat.lt_irrefl _)] at hown
  refine ⟨hbucket, by omega, ?_, ?_, ?_⟩
  all_goals
    unfold Shard.check
    rw [Shard.roll_to_of_le hback]
    simp only
    split <;> rfl

/-- A reading that is not past the shard's bucket moves nothing. -/
theorem operate_kept [F64.Lawful F] (hlimit : cfg.limit ≤ U64_MAX)
    (hmax : cfg.interval ≤ U128_MAX) {c : SharedCounters} {key : Str} {s : Shard}
    (hs : c.shards.lookup key = some s) {op : SharedOp} {now : SystemTime}
    (hread : op.reading = some now) (hnow : 0 ≤ now.nanos)
    (hback : clock_bucket now cfg.interval ≤ s.bucket) :
    ∃ s', (c.operate F cfg op).1.shards.lookup key = some s' ∧ Kept s s' := by
  have hb : bucket_at now cfg.interval = some (now.nanos.toNat / cfg.interval) :=
    bucket_at_of_epoch hnow
  rw [clock_bucket_of_some hb] at hback
  cases op with
  | check source key' t =>
    obtain rfl : t = now := Option.some.inj hread
    unfold operate
    simp only [check_at_of_some hb]
    by_cases hkey : key' = key
    · -- The check rolls the shard to its own bucket, and so not at all.
      subst hkey
      refine ⟨_, AList.lookup_insert _, ?_⟩
      rw [hs, Option.getD_some]
      exact kept_check hlimit (progress_at_number (F := F) t (interval_pos cfg) hmax) hback
        cfg.interval
    · exact ⟨s, (AList.lookup_insert_ne (Ne.symm hkey)).trans hs, .refl s⟩
  | pending t order =>
    obtain rfl : t = now := Option.some.inj hread
    change ∃ s', (c.pending cfg t order).1.shards.lookup key = some s' ∧ Kept s s'
    have hlookup := @lookup_snapshot cfg (t.nanos.toNat / cfg.interval) c.shards
      (c.take_batch cfg order).2 key
    unfold pending
    simp only [hb]
    rw [hlookup, hs, Option.map_some]
    refine ⟨_, rfl, ?_⟩
    split
    · rw [Shard.roll_to_of_le hback]
      exact .refl s
    · exact .refl s
  | apply batch totals => cases hread
  | put_back batch => cases hread

/-- No operation takes a shard away. -/
theorem operate_lookup {c : SharedCounters} {key : Str} (op : SharedOp)
    (h : (c.shards.lookup key).isSome) :
    ((c.operate F cfg op).1.shards.lookup key).isSome := by
  cases op with
  | check source key' now =>
    change ((c.check_at cfg F source key' now).1.shards.lookup key).isSome
    cases hb : bucket_at now cfg.interval with
    | none =>
      rw [check_at_of_none hb]
      exact h
    | some b =>
      rw [check_at_of_some hb]
      by_cases hkey : key' = key
      · subst hkey
        simp only [AList.lookup_insert, Option.isSome_some]
      · simpa only [AList.lookup_insert_ne (Ne.symm hkey)] using h
  | pending now order =>
    change ((c.pending cfg now order).1.shards.lookup key).isSome
    unfold pending
    cases bucket_at now cfg.interval with
    | none => exact h
    | some b =>
      simp only
      rw [lookup_snapshot, Option.isSome_map]
      exact h
  | apply batch totals =>
    change ((c.apply batch totals).shards.lookup key).isSome
    unfold apply
    split
    · exact h
    · rw [lookup_apply_lines, Option.isSome_map]
      exact h
  | put_back batch => exact h

/-- Nor does a run, and the bucket is never earlier. -/
theorem after_keeps [F64.Lawful F] (hlimit : cfg.limit ≤ U64_MAX)
    (hmax : cfg.interval ≤ U128_MAX) {ops : List SharedOp}
    (hepoch : ∀ op ∈ ops, ∀ now ∈ op.reading, 0 ≤ now.nanos) {c : SharedCounters} {key : Str}
    (h : (c.shards.lookup key).isSome) :
    ((c.after F cfg ops).shards.lookup key).isSome
      ∧ c.bucket key ≤ (c.after F cfg ops).bucket key := by
  induction ops generalizing c with
  | nil => exact ⟨h, Nat.le_refl _⟩
  | cons op ops ih =>
    obtain ⟨hop, hops⟩ := List.forall_mem_cons.mp hepoch
    obtain ⟨hsome, hle⟩ := ih hops (@operate_lookup F _ cfg c key op h)
    exact ⟨hsome, Nat.le_trans (operate_moved (F := F) hlimit hmax c key op hop).le hle⟩

/-- A check leaves a shard in a bucket no earlier than its reading. -/
theorem after_check [F64.Lawful F] (hlimit : cfg.limit ≤ U64_MAX)
    (hmax : cfg.interval ≤ U128_MAX) {ops : List SharedOp}
    (hepoch : ∀ op ∈ ops, ∀ now ∈ op.reading, 0 ≤ now.nanos) {source : Uuid} {key : Str}
    {t : SystemTime} (ht : .check source key t ∈ ops) (c : SharedCounters) :
    ∃ s, (c.after F cfg ops).shards.lookup key = some s
      ∧ clock_bucket t cfg.interval ≤ s.bucket := by
  induction ops generalizing c with
  | nil => cases ht
  | cons op ops ih =>
    obtain ⟨hop, hops⟩ := List.forall_mem_cons.mp hepoch
    obtain rfl | ht := List.mem_cons.mp ht
    · -- The check itself: from then on the shard is there.
      have hnow : 0 ≤ t.nanos := hop t rfl
      have hb : bucket_at t cfg.interval = some (t.nanos.toNat / cfg.interval) :=
        bucket_at_of_epoch hnow
      have hchecked : ((c.operate F cfg (.check source key t)).1.shards.lookup key).isSome ∧
          clock_bucket t cfg.interval ≤ (c.operate F cfg (.check source key t)).1.bucket key := by
        unfold operate
        simp only [check_at_of_some hb]
        rw [(insert_key c key _).1, Shard.check_bucket, clock_bucket_of_some hb,
          AList.lookup_insert]
        exact ⟨rfl, Nat.le_max_right _ _⟩
      obtain ⟨hsome, hle⟩ := after_keeps (F := F) hlimit hmax hops hchecked.1
      obtain ⟨s, hs⟩ := Option.isSome_iff_exists.mp hsome
      refine ⟨s, hs, Nat.le_trans hchecked.2 (hle.trans_eq ?_)⟩
      rw [bucket, hs]
      rfl
    · exact ih hops ht _

/-- **A shared limiter under any clock.** -/
theorem shared_quota_any_clock [F64.Lawful F] (hlimit : cfg.limit ≤ U64_MAX)
    (hmax : cfg.interval ≤ U128_MAX) {ops : List SharedOp}
    (hepoch : ∀ op ∈ ops, ∀ now ∈ op.reading, 0 ≤ now.nanos) (key : Str) :
    (∀ t ∈ ticks F cfg key {} ops, t.before ≤ t.after) ∧
    (∀ b, (ticks F cfg key {} ops).countP (fun t => t.admitted && t.after == b) ≤ cfg.limit) ∧
    (ticks F cfg key {} ops).countP Tick.admitted ≤ cfg.limit
      * (1 + (ticks F cfg key {} ops).countP (fun t => Decidable.decide (t.before < t.after))) ∧
    ∀ source t, .check source key t ∈ ops → ∀ op now, op.reading = some now → 0 ≤ now.nanos →
      now.nanos ≤ t.nanos →
      ∃ s s', (after F cfg {} ops).shards.lookup key = some s
        ∧ ((after F cfg {} ops).operate F cfg op).1.shards.lookup key = some s' ∧ Kept s s' := by
  refine ⟨ticks_le hlimit hmax key {} hepoch, fun b => ?_, ?_, ?_⟩
  · have hle := admitted_le_room (F := F) hlimit hmax key b {} hepoch
    unfold room at hle
    split_ifs at hle <;> omega
  · have hle := admitted_le_increases (F := F) hlimit hmax key {} hepoch
    rw [Nat.mul_add, Nat.mul_one]
    omega
  · intro source t ht op now hread hnow hback
    obtain ⟨s, hs, hbucket⟩ := after_check (F := F) hlimit hmax hepoch ht {}
    obtain ⟨s', hs', hkept⟩ := operate_kept (F := F) hlimit hmax hs hread hnow
      (Nat.le_trans (clock_bucket_mono cfg.interval_ge hback) hbucket)
    exact ⟨s, s', hs, hs', hkept⟩

/-! ## A clock that is set back -/

/-- One request a second. -/
def one_a_second : SharedConfig := ⟨[], NANOS_PER_SEC, 1, 1, Nat.le_refl _⟩

/-- A reading of whole seconds. -/
def at_second (n : Fin 100) : SystemTime := ⟨n * 1000000000, by omega⟩

/-- Two requests in the tenth second, a reconciliation and a request after the clock was set
back. -/
def set_back : List SharedOp :=
  [.check 0 ['k'] (at_second 10), .check 0 ['k'] (at_second 10), .pending (at_second 3) [['k']],
    .check 0 ['k'] (at_second 3)]

theorem shared_quota_any_clock_set_back :
    (ticks ℚ one_a_second ['k'] {} set_back).countP Tick.admitted ≤ 1
      * (1 + (ticks ℚ one_a_second ['k'] {} set_back).countP
        (fun t => Decidable.decide (t.before < t.after))) ∧
    ∃ s s', (after ℚ one_a_second {} set_back).shards.lookup ['k'] = some s
      ∧ ((after ℚ one_a_second {} set_back).operate ℚ one_a_second
        (.check 0 ['k'] (at_second 2))).1.shards.lookup ['k'] = some s' ∧ Kept s s' := by
  have hepoch : ∀ op ∈ set_back, ∀ now ∈ op.reading, 0 ≤ now.nanos := by
    decide +kernel
  have hlimit : one_a_second.limit ≤ U64_MAX := by decide
  have hmax : one_a_second.interval ≤ U128_MAX := by decide
  have h := shared_quota_any_clock (F := ℚ) hlimit hmax hepoch ['k']
  exact ⟨h.2.2.1, h.2.2.2 0 (at_second 10) List.mem_cons_self _ _ rfl (by decide) (by decide)⟩

end SharedCounters

end Lagos.RateLimit
