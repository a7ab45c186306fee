/-
Requests in flight (`concurrency.rs`), and the two hooks that count them (`request_filter`,
`proxy_upstream_filter`).

A route's cap is an atomic counter that is made when it is first asked for: looked up under the
read lock, and entered under the write lock if it was not there. A slot is taken from it by
compare-and-swap. Other requests may come between any two of these accesses, so each of them is
a step here, and `advance` says what one step of a request is. A counter is known by its place in
`counters`, as an `Arc` is; a slot has the counter and not the key.

A caller's cap is counted in `pingora_limits::inflight`, which is a parameter (`Sketch`). It is
relied on for one thing: a count is never below the guards that are out.
-/
import Lagos.AdmissionKeys
import Lagos.Lib.Permits
import Lagos.Lib.Run
import Mathlib.Logic.Function.Basic

set_option autoImplicit false

open RustStd

namespace Lagos.Concurrency

open Lagos.Config Lagos.Proxy StepRun

/-! ## The sketch -/

/-- `pingora_limits::inflight::Inflight`: `incr` by one, with the count it gives, and the drop of
a guard. -/
structure Sketch (σ : Type) where
  new : σ
  incr : σ → Str → σ × ℤ
  drop : σ → Str → σ

/-- What guards are out of a sketch, by their keys. -/
inductive Sketch.Reached {σ : Type} (sk : Sketch σ) : σ → (Str → ℕ) → Prop
  | new : Reached sk sk.new fun _ => 0
  | incr {s : σ} {out : Str → ℕ} (key : Str) (h : Reached sk s out) :
      Reached sk (sk.incr s key).1 (Function.update out key (out key + 1))
  | drop {s : σ} {out : Str → ℕ} (key : Str)
      (h : Reached sk s (Function.update out key (out key + 1))) :
      Reached sk (sk.drop s key) out

/-- A count includes every guard of its key, the new one too. -/
def Sketch.NeverUndercounts {σ : Type} (sk : Sketch σ) : Prop :=
  ∀ s out, sk.Reached s out → ∀ key, ((out key + 1 : ℕ) : ℤ) ≤ (sk.incr s key).2

/-! ## `InFlight` -/

/-- `InFlight`. The counters are in the order they were made in. -/
structure InFlight (σ : Type) where
  routes : Str → Option ℕ
  counters : List ℕ
  callers : σ

/-- `InFlight::new`. -/
def InFlight.new {σ : Type} (sk : Sketch σ) : InFlight σ := ⟨fun _ => none, [], sk.new⟩

/-- The counter of a key, zero if there is none yet. -/
def InFlight.count {σ : Type} (f : InFlight σ) (key : Str) : ℕ :=
  ((f.routes key).bind fun i => f.counters[i]?).getD 0

/-- `AtomicU64::fetch_sub(1)`: it wraps. -/
def fetch_sub (n : ℕ) : ℕ := if n = 0 then U64_MAX else n - 1

/-- Where a request is. -/
inductive Phase where
  /-- Its slot is in `ctx.concurrency`. -/
  | pending
  /-- The read lock found no counter. -/
  | missing
  /-- It has the counter, -/
  | found (counter : ℕ)
  /-- and has read it. -/
  | loaded (counter n : ℕ)
  /-- `Slot::Route`. -/
  | route (counter : ℕ)
  /-- `Slot::Caller`. The ticket is history: the step that took it. -/
  | caller (ticket : ℕ)
  /-- A caller over the cap, whose guard is not dropped yet. -/
  | exceeded
  | refused
  | done
  deriving DecidableEq, Repr

/-- One step of `InFlight::take`. `spurious` is a compare-and-swap that fails as if another had
come between. -/
def advance {σ : Type} (sk : Sketch σ) (f : InFlight σ) (ticket : ℕ) (slot : PendingSlot)
    (spurious : Bool) : Phase → Option (InFlight σ × Phase)
  | .pending =>
    if slot.per_caller then
      let (callers, count) := sk.incr f.callers slot.key
      -- `u64::try_from(count).unwrap_or(0)`
      some ({ f with callers := callers },
        if count.toNat ≤ slot.max then .caller ticket else .exceeded)
    else some (f, (f.routes slot.key).elim .missing .found)
  | .missing =>
    -- `entry(..).or_default()`: another caller may have made it meanwhile
    some <| match f.routes slot.key with
      | some i => (f, .found i)
      | none =>
        ({ f with routes := Function.update f.routes slot.key (some f.counters.length)
                  counters := f.counters ++ [0] }, .found f.counters.length)
  | .found i => f.counters[i]?.map fun n => (f, .loaded i n)
  | .loaded i n =>
    if n < slot.max then
      f.counters[i]?.map fun now =>
        if now = n ∧ spurious = false then
          ({ f with counters := f.counters.set i (saturating_add_u64 n 1) }, .route i)
        else (f, .loaded i now)
    else some (f, .refused)
  | .exceeded => some ({ f with callers := sk.drop f.callers slot.key }, .refused)
  | .route _ | .caller _ | .refused | .done => none

/-- The drop of a request's context, with what it holds. `take` does not wait, so a request is
not dropped within it. -/
def release {σ : Type} (sk : Sketch σ) (f : InFlight σ) (slot : PendingSlot) :
    Phase → Option (InFlight σ)
  | .route i => f.counters[i]?.map fun n => { f with counters := f.counters.set i (fetch_sub n) }
  | .caller _ => some { f with callers := sk.drop f.callers slot.key }
  | .pending | .refused => some f
  | .missing | .found _ | .loaded _ _ | .exceeded | .done => none

/-! ## The gateway -/

/-- A request on a route with a cap. -/
structure Task where
  slot : PendingSlot
  phase : Phase
  deriving DecidableEq, Repr

/-- The routes that have a cap, by their ids; the slots; the requests so far. -/
structure State (σ : Type) where
  caps : List (Str × ConcurrencyConfig)
  inflight : InFlight σ
  tasks : List Task := []
  /-- History: the steps of requests so far. -/
  steps : ℕ := 0

/-- What can happen next. A request arrives on a route under the key that `limit_key` gives it.
It goes on, and is dropped: finished, refused, or over its deadline. -/
inductive Event where
  | reload (caps : List (Str × ConcurrencyConfig))
  | arrive (route_id key : Str)
  | advance (task : ℕ) (spurious : Bool)
  | drop (task : ℕ)

variable {σ : Type} (sk : Sketch σ)

def start (caps : List (Str × ConcurrencyConfig)) : State σ := ⟨caps, .new sk, [], 0⟩

def step (s : State σ) : Event → Option (State σ)
  | .reload caps => some { s with caps := caps }
  | .arrive route_id key =>
    (s.caps.lookup route_id).bind fun cap =>
      -- a cap is a `u64`
      if cap.max ≤ U64_MAX then
        some { s with tasks := s.tasks ++ [⟨Admission.pending_slot cap route_id key, .pending⟩] }
      else none
  | .advance j spurious =>
    s.tasks[j]?.bind fun t =>
      (advance sk s.inflight s.steps t.slot spurious t.phase).map fun (inflight, phase) =>
        { s with inflight := inflight, tasks := s.tasks.set j { t with phase := phase }
                 steps := s.steps + 1 }
  | .drop j =>
    s.tasks[j]?.bind fun t =>
      (release sk s.inflight t.slot t.phase).map fun inflight =>
        { s with inflight := inflight, tasks := s.tasks.set j { t with phase := .done }
                 steps := s.steps + 1 }

/-! ## What is held -/

/-- The request has a slot of the route's counter. -/
def Phase.holds_route : Phase → Bool
  | .route _ => true
  | _ => false

/-- The request has a slot of the caller's. -/
def Phase.holds_caller : Phase → Bool
  | .caller _ => true
  | _ => false

/-- A guard of the sketch is out for it. -/
def Phase.guarded : Phase → Bool
  | .caller _ | .exceeded => true
  | _ => false

/-- The request has a slot of the caller's that was taken before some step. -/
def Phase.before (n : ℕ) : Phase → Bool
  | .caller ticket => ticket < n
  | _ => false

theorem Phase.before_of_not_caller {p : Phase} (hp : p.holds_caller = false) (n : ℕ) :
    p.before n = false := by
  cases p with
  | caller ticket => cases hp
  | _ => rfl

theorem Phase.guarded_of_before {p : Phase} {n : ℕ} (hp : p.before n = true) :
    p.guarded = true := by
  cases p with
  | caller ticket => rfl
  | _ => cases hp

/-- The counter that a request has. -/
def Phase.counter : Phase → Option ℕ
  | .found i | .loaded i _ | .route i => some i
  | _ => none

/-- How many requests with a key are in such a phase. -/
def held (P : Phase → Bool) (tasks : List Task) (key : Str) : ℕ :=
  tasks.countP fun t => t.slot.key = key ∧ P t.phase

/-- The outstanding route slots of a key, -/
def State.route_slots (s : State σ) : Str → ℕ := held Phase.holds_route s.tasks

/-- and its callers' slots. -/
def State.caller_slots (s : State σ) : Str → ℕ := held Phase.holds_caller s.tasks

section Held

variable {P : Phase → Bool} {tasks : List Task} {j : ℕ} {t : Task} {p : Phase}

/-- A request that goes from one phase to another. -/
theorem held_set (hj : tasks[j]? = some t) (key : Str) :
    held P (tasks.set j { t with phase := p }) key
        + (if t.slot.key = key ∧ P t.phase = true then 1 else 0)
      = held P tasks key + if t.slot.key = key ∧ P p = true then 1 else 0 := by
  have hset := @Permits.countP_set _ (fun u => decide (u.slot.key = key ∧ P u.phase = true)) _ _ _
    { t with phase := p } hj
  simpa only [held, decide_eq_true_eq] using hset

theorem held_set_same (hj : tasks[j]? = some t) (hp : P p = P t.phase) :
    held P (tasks.set j { t with phase := p }) = held P tasks := by
  funext key
  have h := held_set (P := P) (p := p) hj key
  rw [hp] at h
  omega

/-- One more, -/
theorem held_set_up (hj : tasks[j]? = some t) (ht : P t.phase = false) (hp : P p = true) :
    held P (tasks.set j { t with phase := p })
      = Function.update (held P tasks) t.slot.key (held P tasks t.slot.key + 1) := by
  funext key
  have h := held_set (P := P) (p := p) hj key
  rw [ht, hp] at h
  by_cases hkey : t.slot.key = key
  · rw [← hkey] at h ⊢
    rw [Function.update_self]
    simpa using h
  · rw [Function.update_of_ne (Ne.symm hkey)]
    simpa [hkey] using h

/-- and one less. -/
theorem held_set_down (hj : tasks[j]? = some t) (ht : P t.phase = true) (hp : P p = false) :
    held P tasks = Function.update (held P (tasks.set j { t with phase := p })) t.slot.key
      (held P (tasks.set j { t with phase := p }) t.slot.key + 1) := by
  funext key
  have h := held_set (P := P) (p := p) hj key
  rw [ht, hp] at h
  by_cases hkey : t.slot.key = key
  · rw [← hkey] at h ⊢
    rw [Function.update_self]
    simpa using h.symm
  · rw [Function.update_of_ne (Ne.symm hkey)]
    simpa [hkey] using h.symm

theorem held_mono {Q : Phase → Bool} (hPQ : ∀ t ∈ tasks, P t.phase = true → Q t.phase = true)
    (key : Str) : held P tasks key ≤ held Q tasks key := by
  unfold held
  refine List.countP_mono_left ?_
  intro t ht hp
  simp only [decide_eq_true_eq] at hp ⊢
  exact ⟨hp.1, hPQ t ht hp.2⟩

theorem held_append (slot : PendingSlot) (hp : P .pending = false) :
    held P (tasks ++ [⟨slot, .pending⟩]) = held P tasks := by
  funext key
  unfold held
  rw [List.countP_append, List.countP_singleton, hp]
  simp

end Held

/-! ## One step of a request -/

/-- What `advance` can do. -/
inductive Advance (f : InFlight σ) (ticket : ℕ) (slot : PendingSlot) :
    Phase → InFlight σ → Phase → Prop
  | grant (h : (sk.incr f.callers slot.key).2.toNat ≤ slot.max) :
      Advance f ticket slot .pending { f with callers := (sk.incr f.callers slot.key).1 }
        (.caller ticket)
  | exceeded : Advance f ticket slot .pending
      { f with callers := (sk.incr f.callers slot.key).1 } .exceeded
  | lookup {i : ℕ} (h : f.routes slot.key = some i) : Advance f ticket slot .pending f (.found i)
  | miss : Advance f ticket slot .pending f .missing
  | again {i : ℕ} (h : f.routes slot.key = some i) : Advance f ticket slot .missing f (.found i)
  | create (h : f.routes slot.key = none) : Advance f ticket slot .missing
      { f with routes := Function.update f.routes slot.key (some f.counters.length)
               counters := f.counters ++ [0] } (.found f.counters.length)
  | load (i n : ℕ) : Advance f ticket slot (.found i) f (.loaded i n)
  | retry (i n now : ℕ) : Advance f ticket slot (.loaded i n) f (.loaded i now)
  | refuse (i n : ℕ) : Advance f ticket slot (.loaded i n) f .refused
  | swap {i n : ℕ} (hlt : n < slot.max) (h : f.counters[i]? = some n) :
      Advance f ticket slot (.loaded i n)
        { f with counters := f.counters.set i (saturating_add_u64 n 1) } (.route i)
  | give_back : Advance f ticket slot .exceeded
      { f with callers := sk.drop f.callers slot.key } .refused

variable {sk}

theorem advance_cases {f f' : InFlight σ} {ticket : ℕ} {slot : PendingSlot} {spurious : Bool}
    {p p' : Phase} (h : advance sk f ticket slot spurious p = some (f', p')) :
    Advance sk f ticket slot p f' p' := by
  cases p with
  | pending =>
    rw [advance] at h
    by_cases hcaller : slot.per_caller = true
    · rw [if_pos hcaller] at h
      simp only [Option.some.injEq, Prod.mk.injEq] at h
      obtain ⟨rfl, rfl⟩ := h
      split
      · rename_i hle
        exact .grant hle
      · exact .exceeded
    · rw [if_neg hcaller] at h
      cases hroute : f.routes slot.key with
      | none =>
        rw [hroute] at h
        cases h
        exact .miss
      | some i =>
        rw [hroute] at h
        cases h
        exact .lookup hroute
  | missing =>
    rw [advance] at h
    cases hroute : f.routes slot.key with
    | none =>
      rw [hroute] at h
      cases h
      exact .create hroute
    | some i =>
      rw [hroute] at h
      cases h
      exact .again hroute
  | found i =>
    rw [advance] at h
    obtain ⟨n, -, hn⟩ := Option.map_eq_some_iff.mp h
    cases hn
    exact .load i n
  | loaded i n =>
    rw [advance] at h
    by_cases hlt : n < slot.max
    · rw [if_pos hlt] at h
      obtain ⟨now, hnow, hres⟩ := Option.map_eq_some_iff.mp h
      by_cases hswap : now = n ∧ spurious = false
      · rw [if_pos hswap] at hres
        cases hres
        exact .swap hlt (hswap.1 ▸ hnow)
      · rw [if_neg hswap] at hres
        cases hres
        exact .retry i n now
    · rw [if_neg hlt] at h
      cases h
      exact .refuse i n
  | exceeded =>
    cases h
    exact .give_back
  | route i => cases h
  | caller ticket => cases h
  | refused => cases h
  | done => cases h

/-- What `release` can do. -/
theorem release_cases {f f' : InFlight σ} {slot : PendingSlot} {p : Phase}
    (h : release sk f slot p = some f') :
    (∃ i n, p = .route i ∧ f.counters[i]? = some n ∧
        f' = { f with counters := f.counters.set i (fetch_sub n) }) ∨
      (∃ ticket, p = .caller ticket ∧ f' = { f with callers := sk.drop f.callers slot.key }) ∨
      ((p = .pending ∨ p = .refused) ∧ f' = f) := by
  cases p with
  | route i =>
    obtain ⟨n, hn, rfl⟩ := Option.map_eq_some_iff.mp h
    exact .inl ⟨i, n, rfl, hn, rfl⟩
  | caller ticket =>
    cases h
    exact .inr (.inl ⟨ticket, rfl, rfl⟩)
  | pending =>
    cases h
    exact .inr (.inr ⟨.inl rfl, rfl⟩)
  | refused =>
    cases h
    exact .inr (.inr ⟨.inr rfl, rfl⟩)
  | missing => cases h
  | found i => cases h
  | loaded i n => cases h
  | exceeded => cases h
  | done => cases h

end Lagos.Concurrency
