/-
The fill budget of the cache, `max_inflight_fill` (`cache/storage.rs`).

Misses on distinct keys fill at the same time, each on a worker of its own, and what they
buffer is counted by one atomic counter. Bytes are reserved before they are buffered and given
back on three ways out: an abandoned fill, a finished one, and a handler that is dropped.

A step of this file is one access to the storage, with what the handler does to itself next to
it, which nobody else sees. A write that finds no room is so two steps, with anything of the
other handlers in between: the reservation that fails, and the release. A finish is two as
well: the release, and the insertion. One after the other they are the operations of
`CacheStorage` (`write_body_advance`, `finish_advance`).
-/
import Lagos.CacheStorage
import Lagos.Lib.Run
import Mathlib.Algebra.Order.BigOperators.Group.List
import Mathlib.Algebra.Order.Ring.Nat

set_option autoImplicit false

open RustStd

namespace Lagos.Cache.Budget

open StepRun

/-! ## One handler -/

/-- How far a handler has come. -/
inductive Phase where
  /-- No operation is under way. -/
  | idle
  /-- A write found no room, and is about to give back what was buffered. -/
  | abandoning
  /-- A finish gave the bytes back, and is about to insert this. -/
  | publishing (entry : Entry)
  | stored
  | dropped
  deriving DecidableEq, Repr

/-- A miss handler, alive or not. -/
structure Handler (Key : Type) where
  miss : Miss Key
  phase : Phase
  deriving DecidableEq, Repr

/-- What is done with a handler. -/
inductive Action where
  | write (data : Bytes)
  | abandon
  | finish
  | publish
  | drop
  deriving DecidableEq, Repr

variable {Key CacheMeta NotModified : Type}

/-- `Miss::write_body`, up to the abandonment. -/
def write (s : MemoryStorage Key) (m : Miss Key) (data : Bytes) :
    MemoryStorage Key × Handler Key :=
  if m.too_large then (s, ⟨m, .idle⟩)
  else if usize_saturating_add m.body.length data.length > s.max_object_bytes then
    (s, ⟨m, .abandoning⟩)
  else
    match reserve s data.length with
    | (false, s) => (s, ⟨m, .abandoning⟩)
    | (true, s) => (s, ⟨{ m with body := m.body ++ data }, .idle⟩)

/-- One step of a handler, where it is in a state for it. -/
def advance [DecidableEq Key] (s : MemoryStorage Key) (h : Handler Key) :
    Action → Option (MemoryStorage Key × Handler Key)
  | .write data => if h.phase = .idle then some (write s h.miss data) else none
  | .abandon =>
    if h.phase = .abandoning then
      some ((Cache.abandon s h.miss).1, ⟨(Cache.abandon s h.miss).2, .idle⟩)
    else none
  | .finish =>
    if h.phase = .idle then
      -- A fill that was abandoned reports an error, and the handler goes.
      if h.miss.too_large then some (Cache.drop s h.miss, ⟨h.miss, .dropped⟩)
      else
        some (release s h.miss.body.length,
          ⟨{ h.miss with internal := [], header := [], body := [] },
            .publishing ⟨h.miss.internal, h.miss.header, h.miss.body⟩⟩)
    else none
  | .publish =>
    match h.phase with
    -- `Drop` runs after the finish, on what is left of the handler.
    | .publishing entry => some (Cache.drop (insert s h.miss.key entry) h.miss, ⟨h.miss, .stored⟩)
    | _ => none
  | .drop => if h.phase = .idle then some (Cache.drop s h.miss, ⟨h.miss, .dropped⟩) else none

/-- The bytes a handler has buffered, while it is there. -/
def Handler.buffered (h : Handler Key) : ℕ :=
  match h.phase with
  | .stored => 0
  | .dropped => 0
  | _ => h.miss.body.length

/-! ## The operations -/

section Operations

variable [DecidableEq Key] (s : MemoryStorage Key) (m : Miss Key)

/-- A `write_body` is a write, and the abandonment where the write calls for it. -/
theorem write_body_advance (data : Bytes) :
    ∃ s₁ h₁, advance s ⟨m, .idle⟩ (.write data) = some (s₁, h₁)
      ∧ (h₁.phase = .idle ∧ write_body s m data = (s₁, h₁.miss)
        ∨ h₁.phase = .abandoning ∧ advance s₁ h₁ .abandon
            = some ((write_body s m data).1, ⟨(write_body s m data).2, .idle⟩)) := by
  refine ⟨(write s m data).1, (write s m data).2, by simp only [advance, if_true], ?_⟩
  unfold write write_body
  split
  · exact .inl ⟨rfl, rfl⟩
  · split
    · exact .inr ⟨rfl, rfl⟩
    · rcases reserve s data.length with ⟨ok, s'⟩
      cases ok with
      | false => exact .inr ⟨rfl, rfl⟩
      | true => exact .inl ⟨rfl, rfl⟩

/-- A `finish` is the release and the insertion, unless the fill was abandoned. -/
theorem finish_advance (hm : m.too_large = false) :
    ∃ s₁ h₁, advance s ⟨m, .idle⟩ .finish = some (s₁, h₁)
      ∧ advance s₁ h₁ .publish = some ((finish s m).2.1, ⟨(finish s m).2.2, .stored⟩) := by
  refine ⟨release s m.body.length, ⟨{ m with internal := [], header := [], body := [] },
    .publishing ⟨m.internal, m.header, m.body⟩⟩, ?_, ?_⟩
  · simp [advance, hm]
  · rw [finish, hm, if_neg Bool.false_ne_true]
    rfl

end Operations

/-! ## What one step does to the counter -/

/-- Where the counter holds the bytes, giving them back is a subtraction. -/
theorem release_filling {s : MemoryStorage Key} {bytes : ℕ} (hle : bytes ≤ s.filling)
    (hs : s.filling ≤ USIZE_MAX) : (release s bytes).filling = s.filling - bytes := by
  unfold release
  split
  · have hbytes : bytes % (USIZE_MAX + 1) = bytes := Nat.mod_eq_of_lt (by omega)
    have hsub : s.filling + (USIZE_MAX + 1) - bytes = s.filling - bytes + (USIZE_MAX + 1) := by
      omega
    dsimp only
    rw [hbytes, hsub, Nat.add_mod_right]
    exact Nat.mod_eq_of_lt (by omega)
  · omega

@[simp] theorem release_limits (s : MemoryStorage Key) (bytes : ℕ) :
    (release s bytes).max_object_bytes = s.max_object_bytes
      ∧ (release s bytes).max_fill_bytes = s.max_fill_bytes := by
  unfold release
  split <;> exact ⟨rfl, rfl⟩

/-- What holds of every handler. -/
structure Handler.Ok (max_object_bytes : ℕ) (h : Handler Key) : Prop where
  fits : h.buffered ≤ max_object_bytes
  /-- An abandoned fill holds nothing, and does not get to store anything. -/
  abandoned : h.miss.too_large = true → h.miss.body = [] ∧ (h.phase = .idle ∨ h.phase = .dropped)
  published : ∀ entry, h.phase = .publishing entry → h.miss.body = []

/-- What one step of a handler does. -/
structure Advanced (s s' : MemoryStorage Key) (h h' : Handler Key) : Prop where
  /-- The counter changes by what the handler's buffer changes by. -/
  filling : s'.filling + h.buffered = s.filling + h'.buffered
  budget : s'.filling ≤ s.filling ∨ s'.filling ≤ s.max_fill_bytes ∧ s'.filling ≤ USIZE_MAX
  limits : s'.max_object_bytes = s.max_object_bytes ∧ s'.max_fill_bytes = s.max_fill_bytes
  ok : h'.Ok s.max_object_bytes
  abandoned : h.miss.too_large = true → h'.miss.too_large = true

section Steps

variable {s s' : MemoryStorage Key} {h h' : Handler Key}

/-- A handler that lets go of its buffer gives back what it held. -/
theorem advanced_of_release (hs : s.filling ≤ USIZE_MAX) (hle : h.buffered ≤ s.filling)
    (hheld : h.buffered = h.miss.body.length) (hnone : h'.buffered = 0)
    (hok : h'.Ok s.max_object_bytes)
    (hsticky : h.miss.too_large = true → h'.miss.too_large = true) :
    Advanced s (release s h.miss.body.length) h h' := by
  have hfilling := release_filling (hheld ▸ hle) hs
  refine ⟨?_, .inl ?_, release_limits s _, hok, hsticky⟩
  · omega
  · omega

/-- A step that leaves the counter alone, and the handler holding what it held. -/
theorem advanced_of_same (hs : s'.filling = s.filling) (hb : h'.buffered = h.buffered)
    (hlimits : s'.max_object_bytes = s.max_object_bytes ∧ s'.max_fill_bytes = s.max_fill_bytes)
    (hok : h'.Ok s.max_object_bytes)
    (hsticky : h.miss.too_large = true → h'.miss.too_large = true) :
    Advanced s s' h h' :=
  ⟨by rw [hs, hb], .inl hs.le, hlimits, hok, hsticky⟩

theorem reserve_cases (s : MemoryStorage Key) (bytes : ℕ) :
    (s.filling + bytes ≤ USIZE_MAX ∧ s.filling + bytes ≤ s.max_fill_bytes
        ∧ reserve s bytes = (true, { s with filling := s.filling + bytes }))
      ∨ reserve s bytes = (false, s) := by
  unfold reserve
  split
  · rename_i hroom
    exact .inl ⟨hroom.1, hroom.2, rfl⟩
  · exact .inr rfl

/-- A write reserves what it buffers, or finds no room and touches nothing. -/
theorem advanced_write {m : Miss Key} {data : Bytes} (hle : m.body.length ≤ s.filling)
    (hok : Handler.Ok s.max_object_bytes ⟨m, .idle⟩) :
    Advanced s (write s m data).1 ⟨m, .idle⟩ (write s m data).2 := by
  unfold write
  by_cases hm : m.too_large = true
  · rw [if_pos hm]
    exact advanced_of_same rfl rfl ⟨rfl, rfl⟩ hok id
  · have hnoroom : Handler.Ok s.max_object_bytes ⟨m, .abandoning⟩ :=
      ⟨hok.fits, fun h => absurd h hm, fun _ h => by cases h⟩
    rw [if_neg hm]
    split
    · exact advanced_of_same rfl rfl ⟨rfl, rfl⟩ hnoroom id
    · rename_i hfits
      obtain ⟨hcounter, hbudget, hr⟩ | hr := reserve_cases s data.length
      · rw [hr]
        have hlength : (m.body ++ data).length = m.body.length + data.length := List.length_append
        -- The counter has room for both, so the saturating sum is the sum.
        have hsum : m.body.length + data.length ≤ s.max_object_bytes := by
          simp only [usize_saturating_add] at hfits
          omega
        refine ⟨?_, .inr ⟨hbudget, hcounter⟩, ⟨rfl, rfl⟩, ⟨?_, fun h => absurd h hm, ?_⟩, id⟩
        · simp only [Handler.buffered, hlength]
          omega
        · simp only [Handler.buffered, hlength]
          exact hsum
        · exact fun _ h => by cases h
      · rw [hr]
        exact advanced_of_same rfl rfl ⟨rfl, rfl⟩ hnoroom id

/-- **What one step of a handler does.** -/
theorem advance_spec [DecidableEq Key] {a : Action} (hs : s.filling ≤ USIZE_MAX)
    (hle : h.buffered ≤ s.filling) (hok : h.Ok s.max_object_bytes)
    (ha : advance s h a = some (s', h')) : Advanced s s' h h' := by
  obtain ⟨m, phase⟩ := h
  cases a with
  | write data =>
    rw [advance] at ha
    split at ha
    · rename_i hidle
      obtain rfl : phase = .idle := hidle
      have hwrite : Advanced s (write s m data).1 ⟨m, .idle⟩ (write s m data).2 :=
        advanced_write hle hok
      rwa [Option.some.inj ha] at hwrite
    · cases ha
  | abandon =>
    rw [advance] at ha
    split at ha
    · rename_i habandoning
      obtain rfl : phase = .abandoning := habandoning
      obtain ⟨rfl, rfl⟩ := Prod.mk.inj (Option.some.inj ha)
      exact advanced_of_release hs hle rfl rfl
        ⟨Nat.zero_le _, fun _ => ⟨rfl, .inl rfl⟩, fun _ h => by cases h⟩ fun _ => rfl
    · cases ha
  | finish =>
    rw [advance] at ha
    split at ha
    · rename_i hidle
      obtain rfl : phase = .idle := hidle
      split at ha
      · obtain ⟨rfl, rfl⟩ := Prod.mk.inj (Option.some.inj ha)
        exact advanced_of_release hs hle rfl rfl
          ⟨Nat.zero_le _, fun h => ⟨(hok.abandoned h).1, .inr rfl⟩, fun _ h => by cases h⟩ id
      · rename_i hm
        obtain ⟨rfl, rfl⟩ := Prod.mk.inj (Option.some.inj ha)
        exact advanced_of_release hs hle rfl rfl
          ⟨Nat.zero_le _, fun h => absurd h hm, fun _ _ => rfl⟩ id
    · cases ha
  | publish =>
    rw [advance] at ha
    split at ha
    · rename_i entry hpublishing
      obtain rfl : phase = .publishing entry := hpublishing
      obtain ⟨rfl, rfl⟩ := Prod.mk.inj (Option.some.inj ha)
      have hempty : m.body = [] := hok.published entry rfl
      have hnot : ¬ m.too_large = true := fun h => by
        obtain hidle | hdropped := (hok.abandoned h).2
        · cases hidle
        · cases hdropped
      refine advanced_of_same ?_ ?_ ?_ ⟨Nat.zero_le _, fun h => absurd h hnot, ?_⟩ id
      · simp [Cache.drop, hempty, release, insert]
      · simp [Handler.buffered, hempty]
      · exact release_limits _ _
      · exact fun _ h => by cases h
    · cases ha
  | drop =>
    rw [advance] at ha
    split at ha
    · rename_i hidle
      obtain rfl : phase = .idle := hidle
      obtain ⟨rfl, rfl⟩ := Prod.mk.inj (Option.some.inj ha)
      exact advanced_of_release hs hle rfl rfl
        ⟨Nat.zero_le _, fun h => ⟨(hok.abandoned h).1, .inr rfl⟩, fun _ h => by cases h⟩ id
    · cases ha

theorem write_entries (s : MemoryStorage Key) (m : Miss Key) (data : Bytes) :
    (write s m data).1.entries = s.entries := by
  unfold write
  split
  · rfl
  · split
    · rfl
    · obtain ⟨-, -, hr⟩ | hr := reserve_cases s data.length <;> rw [hr]

/-- Only the insertion touches an entry. -/
theorem advance_entries [DecidableEq Key] {a : Action}
    (ha : advance s h a = some (s', h')) (hne : a ≠ .publish) : s'.entries = s.entries := by
  cases a with
  | publish => exact absurd rfl hne
  | write data =>
    obtain ⟨-, he⟩ := Option.ite_none_right_eq_some.mp ha
    rw [← write_entries s h.miss data, Option.some.inj he]
  | abandon =>
    obtain ⟨-, he⟩ := Option.ite_none_right_eq_some.mp ha
    cases he
    exact release_entries s _
  | finish =>
    obtain ⟨-, he⟩ := Option.ite_none_right_eq_some.mp ha
    split at he <;> cases he <;> exact release_entries s _
  | drop =>
    obtain ⟨-, he⟩ := Option.ite_none_right_eq_some.mp ha
    cases he
    exact release_entries s _

end Steps

/-! ## Many handlers -/

/-- `MemoryStorage::new`, which holds nothing yet, `with_fill_budget`. -/
def new (max_object_bytes max_fill_bytes : ℕ) : MemoryStorage Key where
  entries := fun _ => none
  max_object_bytes := max_object_bytes
  filling := 0
  max_fill_bytes := max_fill_bytes

/-- One storage, and the handlers it gave out, each at its number. -/
structure State (Key : Type) where
  storage : MemoryStorage Key
  handlers : List (Handler Key)

inductive Event (Key CacheMeta : Type) where
  /-- A miss: a handler is asked for. -/
  | open (key : Key) (cacheMeta : CacheMeta)
  | act (i : ℕ) (a : Action)
  /-- A purge, an eviction or the metadata of a revalidation: these look at no fill. -/
  | elsewhere (entries : Key → Option Entry)

/-- One step, of any handler. -/
def step [DecidableEq Key] (ops : MetaOps CacheMeta NotModified) (s : State Key) :
    Event Key CacheMeta → Option (State Key)
  | .open key cacheMeta =>
    match get_miss_handler ops key cacheMeta with
    | .ok m => some { s with handlers := s.handlers ++ [⟨m, .idle⟩] }
    | .error _ => some s
  | .act i a =>
    -- The handlers share the storage, and nothing else.
    match s.handlers[i]? with
    | none => none
    | some h =>
      match advance s.storage h a with
      | none => none
      | some (storage, h') => some ⟨storage, s.handlers.set i h'⟩
  | .elsewhere entries => some { s with storage := { s.storage with entries := entries } }

/-- Nothing is being filled. -/
def start (max_object_bytes max_fill_bytes : ℕ) : State Key :=
  ⟨new max_object_bytes max_fill_bytes, []⟩

/-- The invariant. -/
structure Accounted (max_object_bytes max_fill_bytes : ℕ) (s : State Key) : Prop where
  filling : s.storage.filling = (s.handlers.map Handler.buffered).sum
  budget : s.storage.filling ≤ max_fill_bytes
  counter : s.storage.filling ≤ USIZE_MAX
  handlers : ∀ h ∈ s.handlers, h.Ok max_object_bytes
  limits : s.storage.max_object_bytes = max_object_bytes
    ∧ s.storage.max_fill_bytes = max_fill_bytes

/-- One entry of a list of numbers is replaced. -/
theorem sum_map_set {α : Type} (f : α → ℕ) {l : List α} {i : ℕ} {x y : α} (h : l[i]? = some x) :
    ((l.set i y).map f).sum + f x = (l.map f).sum + f y := by
  induction l generalizing i with
  | nil => cases h
  | cons z l ih =>
    cases i with
    | zero =>
      obtain rfl : z = x := Option.some.inj h
      simp only [List.set_cons_zero, List.map_cons, List.sum_cons]
      omega
    | succ i =>
      have hrest := ih (i := i) (by simpa using h)
      simp only [List.set_cons_succ, List.map_cons, List.sum_cons]
      omega

theorem Accounted.covered {max_object_bytes max_fill_bytes : ℕ} {s : State Key}
    (hs : Accounted max_object_bytes max_fill_bytes s) {h : Handler Key}
    (hmem : h ∈ s.handlers) : h.buffered ≤ s.storage.filling := by
  rw [hs.filling]
  exact List.single_le_sum (fun _ _ => Nat.zero_le _) _ (List.mem_map_of_mem hmem)

theorem start_accounted (max_object_bytes max_fill_bytes : ℕ) :
    Accounted max_object_bytes max_fill_bytes (start max_object_bytes max_fill_bytes : State Key) :=
  ⟨rfl, Nat.zero_le _, Nat.zero_le _, fun _ h => absurd h List.not_mem_nil, rfl, rfl⟩

section Runs

variable [DecidableEq Key] {ops : MetaOps CacheMeta NotModified} {s t : State Key}
  {e : Event Key CacheMeta} {max_object_bytes max_fill_bytes : ℕ}

/-- What a step can do: a handler is added, one takes a step, or entries change by other hands. -/
theorem step_cases (h : step ops s e = some t) :
    (∃ key cacheMeta, e = .open key cacheMeta ∧ (t = s ∨ ∃ m : Miss Key, m.body = []
        ∧ m.too_large = false ∧ t = { s with handlers := s.handlers ++ [⟨m, .idle⟩] }))
      ∨ (∃ entries, e = .elsewhere entries
        ∧ t = { s with storage := { s.storage with entries := entries } })
      ∨ ∃ i a before storage after, e = .act i a ∧ s.handlers[i]? = some before
        ∧ advance s.storage before a = some (storage, after)
        ∧ t = ⟨storage, s.handlers.set i after⟩ := by
  cases e with
  | «open» key cacheMeta =>
    simp only [step] at h
    split at h
    · rename_i m hm
      obtain ⟨-, -, hbody, hlarge⟩ := get_miss_handler_ok ops key m hm
      exact .inl ⟨key, cacheMeta, rfl, .inr ⟨m, hbody, hlarge, (Option.some.inj h).symm⟩⟩
    · exact .inl ⟨key, cacheMeta, rfl, .inl (Option.some.inj h).symm⟩
  | act i a =>
    simp only [step] at h
    split at h
    · cases h
    · rename_i before hbefore
      split at h
      · cases h
      · rename_i storage after hafter
        exact .inr (.inr ⟨i, a, before, storage, after, rfl, hbefore, hafter,
          (Option.some.inj h).symm⟩)
  | elsewhere entries => exact .inr (.inl ⟨entries, rfl, (Option.some.inj h).symm⟩)

theorem step_accounted (hs : Accounted max_object_bytes max_fill_bytes s)
    (h : step ops s e = some t) : Accounted max_object_bytes max_fill_bytes t := by
  obtain ⟨key, cacheMeta, -, rfl | ⟨m, hbody, hlarge, rfl⟩⟩ | ⟨entries, -, rfl⟩
    | ⟨i, a, before, storage, after, -, hi, ha, rfl⟩ := step_cases h
  · exact hs
  · have hempty : Handler.buffered ⟨m, .idle⟩ = 0 := by simp [Handler.buffered, hbody]
    refine { hs with filling := ?_, handlers := fun h hmem => ?_ }
    · simp [hs.filling, hempty]
    · obtain hmem | hmem := List.mem_append.mp hmem
      · exact hs.handlers h hmem
      · obtain rfl := List.mem_singleton.mp hmem
        exact ⟨by rw [hempty]; exact Nat.zero_le _,
          fun h => absurd (hlarge.symm.trans h) Bool.false_ne_true, fun _ _ => hbody⟩
  · exact { hs with }
  · -- The sum changes by what this handler's buffer changes by, and so does the counter.
    have hmem := List.mem_of_getElem? hi
    have hsum := sum_map_set Handler.buffered (y := after) hi
    have hadvanced := advance_spec hs.counter (hs.covered hmem)
      (hs.limits.1 ▸ hs.handlers before hmem) ha
    have hbefore := hs.filling
    have hchange := hadvanced.filling
    refine ⟨?_, ?_, ?_, fun h hmem => ?_, ?_⟩
    · dsimp only
      omega
    · obtain hless | ⟨hroom, -⟩ := hadvanced.budget
      · exact hless.trans hs.budget
      · exact hs.limits.2 ▸ hroom
    · obtain hless | ⟨-, hroom⟩ := hadvanced.budget
      · exact hless.trans hs.counter
      · exact hroom
    · obtain hmem | rfl := List.mem_or_eq_of_mem_set hmem
      · exact hs.handlers h hmem
      · exact hs.limits.1 ▸ hadvanced.ok
    · exact ⟨hadvanced.limits.1.trans hs.limits.1, hadvanced.limits.2.trans hs.limits.2⟩

/-! ## What becomes of a handler -/

/-- The fill was abandoned, or its handler dropped. -/
def Handler.Lost (h : Handler Key) : Prop := h.miss.too_large = true ∨ h.phase = .dropped

/-- A handler that is gone takes no more steps. -/
theorem advance_gone {s : MemoryStorage Key} {h : Handler Key} (a : Action)
    (hgone : h.phase = .stored ∨ h.phase = .dropped) : advance s h a = none := by
  obtain hp | hp := hgone <;> cases a <;> simp [advance, hp]

/-- Handlers stay at their numbers. One that stored its entry has done so for good, and one that
was abandoned stays so. -/
theorem step_keeps (hs : Accounted max_object_bytes max_fill_bytes s) (h : step ops s e = some t)
    {i : ℕ} {x : Handler Key} (hi : s.handlers[i]? = some x) :
    ∃ y, t.handlers[i]? = some y ∧ (x.miss.too_large = true → y.miss.too_large = true)
      ∧ (x.phase = .stored ∨ x.phase = .dropped → y = x) := by
  obtain ⟨key, cacheMeta, -, rfl | ⟨m, -, -, rfl⟩⟩ | ⟨entries, -, rfl⟩
    | ⟨j, a, before, storage, after, -, hj, ha, rfl⟩ := step_cases h
  · exact ⟨x, hi, id, fun _ => rfl⟩
  · have hlt : i < s.handlers.length := (List.getElem?_eq_some_iff.mp hi).1
    exact ⟨x, by rw [List.getElem?_append_left hlt]; exact hi, id, fun _ => rfl⟩
  · exact ⟨x, hi, id, fun _ => rfl⟩
  · by_cases hij : j = i
    · subst hij
      obtain rfl : before = x := Option.some.inj (hj.symm.trans hi)
      have hmem := List.mem_of_getElem? hj
      have hadvanced := advance_spec hs.counter (hs.covered hmem)
        (hs.limits.1 ▸ hs.handlers before hmem) ha
      have hlt : j < s.handlers.length := (List.getElem?_eq_some_iff.mp hj).1
      refine ⟨after, by simp [hlt], hadvanced.abandoned, fun hgone => ?_⟩
      -- A handler that is gone takes no step, so this one was not.
      rw [advance_gone a hgone] at ha
      cases ha
    · exact ⟨x, by rw [List.getElem?_set_ne hij]; exact hi, id, fun _ => rfl⟩

/-- A handler that is lost stays lost, and what was abandoned stays empty. -/
theorem run_lost (hs : Accounted max_object_bytes max_fill_bytes s)
    {fs : List (Event Key CacheMeta)} (h : run (step ops) s fs = some t) {i : ℕ} {x : Handler Key}
    (hi : s.handlers[i]? = some x) (hlost : x.Lost) :
    ∃ y, t.handlers[i]? = some y ∧ y.Lost
      ∧ (x.miss.too_large = true → y.miss.too_large = true ∧ y.miss.body = []) := by
  suffices hall : Accounted max_object_bytes max_fill_bytes t ∧ ∃ y, t.handlers[i]? = some y
      ∧ y.Lost ∧ (x.miss.too_large = true → y.miss.too_large = true) by
    obtain ⟨ht, y, hy, hlosty, hlarge⟩ := hall
    exact ⟨y, hy, hlosty, fun hx => ⟨hlarge hx,
      ((ht.handlers y (List.mem_of_getElem? hy)).abandoned (hlarge hx)).1⟩⟩
  refine run_invariant_always (I := fun t =>
    Accounted max_object_bytes max_fill_bytes t ∧ ∃ y, t.handlers[i]? = some y ∧ y.Lost
      ∧ (x.miss.too_large = true → y.miss.too_large = true)) ⟨hs, x, hi, hlost, id⟩ ?_ h
  rintro s e t ⟨hs, y, hy, hlosty, hlarge⟩ he
  refine ⟨step_accounted hs he, ?_⟩
  obtain ⟨z, hz, hlargez, hgone⟩ := step_keeps hs he hy
  refine ⟨z, hz, ?_, fun hx => hlargez (hlarge hx)⟩
  obtain hy' | hy' := hlosty
  · exact .inl (hlargez hy')
  · exact .inr ((hgone (.inr hy')).symm ▸ hy')

/-- A handler whose entry is inserted has stored it. -/
theorem publish_stores {i : ℕ} (h : step ops s (.act i .publish) = some t) :
    ∃ y, t.handlers[i]? = some y ∧ y.phase = .stored := by
  obtain ⟨_, _, he, -⟩ | ⟨_, he, -⟩ | ⟨j, a, before, storage, after, he, hj, ha, rfl⟩ :=
    step_cases h
  · cases he
  · cases he
  · cases he
    have hlt : i < s.handlers.length := (List.getElem?_eq_some_iff.mp hj).1
    refine ⟨after, by simp [hlt], ?_⟩
    rw [advance] at ha
    split at ha
    · cases ha
      rfl
    · cases ha

/-- Who inserted an entry has stored it. -/
theorem stored_of_publish {es : List (Event Key CacheMeta)}
    (h : run (step ops) (start max_object_bytes max_fill_bytes) es = some s) :
    Accounted max_object_bytes max_fill_bytes s
      ∧ ∀ i, .act i .publish ∈ es → ∃ x, s.handlers[i]? = some x ∧ x.phase = .stored := by
  have hany : Along (step ops) (fun _ _ => True) (start max_object_bytes max_fill_bytes) es :=
    along_of_forall fun _ _ _ => trivial
  refine run_induction (P := fun es s => Accounted max_object_bytes max_fill_bytes s
      ∧ ∀ i, .act i .publish ∈ es → ∃ x, s.handlers[i]? = some x ∧ x.phase = .stored)
    ⟨start_accounted _ _, fun _ hmem => absurd hmem List.not_mem_nil⟩ ?_ h hany
  rintro es e s t - ⟨hs, hstored⟩ - he
  refine ⟨step_accounted hs he, fun i hmem => ?_⟩
  obtain hmem | hmem := List.mem_append.mp hmem
  · obtain ⟨x, hx, hphase⟩ := hstored i hmem
    obtain ⟨y, hy, -, hgone⟩ := step_keeps hs he hx
    exact ⟨y, hy, (hgone (.inl hphase)).symm ▸ hphase⟩
  · rw [← List.mem_singleton.mp hmem] at he
    exact publish_stores he

/-- A handler that is lost has inserted nothing. -/
theorem not_published_of_lost {es : List (Event Key CacheMeta)}
    (h : run (step ops) (start max_object_bytes max_fill_bytes) es = some s) {i : ℕ}
    {x : Handler Key} (hi : s.handlers[i]? = some x) (hlost : x.Lost) :
    .act i .publish ∉ es := by
  intro hmem
  obtain ⟨hs, hstored⟩ := stored_of_publish h
  obtain ⟨y, hy, hphase⟩ := hstored i hmem
  obtain rfl : x = y := Option.some.inj (hi.symm.trans hy)
  -- A handler that has stored its entry is neither: no finish comes that far once it is lost.
  obtain hlarge | hdropped := hlost
  · obtain hp | hp := ((hs.handlers x (List.mem_of_getElem? hi)).abandoned hlarge).2
    · exact Phase.noConfusion (hp.symm.trans hphase)
    · exact Phase.noConfusion (hp.symm.trans hphase)
  · exact Phase.noConfusion (hdropped.symm.trans hphase)

/-- What the budget promises of a state that a run leads to: the counter is what the live
handlers hold, no release takes more off it than it holds, and both bounds are kept. -/
structure Budgeted (max_object_bytes max_fill_bytes : ℕ) (s : State Key) : Prop where
  filling : s.storage.filling = (s.handlers.map Handler.buffered).sum
  budget : s.storage.filling ≤ max_fill_bytes
  counter : s.storage.filling ≤ USIZE_MAX
  covered : ∀ h ∈ s.handlers, h.buffered ≤ s.storage.filling
  fits : ∀ h ∈ s.handlers, h.buffered ≤ max_object_bytes

/-- An entry changes when a finish inserts it, or by other hands. -/
theorem step_entries (h : step ops s e = some t) :
    (∃ entries, e = .elsewhere entries) ∨ (∃ i, e = .act i .publish)
      ∨ t.storage.entries = s.storage.entries := by
  obtain ⟨_, _, -, rfl | ⟨m, -, -, rfl⟩⟩ | ⟨entries, he, -⟩
    | ⟨j, a, before, storage, after, he, -, ha, rfl⟩ := step_cases h
  · exact .inr (.inr rfl)
  · exact .inr (.inr rfl)
  · exact .inl ⟨entries, he⟩
  · by_cases hpublish : a = .publish
    · exact .inr (.inl ⟨j, hpublish ▸ he⟩)
    · exact .inr (.inr (advance_entries ha hpublish))

/-- **The fill budget.** Whatever the handlers do, in whatever order, the counter is the sum of
what they hold and within bounds; a handler that was abandoned buffers nothing any more; and one
that was abandoned or dropped inserts no entry, before or after. -/
theorem fill_budget {es : List (Event Key CacheMeta)}
    (h : run (step ops) (start max_object_bytes max_fill_bytes) es = some s) :
    Budgeted max_object_bytes max_fill_bytes s
      ∧ (∀ e t, step ops s e = some t → t.storage.entries ≠ s.storage.entries →
        (∃ entries, e = .elsewhere entries) ∨ ∃ i, e = .act i .publish)
      ∧ ∀ i x, s.handlers[i]? = some x → x.Lost →
        .act i .publish ∉ es
        ∧ ∀ fs t, run (step ops) s fs = some t →
          .act i .publish ∉ fs
          ∧ ∃ y, t.handlers[i]? = some y ∧ (x.miss.too_large = true → y.miss.body = []) := by
  obtain ⟨hs, -⟩ := stored_of_publish h
  refine ⟨⟨hs.filling, hs.budget, hs.counter, fun h hmem => hs.covered hmem,
    fun h hmem => (hs.handlers h hmem).fits⟩, fun e t he hne => ?_, fun i x hi hlost => ?_⟩
  · obtain helse | hpublish | hsame := step_entries he
    · exact .inl helse
    · exact .inr hpublish
    · exact absurd hsame hne
  · refine ⟨not_published_of_lost h hi hlost, fun fs t hrun => ?_⟩
    obtain ⟨y, hy, hlosty, hempty⟩ := run_lost hs hrun hi hlost
    -- What comes after is a longer run, in which the handler is lost just as well.
    have hwhole : run (step ops) (start max_object_bytes max_fill_bytes) (es ++ fs) = some t := by
      rw [run_append, h]
      exact hrun
    have hnot := not_published_of_lost hwhole hy hlosty
    exact ⟨fun hmem => hnot (List.mem_append_right es hmem), y, hy, fun hx => (hempty hx).2⟩

end Runs

/-! ## Two fills that do not fit together -/

/-- A meta that is its own two halves. -/
def halves : MetaOps (Bytes × Bytes) Unit where
  serialize := .ok
  deserialize := fun internal header => .ok (internal, header)
  refresh := fun cached _ => cached

/-- The second fill is abandoned after the first has reserved two bytes of three, which then
is stored. -/
def two_fills : List (Event ℕ (Bytes × Bytes)) :=
  [.open 1 ([], []), .open 2 ([], []), .act 0 (.write [10, 11]), .act 1 (.write [12, 13]),
    .act 0 .finish, .act 1 .abandon, .act 0 .publish, .act 1 (.write [14])]

/-- Where they lead. -/
def after_two_fills : State ℕ := (run (step halves) (start 8 3) two_fills).getD (start 8 3)

theorem fill_budget_two_fills :
    Budgeted 8 3 after_two_fills ∧ (.act 1 .publish : Event ℕ (Bytes × Bytes)) ∉ two_fills := by
  have hrun : run (step halves) (start 8 3) two_fills = some after_two_fills := rfl
  obtain ⟨hbudgeted, -, hlost⟩ := fill_budget hrun
  exact ⟨hbudgeted, (hlost 1 ⟨⟨2, [], [], [], true⟩, .idle⟩ rfl (.inl rfl)).1⟩

end Lagos.Cache.Budget
