/-
A store that may forget.

A store keeps a record for each key. A request for a key finds the record, or none, answers,
and leaves a record; some requests are answered without it. Between requests the store may
drop a record that has been idle, for reasons of its own.

`Forgetful` says what makes that harmless: a record that is idle when its next request comes
answers as no record would, and what the request leaves cannot be told apart later. Then the
answers are those of a store that drops nothing (`Forgetful.outputs_eq`), whatever it drops
and however often.
-/
import Mathlib.Logic.Function.Basic
import Mathlib.Order.Defs.PartialOrder

set_option autoImplicit false

namespace Eviction

variable {κ σ ι ω τ : Type*}

/-! ## Stores -/

/-- What is done to a store. -/
inductive Event (κ ι τ : Type*) where
  | use (key : κ) (input : ι)
  | drop (key : κ) (moment : τ)

/-- What a request does with a record. -/
structure Records (σ ι ω τ : Type*) where
  time : ι → τ
  /-- The answer of a request that does not look for the record. -/
  pass : ι → Option ω
  use : Option σ → ι → σ × ω

/-- The requests alone. -/
def uses (es : List (Event κ ι τ)) : List (Event κ ι τ) :=
  es.filter fun e => match e with
    | .use _ _ => true
    | .drop _ _ => false

@[simp] theorem uses_nil : uses ([] : List (Event κ ι τ)) = [] := rfl

@[simp] theorem uses_use (key : κ) (i : ι) (es : List (Event κ ι τ)) :
    uses (.use key i :: es) = .use key i :: uses es := rfl

@[simp] theorem uses_drop (key : κ) (t : τ) (es : List (Event κ ι τ)) :
    uses (.drop key t :: es) = uses es := rfl

/-- When an event happens, by the time of its request. -/
def Event.moment (time : ι → τ) : Event κ ι τ → τ
  | .use _ i => time i
  | .drop _ t => t

variable [DecidableEq κ]

/-- Nothing is dropped that is not idle. `last` says when each key was last looked for. -/
def Legal (looks : ι → Bool) (time : ι → τ) (idle : τ → τ → Prop) :
    (κ → Option τ) → List (Event κ ι τ) → Prop
  | _, [] => True
  | last, .use key i :: es =>
    Legal looks time idle (if looks i then Function.update last key (some (time i)) else last) es
  | last, .drop key t :: es => (∀ t₀ ∈ last key, idle t₀ t) ∧ Legal looks time idle last es

namespace Records

variable (r : Records σ ι ω τ)

/-- Whether a request looks for the record. -/
def looks (i : ι) : Bool := (r.pass i).isNone

/-- The answers to the requests. -/
def outputs : (κ → Option σ) → List (Event κ ι τ) → List ω
  | _, [] => []
  | store, .use key i :: es =>
    match r.pass i with
    | some o => o :: outputs store es
    | none =>
      (r.use (store key) i).2
        :: outputs (Function.update store key (some (r.use (store key) i).1)) es
  | store, .drop key _ :: es => outputs (Function.update store key none) es

variable {r}

/-- A request that is answered without the record leaves it. -/
theorem outputs_pass {store : κ → Option σ} {key : κ} {i : ι} {o : ω} {es : List (Event κ ι τ)}
    (h : r.pass i = some o) : r.outputs store (.use key i :: es) = o :: r.outputs store es := by
  rw [outputs, h]

theorem outputs_use {store : κ → Option σ} {key : κ} {i : ι} {es : List (Event κ ι τ)}
    (h : r.pass i = none) :
    r.outputs store (.use key i :: es) = (r.use (store key) i).2
      :: r.outputs (Function.update store key (some (r.use (store key) i).1)) es := by
  rw [outputs, h]

end Records

/-! ## Records that can be forgotten -/

variable [Preorder τ]

/-- `Since s t₀` is what is known of a record last looked for at `t₀`. -/
structure Forgetful (r : Records σ ι ω τ) (idle : τ → τ → Prop) (Alike : σ → σ → Prop)
    (Since : σ → τ → Prop) : Prop where
  idle_mono : ∀ {t₀ t t'}, idle t₀ t → t ≤ t' → idle t₀ t'
  refl : ∀ s, Alike s s
  since : ∀ {a i}, r.pass i = none → (∀ s ∈ a, ∃ t₀, Since s t₀ ∧ t₀ ≤ r.time i) →
    Since (r.use a i).1 (r.time i)
  alike : ∀ {s s' i}, r.pass i = none → Alike s s' →
    (r.use (some s) i).2 = (r.use (some s') i).2
      ∧ Alike (r.use (some s) i).1 (r.use (some s') i).1
  forgets : ∀ {s t₀ i}, r.pass i = none → Since s t₀ → idle t₀ (r.time i) →
    (r.use none i).2 = (r.use (some s) i).2 ∧ Alike (r.use none i).1 (r.use (some s) i).1

namespace Forgetful

variable {r : Records σ ι ω τ} {idle : τ → τ → Prop} {Alike : σ → σ → Prop}
  {Since : σ → τ → Prop}

/-- What may have become of a record `b` of the store that keeps everything, in the other. -/
inductive Match (idle : τ → τ → Prop) (Alike : σ → σ → Prop) (Since : σ → τ → Prop)
    (last : Option τ) (now : τ) : Option σ → Option σ → Prop
  | absent : Match idle Alike Since last now none none
  | kept {s s' : σ} {t₀ : τ} (hlast : last = some t₀) (hle : t₀ ≤ now) (hsince : Since s' t₀)
      (halike : Alike s s') : Match idle Alike Since last now (some s) (some s')
  | dropped {s' : σ} {t₀ : τ} (hlast : last = some t₀) (hle : t₀ ≤ now) (hsince : Since s' t₀)
      (hidle : idle t₀ now) : Match idle Alike Since last now none (some s')

theorem Match.later (h : Forgetful r idle Alike Since) {last : Option τ} {now now' : τ}
    {a b : Option σ} (hm : Match idle Alike Since last now a b) (hle : now ≤ now') :
    Match idle Alike Since last now' a b := by
  cases hm with
  | absent => exact .absent
  | kept hlast hle₀ hsince halike => exact .kept hlast (le_trans hle₀ hle) hsince halike
  | dropped hlast hle₀ hsince hidle =>
    exact .dropped hlast (le_trans hle₀ hle) hsince (h.idle_mono hidle hle)

/-- **One request.** Both stores answer it alike, and are left with records that match. -/
theorem Match.use (h : Forgetful r idle Alike Since) {last : Option τ} {i : ι} {a b : Option σ}
    (hpass : r.pass i = none) (hm : Match idle Alike Since last (r.time i) a b) :
    (r.use a i).2 = (r.use b i).2 ∧
      Match idle Alike Since (some (r.time i)) (r.time i) (some (r.use a i).1)
        (some (r.use b i).1) := by
  cases hm with
  | absent =>
    have hsince : Since (r.use none i).1 (r.time i) := h.since hpass (by simp)
    exact ⟨rfl, .kept rfl le_rfl hsince (h.refl _)⟩
  | kept hlast hle hsince halike =>
    obtain ⟨hout, halike'⟩ := h.alike hpass halike
    refine ⟨hout, .kept rfl le_rfl (h.since hpass fun s hs => ?_) halike'⟩
    obtain rfl := Option.mem_some.mp hs
    exact ⟨_, hsince, hle⟩
  | dropped hlast hle hsince hidle =>
    obtain ⟨hout, halike⟩ := h.forgets hpass hsince hidle
    refine ⟨hout, .kept rfl le_rfl (h.since hpass fun s hs => ?_) halike⟩
    obtain rfl := Option.mem_some.mp hs
    exact ⟨_, hsince, hle⟩

/-- A drop that is legal leaves a match. -/
theorem Match.drop {last : Option τ} {now : τ} {a b : Option σ}
    (hm : Match idle Alike Since last now a b) (hidle : ∀ t₀ ∈ last, idle t₀ now) :
    Match idle Alike Since last now none b := by
  cases hm with
  | absent => exact .absent
  | kept hlast hle hsince _ => exact .dropped hlast hle hsince (hidle _ hlast)
  | dropped hlast hle hsince hidle => exact .dropped hlast hle hsince hidle

/-- Stores that match answer alike, though one of them drops records. -/
theorem outputs_of_match (h : Forgetful r idle Alike Since) {es : List (Event κ ι τ)}
    {last : κ → Option τ} {now : τ} {a b : κ → Option σ}
    (hm : ∀ key, Match idle Alike Since (last key) now (a key) (b key))
    (hsorted : (es.map (Event.moment r.time)).Pairwise (· ≤ ·))
    (hnow : ∀ e ∈ es, now ≤ e.moment r.time) (hlegal : Legal r.looks r.time idle last es) :
    r.outputs a es = r.outputs b (uses es) := by
  -- The records match key by key as of `now`, which goes from one event to the next.
  induction es generalizing last now a b with
  | nil => rfl
  | cons e es ih =>
    have hle : now ≤ e.moment r.time := hnow e List.mem_cons_self
    obtain ⟨hlater, hrest⟩ := List.pairwise_cons.mp hsorted
    have hlater' : ∀ e' ∈ es, e.moment r.time ≤ e'.moment r.time := fun e' he' =>
      hlater _ (List.mem_map_of_mem he')
    have hm' : ∀ key, Match idle Alike Since (last key) (e.moment r.time) (a key) (b key) :=
      fun key => (hm key).later h hle
    cases e with
    | use key i =>
      rw [uses_use]
      cases hpass : r.pass i with
      -- The request does not look, so the record is no less idle for it.
      | some o =>
        have hlegal' : Legal r.looks r.time idle last es := by
          simpa [Legal, Records.looks, hpass] using hlegal
        rw [Records.outputs_pass hpass, Records.outputs_pass hpass, ih hm' hrest hlater' hlegal']
      | none =>
        have hlegal' : Legal r.looks r.time idle
            (Function.update last key (some (r.time i))) es := by
          simpa [Legal, Records.looks, hpass] using hlegal
        obtain ⟨hout, hmatch⟩ := Match.use h hpass (hm' key)
        rw [Records.outputs_use hpass, Records.outputs_use hpass, hout,
          ih (fun key' => ?_) hrest hlater' hlegal']
        by_cases hkey : key' = key
        · subst hkey
          rw [Function.update_self, Function.update_self, Function.update_self]
          exact hmatch
        · rw [Function.update_of_ne hkey, Function.update_of_ne hkey, Function.update_of_ne hkey]
          exact hm' key'
    -- Only the store that forgets takes a step.
    | drop key t =>
      rw [uses_drop]
      refine ih (fun key' => ?_) hrest hlater' hlegal.2
      by_cases hkey : key' = key
      · subst hkey
        rw [Function.update_self]
        exact (hm' key').drop hlegal.1
      · rw [Function.update_of_ne hkey]
        exact hm' key'

/-- **Forgetting is not seen.** From an empty store on, the answers are those of a store that
drops nothing. -/
theorem outputs_eq (h : Forgetful r idle Alike Since) {es : List (Event κ ι τ)}
    (hsorted : (es.map (Event.moment r.time)).Pairwise (· ≤ ·))
    (hlegal : Legal r.looks r.time idle (fun _ => none) es) :
    r.outputs (fun _ => none) es = r.outputs (fun _ => none) (uses es) := by
  cases es with
  | nil => rfl
  | cons e es =>
    have hmatch : ∀ key : κ, Match idle Alike Since none (e.moment r.time) none none :=
      fun _ => .absent
    refine h.outputs_of_match hmatch hsorted ?_ hlegal
    refine List.forall_mem_cons.mpr ⟨le_rfl, fun e' he' => ?_⟩
    exact (List.pairwise_cons.mp hsorted).1 _ (List.mem_map_of_mem he')

end Forgetful

end Eviction
