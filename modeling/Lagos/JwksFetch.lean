/-
When a key cache fetches.

A task that finds no fresh set goes on to the slot, and leads if the slot is empty. It does not
look again: in between another task can have fetched a set, stored it and left the slot. Then a
fetch begins although the set is fresh, and in no other case (`fetches_needed_iff`).
-/
import Lagos.JwksRun

set_option autoImplicit false

open RustStd StepRun

namespace Lagos.Jwks

variable {Key : Type} {self : CertCache Key}

/-! ## Elections -/

/-- The task that takes a step. -/
def Event.polled : Event → Option ℕ
  | .poll t => some t
  | _ => none

/-- What a task has found that is about to take the mutex of the slot. -/
def Phase.found : Phase Key → Option (Option (Cached Key))
  | .electing found => some found
  | _ => none

/-- A fetch begins: a task finds the slot empty. -/
def State.Begins (s : State Key) (e : Event) : Prop :=
  ∃ t ∈ e.polled, (s.tasks t).phase.found.isSome = true ∧ s.inflight = none

/-- A fetch that begins is needed: there is no set, or it has expired. -/
def State.Needed (s : State Key) (e : Event) : Prop := s.Begins e → s.fresh = none

/-- A task finds the slot empty, and the cache with another set than the one it has checked, which
was stored in between and has not expired. -/
def State.Overtaken (s : State Key) (e : Event) : Prop :=
  ∃ t ∈ e.polled, ∃ found ∈ (s.tasks t).phase.found,
    s.inflight = none ∧ s.inner ≠ found ∧ s.fresh ≠ none

instance [DecidableEq Key] (s : State Key) (e : Event) : Decidable (s.Overtaken e) :=
  inferInstanceAs (Decidable (∃ t ∈ e.polled, ∃ found ∈ (s.tasks t).phase.found,
    s.inflight = none ∧ s.inner ≠ found ∧ s.fresh ≠ none))

/-- What a task has found before the slot is not fresh. -/
def Checked (s : State Key) : Prop :=
  ∀ t, ∀ found ∈ (s.tasks t).phase.found, ∀ set ∈ found, set.is_fresh s.now = false

section Elections

variable {s s' : State Key} {e : Event}

/-- Time does not go back. -/
theorem steps_now (h : self.Steps s e s') : s.now ≤ s'.now := by
  cases h with
  | tick d => exact Nat.le_add_right ..
  | lead h hslot =>
    rw [State.elect, hslot]
    exact Nat.le_refl _
  | _ => exact Nat.le_refl _

/-- What has expired stays so. -/
theorem stale_mono {set : Cached Key} {now now' : Instant} (hle : now ≤ now')
    (h : set.is_fresh now = false) : set.is_fresh now' = false := by
  have hexpired : ¬ now < set.expires_at := of_decide_eq_false h
  exact decide_eq_false fun hlt => hexpired (Nat.lt_of_le_of_lt hle hlt)

/-- A task that goes on to the slot has found the set as it is, and not fresh. -/
theorem steps_found {t : ℕ} {found : Option (Cached Key)} (h : self.Steps s e s')
    (hfound : (s'.tasks t).phase.found = some found) :
    (s.tasks t).phase.found = some found ∨ (found = s.inner ∧ s.fresh = none) := by
  by_cases ht : e.actor = some t
  · obtain hplain | ⟨helecting, hstale⟩ | ⟨cached, -, rfl⟩ | ⟨error, -, rfl⟩ | ⟨-, rfl⟩ :=
      steps_own h ht
    · -- A plain phase is not that of a task that goes on to the slot.
      cases hphase : (s'.tasks t).phase with
      | electing set =>
        rw [hphase] at hplain
        cases hplain
      | _ =>
        rw [hphase] at hfound
        cases hfound
    · rw [helecting] at hfound
      cases hfound
      exact .inr ⟨rfl, hstale⟩
    · rw [go_self] at hfound
      cases hfound
    · rw [CertCache.fall_back, go_self] at hfound
      cases hfound
    · rw [CertCache.reread, go_self] at hfound
      cases hfound
  · rw [steps_other h ht] at hfound
    exact .inl hfound

theorem step_checked (hs : Checked s) (h : self.Steps s e s') : Checked s' := by
  intro t found hfound set hset
  refine stale_mono (steps_now h) ?_
  obtain hold | ⟨rfl, hstale⟩ := steps_found h hfound
  · exact hs t found hold set hset
  · exact Bool.eq_false_iff.mpr (Option.filter_eq_none_iff.mp hstale set hset)

/-- A fetch that begins is needed, or its task was overtaken. -/
theorem needed_iff (hs : Checked s) : s.Needed e ↔ ¬ s.Overtaken e := by
  constructor
  · rintro hneeded ⟨t, ht, found, hfound, hslot, -, hfresh⟩
    exact hfresh (hneeded ⟨t, ht, Option.isSome_of_mem hfound, hslot⟩)
  · rintro hnot ⟨t, ht, hsome, hslot⟩
    obtain ⟨found, hfound⟩ := Option.isSome_iff_exists.mp hsome
    by_contra hfresh
    refine hnot ⟨t, ht, found, hfound, hslot, fun hsame => hfresh ?_, hfresh⟩
    rw [State.fresh, hsame]
    refine Option.filter_eq_none_iff.mpr fun set hset => ?_
    exact Bool.eq_false_iff.mp (hs t found hfound set hset)

end Elections

namespace Overtaking

/-- Both tasks check the cache; the first one leads, fetches, stores the set, and leaves the
slot. -/
def events : List Event :=
  [.call 0 "k".toList, .call 1 "k".toList, .poll 0, .poll 1, .poll 0, .poll 1, .poll 0,
    .fetched 0 (.ok ⟨200, "200 OK", none, none, []⟩), .poll 0, .poll 0, .poll 0]

/-- What that comes to. -/
def state : State ℕ := (run TwoCallers.cache.step (State.new ℕ 0) events).get (by decide +kernel)

end Overtaking

end Lagos.Jwks
