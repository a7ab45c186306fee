/-
Events in slots of time.

A slot is a stretch of one width, named by its start. Slots do not overlap, but there may be
gaps of any length between one and the next. Where no slot holds more than `n` events, no
span as long as a slot holds more than twice as many: it cannot reach into three of them.
-/
import Mathlib.Algebra.Order.Monoid.Unbundled.Basic
import Mathlib.Algebra.Order.Monoid.Defs
import Mathlib.Data.List.Basic

set_option autoImplicit false

namespace TimeSlots

variable {T ε : Type*} [AddCommMonoid T] [LinearOrder T]

/-- Events with the slots they are in. -/
structure Slotted (width : T) (time start : ε → T) (events : List ε) : Prop where
  inside : ∀ e ∈ events, start e ≤ time e ∧ time e < start e + width
  apart : ∀ e ∈ events, ∀ f ∈ events,
    start e = start f ∨ start e + width ≤ start f ∨ start f + width ≤ start e

/-- Counting either of two kinds counts no event that neither count has. -/
theorem countP_or_le (p q : ε → Bool) (events : List ε) :
    events.countP (fun e => p e || q e) ≤ events.countP p + events.countP q := by
  induction events with
  | nil => exact Nat.le_refl 0
  | cons e events ih =>
    rw [List.countP_cons, List.countP_cons, List.countP_cons]
    cases p e <;> cases q e <;> simp <;> omega

variable [IsOrderedCancelAddMonoid T] {width : T} {time start : ε → T} {events : List ε}

/-- A span as long as a slot does not reach over one. -/
theorem Slotted.not_over (h : Slotted width time start events) {a : T} {e f g : ε}
    (he : e ∈ events) (hg : g ∈ events) (hef : start e + width ≤ start f)
    (hfg : start f + width ≤ start g) (hspan : a ≤ time e ∧ time g ≤ a + width) : False := by
  have hlast : a + width < start g :=
    calc a + width ≤ time e + width := add_le_add_left hspan.1 width
      _ < start e + width + width := add_lt_add_left (h.inside e he).2 width
      _ ≤ start f + width := add_le_add_left hef width
      _ ≤ start g := hfg
  exact absurd ((h.inside g hg).1.trans hspan.2) (not_le_of_gt hlast)

/-- Among the events of a span there are no three slots. -/
theorem Slotted.two_slots (h : Slotted width time start events) {a : T} {e f g : ε}
    (he : e ∈ events) (hf : f ∈ events) (hg : g ∈ events)
    (hse : a ≤ time e ∧ time e ≤ a + width) (hsf : a ≤ time f ∧ time f ≤ a + width)
    (hsg : a ≤ time g ∧ time g ≤ a + width) (hne : start e ≠ start f) :
    start g = start e ∨ start g = start f := by
  by_contra hno
  obtain ⟨hge, hgf⟩ := not_or.mp hno
  have hef := (h.apart e he f hf).resolve_left hne
  have heg := (h.apart g hg e he).resolve_left hge
  have hfg := (h.apart g hg f hf).resolve_left hgf
  -- Three slots have a first, a middle and a last one, whatever their order is.
  obtain h1 | h1 := hef <;> obtain h2 | h2 := heg <;> obtain h3 | h3 := hfg
  · exact h.not_over hg hf h2 h1 ⟨hsg.1, hsf.2⟩
  · exact h.not_over hg hf h2 h1 ⟨hsg.1, hsf.2⟩
  · exact h.not_over he hf h2 h3 ⟨hse.1, hsf.2⟩
  · exact h.not_over he hg h1 h3 ⟨hse.1, hsg.2⟩
  · exact h.not_over hg he h3 h1 ⟨hsg.1, hse.2⟩
  · exact h.not_over hf he h3 h2 ⟨hsf.1, hse.2⟩
  · exact h.not_over hf hg h1 h2 ⟨hsf.1, hsg.2⟩
  · exact h.not_over hf hg h1 h2 ⟨hsf.1, hsg.2⟩

/-- **Two slots' worth.** Where no slot holds more than `n` events, no span as long as a slot
holds more than `2 * n`. -/
theorem Slotted.span_le (h : Slotted width time start events) {n : ℕ}
    (hslot : ∀ s, events.countP (fun e => decide (start e = s)) ≤ n) (a : T) :
    events.countP (fun e => decide (a ≤ time e ∧ time e ≤ a + width)) ≤ 2 * n := by
  by_cases hone : ∀ e ∈ events, ∀ f ∈ events, a ≤ time e ∧ time e ≤ a + width →
      a ≤ time f ∧ time f ≤ a + width → start e = start f
  · by_cases hany : ∃ e ∈ events, a ≤ time e ∧ time e ≤ a + width
    · obtain ⟨e, he, hspan⟩ := hany
      have hle : events.countP (fun f => decide (a ≤ time f ∧ time f ≤ a + width))
          ≤ events.countP (fun f => decide (start f = start e)) := by
        refine List.countP_mono_left fun f hf hin => ?_
        exact decide_eq_true (hone f hf e he (of_decide_eq_true hin) hspan)
      have hn := hslot (start e)
      omega
    · have hzero : events.countP (fun e => decide (a ≤ time e ∧ time e ≤ a + width)) = 0 := by
        refine List.countP_eq_zero.mpr fun e he hin => ?_
        exact hany ⟨e, he, of_decide_eq_true hin⟩
      omega
  · push Not at hone
    obtain ⟨e, he, f, hf, hse, hsf, hne⟩ := hone
    have hle : events.countP (fun g => decide (a ≤ time g ∧ time g ≤ a + width))
        ≤ events.countP (fun g => decide (start g = start e) || decide (start g = start f)) := by
      refine List.countP_mono_left fun g hg hin => ?_
      rw [Bool.or_eq_true, decide_eq_true_eq, decide_eq_true_eq]
      exact h.two_slots he hf hg hse hsf (of_decide_eq_true hin) hne
    have hsum := countP_or_le (fun g => decide (start g = start e))
      (fun g => decide (start g = start f)) events
    have hfirst := hslot (start e)
    have hsecond := hslot (start f)
    omega

end TimeSlots
