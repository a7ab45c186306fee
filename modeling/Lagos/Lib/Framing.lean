/-
Numbers of a fixed width, and pieces framed with their lengths.

A framed text is one piece after the other, each behind a code for its length. Where all codes
have one width that is not zero, and no two lengths one code, the pieces can be read back, so
two lists of pieces with one framed text are the same (`frames_injective`). Neither how many
pieces there are nor what they contain matters.

Such codes are the digits of a number, padded to a width, in whatever alphabet
(`injOn_digits_map`).
-/
import Mathlib.Data.Nat.Digits.Lemmas

set_option autoImplicit false

namespace Framing

variable {α : Type*}

/-! ## Digits -/

/-- The digits of a number below `b ^ w`, the most significant first. -/
def digits (b w n : ℕ) : List ℕ := (Nat.digitsAppend b w n).reverse

variable {b w : ℕ}

theorem length_digits (hb : 1 < b) {n : ℕ} (hn : n < b ^ w) : (digits b w n).length = w := by
  rw [digits, List.length_reverse, Nat.length_digitsAppend hb w hn]

theorem lt_of_mem_digits (hb : 1 < b) {n d : ℕ} (hd : d ∈ digits b w n) : d < b :=
  Nat.lt_of_mem_digitsAppend hb w d (List.mem_reverse.mp hd)

/-- Numbers are told apart by their digits, whatever these are written with. -/
theorem injOn_digits_map (hb : 1 < b) {f : ℕ → α} (hf : Set.InjOn f {d | d < b}) :
    Set.InjOn (fun n => (digits b w n).map f) {n | n < b ^ w} := by
  intro m hm n hn h
  -- What a digit is written with can be read back.
  have hback : ∀ n, ((digits b w n).map f).map (Function.invFunOn f {d | d < b})
      = digits b w n := by
    intro n
    rw [List.map_map]
    refine (List.map_congr_left fun d hd => ?_).trans (List.map_id _)
    exact hf.leftInvOn_invFunOn (lt_of_mem_digits hb hd)
  have hdigits : digits b w m = digits b w n := by
    rw [← hback m, ← hback n]
    exact congrArg _ h
  exact (Nat.bijOn_digitsAppend hb w).injOn hm hn (List.reverse_injective hdigits)

/-! ## Frames -/

/-- Each piece behind the code of its length. -/
def frames (code : ℕ → List α) (l : List (List α)) : List α :=
  l.flatMap fun x => code x.length ++ x

variable {code : ℕ → List α} {bound : ℕ}

/-- **Framed pieces can be told apart.** -/
theorem frames_injective (hw : 0 < w) (hwidth : ∀ n < bound, (code n).length = w)
    (hcode : Set.InjOn code {n | n < bound}) {l l' : List (List α)}
    (hl : ∀ x ∈ l, x.length < bound) (hl' : ∀ x ∈ l', x.length < bound)
    (h : frames code l = frames code l') : l = l' := by
  -- A list that is not empty starts with a code, so its text is not empty either.
  have hlong : ∀ x (rest : List (List α)), x.length < bound → frames code (x :: rest) ≠ [] := by
    intro x rest hx hnil
    have hlen := congrArg List.length hnil
    rw [frames, List.flatMap_cons, List.length_append, List.length_append, hwidth _ hx,
      List.length_nil] at hlen
    omega
  induction l generalizing l' with
  | nil =>
    cases l' with
    | nil => rfl
    | cons x' rest' => exact absurd h.symm (hlong x' rest' (hl' x' List.mem_cons_self))
  | cons x rest ih =>
    cases l' with
    | nil => exact absurd h (hlong x rest (hl x List.mem_cons_self))
    | cons x' rest' =>
      obtain ⟨hx, hrest⟩ := List.forall_mem_cons.mp hl
      obtain ⟨hx', hrest'⟩ := List.forall_mem_cons.mp hl'
      rw [frames, frames, List.flatMap_cons, List.flatMap_cons, ← frames, ← frames,
        List.append_assoc, List.append_assoc] at h
      obtain ⟨hcodes, hpieces⟩ := List.append_inj h ((hwidth _ hx).trans (hwidth _ hx').symm)
      obtain ⟨rfl, hframes⟩ := List.append_inj hpieces (hcode hx hx' hcodes)
      rw [ih hrest hrest' hframes]

end Framing
