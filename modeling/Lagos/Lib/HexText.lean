/-
Bytes that are written with hexadecimal digits.

A digit is a character of the alphabet, in either case (`Digit`), and two of them spell a byte,
the higher one first (`Spells`). There are half as many bytes as characters, and every text of an
even number of digits spells some (`Spells.of_digits`). Written in lower case, every list of bytes
is spelled (`spells_write`).
-/
import Lagos.Lib.RustStd

set_option autoImplicit false

open RustStd

namespace HexText

/-! ## Digits -/

/-- The digits, each at the place of its value. -/
def alphabet : List Char := "0123456789abcdef".toList

/-- A digit of this value, in either case. -/
def Digit (c : Char) (n : ℕ) : Prop := alphabet[n]? = some c.toLower

instance (c : Char) (n : ℕ) : Decidable (Digit c n) :=
  inferInstanceAs (Decidable (alphabet[n]? = some c.toLower))

namespace Digit

variable {c : Char} {n : ℕ}

theorem lt (h : Digit c n) : n < 16 := (List.getElem?_eq_some_iff.mp h).1

theorem ascii (h : Digit c n) : c.toNat < 128 := by
  have hall : alphabet.all (·.toNat < 128) = true := by decide
  have hlower := of_decide_eq_true (List.all_eq_true.mp hall _ (List.mem_of_getElem? h))
  rw [toNat_toLower] at hlower
  split at hlower
  · omega
  · exact hlower

theorem utf8Size (h : Digit c n) : c.utf8Size = 1 :=
  Char.utf8Size_eq_one_iff.mpr (UInt32.le_iff_toNat_le.mpr (Nat.le_of_lt_succ h.ascii))

/-- What holds of the digits among the ASCII characters holds of every digit. -/
theorem induction {P : Char → ℕ → Prop}
    (hp : ∀ k < 128, ∀ n < 16, Digit (Char.ofNat k) n → P (Char.ofNat k) n)
    (h : Digit c n) : P c n := by
  have hchar : Char.ofNat c.toNat = c := Char.ofNat_toNat c
  have hc := hp c.toNat h.ascii n h.lt (hchar.symm ▸ h)
  rwa [hchar] at hc

end Digit

/-! ## Bytes -/

/-- A text spells bytes, two digits each. -/
inductive Spells : List Char → List UInt8 → Prop
  | nil : Spells [] []
  | byte {h l : Char} {m n : ℕ} {s : List Char} {bytes : List UInt8} (hh : Digit h m)
      (hl : Digit l n) (rest : Spells s bytes) :
      Spells (h :: l :: s) (UInt8.ofNat (16 * m + n) :: bytes)

namespace Spells

variable {s : List Char} {bytes : List UInt8}

theorem digits (h : Spells s bytes) : ∀ c ∈ s, ∃ n, Digit c n := by
  induction h with
  | nil => exact List.forall_mem_nil _
  | byte hh hl _ ih =>
    exact List.forall_mem_cons.mpr ⟨⟨_, hh⟩, List.forall_mem_cons.mpr ⟨⟨_, hl⟩, ih⟩⟩

theorem len_eq (h : Spells s bytes) : len s = 2 * bytes.length := by
  induction h with
  | nil => rfl
  | byte hh hl _ ih =>
    rw [len_cons, len_cons, hh.utf8Size, hl.utf8Size, ih, List.length_cons]
    omega

/-- Digits spell bytes as soon as their number is even. -/
theorem of_digits {k : ℕ} (hs : ∀ c ∈ s, ∃ n, Digit c n) (hlen : len s = 2 * k) :
    ∃ bytes, Spells s bytes ∧ bytes.length = k := by
  induction k generalizing s with
  | zero => exact ⟨[], (len_eq_zero.mp hlen).symm ▸ .nil, rfl⟩
  | succ k ih =>
    match s with
    | [] => exact absurd hlen (by rw [show len [] = 0 from rfl]; omega)
    | [c] =>
      obtain ⟨m, hm⟩ := hs c List.mem_cons_self
      rw [len_cons, hm.utf8Size, show len [] = 0 from rfl] at hlen
      omega
    | c :: d :: s =>
      rw [List.forall_mem_cons, List.forall_mem_cons] at hs
      obtain ⟨⟨m, hm⟩, ⟨n, hn⟩, hs⟩ := hs
      rw [len_cons, len_cons, hm.utf8Size, hn.utf8Size] at hlen
      obtain ⟨bytes, hbytes, hk⟩ := ih hs (by omega)
      exact ⟨_ :: bytes, .byte hm hn hbytes, by rw [List.length_cons, hk]⟩

/-- A character that is no digit does not stand in it. -/
theorem not_mem {c : Char} (hc : ∀ n < 16, ¬ Digit c n) (h : Spells s bytes) : c ∉ s := by
  intro hmem
  obtain ⟨n, hn⟩ := h.digits c hmem
  exact hc n hn.lt hn

end Spells

/-! ## Writing -/

/-- A byte, as two digits in lower case. -/
theorem spells_byte (b : UInt8) :
    Spells [Nat.digitChar (b.toNat / 16), Nat.digitChar (b.toNat % 16)] [b] := by
  have hdigit : ∀ n < 16, Digit (Nat.digitChar n) n := by decide
  have hlt := b.toNat_lt
  have hbyte := Spells.byte (hdigit (b.toNat / 16) (by omega)) (hdigit (b.toNat % 16) (by omega))
    Spells.nil
  rwa [Nat.div_add_mod, UInt8.ofNat_toNat] at hbyte

theorem Spells.append {s t : List Char} {bytes bytes' : List UInt8} (h : Spells s bytes)
    (h' : Spells t bytes') : Spells (s ++ t) (bytes ++ bytes') := by
  induction h with
  | nil => exact h'
  | byte hh hl _ ih => exact .byte hh hl ih

/-- **Every list of bytes is spelled by what is written for it.** -/
theorem spells_write (bytes : List UInt8) :
    Spells (bytes.flatMap fun b => [Nat.digitChar (b.toNat / 16), Nat.digitChar (b.toNat % 16)])
      bytes := by
  induction bytes with
  | nil => exact .nil
  | cons b bytes ih => exact (spells_byte b).append ih

end HexText
