/-
Percent-encoding, as the `percent_encoding` crate documents it: bytes in, bytes out.

Decoding replaces `%` and two hexadecimal digits by the byte they spell, and leaves
every other byte, a stray `%` included. Encoding writes each byte of a chosen set as
`%` and two upper-case digits; bytes outside ASCII are always in the set.

The law relating the two needs one thing of the set: it contains `%`. Then one decode
undoes one encode, whatever follows (`percent_decode_encode_append`), and since the
encoded text is ASCII this lifts to strings (`decode_utf8_encode`).
-/
import Lagos.Lib.RustStd
import Lagos.Lib.Segments

set_option autoImplicit false

open RustStd

namespace Percent

/-! ## Bytes and text -/

/-- `str::from_utf8`. -/
def from_utf8 (bytes : List UInt8) : Option Str :=
  bytes.toByteArray.utf8Decode?.map Array.toList

/-- A string survives being encoded and decoded. -/
theorem from_utf8_utf8_bytes (s : Str) : from_utf8 (utf8_bytes s) = some s := by
  have h : (utf8_bytes s).toByteArray = s.utf8Encode := rfl
  rw [from_utf8, h, List.utf8Decode?_utf8Encode]
  simp

@[simp] theorem utf8_bytes_append (s t : Str) :
    utf8_bytes (s ++ t) = utf8_bytes s ++ utf8_bytes t := List.flatMap_append

theorem utf8_bytes_cons (c : Char) (s : Str) :
    utf8_bytes (c :: s) = utf8_bytes [c] ++ utf8_bytes s := utf8_bytes_append [c] s

/-- What holds of 256 numbers holds of every byte. -/
theorem byte_induction {P : UInt8 → Prop} (h : ∀ n < 256, P (UInt8.ofNat n)) (b : UInt8) : P b := by
  rw [← UInt8.ofNat_toNat (x := b)]
  exact h b.toNat b.toNat_lt

/-! ## Decoding -/

/-- `char::to_digit(16)` of a byte. -/
def to_digit (b : UInt8) : Option UInt8 :=
  if 0x30 ≤ b ∧ b ≤ 0x39 then some (b - 0x30)
  else if 0x41 ≤ b ∧ b ≤ 0x46 then some (b - 0x37)
  else if 0x61 ≤ b ∧ b ≤ 0x66 then some (b - 0x57)
  else none

/-- `after_percent_sign`: the byte that two digits after a `%` spell. -/
def after_percent_sign (h l : UInt8) : Option UInt8 :=
  match to_digit h, to_digit l with
  | some h, some l => some (h * 0x10 + l)
  | _, _ => none

/-- `percent_decode`. -/
def percent_decode : List UInt8 → List UInt8
  | [] => []
  | [b] => [b]
  | [b, h] => [b, h]
  | b :: h :: l :: rest =>
    match if b = 0x25 then after_percent_sign h l else none with
    | some x => x :: percent_decode rest
    | none => b :: percent_decode (h :: l :: rest)

/-- `percent_decode_str(s).decode_utf8()`. -/
def decode_utf8 (s : Str) : Option Str := from_utf8 (percent_decode (utf8_bytes s))

/-- A byte that is no `%` is left. -/
theorem percent_decode_cons_ne {b : UInt8} (hb : b ≠ 0x25) (rest : List UInt8) :
    percent_decode (b :: rest) = b :: percent_decode rest := by
  match rest with
  | [] => rfl
  | [_] => rfl
  | _ :: _ :: _ => rw [percent_decode, if_neg hb]

/-- The bytes below 128 of an encoded character are its own. -/
theorem toNat_eq_of_mem_utf8 {c : Char} {b : UInt8} (hb : b ∈ String.utf8EncodeChar c)
    (hlt : b.toNat < 0x80) : c.toNat = b.toNat := by
  have hc : c.val.toNat = c.toNat := rfl
  rw [String.utf8EncodeChar, hc] at hb
  split at hb
  · rw [List.mem_singleton] at hb
    rw [hb, UInt8.toNat_ofNat']
    omega
  · exfalso
    split at hb
    · simp only [List.mem_cons, List.not_mem_nil, or_false] at hb
      -- Every byte of a longer encoding is at least 128.
      rcases hb with rfl | rfl <;> rw [UInt8.toNat_ofNat'] at hlt <;> omega
    · split at hb
      · simp only [List.mem_cons, List.not_mem_nil, or_false] at hb
        rcases hb with rfl | rfl | rfl <;> rw [UInt8.toNat_ofNat'] at hlt <;> omega
      · simp only [List.mem_cons, List.not_mem_nil, or_false] at hb
        rcases hb with rfl | rfl | rfl | rfl <;> rw [UInt8.toNat_ofNat'] at hlt <;> omega

/-- Without a `%` there is nothing to decode. -/
theorem percent_decode_of_not_mem {bytes : List UInt8} (h : (0x25 : UInt8) ∉ bytes) :
    percent_decode bytes = bytes := by
  induction bytes with
  | nil => rfl
  | cons b rest ih =>
    rw [List.mem_cons, not_or] at h
    rw [percent_decode_cons_ne (Ne.symm h.1), ih h.2]

/-- Nor in a string without one. -/
theorem decode_utf8_of_not_mem {s : Str} (h : '%' ∉ s) : decode_utf8 s = some s := by
  rw [decode_utf8, percent_decode_of_not_mem, from_utf8_utf8_bytes]
  intro hmem
  obtain ⟨c, hc, hb⟩ := List.mem_flatMap.mp hmem
  have hc' : c = '%' := Char.toNat_inj.mp (toNat_eq_of_mem_utf8 hb (by decide))
  exact h (hc' ▸ hc)

/-! ## Encoding -/

/-- `AsciiSet`: the ASCII bytes to be encoded. -/
abbrev AsciiSet := UInt8 → Bool

/-- `AsciiSet::add`. -/
def AsciiSet.add (set : AsciiSet) (b : UInt8) : AsciiSet := fun x => set x || x == b

/-- `CONTROLS`. -/
def CONTROLS : AsciiSet := fun b => b < 0x20 || b == 0x7f

/-- `AsciiSet::should_percent_encode`. -/
def should_percent_encode (set : AsciiSet) (b : UInt8) : Bool := b ≥ 0x80 || set b

/-- An upper-case hexadecimal digit. -/
def hex_digit (n : UInt8) : Char :=
  Char.ofNat (if n < 10 then 0x30 + n.toNat else 0x37 + n.toNat)

/-- `percent_encode_byte`. -/
def percent_encode_byte (b : UInt8) : Str := ['%', hex_digit (b / 16), hex_digit (b % 16)]

/-- One byte of `percent_encode`. -/
def encode_byte (set : AsciiSet) (b : UInt8) : Str :=
  if should_percent_encode set b then percent_encode_byte b else [Char.ofNat b.toNat]

/-- `utf8_percent_encode(s, set).to_string()`. -/
def utf8_percent_encode (set : AsciiSet) (s : Str) : Str :=
  (utf8_bytes s).flatMap (encode_byte set)

/-- An escape reads back as the byte it stands for. -/
theorem percent_decode_escape (b : UInt8) (rest : List UInt8) :
    percent_decode (utf8_bytes (percent_encode_byte b) ++ rest) = b :: percent_decode rest := by
  obtain ⟨h, l, hbytes, hread⟩ : ∃ h l, utf8_bytes (percent_encode_byte b) = [0x25, h, l]
      ∧ after_percent_sign h l = some b := by
    refine byte_induction (P := fun b => ∃ h l, utf8_bytes (percent_encode_byte b) = [0x25, h, l]
      ∧ after_percent_sign h l = some b) (fun n hn => ?_) b
    have hall : ∀ n < 256, ∃ h ∈ utf8_bytes [hex_digit (UInt8.ofNat n / 16)],
        ∃ l ∈ utf8_bytes [hex_digit (UInt8.ofNat n % 16)],
        utf8_bytes (percent_encode_byte (UInt8.ofNat n)) = [0x25, h, l]
          ∧ after_percent_sign h l = some (UInt8.ofNat n) := by decide +kernel
    obtain ⟨h, -, l, -, hboth⟩ := hall n hn
    exact ⟨h, l, hboth⟩
  rw [hbytes]
  show percent_decode (0x25 :: h :: l :: rest) = _
  rw [percent_decode, if_pos rfl, hread]

/-- A byte that is not to be encoded is an ASCII character. -/
theorem utf8_bytes_plain {set : AsciiSet} {b : UInt8} (hb : should_percent_encode set b = false) :
    utf8_bytes [Char.ofNat b.toNat] = [b] := by
  have hall : ∀ n < 256, ¬ UInt8.ofNat n ≥ 0x80 →
      utf8_bytes [Char.ofNat (UInt8.ofNat n).toNat] = [UInt8.ofNat n] := by decide +kernel
  refine byte_induction (P := fun b => ¬ b ≥ 0x80 → utf8_bytes [Char.ofNat b.toNat] = [b]) hall b ?_
  simp only [should_percent_encode, Bool.or_eq_false_iff, decide_eq_false_iff_not] at hb
  exact hb.1

section Encode

variable {set : AsciiSet}

/-- One decode undoes one encode, whatever follows. -/
theorem percent_decode_encode_append (hset : set 0x25 = true) (s : Str) (rest : List UInt8) :
    percent_decode (utf8_bytes (utf8_percent_encode set s) ++ rest)
      = utf8_bytes s ++ percent_decode rest := by
  rw [utf8_percent_encode]
  induction utf8_bytes s with
  | nil => rfl
  | cons b bytes ih =>
    rw [List.flatMap_cons, utf8_bytes_append, List.append_assoc]
    -- An escape is read back at once; a byte left alone is no `%`, so nothing begins with it.
    cases hb : should_percent_encode set b with
    | true =>
      rw [encode_byte, if_pos hb, percent_decode_escape, ih, List.cons_append]
    | false =>
      have hne : b ≠ 0x25 := by
        rintro rfl
        simp [should_percent_encode, hset] at hb
      rw [encode_byte, hb, if_neg Bool.false_ne_true, utf8_bytes_plain hb,
        List.singleton_append, percent_decode_cons_ne hne, ih, List.cons_append]

/-- The same of strings. -/
theorem decode_utf8_encode (hset : set 0x25 = true) (s : Str) :
    decode_utf8 (utf8_percent_encode set s) = some s := by
  have h := percent_decode_encode_append hset s []
  rw [List.append_nil, show percent_decode [] = [] from rfl, List.append_nil] at h
  rw [decode_utf8, h, from_utf8_utf8_bytes]

/-- So does it of the pieces of a string, between separators that are left alone. -/
theorem decode_utf8_join (hset : set 0x25 = true) {sep : Char} {b : UInt8}
    (hsep : utf8_bytes [sep] = [b]) (hb : b ≠ 0x25) (pieces : List Str) :
    decode_utf8 (join sep (pieces.map (utf8_percent_encode set))) = some (join sep pieces) := by
  have h : percent_decode (utf8_bytes (join sep (pieces.map (utf8_percent_encode set))))
      = utf8_bytes (join sep pieces) := by
    have hcons : ∀ t, utf8_bytes (sep :: t) = b :: utf8_bytes t := fun t => by
      rw [utf8_bytes_cons, hsep, List.singleton_append]
    induction pieces with
    | nil => rfl
    | cons s rest ih =>
      rcases eq_or_ne rest [] with rfl | hne
      · have hone := percent_decode_encode_append hset s []
        simpa [join, List.intercalate, percent_decode] using hone
      · simp only [join] at ih ⊢
        rw [List.map_cons, Segments.intercalate_cons_of_ne_nil (by simpa using hne),
          Segments.intercalate_cons_of_ne_nil hne, utf8_bytes_append, utf8_bytes_append,
          percent_decode_encode_append hset, hcons, hcons, percent_decode_cons_ne hb, ih]
  rw [decode_utf8, h, from_utf8_utf8_bytes]

/-- Every character of an encoded text is `%`, a digit, or an ASCII character outside the
set. -/
theorem mem_utf8_percent_encode {s : Str} {c : Char} (hc : c ∈ utf8_percent_encode set s) :
    c = '%' ∨ (∃ n < 16, c = hex_digit (UInt8.ofNat n)) ∨
      ∃ b, should_percent_encode set b = false ∧ c = Char.ofNat b.toNat := by
  rw [utf8_percent_encode, List.mem_flatMap] at hc
  obtain ⟨b, -, hc⟩ := hc
  rw [encode_byte] at hc
  split at hc
  · rw [percent_encode_byte, List.mem_cons, List.mem_cons, List.mem_singleton] at hc
    have hlt := b.toNat_lt
    have hhi : b / 16 = UInt8.ofNat (b.toNat / 16) := UInt8.toNat_inj.mp (by simp; omega)
    have hlo : b % 16 = UInt8.ofNat (b.toNat % 16) := UInt8.toNat_inj.mp (by simp; omega)
    rcases hc with rfl | rfl | rfl
    · exact .inl rfl
    · exact .inr (.inl ⟨_, by omega, congrArg hex_digit hhi⟩)
    · exact .inr (.inl ⟨_, by omega, congrArg hex_digit hlo⟩)
  · rename_i hb
    rw [List.mem_singleton] at hc
    exact .inr (.inr ⟨b, Bool.eq_false_iff.mpr hb, hc⟩)

/-- An ASCII character of the set, `%` apart, is not in any encoded text. -/
theorem not_mem_utf8_percent_encode {c : Char} (hc : c ≠ '%')
    (hhex : ∀ n < 16, c ≠ hex_digit (UInt8.ofNat n)) (hset : set (UInt8.ofNat c.toNat) = true)
    (s : Str) : c ∉ utf8_percent_encode set s := by
  intro hmem
  rcases mem_utf8_percent_encode hmem with h | ⟨n, hn, h⟩ | ⟨b, hb, rfl⟩
  · exact hc h
  · exact hhex n hn h
  · rw [should_percent_encode, Bool.or_eq_false_iff, decide_eq_false_iff_not] at hb
    have hround : UInt8.ofNat (Char.ofNat b.toNat).toNat = b :=
      byte_induction (P := fun b => UInt8.ofNat (Char.ofNat b.toNat).toNat = b)
        (by decide +kernel) b
    rw [hround, hb.2] at hset
    cases hset

end Encode

end Percent
