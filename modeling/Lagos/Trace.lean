/-
W3C trace context (`trace.rs`): an incoming `traceparent` is continued, with a fresh span id
for this hop, and one that does not parse counts as absent.

The ids a context is started with come from the operating system; they are arguments here.

What `to_header` writes is read back, and what is read is what the digits of a `Traceparent`
denote, whatever their case. There is one exception: the version that is forbidden is told by its
spelling and not by its value, so `FF` passes where `ff` does not (`traceparent_read_iff`).
-/
import Lagos.Lib.HexText
import Lagos.Lib.Segments

set_option autoImplicit false

open RustStd HexText Segments

namespace Lagos.Trace

/-- The sampling bit of `trace-flags`. -/
def FLAG_SAMPLED : UInt8 := 1

/-- `TraceContext`. -/
structure TraceContext where
  trace_id : List UInt8
  span_id : List UInt8
  parent_span_id : Option (List UInt8)
  flags : UInt8
  deriving DecidableEq, Repr

/-! ## Hexadecimal -/

/-- `char::to_digit(16)`. -/
def to_digit (c : Char) : Option UInt8 :=
  if '0' ≤ c ∧ c ≤ '9' then some (UInt8.ofNat (c.toNat - '0'.toNat))
  else if 'a' ≤ c ∧ c ≤ 'f' then some (UInt8.ofNat (c.toNat - 'a'.toNat + 10))
  else if 'A' ≤ c ∧ c ≤ 'F' then some (UInt8.ofNat (c.toNat - 'A'.toNat + 10))
  else none

/-- `is_hex`. -/
def is_hex (s : Str) : Bool := !s.isEmpty && s.all fun c => (to_digit c).isSome

/-- `hex16` and `hex8`: the bytes that pairs of digits spell. -/
def hex_bytes : Str → Option (List UInt8)
  | [] => some []
  | [_] => none
  | h :: l :: rest => do
    let h ← to_digit h
    let l ← to_digit l
    let bytes ← hex_bytes rest
    return (h * 16 + l) :: bytes

/-- `format!("{b:02x}")`. -/
def hex2 (b : UInt8) : Str := [Nat.digitChar (b.toNat / 16), Nat.digitChar (b.toNat % 16)]

/-- `write_hex`. -/
def write_hex (bytes : List UInt8) : Str := bytes.flatMap hex2

/-! ## The header -/

/-- `parse_traceparent`: the trace id, the parent's span id and the flags. -/
def parse_traceparent (raw : Str) : Option (List UInt8 × List UInt8 × UInt8) :=
  match split '-' (trim raw) with
  | version :: trace_id :: parent_id :: flags :: more =>
    if len version ≠ 2 ∨ is_hex version = false ∨ version = "ff".toList then none
    -- Version 00 has exactly four fields; later ones may add more.
    else if version = "00".toList ∧ more ≠ [] then none
    else if len trace_id ≠ 32 ∨ is_hex trace_id = false then none
    else if len parent_id ≠ 16 ∨ is_hex parent_id = false then none
    else if len flags ≠ 2 ∨ is_hex flags = false then none
    else
      match hex_bytes trace_id, hex_bytes parent_id, hex_bytes flags with
      | some trace, some parent, some [flags] =>
        if trace = List.replicate 16 0 ∨ parent = List.replicate 8 0 then none
        else some (trace, parent, flags)
      | _, _, _ => none
  | _ => none

/-- `TraceContext::continue_from`, given the ids a fresh trace and a fresh span would get. -/
def TraceContext.continue_from (incoming : Option Str) (sampled : Bool)
    (random_trace_id random_span_id : List UInt8) : TraceContext :=
  match incoming.bind parse_traceparent with
  | some (trace_id, parent_span_id, flags) =>
    ⟨trace_id, random_span_id, some parent_span_id, flags⟩
  | none => ⟨random_trace_id, random_span_id, none, if sampled then FLAG_SAMPLED else 0⟩

/-- `TraceContext::to_header`. -/
def TraceContext.to_header (cx : TraceContext) : Str :=
  "00-".toList ++ write_hex cx.trace_id ++ "-".toList ++ write_hex cx.span_id ++ "-".toList
    ++ hex2 cx.flags

/-- `version-trace_id-parent_id-flags`, and what the digits denote. After a later version than
`00` more fields may stand. -/
structure Traceparent (version s : Str) (ids : List UInt8 × List UInt8 × UInt8) : Prop where
  two_digits : ∃ b, Spells version [b]
  fields : ∃ trace_id parent_id flags : Str, ∃ more : List Str,
    s = join '-' (version :: trace_id :: parent_id :: flags :: more) ∧
    Spells trace_id ids.1 ∧ Spells parent_id ids.2.1 ∧ Spells flags [ids.2.2] ∧
    (∀ field ∈ more, '-' ∉ field) ∧ (version = "00".toList → more = [])
  lengths : ids.1.length = 16 ∧ ids.2.1.length = 8
  nonzero : (∃ b ∈ ids.1, b ≠ 0) ∧ ∃ b ∈ ids.2.1, b ≠ 0

/-! ## Digits -/

section Digits

variable {c : Char} {s : Str} {bytes : List UInt8}

theorem to_digit_ascii {d : UInt8} (h : to_digit c = some d) : c.toNat < 128 := by
  unfold to_digit at h
  simp only [Char.le_def, UInt32.le_iff_toNat_le, Char.reduceVal, UInt32.reduceToNat,
    Char.toNat_val] at h
  split_ifs at h <;> omega

/-- A digit is read as its value, -/
theorem to_digit_of_digit {n : ℕ} (h : Digit c n) : to_digit c = some (UInt8.ofNat n) :=
  h.induction (P := fun c n => to_digit c = some (UInt8.ofNat n)) (by decide +kernel)

/-- and nothing else is read. -/
theorem digit_of_to_digit {d : UInt8} (h : to_digit c = some d) :
    ∃ n, Digit c n ∧ d = UInt8.ofNat n := by
  have hall : ∀ k < 128, (to_digit (Char.ofNat k)).all
      (fun d => decide (Digit (Char.ofNat k) d.toNat)) = true := by decide +kernel
  have hchar : Char.ofNat c.toNat = c := Char.ofNat_toNat c
  have hc := hall c.toNat (to_digit_ascii h)
  rw [hchar, h, Option.all_some, decide_eq_true_eq] at hc
  exact ⟨d.toNat, hc, UInt8.ofNat_toNat.symm⟩

/-- Two digits make a byte. -/
theorem byte_eq (m n : ℕ) :
    UInt8.ofNat m * 16 + UInt8.ofNat n = UInt8.ofNat (16 * m + n) := by
  rw [Nat.mul_comm 16 m, UInt8.ofNat_add, UInt8.ofNat_mul]
  rfl

/-- **What is read are the bytes that are spelled.** -/
theorem hex_bytes_eq_some : hex_bytes s = some bytes ↔ Spells s bytes := by
  constructor
  · intro h
    induction s using hex_bytes.induct generalizing bytes with
    | case1 =>
      cases h
      exact .nil
    | case2 c => cases h
    | case3 high low rest ih =>
      rw [hex_bytes] at h
      obtain ⟨d, hd, h⟩ := Option.bind_eq_some_iff.mp h
      obtain ⟨e, he, h⟩ := Option.bind_eq_some_iff.mp h
      obtain ⟨bytes, hbytes, h⟩ := Option.bind_eq_some_iff.mp h
      cases h
      obtain ⟨m, hm, rfl⟩ := digit_of_to_digit hd
      obtain ⟨n, hn, rfl⟩ := digit_of_to_digit he
      rw [byte_eq]
      exact .byte hm hn (ih hbytes)
  · intro h
    induction h with
    | nil => rfl
    | byte hh hl _ ih =>
      rw [hex_bytes, to_digit_of_digit hh, to_digit_of_digit hl, ih, ← byte_eq]
      rfl

/-- The check of a field is that its digits spell so many bytes. -/
theorem hex_field_iff {n : ℕ} (hn : n ≠ 0) :
    ¬(len s ≠ 2 * n ∨ is_hex s = false) ↔ ∃ bytes, Spells s bytes ∧ bytes.length = n := by
  rw [not_or, not_not, Bool.not_eq_false, is_hex, Bool.and_eq_true, List.all_eq_true]
  constructor
  · rintro ⟨hlen, -, hall⟩
    refine Spells.of_digits (fun c hc => ?_) hlen
    obtain ⟨d, hd⟩ := Option.isSome_iff_exists.mp (hall c hc)
    obtain ⟨n, hdigit, -⟩ := digit_of_to_digit hd
    exact ⟨n, hdigit⟩
  · rintro ⟨bytes, hbytes, rfl⟩
    refine ⟨hbytes.len_eq, ?_, fun c hc => ?_⟩
    · cases hbytes with
      | nil => exact absurd rfl hn
      | byte hh hl hrest => rfl
    · obtain ⟨n, hdigit⟩ := hbytes.digits c hc
      rw [to_digit_of_digit hdigit, Option.isSome_some]

/-- No separator is a digit. -/
theorem separator_not_mem (h : Spells s bytes) : '-' ∉ s := h.not_mem (by decide)

end Digits

/-! ## What is read -/

section Reading

variable {raw version s : Str} {ids : List UInt8 × List UInt8 × UInt8} {bytes : List UInt8}

theorem ne_replicate_iff {n : ℕ} (hlen : bytes.length = n) :
    ¬bytes = List.replicate n 0 ↔ ∃ b ∈ bytes, b ≠ 0 := by
  simp only [List.eq_replicate_iff, hlen, true_and, not_forall, exists_prop, ne_eq]

/-- The fields of a traceparent are the pieces its text is cut into. -/
theorem Traceparent.split_eq (h : Traceparent version s ids) :
    ∃ trace_id parent_id flags : Str, ∃ more : List Str,
      split '-' s = version :: trace_id :: parent_id :: flags :: more ∧
      Spells trace_id ids.1 ∧ Spells parent_id ids.2.1 ∧ Spells flags [ids.2.2] ∧
      (version = "00".toList → more = []) := by
  obtain ⟨b, hversion⟩ := h.two_digits
  obtain ⟨trace_id, parent_id, flags, more, rfl, ht, hp, hf, hclean, hmore⟩ := h.fields
  refine ⟨trace_id, parent_id, flags, more, split_join ?_ (List.cons_ne_nil _ _), ht, hp, hf, hmore⟩
  simp only [List.forall_mem_cons]
  exact ⟨separator_not_mem hversion, separator_not_mem ht, separator_not_mem hp,
    separator_not_mem hf, hclean⟩

/-- **What is read: a traceparent, of any version that is not spelled `ff`.** -/
theorem parse_traceparent_eq_some : parse_traceparent raw = some ids ↔
    ∃ version, Traceparent version (trim raw) ids ∧ version ≠ "ff".toList := by
  constructor
  · intro h
    unfold parse_traceparent at h
    split at h
    · rename_i version trace_id parent_id flags more hsplit
      split_ifs at h with hv hmore ht hp hf
      rw [← or_assoc, not_or] at hv
      obtain ⟨bv, hversion, hlen⟩ := (hex_field_iff Nat.one_ne_zero).mp hv.1
      obtain ⟨trace, htrace, htl⟩ := (hex_field_iff (by decide : 16 ≠ 0)).mp ht
      obtain ⟨parent, hparent, hpl⟩ := (hex_field_iff (by decide : 8 ≠ 0)).mp hp
      obtain ⟨bf, hflags, hfl⟩ := (hex_field_iff Nat.one_ne_zero).mp hf
      obtain ⟨b, rfl⟩ := List.length_eq_one_iff.mp hlen
      obtain ⟨f, rfl⟩ := List.length_eq_one_iff.mp hfl
      rw [hex_bytes_eq_some.mpr htrace, hex_bytes_eq_some.mpr hparent,
        hex_bytes_eq_some.mpr hflags] at h
      dsimp only at h
      split_ifs at h with hzero
      cases h
      rw [not_or, ne_replicate_iff htl, ne_replicate_iff hpl] at hzero
      refine ⟨version, ⟨⟨b, hversion⟩, ⟨trace_id, parent_id, flags, more, ?_, htrace, hparent,
        hflags, fun field hfield => ?_, fun h00 => ?_⟩, ⟨htl, hpl⟩, hzero⟩, hv.2⟩
      · rw [← hsplit, join_split]
      · have hpiece : field ∈ split '-' (trim raw) :=
          hsplit ▸ List.mem_append_right [version, trace_id, parent_id, flags] hfield
        exact not_mem_of_mem_splitOn hpiece
      · exact not_not.mp fun hne => hmore ⟨h00, hne⟩
    · cases h
  · rintro ⟨version, h, hff⟩
    obtain ⟨b, hversion⟩ := h.two_digits
    obtain ⟨trace_id, parent_id, flags, more, hsplit, ht, hp, hf, hmore⟩ := h.split_eq
    have hv := (hex_field_iff Nat.one_ne_zero).mpr ⟨[b], hversion, rfl⟩
    unfold parse_traceparent
    rw [hsplit]
    dsimp only
    rw [if_neg (fun h => (or_assoc.mpr h).elim hv hff), if_neg (fun h => h.2 (hmore h.1)),
      if_neg ((hex_field_iff (by decide : 16 ≠ 0)).mpr ⟨_, ht, h.lengths.1⟩),
      if_neg ((hex_field_iff (by decide : 8 ≠ 0)).mpr ⟨_, hp, h.lengths.2⟩),
      if_neg ((hex_field_iff Nat.one_ne_zero).mpr ⟨_, hf, rfl⟩),
      hex_bytes_eq_some.mpr ht, hex_bytes_eq_some.mpr hp, hex_bytes_eq_some.mpr hf]
    refine if_neg ?_
    rw [not_or, ne_replicate_iff h.lengths.1, ne_replicate_iff h.lengths.2]
    exact h.nonzero

/-- The version of a text is what stands before its first separator. -/
theorem Traceparent.version_eq (h : Traceparent version s ids) :
    version = s.takeWhile (· != '-') := by
  obtain ⟨trace_id, parent_id, flags, more, hsplit, -⟩ := h.split_eq
  have hhead := head?_split '-' s
  rw [hsplit, List.head?_cons] at hhead
  exact Option.some.inj hhead

end Reading

/-! ## What is written -/

section Writing

variable (cx : TraceContext)

theorem to_header_eq_join : cx.to_header =
    join '-' ["00".toList, write_hex cx.trace_id, write_hex cx.span_id, hex2 cx.flags] := by
  have hversion : "00-".toList = "00".toList ++ "-".toList := by decide
  simp only [join, List.intercalate, List.intersperse_cons_cons, List.intersperse_singleton,
    List.flatten_cons, List.flatten_nil, List.append_nil]
  delta TraceContext.to_header
  rw [hversion]
  simp only [List.append_assoc]
  rfl

theorem spells_zero : Spells "00".toList [0] :=
  .byte (m := 0) (n := 0) (by decide) (by decide) .nil

/-- No blank is written, so that nothing is trimmed. -/
theorem trim_to_header : trim cx.to_header = cx.to_header := by
  refine trim_of_no_blank fun c hc => ?_
  rw [to_header_eq_join] at hc
  obtain rfl | ⟨field, hfield, hc⟩ := mem_intercalate hc
  · decide
  · have hspelled : ∃ bytes, Spells field bytes := by
      simp only [List.mem_cons, List.not_mem_nil, or_false] at hfield
      rcases hfield with rfl | rfl | rfl | rfl
      · exact ⟨_, spells_zero⟩
      · exact ⟨_, spells_write cx.trace_id⟩
      · exact ⟨_, spells_write cx.span_id⟩
      · exact ⟨_, spells_byte cx.flags⟩
    obtain ⟨bytes, hbytes⟩ := hspelled
    obtain ⟨n, hdigit⟩ := hbytes.digits c hc
    exact hdigit.induction (P := fun c _ => is_whitespace c = false) (by decide +kernel)

/-- What is written is a traceparent of version `00`. -/
theorem to_header_traceparent (ht : cx.trace_id.length = 16) (hs : cx.span_id.length = 8)
    (htrace : ∃ b ∈ cx.trace_id, b ≠ 0) (hspan : ∃ b ∈ cx.span_id, b ≠ 0) :
    Traceparent "00".toList cx.to_header (cx.trace_id, cx.span_id, cx.flags) where
  two_digits := ⟨0, spells_zero⟩
  fields := ⟨write_hex cx.trace_id, write_hex cx.span_id, hex2 cx.flags, [],
    to_header_eq_join cx, spells_write _, spells_write _, spells_byte _, List.forall_mem_nil _,
    fun _ => rfl⟩
  lengths := ⟨ht, hs⟩
  nonzero := ⟨htrace, hspan⟩

end Writing

/-- **A context is read back from its header; and a header is read as the bytes its digits denote,
exactly if it is a traceparent of another version than `ff`.** A version that is spelled `ff` in
another case passes all the same, and nothing else goes wrong. -/
theorem traceparent_read_iff (cx : TraceContext) (raw : Str) :
    (cx.trace_id.length = 16 → cx.span_id.length = 8 → (∃ b ∈ cx.trace_id, b ≠ 0) →
      (∃ b ∈ cx.span_id, b ≠ 0) →
      parse_traceparent cx.to_header = some (cx.trace_id, cx.span_id, cx.flags)) ∧
    ((∀ ids, parse_traceparent raw = some ids ↔
        ∃ version, Traceparent version (trim raw) ids ∧
          to_ascii_lowercase version ≠ "ff".toList) ↔
      ¬∃ version ids, Traceparent version (trim raw) ids ∧
        to_ascii_lowercase version = "ff".toList ∧ version ≠ "ff".toList) := by
  refine ⟨fun ht hs htrace hspan => ?_, ?_, fun hspelling ids => ?_⟩
  · refine parse_traceparent_eq_some.mpr ⟨"00".toList, ?_, by decide⟩
    rw [trim_to_header]
    exact to_header_traceparent cx ht hs htrace hspan
  · rintro hread ⟨version, ids, h, hlower, hff⟩
    have hsome := parse_traceparent_eq_some.mpr ⟨version, h, hff⟩
    obtain ⟨version', h', hlower'⟩ := (hread ids).mp hsome
    rw [h'.version_eq, ← h.version_eq] at hlower'
    exact hlower' hlower
  · rw [parse_traceparent_eq_some]
    refine exists_congr fun version => and_congr_right fun h => not_congr ?_
    constructor
    · rintro rfl
      rfl
    · intro hlower
      exact not_not.mp fun hff => hspelling ⟨version, ids, h, hlower, hff⟩

theorem traceparent_read_ones :
    parse_traceparent
        (TraceContext.to_header ⟨List.replicate 16 1, List.replicate 8 1, none, 255⟩) =
      some (List.replicate 16 1, List.replicate 8 1, 255) :=
  (traceparent_read_iff _ []).1 List.length_replicate List.length_replicate
    ⟨1, by decide, by decide⟩ ⟨1, by decide, by decide⟩

/-- The version is compared in lower case only: `FF` passes. -/
theorem traceparent_upper_ff :
    let raw := "FF-4bf92f3577b34da6a3ce929d0e0e4736-00f067aa0ba902b7-01".toList
    (parse_traceparent raw).isSome ∧
      ¬∃ version ids, Traceparent version (trim raw) ids ∧
        to_ascii_lowercase version ≠ "ff".toList := by
  intro raw
  refine ⟨by decide +kernel, ?_⟩
  rintro ⟨version, ids, h, hff⟩
  have hversion : version = "FF".toList := h.version_eq.trans (by decide +kernel)
  exact hff (hversion ▸ rfl)

end Lagos.Trace
