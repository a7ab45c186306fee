/-
What a host is in a URI, and so in a `Host` field: a name, or an address in brackets. A port may
come after it.

The grammar is that of RFC 3986 (`reg-name`, `IP-literal`, `port`), an address of version 4 being a
name like others. A host stays one in lowercase (`Host.lower`), and behind a dot in a name there is
a name (`RegName.of_append_dot`).
-/
import Mathlib.Data.List.Basic
import Mathlib.Tactic.Common

set_option autoImplicit false

namespace UriHost

/-! ## Characters -/

/-- `unreserved`. -/
def unreserved (c : Char) : Bool := c.isAlphanum || "-._~".toList.contains c

/-- `sub-delims`. -/
def sub_delim (c : Char) : Bool := "!$&'()*+,;=".toList.contains c

/-- A character of a name. -/
def name_char (c : Char) : Bool := unreserved c || sub_delim c

/-- A character between brackets. -/
def literal_char (c : Char) : Bool := name_char c || c == ':'

/-- `HEXDIG`. -/
def hexdig (c : Char) : Bool := "0123456789abcdefABCDEF".toList.contains c

theorem toNat_of_literal_char {c : Char} (h : literal_char c = true) : c.toNat < 128 := by
  have hlist : ∀ l : List Char, l.all (·.toNat < 128) = true → l.contains c = true →
      c.toNat < 128 := by
    intro l hl hc
    exact of_decide_eq_true (List.all_eq_true.mp hl c (List.contains_iff_mem.mp hc))
  rw [literal_char, name_char, unreserved, sub_delim, Bool.or_eq_true, Bool.or_eq_true,
    Bool.or_eq_true] at h
  obtain ((h | h) | h) | h := h
  · have hrange : ((decide ('A'.val ≤ c.val ∧ c.val ≤ 'Z'.val)
        || decide ('a'.val ≤ c.val) && decide (c.val ≤ 'z'.val))
        || decide ('0'.val ≤ c.val) && decide (c.val ≤ '9'.val)) = true := h
    simp only [Bool.or_eq_true, Bool.and_eq_true, decide_eq_true_eq, UInt32.le_iff_toNat_le,
      Char.reduceVal, UInt32.reduceToNat, Char.toNat_val] at hrange
    omega
  · exact hlist _ (by decide +kernel) h
  · exact hlist _ (by decide +kernel) h
  · rw [beq_iff_eq.mp h]
    decide

/-- What holds of the ASCII characters of a class holds of the class. -/
theorem ascii_induction {P : Char → Prop} {p : Char → Bool}
    (hp : ∀ c, p c = true → literal_char c = true)
    (h : ∀ n < 128, p (Char.ofNat n) = true → P (Char.ofNat n)) {c : Char} (hc : p c = true) :
    P c := by
  have hchar : Char.ofNat c.toNat = c := Char.ofNat_toNat c
  rw [← hchar]
  exact h c.toNat (toNat_of_literal_char (hp c hc)) (hchar.symm ▸ hc)

theorem literal_of_name {c : Char} (h : name_char c = true) : literal_char c = true := by
  rw [literal_char, h, Bool.true_or]

/-- A class with every one of the digits in it. -/
theorem hexdig_induction {p : Char → Bool} (hall : "0123456789abcdefABCDEF".toList.all p = true)
    {c : Char} (h : hexdig c = true) : p c = true :=
  List.all_eq_true.mp hall c (List.contains_iff_mem.mp h)

theorem name_of_hexdig {c : Char} (h : hexdig c = true) : name_char c = true :=
  hexdig_induction (by decide +kernel) h

theorem literal_of_hexdig {c : Char} (h : hexdig c = true) : literal_char c = true :=
  literal_of_name (name_of_hexdig h)

theorem name_char_lower {c : Char} (h : name_char c = true) : name_char c.toLower = true :=
  ascii_induction (P := fun c => name_char c.toLower = true) (fun _ => literal_of_name)
    (by decide +kernel) h

theorem literal_char_lower {c : Char} (h : literal_char c = true) :
    literal_char c.toLower = true :=
  ascii_induction (P := fun c => literal_char c.toLower = true) (fun _ => id) (by decide +kernel) h

theorem hexdig_lower {c : Char} (h : hexdig c = true) : hexdig c.toLower = true :=
  hexdig_induction (p := fun d => hexdig d.toLower) (by decide +kernel) h

/-- All of a class, in lowercase. -/
theorem all_lower {p : Char → Bool} (hp : ∀ c, p c = true → p c.toLower = true) {s : List Char}
    (h : ∀ c ∈ s, p c = true) : ∀ c ∈ s.map Char.toLower, p c = true := by
  rw [List.forall_mem_map]
  exact fun c hc => hp c (h c hc)

/-! ## Names -/

/-- `reg-name`. -/
inductive RegName : List Char → Prop
  | nil : RegName []
  | char {c : Char} {s : List Char} (hc : name_char c = true) (h : RegName s) : RegName (c :: s)
  | escape {a b : Char} {s : List Char} (ha : hexdig a = true) (hb : hexdig b = true)
      (h : RegName s) : RegName ('%' :: a :: b :: s)

namespace RegName

theorem lower {s : List Char} (h : RegName s) : RegName (s.map Char.toLower) := by
  induction h with
  | nil => exact .nil
  | char hc _ ih => exact .char (name_char_lower hc) ih
  | escape ha hb _ ih => exact .escape (hexdig_lower ha) (hexdig_lower hb) ih

theorem of_chars {s : List Char} (h : ∀ c ∈ s, name_char c = true) : RegName s := by
  induction s with
  | nil => exact .nil
  | cons c s ih =>
    obtain ⟨hc, hs⟩ := List.forall_mem_cons.mp h
    exact .char hc (ih hs)

theorem mem {s : List Char} (h : RegName s) : ∀ c ∈ s, name_char c = true ∨ c = '%' := by
  induction h with
  | nil => exact List.forall_mem_nil _
  | char hc _ ih => exact List.forall_mem_cons.mpr ⟨.inl hc, ih⟩
  | escape ha hb _ ih =>
    exact List.forall_mem_cons.mpr ⟨.inr rfl, List.forall_mem_cons.mpr ⟨.inl (name_of_hexdig ha),
      List.forall_mem_cons.mpr ⟨.inl (name_of_hexdig hb), ih⟩⟩⟩

/-- **Behind a dot in a name there is a name**: no escape goes across it. -/
theorem of_append_dot {p s : List Char} (h : RegName (p ++ '.' :: s)) : RegName s := by
  generalize ht : p ++ '.' :: s = t at h
  induction h generalizing p with
  | nil => cases p <;> cases ht
  | char hc h ih =>
    cases p with
    | nil =>
      cases ht
      exact h
    | cons d p => exact ih (List.cons.inj ht).2
  | escape ha hb h ih =>
    have hdot : hexdig '.' = false := rfl
    match p with
    | [] => cases ht
    | [_] =>
      cases ht
      rw [hdot] at ha
      cases ha
    | [_, _] =>
      cases ht
      rw [hdot] at hb
      cases hb
    | _ :: _ :: _ :: p =>
      have htail := (List.cons.inj (List.cons.inj (List.cons.inj ht).2).2).2
      exact ih htail

end RegName

/-! ## Addresses in brackets -/

/-- `h16`. -/
structure Group (s : List Char) : Prop where
  ne_nil : s ≠ []
  short : s.length ≤ 4
  digits : ∀ c ∈ s, hexdig c = true

/-- `dec-octet`. -/
structure Octet (s : List Char) : Prop where
  ne_nil : s ≠ []
  digits : ∀ c ∈ s, c.isDigit = true
  no_zero : s.head? = some '0' → s = ['0']
  small : s.foldl (fun n c => 10 * n + (c.toNat - '0'.toNat)) 0 ≤ 255

/-- `IPv4address`. -/
def Dotted (s : List Char) : Prop :=
  ∃ a b c d, Octet a ∧ Octet b ∧ Octet c ∧ Octet d
    ∧ s = a ++ '.' :: (b ++ '.' :: (c ++ '.' :: d))

/-- Groups with colons between them, so many of them. Two may be written as an address of version
4 where that may come last. -/
inductive Groups (dotted_last : Bool) : ℕ → List Char → Prop
  | last {s : List Char} (h : Group s) : Groups dotted_last 1 s
  | dotted {s : List Char} (hlast : dotted_last = true) (h : Dotted s) : Groups dotted_last 2 s
  | cons {n : ℕ} {s t : List Char} (h : Group s) (ht : Groups dotted_last n t) :
      Groups dotted_last (n + 1) (s ++ ':' :: t)

/-- Groups, or none. -/
def SomeGroups (dotted_last : Bool) (n : ℕ) (s : List Char) : Prop :=
  n = 0 ∧ s = [] ∨ Groups dotted_last n s

/-- `IPv6address`: two colons stand for at least one group. -/
inductive Ipv6 : List Char → Prop
  | full {s : List Char} (h : Groups true 8 s) : Ipv6 s
  | zeros {n m : ℕ} {s t : List Char} (hs : SomeGroups false n s) (ht : SomeGroups true m t)
      (h : n + m ≤ 7) : Ipv6 (s ++ ':' :: ':' :: t)

/-- What may stand between the brackets of an `IP-literal`. -/
inductive Literal : List Char → Prop
  | v6 {s : List Char} (h : Ipv6 s) : Literal s
  | future {v : Char} {hex s : List Char} (hv : v = 'v' ∨ v = 'V') (hne : hex ≠ [])
      (hhex : ∀ c ∈ hex, hexdig c = true) (hs_ne : s ≠ [])
      (hs : ∀ c ∈ s, literal_char c = true) : Literal (v :: (hex ++ '.' :: s))

/-- A digit is its own lowercase. -/
theorem map_lower_digits {s : List Char} (h : ∀ c ∈ s, c.isDigit = true) :
    s.map Char.toLower = s := by
  refine (List.map_congr_left fun c hc => ?_).trans (List.map_id s)
  have hliteral : ∀ c : Char, c.isDigit = true → literal_char c = true := by
    intro c hc
    simp [literal_char, name_char, unreserved, Char.isAlphanum, hc]
  exact ascii_induction (P := fun c => c.toLower = c) hliteral (by decide +kernel) (h c hc)

theorem Dotted.map_lower {s : List Char} (h : Dotted s) : s.map Char.toLower = s := by
  obtain ⟨a, b, c, d, ha, hb, hc, hd, rfl⟩ := h
  simp only [List.map_append, List.map_cons, map_lower_digits ha.digits,
    map_lower_digits hb.digits, map_lower_digits hc.digits, map_lower_digits hd.digits]
  rfl

theorem Group.lower {s : List Char} (h : Group s) : Group (s.map Char.toLower) where
  ne_nil := by simpa using h.ne_nil
  short := by simpa using h.short
  digits := all_lower (p := hexdig) (fun _ => hexdig_lower) h.digits

theorem Groups.lower {dotted_last : Bool} {n : ℕ} {s : List Char} (h : Groups dotted_last n s) :
    Groups dotted_last n (s.map Char.toLower) := by
  induction h with
  | last h => exact .last h.lower
  | dotted hlast h => exact .dotted hlast (h.map_lower.symm ▸ h)
  | cons h _ ih =>
    rw [List.map_append]
    exact .cons h.lower ih

theorem SomeGroups.lower {dotted_last : Bool} {n : ℕ} {s : List Char}
    (h : SomeGroups dotted_last n s) : SomeGroups dotted_last n (s.map Char.toLower) := by
  obtain ⟨rfl, rfl⟩ | h := h
  · exact .inl ⟨rfl, rfl⟩
  · exact .inr h.lower

theorem Ipv6.lower {s : List Char} (h : Ipv6 s) : Ipv6 (s.map Char.toLower) := by
  cases h with
  | full h => exact .full h.lower
  | zeros hs ht hle =>
    rw [List.map_append]
    exact .zeros hs.lower ht.lower hle

theorem Literal.lower {s : List Char} (h : Literal s) : Literal (s.map Char.toLower) := by
  cases h with
  | v6 h => exact .v6 h.lower
  | future hv hne hhex hs_ne hs =>
    rw [List.map_cons, List.map_append]
    refine .future (.inl ?_) (by simpa using hne)
      (all_lower (p := hexdig) (fun _ => hexdig_lower) hhex) (by simpa using hs_ne)
      (all_lower (p := literal_char) (fun _ => literal_char_lower) hs)
    obtain rfl | rfl := hv
    · rfl
    · rfl

/-! ## Hosts -/

/-- `host`. -/
inductive Host : List Char → Prop
  | name {s : List Char} (h : RegName s) : Host s
  | literal {s : List Char} (h : Literal s) : Host ('[' :: (s ++ [']']))

/-- A host with a port, or without. -/
inductive Field : List Char → Prop
  | host {s : List Char} (h : Host s) : Field s
  | port {s digits : List Char} (h : Host s) (hdigits : ∀ c ∈ digits, c.isDigit = true) :
      Field (s ++ ':' :: digits)

theorem Host.lower {s : List Char} (h : Host s) : Host (s.map Char.toLower) := by
  cases h with
  | name h => exact .name h.lower
  | literal h =>
    rw [List.map_cons, List.map_append]
    exact .literal h.lower

/-! ## Which characters they have -/

theorem literal_of_digit {c : Char} (h : c.isDigit = true) : literal_char c = true := by
  simp [literal_char, name_char, unreserved, Char.isAlphanum, h]

/-- Two parts around a character that may stand between brackets. -/
theorem mem_around {s t : List Char} {d : Char} (hd : literal_char d = true)
    (hs : ∀ c ∈ s, literal_char c = true) (ht : ∀ c ∈ t, literal_char c = true) :
    ∀ c ∈ s ++ d :: t, literal_char c = true :=
  List.forall_mem_append.mpr ⟨hs, List.forall_mem_cons.mpr ⟨hd, ht⟩⟩

theorem Dotted.mem {s : List Char} (h : Dotted s) : ∀ c ∈ s, literal_char c = true := by
  obtain ⟨a, b, c, d, ha, hb, hc, hd, rfl⟩ := h
  have hoctet : ∀ {s : List Char}, Octet s → ∀ c ∈ s, literal_char c = true :=
    fun h c hc => literal_of_digit (h.digits c hc)
  exact mem_around rfl (hoctet ha) (mem_around rfl (hoctet hb)
    (mem_around rfl (hoctet hc) (hoctet hd)))

theorem Groups.mem {dotted_last : Bool} {n : ℕ} {s : List Char} (h : Groups dotted_last n s) :
    ∀ c ∈ s, literal_char c = true := by
  induction h with
  | last h => exact fun c hc => literal_of_hexdig (h.digits c hc)
  | dotted _ h => exact h.mem
  | cons h _ ih => exact mem_around rfl (fun c hc => literal_of_hexdig (h.digits c hc)) ih

theorem SomeGroups.mem {dotted_last : Bool} {n : ℕ} {s : List Char}
    (h : SomeGroups dotted_last n s) : ∀ c ∈ s, literal_char c = true := by
  obtain ⟨-, rfl⟩ | h := h
  · exact List.forall_mem_nil _
  · exact h.mem

/-- Between the brackets there are no others. -/
theorem Literal.mem {s : List Char} (h : Literal s) : ∀ c ∈ s, literal_char c = true := by
  cases h with
  | v6 h =>
    cases h with
    | full h => exact h.mem
    | zeros hs ht _ =>
      exact mem_around rfl hs.mem (List.forall_mem_cons.mpr ⟨rfl, ht.mem⟩)
  | @future v hex s hv _ hhex _ hs =>
    refine List.forall_mem_cons.mpr ⟨?_, mem_around rfl ?_ hs⟩
    · obtain rfl | rfl := hv
      · rfl
      · rfl
    · exact fun c hc => literal_of_hexdig (hhex c hc)

end UriHost
