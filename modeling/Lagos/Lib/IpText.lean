/-
How `std::net` reads the text of an address.

A reader takes the text and gives back what it leaves of it, so what it read is a prefix
(`Reads`). An address is read where nothing is left. Of its value nothing is kept: what is used
of these readers is which texts they take, and that such a text has no other characters than
digits, `.` and `:`.
-/
import Lagos.Lib.RustStd

set_option autoImplicit false

namespace RustStd

/-! ## The readers -/

/-- `char::to_digit`. -/
def to_digit (radix : ℕ) (c : Char) : Option ℕ :=
  (if c.isDigit then some (c.toNat - '0'.toNat)
    else if c.isAlpha then some (c.toLower.toNat - 'a'.toNat + 10)
    else none).filter (· < radix)

/-- `Parser::read_given_char`. -/
def read_given_char (target : Char) : Str → Option Str
  | [] => none
  | c :: s => if c = target then some s else none

/-- `Parser::read_separator`. -/
def read_separator (sep : Char) (index : ℕ) (inner : Str → Option Str) (s : Str) : Option Str :=
  if index > 0 then (read_given_char sep s).bind inner else inner s

/-- `Parser::read_number`, of a number up to `max`. -/
def read_number (radix max_digits : ℕ) ( allow_zero_prefix : Bool) (max : ℕ) (s : Str) :
    Option Str :=
  let digits := s.takeWhile fun c => (to_digit radix c).isSome
  if digits.length > max_digits ∨ digits = [] then none
  else if allow_zero_prefix = false ∧ s.head? = some '0' ∧ digits.length > 1 then none
  else if (digits.filterMap (to_digit radix)).foldl (fun n d => n * radix + d) 0 ≤ max then
    some (s.dropWhile fun c => (to_digit radix c).isSome)
  else none

/-- A group of `Parser::read_ipv4_addr`. -/
def read_octet (index : ℕ) : Str → Option Str :=
  read_separator '.' index (read_number 10 3 false 255)

/-- `Parser::read_ipv4_addr`. -/
def read_ipv4_addr (s : Str) : Option Str :=
  (((read_octet 0 s).bind (read_octet 1)).bind (read_octet 2)).bind (read_octet 3)

/-- `read_groups`, of the last `left` of `limit` groups: how many groups there are, and whether
the last two were read as an IPv4 address. -/
def read_groups (limit : ℕ) : ℕ → Str → ℕ × Bool × Str
  | 0, s => (limit, false, s)
  | left + 1, s =>
    let i := limit - (left + 1)
    match if left > 0 then read_separator ':' i read_ipv4_addr s else none with
    | some rest => (i + 2, true, rest)
    | none =>
      match read_separator ':' i (read_number 16 4 true 65535) s with
      | some rest => read_groups limit left rest
      | none => (i, false, s)

/-- `Parser::read_ipv6_addr`. -/
def read_ipv6_addr (s : Str) : Option Str :=
  let head := read_groups 8 8 s
  if head.1 = 8 then some head.2.2
  -- An IPv4 address is not allowed before `::`.
  else if head.2.1 = true then none
  else
    ((read_given_char ':' head.2.2).bind (read_given_char ':')).map fun s =>
      (read_groups (8 - (head.1 + 1)) (8 - (head.1 + 1)) s).2.2

/-- `s.parse::<IpAddr>().is_ok()`. -/
def is_ip_addr (s : Str) : Bool := (read_ipv4_addr s).or (read_ipv6_addr s) = some []

/-! ## What is read -/

/-- A character of an address. -/
def addr_char (c : Char) : Bool := (to_digit 16 c).isSome || c == '.' || c == ':'

/-- What was read of `s` is made of the characters of addresses. -/
def Reads (s rest : Str) : Prop := ∃ read, s = read ++ rest ∧ read.all addr_char = true

theorem Reads.refl (s : Str) : Reads s s := ⟨[], rfl, rfl⟩

theorem Reads.trans {s t u : Str} (h : Reads s t) (h' : Reads t u) : Reads s u := by
  obtain ⟨read, rfl, hread⟩ := h
  obtain ⟨read', rfl, hread'⟩ := h'
  refine ⟨read ++ read', (List.append_assoc _ _ _).symm, ?_⟩
  rw [List.all_append, hread, hread', Bool.and_self]

theorem isSome_to_digit_mono {radix radix' : ℕ} (hle : radix ≤ radix') {c : Char}
    (h : (to_digit radix c).isSome = true) : (to_digit radix' c).isSome = true := by
  obtain ⟨d, hd⟩ := Option.isSome_iff_exists.mp h
  rw [to_digit, Option.filter_eq_some_iff, decide_eq_true_eq] at hd
  refine Option.isSome_iff_exists.mpr ⟨d, ?_⟩
  rw [to_digit, Option.filter_eq_some_iff, decide_eq_true_eq]
  exact ⟨hd.1, Nat.lt_of_lt_of_le hd.2 hle⟩

theorem reads_given_char {target : Char} (ht : addr_char target = true) {s rest : Str}
    (h : read_given_char target s = some rest) : Reads s rest := by
  cases s with
  | nil => cases h
  | cons c s =>
    rw [read_given_char, Option.ite_none_right_eq_some, Option.some.injEq] at h
    obtain ⟨rfl, rfl⟩ := h
    exact ⟨[c], rfl, by rw [List.all_cons, ht, List.all_nil, Bool.and_self]⟩

theorem reads_separator {sep : Char} (hsep : addr_char sep = true) {index : ℕ}
    {inner : Str → Option Str} (hinner : ∀ {s rest : Str}, inner s = some rest → Reads s rest)
    {s rest : Str} (h : read_separator sep index inner s = some rest) : Reads s rest := by
  unfold read_separator at h
  split at h
  · obtain ⟨t, ht, h⟩ := Option.bind_eq_some_iff.mp h
    exact (reads_given_char hsep ht).trans (hinner h)
  · exact hinner h

theorem reads_number {radix max_digits max : ℕ} { allow_zero_prefix : Bool} (hradix : radix ≤ 16)
    {s rest : Str} (h : read_number radix max_digits allow_zero_prefix max s = some rest) :
    Reads s rest := by
  unfold read_number at h
  dsimp only at h
  rw [Option.ite_none_left_eq_some, Option.ite_none_left_eq_some, Option.ite_none_right_eq_some,
    Option.some.injEq] at h
  obtain ⟨-, -, -, rfl⟩ := h
  refine ⟨_, List.takeWhile_append_dropWhile.symm, List.all_eq_true.mpr ?_⟩
  intro c hc
  have hdigit : (to_digit radix c).isSome = true :=
    List.mem_takeWhile_imp (p := fun c => (to_digit radix c).isSome) hc
  rw [addr_char, isSome_to_digit_mono hradix hdigit]
  rfl

theorem reads_octet {index : ℕ} {s rest : Str} (h : read_octet index s = some rest) :
    Reads s rest :=
  reads_separator (by decide) (reads_number (by omega)) h

theorem reads_ipv4_addr {s rest : Str} (h : read_ipv4_addr s = some rest) : Reads s rest := by
  obtain ⟨u, h, h3⟩ := Option.bind_eq_some_iff.mp h
  obtain ⟨t, h, h2⟩ := Option.bind_eq_some_iff.mp h
  obtain ⟨r, h0, h1⟩ := Option.bind_eq_some_iff.mp h
  exact (((reads_octet h0).trans (reads_octet h1)).trans (reads_octet h2)).trans (reads_octet h3)

theorem reads_groups (limit left : ℕ) (s : Str) : Reads s (read_groups limit left s).2.2 := by
  induction left generalizing s with
  | zero => exact .refl s
  | succ left ih =>
    rw [read_groups]
    split
    · rename_i rest h
      rw [Option.ite_none_right_eq_some] at h
      exact reads_separator (by decide) reads_ipv4_addr h.2
    · split
      · rename_i rest h
        exact (reads_separator (by decide) (reads_number (le_refl 16)) h).trans (ih rest)
      · exact .refl s

theorem reads_ipv6_addr {s rest : Str} (h : read_ipv6_addr s = some rest) : Reads s rest := by
  unfold read_ipv6_addr at h
  dsimp only at h
  have hhead := reads_groups 8 8 s
  split at h
  · cases h
    exact hhead
  · rw [Option.ite_none_left_eq_some] at h
    obtain ⟨t, ht, rfl⟩ := Option.map_eq_some_iff.mp h.2
    obtain ⟨u, hu, ht⟩ := Option.bind_eq_some_iff.mp ht
    exact ((hhead.trans (reads_given_char (by decide) hu)).trans
      (reads_given_char (by decide) ht)).trans (reads_groups _ _ _)

/-- **The text of an address** has digits, dots and colons, -/
theorem all_addr_char {s : Str} (h : is_ip_addr s = true) : s.all addr_char = true := by
  rw [is_ip_addr, decide_eq_true_eq, Option.or_eq_some_iff] at h
  have hread : Reads s [] := by
    obtain h | ⟨-, h⟩ := h
    · exact reads_ipv4_addr h
    · exact reads_ipv6_addr h
  obtain ⟨read, rfl, hread⟩ := hread
  rw [List.append_nil]
  exact hread

/-- and those are ASCII, -/
theorem toNat_of_addr_char {c : Char} (h : addr_char c = true) :
    46 ≤ c.toNat ∧ c.toNat ≤ 58 ∨ 65 ≤ c.toNat ∧ c.toNat ≤ 90 ∨ 97 ≤ c.toNat ∧ c.toNat ≤ 122 := by
  unfold addr_char at h
  rw [Bool.or_eq_true, Bool.or_eq_true, beq_iff_eq, beq_iff_eq] at h
  obtain (h | rfl) | rfl := h
  · obtain ⟨d, hd⟩ := Option.isSome_iff_exists.mp h
    have hsome := (Option.filter_eq_some_iff.mp hd).1
    by_cases hdigit : c.isDigit = true
    · simp only [Char.isDigit, Bool.and_eq_true, decide_eq_true_eq, ge_iff_le,
        UInt32.le_iff_toNat_le] at hdigit
      exact .inl ⟨Nat.le_trans (by decide) hdigit.1, Nat.le_trans hdigit.2 (by decide)⟩
    · rw [if_neg hdigit, Option.ite_none_right_eq_some] at hsome
      have halpha : (decide (c.val ≥ 'A'.val ∧ c.val ≤ 'Z'.val)
          || (decide (c.val ≥ 'a'.val) && decide (c.val ≤ 'z'.val))) = true := hsome.1
      simp only [Bool.or_eq_true, Bool.and_eq_true, decide_eq_true_eq, ge_iff_le,
        UInt32.le_iff_toNat_le] at halpha
      exact .inr halpha
  · decide
  · decide

/-- and it is not empty. -/
theorem ne_nil_of_is_ip_addr {s : Str} (h : is_ip_addr s = true) : s ≠ [] := by
  rintro rfl
  revert h
  decide

example : is_ip_addr "127.0.0.1".toList = true ∧ is_ip_addr "::ffff:10.0.0.7".toList = true
    ∧ is_ip_addr "2001:db8::1".toList = true ∧ is_ip_addr "127.0.0.01".toList = false := by
  decide +kernel

end RustStd
