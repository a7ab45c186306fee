/-
The pieces of Rust's standard library the modules above read: saturating
arithmetic on `u32`, the clock, and the methods of `str`.

A `str` is the list of its Unicode scalar values. Lean's `Char` is exactly a
scalar value, so nothing is lost, and every method below is a list function
Lean already has; what has to be said is which one. Only three of them look at
bytes: `len` and `get_to` count them, and `utf8_bytes` is the encoding itself.

Time is a count of nanoseconds. An `Instant` is a point on a monotonic clock
with an unspecified origin and a `Duration` a difference of two of them, so one
`Nat` serves for both; the only operation the code applies to them that is not
ordinary arithmetic is the saturating difference.
-/
import Mathlib.Data.List.DropRight
import Mathlib.Tactic.Common

set_option autoImplicit false

namespace RustStd

/-! ## Integers -/

/-- `u32::MAX`. -/
abbrev U32_MAX : ℕ := 4294967295

/-- `u32::saturating_add`. -/
def saturating_add (a b : UInt32) : UInt32 :=
  if a.toNat + b.toNat ≤ U32_MAX then a + b else 4294967295

/-- `u32::saturating_sub`. -/
def saturating_sub (a b : UInt32) : UInt32 := if b ≤ a then a - b else 0

@[simp] theorem toNat_saturating_add (a b : UInt32) :
    (saturating_add a b).toNat = min (a.toNat + b.toNat) U32_MAX := by
  unfold saturating_add
  split
  · rw [UInt32.toNat_add, Nat.mod_eq_of_lt (by simp only [U32_MAX] at *; omega)]
    omega
  · rw [show (4294967295 : UInt32).toNat = U32_MAX from rfl]
    omega

@[simp] theorem toNat_saturating_sub (a b : UInt32) :
    (saturating_sub a b).toNat = a.toNat - b.toNat := by
  unfold saturating_sub
  split
  · exact UInt32.toNat_sub_of_le _ _ (by assumption)
  · rename_i h
    rw [UInt32.le_iff_toNat_le] at h
    rw [UInt32.toNat_zero]
    omega

theorem toNat_le_max (a : UInt32) : a.toNat ≤ U32_MAX := by
  have h := a.toNat_lt
  simp only [U32_MAX]
  omega

/-- `u64::MAX`. -/
abbrev U64_MAX : ℕ := 18446744073709551615

/-- `u64::saturating_add`, of `u64`s as the numbers they are. -/
def saturating_add_u64 (a b : ℕ) : ℕ := min (a + b) U64_MAX

/-! ## Time -/

/-- A reading of the monotonic clock, in nanoseconds from an unspecified origin. -/
abbrev Instant := ℕ

/-- A length of time, in nanoseconds. -/
abbrev Duration := ℕ

/-- A second, in nanoseconds. -/
abbrev NANOS_PER_SEC : Duration := 1000000000

/-- A reading of the wall clock, in nanoseconds from the Unix epoch. The seconds are an
`i64`. -/
structure SystemTime where
  nanos : ℤ
  in_range : nanos < 9223372036854775808 * 1000000000
  deriving DecidableEq, Repr

/-- `SystemTime::UNIX_EPOCH`. -/
def UNIX_EPOCH : SystemTime := ⟨0, by decide⟩

/-- `Instant::saturating_duration_since`: zero when `earlier` is not earlier. -/
def saturating_duration_since (now earlier : Instant) : Duration := now - earlier

/-! ## Results -/

/-- A failure is no value. -/
theorem error_ne_ok {ε α : Type} {e : ε} {a : α} : (Except.error e : Except ε α) ≠ .ok a := by
  intro h
  cases h

/-- The operator `?`: what follows runs on the value. -/
theorem bind_eq_ok {ε α β : Type} {x : Except ε α} {f : α → Except ε β} {b : β} :
    x >>= f = .ok b ↔ ∃ a, x = .ok a ∧ f a = .ok b := by
  cases x with
  | error e => exact iff_of_false nofun fun ⟨_, h, _⟩ => nomatch h
  | ok a => exact ⟨fun h => ⟨a, rfl, h⟩, fun ⟨_, ha, h⟩ => by cases ha; exact h⟩

/-- What stops the first step stops the whole. -/
theorem bind_eq_error {ε α β : Type} {x : Except ε α} {f : α → Except ε β} {e : ε} :
    x >>= f = .error e ↔ x = .error e ∨ ∃ a, x = .ok a ∧ f a = .error e := by
  cases x with
  | error e' =>
    refine ⟨fun h => .inl (by cases h; rfl), ?_⟩
    rintro (h | ⟨a, h, -⟩)
    · cases h
      rfl
    · cases h
  | ok a =>
    refine ⟨fun h => .inr ⟨a, rfl, h⟩, ?_⟩
    rintro (h | ⟨a', h, hf⟩)
    · cases h
    · cases h
      exact hf

/-- Checks made one after the other all have to pass. -/
theorem andThen_ok {ε : Type} {x y : Except ε Unit} :
    (do x; y) = Except.ok () ↔ x = .ok () ∧ y = .ok () := by
  cases x with
  | error e => exact iff_of_false nofun fun h => nomatch h.1
  | ok u => exact ⟨fun h => ⟨rfl, h⟩, fun h => h.2⟩

theorem forM_ok {ε α : Type} {check : α → Except ε Unit} {l : List α} :
    l.forM check = .ok () ↔ ∀ a ∈ l, check a = .ok () := by
  induction l with
  | nil => exact iff_of_true rfl nofun
  | cons a l ih =>
    rw [List.forall_mem_cons, ← ih]
    exact andThen_ok

/-- What a list is collected into are the results of its elements. -/
theorem mem_of_mapM_ok {ε α β : Type} {f : α → Except ε β} {l : List α} {ys : List β} {y : β}
    (h : l.mapM f = .ok ys) : y ∈ ys ↔ ∃ x ∈ l, f x = .ok y := by
  induction l generalizing ys with
  | nil =>
    cases h
    simp
  | cons x l ih =>
    rw [List.mapM_cons] at h
    obtain ⟨first, hfirst, h⟩ := bind_eq_ok.mp h
    obtain ⟨rest, hrest, h⟩ := bind_eq_ok.mp h
    cases h
    rw [List.mem_cons, ih hrest]
    simp [hfirst, eq_comm]

/-! ## Strings -/

/-- A `str`, as the list of its scalar values. -/
abbrev Str := List Char

instance : LawfulBEq Str := inferInstance

/-- The `String` with these characters, for error texts. -/
abbrev text (s : Str) : String := String.ofList s

/-- The UTF-8 encoding. -/
def utf8_bytes (s : Str) : List UInt8 := s.flatMap String.utf8EncodeChar

/-- `str::len`: the number of bytes, not of characters. -/
def len (s : Str) : ℕ := s.foldr (fun c n => c.utf8Size + n) 0

/-- `str::trim_matches(c)`. -/
def trim_matches (c : Char) (s : Str) : Str := (s.dropWhile (· == c)).rdropWhile (· == c)

/-- `str::trim_start_matches(c)`. -/
def trim_start_matches (c : Char) (s : Str) : Str := s.dropWhile (· == c)

/-- The characters with the Unicode property `White_Space`: `char::is_whitespace`. -/
def is_whitespace (c : Char) : Bool :=
  let n := c.toNat
  (0x09 ≤ n && n ≤ 0x0d) || n == 0x20 || n == 0x85 || n == 0xa0 || n == 0x1680
    || (0x2000 ≤ n && n ≤ 0x200a) || n == 0x2028 || n == 0x2029 || n == 0x202f
    || n == 0x205f || n == 0x3000

/-- `str::trim`. -/
def trim (s : Str) : Str := (s.dropWhile is_whitespace).rdropWhile is_whitespace

/-- `str::split(c)`: the pieces between occurrences of `c`, at least one. -/
def split (c : Char) (s : Str) : List Str := s.splitOn c

/-- `[Str]::join(c)`. -/
def join (c : Char) (pieces : List Str) : Str := [c].intercalate pieces

/-- `str::split_once(c)`: around the first occurrence of `c`. -/
def split_once (c : Char) : Str → Option (Str × Str)
  | [] => none
  | x :: s => if x = c then some ([], s) else (split_once c s).map fun p => (x :: p.1, p.2)

/-- `str::split_once(pat)`, for a pattern of several characters. -/
def split_once_at (pat : Str) : Str → Option (Str × Str)
  | [] => if pat.isEmpty then some ([], []) else none
  | c :: s =>
    match pat.isPrefixOf? (c :: s) with
    | some rest => some ([], rest)
    | none => (split_once_at pat s).map fun p => (c :: p.1, p.2)

/-- `str::starts_with`. -/
def starts_with (s prefix_ : Str) : Bool := prefix_.isPrefixOf s

/-- `str::ends_with`. -/
def ends_with (s suffix : Str) : Bool := suffix.isSuffixOf s

/-- `str::strip_prefix`. -/
def strip_prefix (s prefix_ : Str) : Option Str := prefix_.isPrefixOf? s

/-- `str::strip_suffix`. -/
def strip_suffix (s suffix : Str) : Option Str := suffix.isSuffixOf? s

/-- `str::get(..n)`: the first `n` bytes, when `n` is a character boundary. -/
def get_to : Str → ℕ → Option Str
  | _, 0 => some []
  | [], _ + 1 => none
  | c :: s, n + 1 =>
    if c.utf8Size ≤ n + 1 then (get_to s (n + 1 - c.utf8Size)).map (c :: ·) else none
  termination_by structural s => s

/-- The digits of a `u64`, the most significant first. -/
def digits_u64 (n : ℕ) : Str → Option ℕ
  | [] => some n
  | c :: s =>
    if c.isDigit ∧ 10 * n + (c.toNat - '0'.toNat) ≤ U64_MAX then
      digits_u64 (10 * n + (c.toNat - '0'.toNat)) s
    else none

/-- `str::parse::<u64>`: a plus sign may stand in front. -/
def parse_u64 (s : Str) : Option ℕ :=
  let digits := ( strip_prefix s ['+']).getD s
  if digits.isEmpty then none else digits_u64 0 digits

/-- `str::to_ascii_lowercase`: Lean's `Char.toLower` moves ASCII letters only. -/
def to_ascii_lowercase (s : Str) : Str := s.map Char.toLower

/-- `str::to_ascii_uppercase`. -/
def to_ascii_uppercase (s : Str) : Str := s.map Char.toUpper

/-- Nothing trimmed is left at the front. -/
theorem head?_trim_matches (c : Char) (s : Str) : (trim_matches c s).head? ≠ some c := by
  intro h
  rw [trim_matches] at h
  obtain ⟨r, hr⟩ := List.rdropWhile_prefix (· == c) (s.dropWhile (· == c))
  have hhead : (s.dropWhile (· == c)).head? = some c := by
    rw [← hr, List.head?_append, h]
    rfl
  have hnot := List.head?_dropWhile_not (· == c) s
  rw [hhead] at hnot
  simp at hnot

/-- Trimming commutes with a change of the characters that leaves the trimmed one alone. -/
theorem trim_matches_map {c : Char} {f : Char → Char} (hf : ∀ x, f x = c ↔ x = c) (s : Str) :
    trim_matches c (s.map f) = (trim_matches c s).map f := by
  have hpred : (fun x => x == c) ∘ f = fun x => x == c :=
    funext fun x => Bool.eq_iff_iff.mpr (by simpa using hf x)
  rw [trim_matches, trim_matches, List.dropWhile_map, List.rdropWhile, List.rdropWhile,
    ← List.map_reverse, List.dropWhile_map, ← List.map_reverse, hpred]

/-- Trimming takes away only the trimmed character, at the two ends. -/
theorem trim_matches_append (c : Char) (s : Str) :
    ∃ m n, s = List.replicate m c ++ (trim_matches c s ++ List.replicate n c) := by
  have hall : ∀ l : Str, (∀ x ∈ l, (x == c) = true) → l = List.replicate l.length c :=
    fun l h => List.eq_replicate_iff.mpr ⟨rfl, fun x hx => by simpa using h x hx⟩
  have hleft := hall (s.takeWhile (· == c)) fun _ => List.mem_takeWhile_imp
  have hright := hall ((s.dropWhile (· == c)).rtakeWhile (· == c)) fun _ =>
    List.mem_rtakeWhile_imp
  refine ⟨(s.takeWhile (· == c)).length, ((s.dropWhile (· == c)).rtakeWhile (· == c)).length, ?_⟩
  calc s = s.takeWhile (· == c) ++ s.dropWhile (· == c) :=
        List.takeWhile_append_dropWhile.symm
    _ = s.takeWhile (· == c)
          ++ (trim_matches c s ++ (s.dropWhile (· == c)).rtakeWhile (· == c)) := by
        rw [trim_matches, List.rdropWhile_append_rtakeWhile]
    _ = _ := by rw [← hleft, ← hright]

theorem mem_trim_matches {c x : Char} {s : Str} (hx : x ≠ c) (h : x ∈ s) :
    x ∈ trim_matches c s := by
  obtain ⟨m, n, hs⟩ := trim_matches_append c s
  rw [hs] at h
  simpa [hx] using h

/-- The first piece ends where the separator first occurs. -/
theorem head?_split (c : Char) (s : Str) : (split c s).head? = some (s.takeWhile (· != c)) := by
  induction s with
  | nil => rfl
  | cons x s ih =>
    rw [split, List.splitOn_cons_eq_if_modifyHead, List.takeWhile_cons]
    by_cases h : x = c
    · simp [h]
    · rw [split] at ih
      simp [h, List.head?_modifyHead, ih]

theorem split_ne_nil (c : Char) (s : Str) : split c s ≠ [] := List.splitOn_ne_nil c s

theorem split_of_not_mem {c : Char} {s : Str} (h : c ∉ s) : split c s = [s] :=
  List.splitOn_eq_singleton h

@[simp] theorem join_split (c : Char) (s : Str) : join c (split c s) = s :=
  List.intercalate_splitOn c

theorem split_join {c : Char} {pieces : List Str} (hc : ∀ s ∈ pieces, c ∉ s)
    (hne : pieces ≠ []) : split c (join c pieces) = pieces := List.splitOn_intercalate c hc hne

/-- What stands before the first occurrence, and after it. -/
theorem split_once_append {c : Char} {s : Str} (hs : c ∉ s) (rest : Str) :
    split_once c (s ++ c :: rest) = some (s, rest) := by
  induction s with
  | nil => exact if_pos rfl
  | cons x s ih =>
    rw [List.mem_cons, not_or] at hs
    rw [List.cons_append, split_once, if_neg (Ne.symm hs.1), ih hs.2, Option.map_some]

theorem split_once_eq_none {c : Char} {s : Str} (hs : c ∉ s) : split_once c s = none := by
  induction s with
  | nil => rfl
  | cons x s ih =>
    rw [List.mem_cons, not_or] at hs
    rw [split_once, if_neg (Ne.symm hs.1), ih hs.2, Option.map_none]

/-- A word that was found is there, -/
theorem eq_of_split_once_at {pat s before after : Str}
    (h : split_once_at pat s = some (before, after)) : s = before ++ (pat ++ after) := by
  induction s generalizing before with
  | nil =>
    rw [split_once_at] at h
    split at h
    · rename_i hpat
      cases h
      rw [List.isEmpty_iff.mp hpat]
      rfl
    · cases h
  | cons c s ih =>
    rw [split_once_at] at h
    split at h
    · rename_i rest hrest
      cases h
      exact (List.isPrefixOf?_eq_some_iff_append_eq.mp hrest).symm
    · obtain ⟨⟨b, a⟩, hba, hres⟩ := Option.map_eq_some_iff.mp h
      cases hres
      rw [ih hba, List.cons_append]

/-- and not before, and a word that was not found is nowhere. -/
theorem split_once_at_first {pat s : Str} (b a : Str) (h : s = b ++ (pat ++ a)) :
    ∃ before after, split_once_at pat s = some (before, after) ∧ before.length ≤ b.length := by
  induction s generalizing b with
  | nil =>
    obtain ⟨-, hpat, -⟩ : b = [] ∧ pat = [] ∧ a = [] := by simpa using h.symm
    rw [hpat]
    exact ⟨[], [], rfl, Nat.zero_le _⟩
  | cons c s ih =>
    rw [split_once_at]
    cases hrest : pat.isPrefixOf? (c :: s) with
    | some rest => exact ⟨[], rest, rfl, Nat.zero_le _⟩
    | none =>
      cases b with
      | nil =>
        rw [List.nil_append] at h
        rw [List.isPrefixOf?_eq_some_iff_append_eq.mpr h.symm] at hrest
        cases hrest
      | cons d b =>
        rw [List.cons_append, List.cons.injEq] at h
        obtain ⟨before, after, hsplit, hle⟩ := ih b h.2
        refine ⟨c :: before, after, ?_, Nat.succ_le_succ hle⟩
        rw [hsplit]
        rfl

/-- A word is found where its first character first stands. -/
theorem split_once_at_append {c : Char} {s : Str} (hs : c ∉ s) (pat rest : Str) :
    split_once_at (c :: pat) (s ++ (c :: pat ++ rest)) = some (s, rest) := by
  induction s with
  | nil =>
    have hpat := List.isPrefixOf?_eq_some_iff_append_eq.mpr (rfl : c :: pat ++ rest = _)
    rw [List.nil_append, List.cons_append, split_once_at, ← List.cons_append, hpat]
  | cons x s ih =>
    rw [List.mem_cons, not_or] at hs
    have hpat : (c :: pat).isPrefixOf? (x :: (s ++ (c :: pat ++ rest))) = none := by
      rw [List.isPrefixOf?, if_neg (by simpa using hs.1)]
    rw [List.cons_append, split_once_at, hpat]
    dsimp only
    rw [ih hs.2, Option.map_some]

theorem split_once_at_isSome_iff {pat s : Str} :
    (split_once_at pat s).isSome = true ↔ pat <:+: s := by
  constructor
  · intro h
    obtain ⟨⟨before, after⟩, hsplit⟩ := Option.isSome_iff_exists.mp h
    refine ⟨before, after, ?_⟩
    rw [List.append_assoc]
    exact (eq_of_split_once_at hsplit).symm
  · rintro ⟨b, a, hs⟩
    rw [List.append_assoc] at hs
    obtain ⟨before, after, hsplit, -⟩ := split_once_at_first b a hs.symm
    rw [hsplit]
    rfl

theorem strip_prefix_eq_some {s p r : Str} : strip_prefix s p = some r ↔ s = p ++ r := by
  rw [ strip_prefix, List.isPrefixOf?_eq_some_iff_append_eq, eq_comm]

theorem strip_suffix_eq_some {s p r : Str} : strip_suffix s p = some r ↔ s = r ++ p := by
  rw [strip_suffix, List.isSuffixOf?_eq_some_iff_append_eq, eq_comm]

theorem starts_with_iff {s p : Str} : starts_with s p = true ↔ p <+: s :=
  List.isPrefixOf_iff_prefix

theorem ends_with_iff {s p : Str} : ends_with s p = true ↔ p <:+ s :=
  List.isSuffixOf_iff_suffix

@[simp] theorem len_nil : len [] = 0 := rfl

theorem len_cons (c : Char) (s : Str) : len (c :: s) = c.utf8Size + len s := rfl

@[simp] theorem len_append (s t : Str) : len (s ++ t) = len s + len t := by
  induction s with
  | nil => rw [List.nil_append, len_nil, Nat.zero_add]
  | cons c s ih => rw [List.cons_append, len_cons, len_cons, ih, Nat.add_assoc]

/-- A character takes at most four bytes. -/
theorem len_le (s : Str) : len s ≤ 4 * s.length := by
  induction s with
  | nil => exact Nat.le_refl 0
  | cons c s ih =>
    have hc := c.utf8Size_le_four
    rw [len_cons, List.length_cons]
    omega

theorem length_utf8_bytes (s : Str) : (utf8_bytes s).length = len s := by
  induction s with
  | nil => rfl
  | cons c s ih =>
    rw [utf8_bytes, List.flatMap_cons, List.length_append, String.length_utf8EncodeChar,
      ← utf8_bytes, ih, len_cons]

/-- Only the empty string has no bytes. -/
theorem len_eq_zero {s : Str} : len s = 0 ↔ s = [] := by
  cases s with
  | nil => simp
  | cons c s =>
    have hc := c.utf8Size_pos
    simp only [len_cons, reduceCtorEq, iff_false]
    omega

/-- Slicing at the length of a known prefix gives that prefix back. -/
theorem get_to_append (s t : Str) : get_to (s ++ t) (len s) = some s := by
  induction s with
  | nil => cases t <;> simp [get_to]
  | cons c s ih =>
    have hc := c.utf8Size_pos
    -- A character takes at least one byte, so the count is not zero yet.
    obtain ⟨n, hn⟩ : ∃ n, len (c :: s) = n + 1 :=
      ⟨len (c :: s) - 1, by rw [len_cons]; omega⟩
    have hrest : n + 1 - c.utf8Size = len s := by rw [← hn, len_cons]; omega
    rw [hn, List.cons_append, get_to, if_pos (by rw [← hn, len_cons]; omega), hrest, ih]
    rfl

/-- Two prefixes of one string with as many bytes are the same prefix. -/
theorem prefix_eq_of_len_eq {s t u : Str} (hs : s <+: u) (ht : t <+: u) (h : len s = len t) :
    s = t := by
  obtain hst | hts := List.prefix_or_prefix_of_prefix hs ht
  · obtain ⟨r, rfl⟩ := hst
    rw [len_append] at h
    have hr : r = [] := len_eq_zero.mp (by omega)
    rw [hr, List.append_nil]
  · obtain ⟨r, rfl⟩ := hts
    rw [len_append] at h
    have hr : r = [] := len_eq_zero.mp (by omega)
    rw [hr, List.append_nil]

/-! ## Trimming -/

/-- Text without blanks is not trimmed. -/
theorem trim_of_no_blank {s : Str} (h : ∀ c ∈ s, is_whitespace c = false) : trim s = s := by
  have hfront : s.dropWhile is_whitespace = s := by
    rw [List.dropWhile_eq_self_iff]
    intro hl
    simpa using h _ (List.getElem_mem hl)
  rw [trim, hfront, List.rdropWhile_eq_self_iff]
  intro hl
  simpa using h _ (List.getLast_mem hl)

theorem trim_trim (s : Str) : trim (trim s) = trim s := by
  have hfront : (trim s).dropWhile is_whitespace = trim s := by
    rw [List.dropWhile_eq_self_iff]
    intro hl
    -- What is left after both ends were cut starts as it did after the front was.
    have hpre : trim s <+: s.dropWhile is_whitespace := List.rdropWhile_prefix _ _
    rw [hpre.getElem hl]
    exact List.dropWhile_get_zero_not is_whitespace s _
  rw [trim, hfront, trim, List.rdropWhile_idempotent]

theorem trim_blank (s : Str) : trim (' ' :: s) = trim s := by
  rw [trim, List.dropWhile_cons_of_pos rfl, trim]

theorem mem_of_mem_trim {c : Char} {s : Str} (h : c ∈ trim s) : c ∈ s :=
  (List.dropWhile_sublist _).subset ((List.rdropWhile_prefix _ _).subset h)

section Around

variable {p : Char → Bool} {c : Char}

/-- What is dropped at one end stops at a character that is kept. -/
theorem dropWhile_append_kept (hc : p c = false) (s t : Str) :
    (s ++ c :: t).dropWhile p = s.dropWhile p ++ c :: t := by
  rw [List.dropWhile_append, List.dropWhile_cons_of_neg (by rw [hc]; exact Bool.false_ne_true)]
  split
  · rename_i hempty
    rw [List.isEmpty_iff.mp hempty, List.nil_append]
  · rfl

theorem rdropWhile_append_kept (hc : p c = false) (s t : Str) :
    (s ++ c :: t).rdropWhile p = s ++ c :: t.rdropWhile p := by
  have hreverse : (s ++ c :: t).reverse = t.reverse ++ c :: s.reverse := by simp
  rw [List.rdropWhile, hreverse, dropWhile_append_kept hc, List.rdropWhile]
  simp

/-- The two ends are trimmed on their own. -/
theorem trim_append_kept (hc : is_whitespace c = false) (s t : Str) :
    trim (s ++ c :: t) = s.dropWhile is_whitespace ++ c :: t.rdropWhile is_whitespace := by
  rw [trim, dropWhile_append_kept hc, rdropWhile_append_kept hc]

theorem trim_eq_nil_iff {s : Str} : trim s = [] ↔ ∀ c ∈ s, is_whitespace c = true := by
  rw [trim, List.rdropWhile_eq_nil_iff]
  constructor
  · intro h c hc
    rw [← List.takeWhile_append_dropWhile (p := is_whitespace) (l := s), List.mem_append] at hc
    obtain hc | hc := hc
    · exact List.mem_takeWhile_imp hc
    · exact h c hc
  · exact fun h c hc => h c ((List.dropWhile_sublist _).subset hc)

/-- Either end may be trimmed before. -/
theorem trim_dropWhile (s : Str) : trim (s.dropWhile is_whitespace) = trim s := by
  rw [trim, List.dropWhile_idempotent, trim]

theorem trim_rdropWhile (s : Str) : trim (s.rdropWhile is_whitespace) = trim s := by
  by_cases h : ∀ c ∈ s, is_whitespace c = true
  · rw [List.rdropWhile_eq_nil_iff.mpr h, trim_eq_nil_iff.mpr h]
    rfl
  · obtain ⟨c, hmem, hc⟩ := not_forall₂.mp h
    obtain ⟨a, b, rfl⟩ := List.append_of_mem hmem
    rw [Bool.not_eq_true] at hc
    rw [rdropWhile_append_kept hc, trim_append_kept hc, trim_append_kept hc,
      List.rdropWhile_idempotent]

end Around

/-! ## Lowercase -/

theorem toNat_toLower (c : Char) :
    c.toLower.toNat = if 65 ≤ c.toNat ∧ c.toNat ≤ 90 then c.toNat + 32 else c.toNat := by
  by_cases hupper : c.val ≥ 'A'.val ∧ c.val ≤ 'Z'.val
  · have hlo : 65 ≤ c.toNat := UInt32.le_iff_toNat_le.mp hupper.1
    have hhi : c.toNat ≤ 90 := UInt32.le_iff_toNat_le.mp hupper.2
    have hlower : c.toLower.val = c.val + ('a'.val - 'A'.val) :=
      congrArg Char.val (dif_pos hupper)
    rw [if_pos ⟨hlo, hhi⟩, Char.toNat, hlower, UInt32.toNat_add,
      show ('a'.val - 'A'.val).toNat = 32 from rfl]
    exact Nat.mod_eq_of_lt (by rw [Char.toNat] at hhi; omega)
  · rw [if_neg, show c.toLower = c from dif_neg hupper]
    exact fun h => hupper ⟨UInt32.le_iff_toNat_le.mpr h.1, UInt32.le_iff_toNat_le.mpr h.2⟩

@[simp] theorem toLower_toLower (c : Char) : c.toLower.toLower = c.toLower := by
  refine Char.toNat_inj.mp ?_
  rw [toNat_toLower, if_neg]
  rw [toNat_toLower]
  split <;> omega

@[simp] theorem lowercase_lowercase (s : Str) :
    to_ascii_lowercase (to_ascii_lowercase s) = to_ascii_lowercase s := by
  simp [to_ascii_lowercase]

/-- Lowercasing keeps the number of bytes: the letters it moves are ASCII before and after. -/
theorem utf8Size_toLower (c : Char) : c.toLower.utf8Size = c.utf8Size := by
  by_cases hupper : 65 ≤ c.toNat ∧ c.toNat ≤ 90
  · have hlower := toNat_toLower c
    rw [if_pos hupper] at hlower
    have hlow : ∀ d : Char, d.toNat ≤ 127 → d.utf8Size = 1 := fun d hd =>
      Char.utf8Size_eq_one_iff.mpr (UInt32.le_iff_toNat_le.mpr hd)
    rw [hlow c (by omega), hlow c.toLower (by omega)]
  · have hsame : c.toLower = c := Char.toNat_inj.mp (by rw [toNat_toLower, if_neg hupper])
    rw [hsame]

theorem len_lowercase (s : Str) : len (to_ascii_lowercase s) = len s := by
  induction s with
  | nil => rfl
  | cons c s ih =>
    rw [to_ascii_lowercase, List.map_cons, len_cons, ← to_ascii_lowercase, ih, utf8Size_toLower,
      len_cons]

theorem is_whitespace_toLower (c : Char) : is_whitespace c.toLower = is_whitespace c := by
  rw [is_whitespace, is_whitespace, toNat_toLower, Bool.eq_iff_iff]
  simp only [Bool.or_eq_true, Bool.and_eq_true, decide_eq_true_eq, beq_iff_eq]
  split <;> omega

/-- Trimming and lowercasing do not meet. -/
theorem trim_lowercase (s : Str) : trim (to_ascii_lowercase s) = to_ascii_lowercase (trim s) := by
  have hpred : is_whitespace ∘ Char.toLower = is_whitespace := funext is_whitespace_toLower
  rw [trim, trim, to_ascii_lowercase, to_ascii_lowercase, List.dropWhile_map, List.rdropWhile,
    List.rdropWhile, ← List.map_reverse, List.dropWhile_map, ← List.map_reverse, hpred]
end RustStd
