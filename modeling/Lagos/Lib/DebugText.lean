/-
The texts of `{:?}`, and what can be read back from them.

Derived `Debug` writes a value as its name and its parts, a list in brackets, a map in braces, a
text between quotes with what needs it escaped. A way of writing is `Readable` when the text of
one value, with whatever follows, is never that of another: then equal texts are of equal values,
also where they are parts of a larger one. Texts are (`readable_str`), and lists and maps of
readable parts are (`Readable.seq`, `Readable.entry`).

Which characters are written as their code points is up to the Unicode tables: `escaped` says so,
and nothing here depends on it.
-/
import Mathlib.Data.List.Basic
import Mathlib.Data.Nat.Digits.Defs

set_option autoImplicit false

namespace DebugText

/-! ## What is written -/

/-- The characters that have a letter, which is written behind a backslash. -/
def LETTERS : List (Char × Char) :=
  [('\x00', '0'), ('\t', 't'), ('\r', 'r'), ('\n', 'n'), ('\\', '\\'), ('"', '"')]

/-- The letter of a character. -/
def letter (c : Char) : Option Char := LETTERS.lookup c

/-- A number in hexadecimal, without leading zeros. -/
def hex (n : ℕ) : List Char := ((Nat.digits 16 n).reverse).map Nat.digitChar

/-- A character of a text. -/
def escape_debug (escaped : Char → Bool) (c : Char) : List Char :=
  match letter c with
  | some l => ['\\', l]
  | none => if escaped c then ['\\', 'u', '\x7b'] ++ hex c.toNat ++ ['\x7d'] else [c]

/-- A text. -/
def debug_str (escaped : Char → Bool) (s : List Char) : List Char :=
  '"' :: s.flatMap (escape_debug escaped) ++ ['"']

/-- Items between a pair of brackets. -/
def debug_seq (opening closing : Char) (items : List (List Char)) : List Char :=
  opening :: ", ".toList.intercalate items ++ [closing]

/-- A list. -/
def debug_list (items : List (List Char)) : List Char := debug_seq '[' ']' items

/-- An entry of a map. -/
def debug_entry (key value : List Char) : List Char := key ++ ": ".toList ++ value

/-- A map. -/
def debug_map (entries : List (List Char × List Char)) : List Char :=
  debug_seq '\x7b' '\x7d' (entries.map fun e => debug_entry e.1 e.2)

/-- A value of a structure with these fields. -/
def debug_struct (name : String) (fields : List (String × List Char)) : List Char :=
  name.toList ++ ' ' :: '\x7b' :: ' '
    :: ", ".toList.intercalate (fields.map fun f => debug_entry f.1.toList f.2) ++ [' ', '\x7d']

/-- A value of a constructor with one argument. -/
def debug_tuple (name : String) (arg : List Char) : List Char := name.toList ++ '(' :: arg ++ [')']

/-- A value that may be missing. -/
def debug_option : Option (List Char) → List Char
  | none => "None".toList
  | some arg => debug_tuple "Some" arg

/-! ## Reading back -/

variable {α β : Type*}

/-- What is written of one value, with what follows, is not that of another. -/
def Readable (f : α → List Char) : Prop :=
  ∀ a b r r', f a ++ r = f b ++ r' → a = b ∧ r = r'

variable {f : α → List Char} {g : β → List Char}

theorem Readable.injective (hf : Readable f) : Function.Injective f :=
  fun a b h => (hf a b [] [] (by rw [h])).1

theorem Readable.entry (hf : Readable f) (hg : Readable g) :
    Readable fun p : α × β => debug_entry (f p.1) (g p.2) := by
  rintro ⟨a, b⟩ ⟨a', b'⟩ r r' h
  simp only [debug_entry, List.append_assoc] at h
  obtain ⟨rfl, hvalue⟩ := hf _ _ _ _ h
  obtain ⟨rfl, hr⟩ := hg _ _ _ _ (List.append_cancel_left hvalue)
  exact ⟨rfl, hr⟩

/-- Items after the first, each behind a separator. -/
theorem intercalate_cons (sep x : List Char) (xs : List (List Char)) :
    sep.intercalate (x :: xs) = x ++ xs.flatMap (sep ++ ·) := by
  induction xs generalizing x with
  | nil => simp
  | cons y ys ih =>
    rw [List.intercalate_cons_cons, ih, List.flatMap_cons]
    simp only [List.append_assoc]

/-- The end of a list is not the beginning of an item. -/
theorem Readable.seq {opening closing : Char} (hf : Readable f) (hclosing : closing ≠ ',')
    (hfirst : ∀ a r r', f a ++ r ≠ closing :: r') :
    Readable fun l : List α => debug_seq opening closing (l.map f) := by
  have htail : ∀ (l l' : List α) (r r' : List Char),
      (l.map f).flatMap (", ".toList ++ ·) ++ closing :: r
        = (l'.map f).flatMap (", ".toList ++ ·) ++ closing :: r' → l = l' ∧ r = r' := by
    intro l
    induction l with
    | nil =>
      intro l' r r' h
      cases l' with
      | nil => exact ⟨rfl, List.tail_eq_of_cons_eq h⟩
      | cons b l' => exact absurd (List.head_eq_of_cons_eq h) hclosing
    | cons a l ih =>
      intro l' r r' h
      cases l' with
      | nil => exact absurd (List.head_eq_of_cons_eq h).symm hclosing
      | cons b l' =>
        simp only [List.map_cons, List.flatMap_cons, List.append_assoc] at h
        obtain ⟨rfl, hrest⟩ := hf _ _ _ _ (List.append_cancel_left h)
        obtain ⟨rfl, hr⟩ := ih _ _ _ hrest
        exact ⟨rfl, hr⟩
  intro l l' r r' h
  simp only [debug_seq, List.cons_append, List.nil_append, List.append_assoc, List.cons.injEq,
    true_and] at h
  cases l with
  | nil =>
    cases l' with
    | nil => exact ⟨rfl, List.tail_eq_of_cons_eq h⟩
    | cons b l' =>
      rw [List.map_cons, intercalate_cons, List.append_assoc] at h
      exact absurd h.symm (hfirst b _ _)
  | cons a l =>
    cases l' with
    | nil =>
      rw [List.map_cons, intercalate_cons, List.append_assoc] at h
      exact absurd h (hfirst a _ _)
    | cons b l' =>
      rw [List.map_cons, List.map_cons, intercalate_cons, intercalate_cons, List.append_assoc,
        List.append_assoc] at h
      obtain ⟨rfl, hrest⟩ := hf _ _ _ _ h
      obtain ⟨rfl, hr⟩ := htail _ _ _ _ hrest
      exact ⟨rfl, hr⟩

/-! ## Texts -/

theorem mem_of_letter {c l : Char} (h : letter c = some l) : (c, l) ∈ LETTERS := by
  obtain ⟨_, _, hsplit, -⟩ := List.lookup_eq_some_iff.mp h
  rw [hsplit]
  exact List.mem_append_right _ List.mem_cons_self

/-- A letter stands for one character. -/
theorem letter_inj {c d l : Char} (hc : letter c = some l) (hd : letter d = some l) : c = d := by
  have hdistinct : ∀ x ∈ LETTERS, ∀ y ∈ LETTERS, x.2 = y.2 → x.1 = y.1 := by decide
  exact hdistinct _ (mem_of_letter hc) _ (mem_of_letter hd) rfl

/-- None of them is that of a code point. -/
theorem letter_ne_u {c : Char} : letter c ≠ some 'u' := by
  have hne : ∀ x ∈ LETTERS, x.2 ≠ 'u' := by decide
  exact fun h => hne _ (mem_of_letter h) rfl

/-- The value of a hexadecimal digit. -/
def digit_value (c : Char) : ℕ := if c.isDigit then c.toNat - 48 else c.toNat - 87

theorem hex_injective : Function.Injective hex := by
  have hvalue : ∀ d < 16, digit_value (Nat.digitChar d) = d := by decide
  have hback : ∀ n, (hex n).map digit_value = (Nat.digits 16 n).reverse := by
    intro n
    rw [hex, List.map_map]
    refine (List.map_congr_left fun d hd => ?_).trans (List.map_id _)
    exact hvalue d (Nat.digits_lt_base (by decide) (List.mem_reverse.mp hd))
  intro m n h
  have hdigits : (Nat.digits 16 m).reverse = (Nat.digits 16 n).reverse := by
    rw [← hback m, ← hback n, h]
  exact Nat.digits_inj_iff.mp (List.reverse_injective hdigits)

/-- The code point ends where its digits do. -/
theorem brace_not_mem_hex (n : ℕ) : '\x7d' ∉ hex n := by
  intro h
  obtain ⟨d, hd, hchar⟩ := List.mem_map.mp h
  have hlt : d < 16 := Nat.digits_lt_base (by decide) (List.mem_reverse.mp hd)
  have hne : ∀ d < 16, Nat.digitChar d ≠ '\x7d' := by decide
  exact hne d hlt hchar

/-- Two texts that end at their first `c` are cut there. -/
theorem append_cons_inj {c : Char} {l l' r r' : List Char} (hl : c ∉ l) (hl' : c ∉ l')
    (h : l ++ c :: r = l' ++ c :: r') : l = l' ∧ r = r' := by
  induction l generalizing l' with
  | nil =>
    cases l' with
    | nil => exact ⟨rfl, List.tail_eq_of_cons_eq h⟩
    | cons d l' =>
      exact absurd (List.mem_cons.mpr (.inl (List.head_eq_of_cons_eq h))) hl'
  | cons d l ih =>
    cases l' with
    | nil => exact absurd (List.mem_cons.mpr (.inl (List.head_eq_of_cons_eq h).symm)) hl
    | cons e l' =>
      obtain ⟨rfl, htail⟩ := List.cons.inj h
      obtain ⟨rfl, hr⟩ := ih (fun hmem => hl (List.mem_cons_of_mem _ hmem))
        (fun hmem => hl' (List.mem_cons_of_mem _ hmem)) htail
      exact ⟨rfl, hr⟩

variable (escaped : Char → Bool)

/-- What is written of a character: a letter, a code point, or itself. -/
theorem escape_debug_cases (c : Char) :
    (∃ l, letter c = some l ∧ escape_debug escaped c = ['\\', l])
      ∨ (letter c = none
        ∧ escape_debug escaped c = ['\\', 'u', '\x7b'] ++ hex c.toNat ++ ['\x7d'])
      ∨ (letter c = none ∧ escape_debug escaped c = [c]) := by
  unfold escape_debug
  cases hletter : letter c with
  | some l => exact .inl ⟨l, rfl, rfl⟩
  | none =>
    cases escaped c with
    | true => exact .inr (.inl ⟨rfl, rfl⟩)
    | false => exact .inr (.inr ⟨rfl, rfl⟩)

/-- A character that stands for itself is none of those with a letter. -/
theorem ne_of_letter {c : Char} (h : letter c = none) : c ≠ '\\' ∧ c ≠ '"' := by
  constructor <;>
  · rintro rfl
    cases h

theorem readable_escape_debug : Readable (escape_debug escaped) := by
  intro c d r r' h
  obtain ⟨l, hl, hc⟩ | ⟨hl, hc⟩ | ⟨hl, hc⟩ := escape_debug_cases escaped c <;>
  obtain ⟨l', hl', hd⟩ | ⟨hl', hd⟩ | ⟨hl', hd⟩ := escape_debug_cases escaped d <;>
  rw [hc, hd] at h <;> simp only [List.cons_append, List.nil_append, List.append_assoc,
    List.cons.injEq] at h
  · obtain ⟨-, rfl, hr⟩ := h
    exact ⟨letter_inj hl hl', hr⟩
  · exact absurd (h.2.1 ▸ hl) letter_ne_u
  · exact absurd h.1.symm (ne_of_letter hl').1
  · exact absurd (h.2.1 ▸ hl') letter_ne_u
  · obtain ⟨-, -, -, h⟩ := h
    obtain ⟨hhex, hr⟩ := append_cons_inj (brace_not_mem_hex _) (brace_not_mem_hex _) h
    exact ⟨Char.toNat_inj.mp (hex_injective hhex), hr⟩
  · exact absurd h.1.symm (ne_of_letter hl').1
  · exact absurd h.1 (ne_of_letter hl).1
  · exact absurd h.1 (ne_of_letter hl).1
  · exact h

/-- What is written of a character is not the end of the text. -/
theorem escape_debug_ne (c : Char) (r r' : List Char) :
    escape_debug escaped c ++ r ≠ '"' :: r' := by
  intro h
  obtain ⟨l, hl, hc⟩ | ⟨hl, hc⟩ | ⟨hl, hc⟩ := escape_debug_cases escaped c <;> rw [hc] at h
  · exact absurd (List.head_eq_of_cons_eq h) (by decide)
  · exact absurd (List.head_eq_of_cons_eq h) (by decide)
  · exact absurd (List.head_eq_of_cons_eq h) (ne_of_letter hl).2

/-- **Texts can be read back.** -/
theorem readable_str : Readable (debug_str escaped) := by
  intro s t r r' h
  simp only [debug_str, List.cons_append, List.nil_append, List.append_assoc, List.cons.injEq,
    true_and] at h
  induction s generalizing t with
  | nil =>
    cases t with
    | nil => exact ⟨rfl, List.tail_eq_of_cons_eq h⟩
    | cons d t =>
      rw [List.flatMap_cons, List.append_assoc] at h
      exact absurd h.symm (escape_debug_ne escaped d _ _)
  | cons c s ih =>
    cases t with
    | nil =>
      rw [List.flatMap_cons, List.append_assoc] at h
      exact absurd h (escape_debug_ne escaped c _ _)
    | cons d t =>
      rw [List.flatMap_cons, List.flatMap_cons, List.append_assoc, List.append_assoc] at h
      obtain ⟨rfl, hrest⟩ := readable_escape_debug escaped _ _ _ _ h
      obtain ⟨rfl, hr⟩ := ih t hrest
      exact ⟨rfl, hr⟩

end DebugText
