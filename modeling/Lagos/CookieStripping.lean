/-
Reading cookies and leaving them out (`auth/mod.rs`).

`cookie_pairs` cuts a piece at its `=` and trims both sides, and skips a piece without one;
`strip_cookies` trims the piece first, and takes one without `=` for a name. They agree on the name
of every pair that is read (`pair_name_of_cookie_pair`), so what is stripped cannot be read any
more and everything else is read as before (`cookie_pairs_strip_cookies`).
-/
import Lagos.Cookies

set_option autoImplicit false

open RustStd

namespace Lagos.Auth

/-! ## One piece -/

/-- The pair that a piece is read as. -/
def cookie_pair (piece : Str) : Option (Str × Str) :=
  (split_once '=' piece).map fun p => (trim p.1, trim p.2)

/-- The value of a cookie without the quotes around it. -/
def unquoted (value : Str) : Str :=
  let inner := RustStd.strip_prefix value ['"']
  (inner.bind fun v => strip_suffix v ['"']).getD value

/-- `cookie_token`. -/
def cookie_token (headers : List Str) (names : List Str) : Option Str :=
  names.findSome? fun wanted =>
    (((cookie_pairs headers).find? fun pair => pair.1 == wanted).map fun pair =>
      unquoted pair.2).filter fun value => !value.isEmpty

/-- The values of a cookie, in order. -/
def values_of (name : Str) (pairs : List (Str × Str)) : List Str :=
  pairs.filterMap fun pair => if pair.1 = name then some pair.2 else none

/-- A piece is a pair of this name, or the name by itself. -/
def Carries (piece name : Str) : Prop :=
  (∃ value, cookie_pair piece = some (name, value)) ∨ '=' ∉ piece ∧ trim piece = name

section Pieces

variable {piece name : Str}

/-- A piece may be trimmed before it is read. -/
theorem cookie_pair_trim (piece : Str) : cookie_pair (trim piece) = cookie_pair piece := by
  unfold cookie_pair
  by_cases h : '=' ∈ piece
  -- The first `=` is no blank: what is trimmed off is on one side of it.
  · obtain ⟨a, b, rfl, ha⟩ := List.eq_append_cons_of_mem h
    have ha' : '=' ∉ a.dropWhile is_whitespace := fun hmem =>
      ha ((List.dropWhile_sublist _).subset hmem)
    rw [trim_append_kept (by decide), split_once_append ha', split_once_append ha, Option.map_some,
      Option.map_some, trim_dropWhile, trim_rdropWhile]
  · rw [split_once_eq_none h, split_once_eq_none fun hmem => h (mem_of_mem_trim hmem)]

/-- The name that a pair is read with is the one it is stripped by. -/
theorem pair_name_of_cookie_pair {value : Str} (h : cookie_pair piece = some (name, value)) :
    pair_name piece = name := by
  obtain ⟨p, hp, heq⟩ := Option.map_eq_some_iff.mp h
  rw [pair_name, hp]
  exact (Prod.mk.inj heq).1

/-- A piece is stripped by the name it carries. -/
theorem pair_name_trim_eq_iff : pair_name (trim piece) = name ↔ Carries piece name := by
  unfold Carries
  rw [← cookie_pair_trim]
  cases hsplit : split_once '=' (trim piece) with
  | some p =>
    have hmem : '=' ∈ piece := by
      by_contra hmem
      rw [split_once_eq_none fun h => hmem (mem_of_mem_trim h)] at hsplit
      cases hsplit
    simp [pair_name, cookie_pair, hsplit, hmem]
  | none =>
    have hmem : '=' ∉ piece := by
      intro hmem
      obtain ⟨a, b, rfl, ha⟩ := List.eq_append_cons_of_mem hmem
      rw [trim_append_kept (by decide), split_once_append fun h =>
        ha ((List.dropWhile_sublist _).subset h)] at hsplit
      cases hsplit
    simp [pair_name, cookie_pair, hsplit, hmem]

end Pieces

/-! ## All of them -/

section Fields

variable {headers names : List Str}

theorem any_eq_decide (names : List Str) (name : Str) :
    names.any (· == name) = decide (name ∈ names) := by
  rw [Bool.eq_iff_iff, List.any_eq_true, decide_eq_true_eq]
  simp

/-- The pieces are read one by one, trimmed or not. -/
theorem cookie_pairs_eq (headers : List Str) :
    cookie_pairs headers = (pieces headers).filterMap cookie_pair := by
  rw [pieces, List.filterMap_filter, List.filterMap_map]
  refine List.filterMap_congr fun piece _ => ?_
  have hpair : cookie_pair piece
      = if (!(trim piece).isEmpty) = true then cookie_pair (trim piece) else none := by
    rw [cookie_pair_trim]
    split
    · rfl
    · rename_i hempty
      rw [Bool.not_eq_true, Bool.not_eq_false', List.isEmpty_iff] at hempty
      rw [← cookie_pair_trim, hempty]
      rfl
  exact hpair

/-- The pieces of what is left are those that were kept, where something is left. -/
theorem pieces_strip_cookies_toList :
    pieces (strip_cookies headers names).toList = others headers names := by
  cases h : strip_cookies headers names with
  | none => exact (strip_cookies_eq_none.mp h).symm
  | some rest => exact pieces_strip_cookies h

/-- **What is stripped is not read any more, and the rest as before.** -/
theorem cookie_pairs_strip_cookies :
    cookie_pairs (strip_cookies headers names).toList
      = (cookie_pairs headers).filter fun pair => pair.1 ∉ names := by
  rw [cookie_pairs_eq, cookie_pairs_eq, pieces_strip_cookies_toList, others,
    List.filterMap_filter, List.filter_filterMap]
  refine List.filterMap_congr fun piece _ => ?_
  cases hpair : cookie_pair piece with
  | none => simp
  | some pair =>
    rw [any_eq_decide, pair_name_of_cookie_pair hpair]
    -- A pair is stripped by the name it is read with, so it is kept or gone in both lists.
    by_cases hmem : pair.1 ∈ names
    · simp [hmem, Option.filter]
    · simp [hmem, Option.filter]

/-- Nothing is left of pieces that are blank or carry a name of the list. -/
theorem strip_cookies_eq_none_iff :
    strip_cookies headers names = none
      ↔ ∀ piece ∈ headers.flatMap (split ';'),
        (∀ c ∈ piece, is_whitespace c = true) ∨ ∃ name ∈ names, Carries piece name := by
  rw [strip_cookies_eq_none, others, pieces, List.filter_filter, List.filter_eq_nil_iff,
    List.forall_mem_map]
  refine forall₂_congr fun piece _ => ?_
  have hcarries : (∃ name ∈ names, Carries piece name) ↔ pair_name (trim piece) ∈ names := by
    constructor
    · rintro ⟨name, hname, hcarries⟩
      exact (pair_name_trim_eq_iff.mpr hcarries) ▸ hname
    · exact fun hmem => ⟨_, hmem, pair_name_trim_eq_iff.mp rfl⟩
  rw [hcarries, ← trim_eq_nil_iff, any_eq_decide]
  simp only [Bool.and_eq_true, Bool.not_eq_true', decide_eq_false_iff_not,
    List.isEmpty_eq_false_iff]
  tauto

/-- Nothing is stripped twice. -/
theorem strip_cookies_strip_cookies :
    strip_cookies (strip_cookies headers names).toList names = strip_cookies headers names := by
  have hothers : others (strip_cookies headers names).toList names = others headers names := by
    rw [others, pieces_strip_cookies_toList, others, List.filter_filter]
    simp
  rw [strip_cookies, hothers, strip_cookies]

end Fields

/-- **Cookies are stripped exactly.** No token is found in what is left, the values of every other
name are read from it as before, there is none left if nothing else was there, and stripping it
again changes nothing. -/
theorem cookies_stripped (headers names : List Str) :
    (∀ wanted : List Str, (∀ name ∈ wanted, name ∈ names) →
        cookie_token (strip_cookies headers names).toList wanted = none)
      ∧ (∀ name ∉ names, values_of name (cookie_pairs (strip_cookies headers names).toList)
        = values_of name (cookie_pairs headers))
      ∧ (strip_cookies headers names = none ↔ ∀ piece ∈ headers.flatMap (split ';'),
        (∀ c ∈ piece, is_whitespace c = true) ∨ ∃ name ∈ names, Carries piece name)
      ∧ strip_cookies (strip_cookies headers names).toList names = strip_cookies headers names := by
  refine ⟨?_, ?_, strip_cookies_eq_none_iff, strip_cookies_strip_cookies⟩
  · intro wanted hwanted
    rw [cookie_token, List.findSome?_eq_none_iff]
    intro name hname
    -- Not even an empty value is left of a stripped name.
    have hfind : (cookie_pairs (strip_cookies headers names).toList).find?
        (fun pair => pair.1 == name) = none := by
      rw [List.find?_eq_none, cookie_pairs_strip_cookies]
      intro pair hpair heq
      have hkept := (List.mem_filter.mp hpair).2
      rw [decide_eq_true_eq, beq_iff_eq.mp heq] at hkept
      exact hkept (hwanted name hname)
    rw [hfind]
    rfl
  · intro name hname
    rw [cookie_pairs_strip_cookies, values_of, List.filterMap_filter]
    refine List.filterMap_congr fun pair _ => ?_
    by_cases hpair : pair.1 = name
    · rw [hpair, if_pos (decide_eq_true hname)]
    · simp [hpair]

end Lagos.Auth
