/-
The pairs of a `Cookie` field, and the field without some of them (`auth/mod.rs`).

`strip_cookies` cuts the fields at the semicolons, trims the pieces, leaves out the empty ones
and those of the names to hide, and joins the rest again. Cutting the result at the
semicolons gives back exactly the pieces that were kept (`pieces_join`), which is why none of
the hidden ones is in it and all others are, in order.
-/
import Lagos.Headers
import Lagos.Lib.Segments

set_option autoImplicit false

open RustStd

namespace Lagos.Auth

open Lagos.Headers

/-! ## The functions -/

/-- `cookie_pairs`. -/
def cookie_pairs (headers : List Str) : List (Str × Str) :=
  (headers.flatMap (split ';')).filterMap fun pair =>
    (split_once '=' pair).map fun p => (trim p.1, trim p.2)

/-- The name of a pair, in `strip_cookies`: all of it where there is no `=`. -/
def pair_name (pair : Str) : Str :=
  match split_once '=' pair with
  | some (name, _) => trim name
  | none => pair

/-- The pieces of the fields that are not empty, in `strip_cookies`. -/
def pieces (headers : List Str) : List Str :=
  ((headers.flatMap (split ';')).map trim).filter fun pair => !pair.isEmpty

/-- Those of them that are kept. -/
def others (headers : List Str) (names : List Str) : List Str :=
  (pieces headers).filter fun pair => !names.any (· == pair_name pair)

/-- `strip_cookies`. -/
def strip_cookies (headers : List Str) (names : List Str) : Option Str :=
  if (others headers names).isEmpty then none
  else some ("; ".toList.intercalate (others headers names))

/-- A value that holds a pair of one of these names, its bytes read as characters. -/
def holds_pair (names : List Str) (v : HeaderValue) : Prop :=
  ∃ pair ∈ pieces [chars v.bytes], pair_name pair ∈ names

/-! ## What is cut and joined again -/

/-- A piece that `pieces` gives: not empty, trimmed, and without a semicolon. -/
structure Piece (s : Str) : Prop where
  ne_nil : s ≠ []
  trimmed : trim s = s
  whole : ';' ∉ s

theorem piece_of_mem {headers : List Str} {s : Str} (h : s ∈ pieces headers) : Piece s := by
  obtain ⟨hs, hne⟩ := List.mem_filter.mp h
  obtain ⟨raw, hraw, rfl⟩ := List.mem_map.mp hs
  obtain ⟨field, -, hfield⟩ := List.mem_flatMap.mp hraw
  exact ⟨by simpa using hne, trim_trim raw,
    fun hc => Segments.not_mem_of_mem_splitOn hfield (mem_of_mem_trim hc)⟩

theorem intercalate_eq_join (s : Str) (l : List Str) :
    "; ".toList.intercalate (s :: l) = join ';' (s :: l.map (' ' :: ·)) := by
  induction l generalizing s with
  | nil => rfl
  | cons t l ih =>
    rw [List.map_cons, join, List.intercalate_cons_cons, List.intercalate_cons_cons, ih t, join]
    cases l <;> simp [List.intercalate_cons_cons, List.intercalate_singleton]

/-- Pieces joined by a semicolon and a blank are found again. -/
theorem pieces_join {l : List Str} (hl : ∀ s ∈ l, Piece s) :
    pieces ["; ".toList.intercalate l] = l := by
  cases l with
  | nil => rfl
  | cons s l =>
    have hcut : split ';' (join ';' (s :: l.map (' ' :: ·))) = s :: l.map (' ' :: ·) := by
      refine split_join ?_ (List.cons_ne_nil _ _)
      intro t ht
      obtain rfl | ht := List.mem_cons.mp ht
      · exact (hl t List.mem_cons_self).whole
      · obtain ⟨u, hu, rfl⟩ := List.mem_map.mp ht
        rw [List.mem_cons, not_or]
        exact ⟨by decide, (hl u (List.mem_cons_of_mem _ hu)).whole⟩
    have htrim : (s :: l.map (' ' :: ·)).map trim = s :: l := by
      rw [List.map_cons, (hl s List.mem_cons_self).trimmed, List.map_map]
      congr 1
      refine (List.map_congr_left fun u hu => ?_).trans (List.map_id l)
      rw [Function.comp_apply, trim_blank, (hl u (List.mem_cons_of_mem _ hu)).trimmed]
      rfl
    rw [pieces, List.flatMap_singleton, intercalate_eq_join, hcut, htrim, List.filter_eq_self]
    intro t ht
    simpa using (hl t ht).ne_nil

/-- What `strip_cookies` gives holds the pieces it kept and nothing else. -/
theorem pieces_strip_cookies {headers names : List Str} {rest : Str}
    (h : strip_cookies headers names = some rest) : pieces [rest] = others headers names := by
  unfold strip_cookies at h
  split at h
  · cases h
  · cases h
    exact pieces_join fun s hs => piece_of_mem (List.mem_filter.mp hs).1

theorem strip_cookies_eq_none {headers names : List Str} :
    strip_cookies headers names = none ↔ others headers names = [] := by
  unfold strip_cookies
  split <;> simp_all

/-- It holds none of the names. -/
theorem not_mem_names_of_mem_others {headers names : List Str} {pair : Str}
    (h : pair ∈ others headers names) : pair_name pair ∉ names := by
  intro hmem
  have hany := (List.mem_filter.mp h).2
  rw [Bool.not_eq_true', List.any_eq_false] at hany
  exact hany _ hmem (beq_self_eq_true _)

theorem mem_intercalate {c : Char} {sep : Str} {l : List Str} (h : c ∈ sep.intercalate l) :
    c ∈ sep ∨ ∃ s ∈ l, c ∈ s := by
  induction l with
  | nil => cases h
  | cons s l ih =>
    cases l with
    | nil =>
      rw [List.intercalate_singleton] at h
      exact .inr ⟨s, List.mem_cons_self, h⟩
    | cons t l =>
      rw [List.intercalate_cons_cons, List.mem_append, List.mem_append] at h
      obtain (h | h) | h := h
      · exact .inr ⟨s, List.mem_cons_self, h⟩
      · exact .inl h
      · exact (ih h).imp_right fun ⟨u, hu, hc⟩ => ⟨u, List.mem_cons_of_mem _ hu, hc⟩

/-- What is cut out of readable fields is readable. -/
theorem visible_strip_cookies {headers names : List Str} {rest : Str}
    (hall : ∀ s ∈ headers, s.all visible = true)
    (h : strip_cookies headers names = some rest) : rest.all visible = true := by
  unfold strip_cookies at h
  split at h
  · cases h
  · cases h
    rw [List.all_eq_true]
    intro c hc
    obtain hc | ⟨s, hs, hc⟩ := mem_intercalate hc
    · obtain rfl | rfl : c = ';' ∨ c = ' ' := by simpa using hc
      · decide
      · decide
    · obtain ⟨raw, hraw, rfl⟩ := List.mem_map.mp (List.mem_filter.mp (List.mem_filter.mp hs).1).1
      obtain ⟨field, hfield, hcut⟩ := List.mem_flatMap.mp hraw
      exact List.all_eq_true.mp (hall field hfield) c
        (Segments.mem_of_mem_splitOn hcut (mem_of_mem_trim hc))

end Lagos.Auth
