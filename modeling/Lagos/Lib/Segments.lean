/-
Lists cut into segments at a separator.

`List.splitOn` and `List.intercalate` are core's; what is added is what a comparison of
paths needs of them. Being a prefix on a segment boundary is being a prefix of the list
of segments (`splitOn_prefix_iff`), and a list whose segments all avoid the separator is
cut back into exactly those (`segments_join`).

`segments` is `splitOn` with the convention that the empty list has no segment rather
than one empty one.
-/
import Mathlib.Data.List.Infix

set_option autoImplicit false

namespace Segments

variable {α : Type*} {sep : α}

/-! ## Cutting and joining -/

theorem intercalate_cons_of_ne_nil {x : List α} {l : List (List α)} (hl : l ≠ []) :
    [sep].intercalate (x :: l) = x ++ sep :: [sep].intercalate l := by
  obtain ⟨y, l, rfl⟩ := List.exists_cons_of_ne_nil hl
  simp [List.intercalate]

theorem intercalate_append {l m : List (List α)} (hl : l ≠ []) (hm : m ≠ []) :
    [sep].intercalate (l ++ m) = [sep].intercalate l ++ sep :: [sep].intercalate m := by
  induction l with
  | nil => exact absurd rfl hl
  | cons x l ih =>
    rcases eq_or_ne l [] with rfl | hl'
    · rw [List.singleton_append, intercalate_cons_of_ne_nil hm]
      simp [List.intercalate]
    · rw [List.cons_append, intercalate_cons_of_ne_nil (by simp [hl']), ih hl',
        intercalate_cons_of_ne_nil hl', List.append_assoc, List.cons_append]

/-- Every element of a joined list is a separator or comes from a segment. -/
theorem mem_intercalate {l : List (List α)} {x : α} (h : x ∈ [sep].intercalate l) :
    x = sep ∨ ∃ s ∈ l, x ∈ s := by
  induction l with
  | nil => simp [List.intercalate] at h
  | cons s l ih =>
    rcases eq_or_ne l [] with rfl | hl
    · exact .inr ⟨s, List.mem_cons_self, by simpa [List.intercalate] using h⟩
    · rw [intercalate_cons_of_ne_nil hl, List.mem_append, List.mem_cons] at h
      rcases h with h | rfl | h
      · exact .inr ⟨s, List.mem_cons_self, h⟩
      · exact .inl rfl
      · exact (ih h).imp_right fun ⟨t, ht, hx⟩ => ⟨t, List.mem_cons_of_mem s ht, hx⟩

/-- And everything in a segment is in the joined list. -/
theorem mem_intercalate_of_mem {l : List (List α)} {s : List α} (hs : s ∈ l) {x : α}
    (hx : x ∈ s) : x ∈ [sep].intercalate l := by
  induction l with
  | nil => exact absurd hs List.not_mem_nil
  | cons t l ih =>
    rcases eq_or_ne l [] with rfl | hl
    · rw [List.mem_singleton] at hs
      simpa [List.intercalate, ← hs] using hx
    · rw [intercalate_cons_of_ne_nil hl, List.mem_append, List.mem_cons]
      rcases List.mem_cons.mp hs with rfl | hs
      · exact .inl hx
      · exact .inr (.inr (ih hs))

variable [DecidableEq α]

theorem mem_of_mem_splitOn {l s : List α} (hs : s ∈ l.splitOn sep) {x : α} (hx : x ∈ s) :
    x ∈ l := by
  have h : x ∈ [sep].intercalate (l.splitOn sep) := mem_intercalate_of_mem hs hx
  rwa [List.intercalate_splitOn] at h

/-- No segment has a separator in it. -/
theorem not_mem_of_mem_splitOn {l s : List α} (h : s ∈ l.splitOn sep) : sep ∉ s := by
  induction l generalizing s with
  | nil =>
    rw [List.splitOn_nil, List.mem_singleton] at h
    rw [h]
    exact List.not_mem_nil
  | cons x l ih =>
    rw [List.splitOn_cons_eq_if_modifyHead] at h
    split at h
    · rcases List.mem_cons.mp h with rfl | h
      · exact List.not_mem_nil
      · exact ih h
    · rename_i hx
      obtain ⟨t, ts, ht⟩ := List.exists_cons_of_ne_nil (List.splitOn_ne_nil sep l)
      rw [ht, List.modifyHead_cons] at h
      have hmem : ∀ u ∈ t :: ts, sep ∉ u := fun u hu => ih (ht ▸ hu)
      rcases List.mem_cons.mp h with rfl | h
      · rw [List.mem_cons, not_or]
        exact ⟨fun heq => hx (by rw [heq, beq_self_eq_true]), hmem t List.mem_cons_self⟩
      · exact hmem s (List.mem_cons_of_mem t h)

theorem splitOn_injective {a b : List α} (h : a.splitOn sep = b.splitOn sep) : a = b := by
  have hjoin := congrArg [sep].intercalate h
  rwa [List.intercalate_splitOn, List.intercalate_splitOn] at hjoin

/-- Cutting commutes with a change of the elements that leaves the separator alone. -/
theorem splitOn_map {f : α → α} (hf : ∀ x, f x = sep ↔ x = sep) (l : List α) :
    (l.map f).splitOn sep = (l.splitOn sep).map (List.map f) := by
  induction l with
  | nil => rfl
  | cons x l ih =>
    rw [List.map_cons, List.splitOn_cons_eq_if_modifyHead, List.splitOn_cons_eq_if_modifyHead, ih]
    -- A separator starts a new segment before and after the change alike.
    by_cases hx : x = sep
    · rw [if_pos (by simpa using (hf x).mpr hx), if_pos (by simpa using hx)]
      rfl
    · rw [if_neg (by simpa [hf] using hx), if_neg (by simpa using hx)]
      obtain ⟨t, ts, ht⟩ := List.exists_cons_of_ne_nil (List.splitOn_ne_nil sep l)
      rw [ht]
      rfl

/-- There is one separator less than there are segments. -/
theorem count_add_one (l : List α) : l.count sep + 1 = (l.splitOn sep).length := by
  induction l with
  | nil => simp
  | cons x l ih =>
    rw [List.splitOn_cons_eq_if_modifyHead, List.count_cons]
    split
    · rw [List.length_cons, ← ih]
    · rw [List.length_modifyHead, ← ih]

/-- A list ends with a separator exactly if its last segment, of several, is empty. -/
theorem ends_with_iff (l : List α) :
    [sep] <:+ l ↔ sep ∈ l ∧ (l.splitOn sep).getLast? = some [] := by
  constructor
  · rintro ⟨front, rfl⟩
    refine ⟨List.mem_append_right _ List.mem_cons_self, ?_⟩
    rw [List.splitOn_append_cons_self]
    simp
  · rintro ⟨hmem, hlast⟩
    obtain ⟨front, rest, hl, hrest⟩ := List.eq_append_cons_of_mem (List.mem_reverse.mpr hmem)
    have hsplit : l = rest.reverse ++ sep :: front.reverse := by
      rw [← List.reverse_reverse l, hl]
      simp
    have hfront : sep ∉ front.reverse := fun h => hrest (List.mem_reverse.mp h)
    rw [hsplit, List.splitOn_append_cons_self, List.splitOn_eq_singleton hfront,
      List.getLast?_concat, Option.some.injEq] at hlast
    exact ⟨rest.reverse, by rw [hsplit, hlast]⟩

/-! ## Prefixes on a boundary -/

/-- `a` is `b`, or what `b` begins with up to a separator. -/
def Under (sep : α) (a b : List α) : Prop := b = a ∨ ∃ r, b = a ++ sep :: r

omit [DecidableEq α] in
theorem under_cons {x y : α} {a b : List α} :
    Under sep (x :: a) (y :: b) ↔ x = y ∧ Under sep a b := by
  simp only [Under, List.cons_append, List.cons.injEq, exists_and_left, ← and_or_left]
  exact and_congr_left fun _ => eq_comm

omit [DecidableEq α] in
theorem Under.isPrefix {a b : List α} (h : Under sep a b) : a <+: b := by
  rcases h with rfl | ⟨r, rfl⟩
  · exact List.prefix_rfl
  · exact List.prefix_append _ _

omit [DecidableEq α] in
/-- Where a list is cut at a separator in two ways, both are the same cut or one comes first. -/
theorem append_sep_cases {a b x y : List α} (h : a ++ sep :: x = b ++ sep :: y) :
    (a = b ∧ x = y) ∨ (∃ w, b = a ++ sep :: w ∧ x = w ++ sep :: y)
      ∨ ∃ w, a = b ++ sep :: w ∧ y = w ++ sep :: x := by
  rcases List.append_eq_append_iff.mp h with ⟨t, rfl, ht⟩ | ⟨t, rfl, ht⟩
  · cases t with
    | nil => exact .inl ⟨(List.append_nil a).symm, (List.cons.inj ht).2⟩
    | cons c w =>
      obtain ⟨rfl, hx⟩ := List.cons.inj ht
      exact .inr (.inl ⟨w, rfl, hx⟩)
  · cases t with
    | nil => exact .inl ⟨List.append_nil b, (List.cons.inj ht).2.symm⟩
    | cons c w =>
      obtain ⟨rfl, hy⟩ := List.cons.inj ht
      exact .inr (.inr ⟨w, rfl, hy⟩)

/-- **Prefixes.** One list of segments begins another exactly when the joined list begins
the other one on a segment boundary. -/
theorem splitOn_prefix_iff {a b : List α} :
    a.splitOn sep <+: b.splitOn sep ↔ Under sep a b := by
  constructor
  · rintro ⟨t, ht⟩
    -- Joining both sides again: what is left over begins with a separator, or is nothing.
    rcases eq_or_ne t [] with rfl | hne
    · rw [List.append_nil] at ht
      exact .inl (splitOn_injective ht).symm
    · have hjoin := congrArg [sep].intercalate ht
      rw [intercalate_append (List.splitOn_ne_nil sep a) hne, List.intercalate_splitOn,
        List.intercalate_splitOn] at hjoin
      exact .inr ⟨[sep].intercalate t, hjoin.symm⟩
  · rintro (rfl | ⟨r, rfl⟩)
    · exact List.prefix_rfl
    · rw [List.splitOn_append_cons_self]
      exact List.prefix_append _ _

/-! ## Segments -/

/-- The segments of a path; the empty path has none. -/
def segments (sep : α) (l : List α) : List (List α) := if l = [] then [] else l.splitOn sep

@[simp] theorem segments_nil : segments sep [] = [] := if_pos rfl

theorem segments_of_ne_nil {l : List α} (h : l ≠ []) : segments sep l = l.splitOn sep := if_neg h

theorem segments_eq_nil {l : List α} : segments sep l = [] ↔ l = [] := by
  constructor
  · intro h
    by_contra hne
    rw [segments_of_ne_nil hne] at h
    exact List.splitOn_ne_nil sep l h
  · rintro rfl
    exact segments_nil

theorem not_mem_of_mem_segments {l s : List α} (h : s ∈ segments sep l) : sep ∉ s := by
  rw [segments] at h
  split at h
  · exact absurd h List.not_mem_nil
  · exact not_mem_of_mem_splitOn h

theorem segments_map {f : α → α} (hf : ∀ x, f x = sep ↔ x = sep) (l : List α) :
    segments sep (l.map f) = (segments sep l).map (List.map f) := by
  rcases eq_or_ne l [] with rfl | h
  · rfl
  · rw [segments_of_ne_nil h, segments_of_ne_nil (by simpa using h), splitOn_map hf]

theorem join_segments (l : List α) : [sep].intercalate (segments sep l) = l := by
  rcases eq_or_ne l [] with rfl | h
  · rfl
  · rw [segments_of_ne_nil h, List.intercalate_splitOn]

/-- Segments that are neither empty nor contain a separator are the segments of their
join. -/
theorem segments_join {l : List (List α)} (hsep : ∀ s ∈ l, sep ∉ s) (hne : ∀ s ∈ l, s ≠ []) :
    segments sep ([sep].intercalate l) = l := by
  cases l with
  | nil => rfl
  | cons s l =>
    rw [segments_of_ne_nil, List.splitOn_intercalate sep hsep (List.cons_ne_nil s l)]
    intro h
    have hs := hne s List.mem_cons_self
    rcases eq_or_ne l [] with rfl | hl
    · exact hs (by simpa [List.intercalate] using h)
    · rw [intercalate_cons_of_ne_nil hl, List.append_eq_nil_iff] at h
      exact hs h.1

/-- A boundary prefix that is not empty, in terms of segments. -/
theorem segments_prefix_iff {a b : List α} (ha : a ≠ []) :
    segments sep a <+: segments sep b ↔ Under sep a b := by
  rcases eq_or_ne b [] with rfl | hb
  · rw [segments_nil, List.prefix_nil, segments_eq_nil]
    apply iff_of_false ha
    rintro (h | ⟨r, h⟩)
    · exact ha h.symm
    · simp at h
  · rw [segments_of_ne_nil ha, segments_of_ne_nil hb, splitOn_prefix_iff]

end Segments
