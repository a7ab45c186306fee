/-
That inspecting a document and expanding it agree (`config/interpolate.rs`).

What the masked text keeps of a document is its outline, in which every reference is a hole with
a marker in it; the expanded text is the same outline with the values in its holes. The document
is walked in both modes at once to see that (`simulates_expanding`).

That the markers are found again is `Lib/Markers.lean` at the word that `inspect` makes them of:
the document does not have it, so its outline has not (`not_infix_outline`), and the word does
not overlap itself.
-/
import Lagos.Inspection
import Lagos.Lib.Markers

set_option autoImplicit false

open RustStd

namespace Lagos.Interpolate

/-! ## What is kept of a document -/

open Markers

theorem map_eq_ok {α β : Type} {x : Except InterpolateError α} {f : α → β} {b : β} :
    x.map f = .ok b ↔ ∃ a, x = .ok a ∧ f a = b := by
  cases x with
  | ok a => simp [Except.map]
  | error _ => simp [Except.map]

/-- The mode that keeps the text and forgets the references: each is a hole. -/
def outlining : Mode (List (Option Char)) where
  push text o := o ++ text.map some
  refer line _ body o := (checked_reference line body).map fun _ => o ++ [none]

/-- The outline of a document. It is asked for no variable, and has nothing of what stands
between the braces. -/
def outline (text : Str) : Except InterpolateError (List (Option Char)) := walk outlining text []

/-- An outline of a text, in which a piece like a reference may have been left open, and one of
two dollar signs left out. -/
inductive Outlines : Str → List (Option Char) → Prop
  | nil : Outlines [] []
  | char (c : Char) {text : Str} {o : List (Option Char)} (h : Outlines text o) :
      Outlines (c :: text) (some c :: o)
  | escape {text : Str} {o : List (Option Char)} (h : Outlines text o) :
      Outlines ('$' :: '$' :: text) (some '$' :: o)
  | hole (body : Str) {text : Str} {o : List (Option Char)} (h : Outlines text o) :
      Outlines ('$' :: '{' :: (body ++ '}' :: text)) (none :: o)

namespace Outlines

theorem literal (text : Str) : Outlines text (text.map some) := by
  induction text with
  | nil => exact .nil
  | cons c text ih => exact .char c ih

theorem append {s t : Str} {o o' : List (Option Char)} (h : Outlines s o) (h' : Outlines t o') :
    Outlines (s ++ t) (o ++ o') := by
  induction h with
  | nil => exact h'
  | char c _ ih => exact .char c ih
  | escape _ ih => exact .escape ih
  | hole body _ ih =>
    simpa using Outlines.hole body ih

/-- A word without a dollar sign at the beginning of the outline is at that of the text. -/
theorem prefix_of {w text : Str} {o : List (Option Char)} (h : Outlines text o) (hw : '$' ∉ w)
    (hpre : w.map some <+: o) : w <+: text := by
  induction h generalizing w with
  | nil =>
    rw [List.map_eq_nil_iff.mp (List.prefix_nil.mp hpre)]
  | char c _ ih =>
    cases w with
    | nil => exact List.nil_prefix
    | cons d w =>
      rw [List.map_cons, List.cons_prefix_cons] at hpre
      obtain ⟨hcd, hpre⟩ := hpre
      rw [Option.some.inj hcd, List.cons_prefix_cons]
      exact ⟨rfl, ih (fun hmem => hw (List.mem_cons_of_mem d hmem)) hpre⟩
  | escape _ _ =>
    cases w with
    | nil => exact List.nil_prefix
    | cons d w =>
      rw [List.map_cons, List.cons_prefix_cons] at hpre
      rw [Option.some.inj hpre.1] at hw
      exact absurd List.mem_cons_self hw
  | hole body _ _ =>
    cases w with
    | nil => exact List.nil_prefix
    | cons d w =>
      rw [List.map_cons, List.cons_prefix_cons] at hpre
      cases hpre.1

/-- **The outline has no such word that the text does not have.** -/
theorem infix_of {w text : Str} {o : List (Option Char)} (h : Outlines text o) (hw : '$' ∉ w)
    (hne : w ≠ []) (hin : w.map some <:+: o) : w <:+: text := by
  induction h with
  | nil => exact absurd (List.map_eq_nil_iff.mp (List.infix_nil.mp hin)) hne
  | @char c text o h ih =>
    obtain hpre | hin := List.infix_cons_iff.mp hin
    · exact ((h.char c).prefix_of hw hpre).isInfix
    · exact (ih hin).trans (List.suffix_cons c text).isInfix
  | @escape text o h ih =>
    obtain hpre | hin := List.infix_cons_iff.mp hin
    · exact (h.escape.prefix_of hw hpre).isInfix
    · exact (ih hin).trans (List.suffix_append ['$', '$'] text).isInfix
  | @hole body text o h ih =>
    obtain hpre | hin := List.infix_cons_iff.mp hin
    · exact ((h.hole body).prefix_of hw hpre).isInfix
    · refine (ih hin).trans (List.IsSuffix.isInfix ⟨'$' :: '{' :: (body ++ ['}']), ?_⟩)
      simp

end Outlines

/-- What a scan has read before it got where it is. -/
def Scan.pre : Scan → Str
  | .text => []
  | .dollar => ['$']
  | .body read => '$' :: '{' :: read

theorem outlining_into {line offset : ℕ} {scan : Scan} {fragment : Str}
    {o o' : List (Option Char)}
    (h : walk_into outlining line offset scan fragment o = .ok o') :
    ∃ added, o' = o ++ added ∧ Outlines (scan.pre ++ fragment) added := by
  induction fragment generalizing offset scan o with
  | nil =>
    cases scan with
    | text =>
      cases h
      exact ⟨[], (List.append_nil _).symm, .nil⟩
    | dollar =>
      cases h
      exact ⟨[some '$'], rfl, .literal ['$']⟩
    | body read => cases h
  | cons c fragment ih =>
    cases scan with
    | text =>
      rw [walk_into] at h
      split at h
      · rename_i hc
        obtain ⟨added, hadded, hout⟩ := ih h
        exact ⟨added, hadded, hc ▸ hout⟩
      · obtain ⟨added, hadded, hout⟩ := ih h
        refine ⟨some c :: added, ?_, .char c hout⟩
        rw [hadded]
        simp [outlining]
    | dollar =>
      rw [walk_into] at h
      split at h
      · rename_i hc
        obtain ⟨added, hadded, hout⟩ := ih h
        rw [hc]
        refine ⟨some '$' :: added, ?_, .escape hout⟩
        rw [hadded]
        simp [outlining]
      · split at h
        · rename_i hc
          obtain ⟨added, hadded, hout⟩ := ih h
          exact ⟨added, hadded, hc ▸ hout⟩
        · obtain ⟨added, hadded, hout⟩ := ih h
          refine ⟨some '$' :: some c :: added, ?_, .char '$' (.char c hout)⟩
          rw [hadded]
          simp [outlining]
    | body read =>
      rw [walk_into] at h
      split at h
      · rename_i hc
        split at h
        · rename_i o₁ hrefer
          obtain ⟨added, hadded, hout⟩ := ih h
          simp only [outlining] at hrefer
          obtain ⟨-, -, rfl⟩ := map_eq_ok.mp hrefer
          refine ⟨none :: added, ?_, ?_⟩
          · rw [hadded, List.append_assoc]
            rfl
          · rw [hc]
            exact .hole read hout
        · cases h
      · obtain ⟨added, hadded, hout⟩ := ih h
        refine ⟨added, hadded, ?_⟩
        simpa [Scan.pre] using hout

theorem outlining_lines {lines : List Str} (hne : lines ≠ []) {line_no : ℕ} {block : Option ℕ}
    {o o' : List (Option Char)} (h : walk_lines outlining line_no block lines o = .ok o') :
    ∃ added, o' = o ++ added ∧ Outlines (join '\n' lines) added := by
  induction lines generalizing line_no block o with
  | nil => exact absurd rfl hne
  | cons raw lines ih =>
    rw [walk_lines] at h
    dsimp only at h
    split at h
    · cases h
    · rename_i o₁ hinto
      obtain ⟨code, rfl, hcode⟩ := outlining_into hinto
      have hline := hcode.append (.literal (code_and_comment (block_at block raw) raw).2)
      rw [Scan.pre, List.nil_append, code_and_comment_append] at hline
      cases lines with
      | nil =>
        cases h
        refine ⟨_, ?_, by simpa [join] using hline⟩
        simp [outlining]
      | cons next lines =>
        obtain ⟨added, rfl, hadded⟩ := ih (List.cons_ne_nil _ _) h
        refine ⟨code ++ (code_and_comment (block_at block raw) raw).2.map some
          ++ (['\n'].map some ++ added), ?_, ?_⟩
        · simp [outlining]
        · rw [join, Segments.intercalate_cons_of_ne_nil (List.cons_ne_nil _ _)]
          exact hline.append (.append (.literal ['\n']) hadded)

/-- The outline of a document is one of its text. -/
theorem outlines_outline {text : Str} {o : List (Option Char)} (h : outline text = .ok o) :
    Outlines text o := by
  obtain ⟨added, rfl, hadded⟩ := outlining_lines (split_ne_nil '\n' text) h
  rw [join_split] at hadded
  exact hadded

/-! ## Markers are found again -/

/-- The word of a document is as it begins, with some `x` after it. -/
theorem widen_eq (text : Str) (fuel : ℕ) (w : Str) :
    ∃ k, widen text fuel w = w ++ List.replicate k 'x' := by
  induction fuel generalizing w with
  | zero => exact ⟨0, (List.append_nil w).symm⟩
  | succ fuel ih =>
    rw [widen]
    split
    · obtain ⟨k, hk⟩ := ih (w ++ ['x'])
      refine ⟨k + 1, ?_⟩
      rw [hk, List.append_assoc, List.replicate_succ]
      rfl
    · exact ⟨0, (List.append_nil w).symm⟩

/-- The loop ends: a word that is longer than the document is not in it. -/
theorem widen_not_infix (text : Str) (fuel : ℕ) (w : Str) (h : text.length < w.length + fuel) :
    ¬ widen text fuel w <:+: text := by
  induction fuel generalizing w with
  | zero =>
    intro hin
    exact absurd hin.length_le (Nat.not_le_of_lt h)
  | succ fuel ih =>
    rw [widen]
    split
    · refine ih _ ?_
      rw [List.length_append, List.length_singleton]
      omega
    · rename_i hno
      exact fun hin => hno (split_once_at_isSome_iff.mpr hin)

theorem marker_prefix_not_infix (text : Str) : ¬ marker_prefix text <:+: text :=
  widen_not_infix text _ _ (by omega)

/-- **The word does not overlap itself**: it begins with `lag`, and this is nowhere else in it. -/
theorem marker_unbordered (text : Str) : Unbordered ( marker_prefix text) := by
  obtain ⟨k, hk⟩ := widen_eq text (text.length + 1) "lagos-vars-placeholder-".toList
  intro u v huv hu hv hpre
  rw [ marker_prefix, hk] at huv hpre
  have hpos := List.length_pos_iff.mpr hu
  have hdrop := congrArg (List.drop u.length) huv
  rw [List.drop_left] at hdrop
  by_cases hlen : u.length < 23
  · -- `v` begins within the fixed part, and so do its first characters.
    have hfixed : ∀ j < 23, 0 < j →
        ¬ ("lagos-vars-placeholder-".toList.drop j).take 3 <+: "lagos-vars-placeholder-".toList := by
      decide
    refine hfixed u.length hlen hpos ?_
    rw [List.drop_append_of_le_length (by simpa using Nat.le_of_lt hlen)] at hdrop
    have htake := (List.take_prefix 3 ("lagos-vars-placeholder-".toList.drop u.length)).trans
      (List.prefix_append _ (List.replicate k 'x'))
    rw [hdrop] at htake
    refine List.prefix_of_prefix_length_le (htake.trans hpre) (List.prefix_append _ _) ?_
    rw [List.length_take]
    exact Nat.le_trans (Nat.min_le_left _ _) (by decide)
  · -- `v` is of the `x` at the end.
    rw [List.drop_append, List.drop_eq_nil_of_le (by simpa using Nat.le_of_not_lt hlen),
      List.nil_append, List.drop_replicate] at hdrop
    obtain ⟨c, v, rfl⟩ := List.exists_cons_of_ne_nil hv
    have hx : c = 'x' := List.eq_of_mem_replicate (hdrop ▸ List.mem_cons_self)
    have hl : c = 'l' := (List.cons_prefix_cons.mp hpre).1
    rw [hx] at hl
    exact absurd hl (by decide)

theorem no_dollar_in_marker (text : Str) : '$' ∉ marker_prefix text := by
  obtain ⟨k, hk⟩ := widen_eq text (text.length + 1) "lagos-vars-placeholder-".toList
  rw [ marker_prefix, hk, List.mem_append, not_or]
  refine ⟨by decide, ?_⟩
  intro hmem
  exact absurd (List.eq_of_mem_replicate hmem) (by decide)

/-- The number of a marker is what stands before the next hyphen. -/
theorem signed_marker (text : Str) :
    Signed ( marker_prefix text) (marker ( marker_prefix text)) where
  ne_nil := by
    obtain ⟨k, hk⟩ := widen_eq text (text.length + 1) "lagos-vars-placeholder-".toList
    rw [ marker_prefix, hk]
    exact List.cons_ne_nil _ _
  unbordered := marker_unbordered text
  begins n := by
    rw [marker, List.append_assoc]
    exact List.prefix_append _ _
  eq_of_append m n a b h := by
    have hdigits : ∀ n, '-' ∉ Nat.toDigits 10 n := by
      intro n hn
      have := Nat.isDigit_of_mem_toDigits (by decide) (by decide) hn
      revert this
      decide
    have hmarker : ∀ n (a : Str), marker ( marker_prefix text) n ++ a
        = marker_prefix text ++ (Nat.toDigits 10 n ++ '-' :: ("end".toList ++ a)) := by
      intro n a
      simp [marker]
    rw [hmarker, hmarker, List.append_cancel_left_eq] at h
    have hcut := (split_once_append (hdigits m) _).symm.trans
      ((congrArg (split_once '-') h).trans (split_once_append (hdigits n) _))
    have hd : Nat.toDigits 10 m = Nat.toDigits 10 n := (Prod.mk.inj (Option.some.inj hcut)).1
    have := congrArg (fun d => Nat.ofDigitChars 10 d 0) hd
    simpa only [Nat.ofDigitChars_ten_toDigits] using this

/-- The outline of a document does not have the word. -/
theorem not_infix_outline {text : Str} {o : List (Option Char)} (h : outline text = .ok o) :
    ¬ ( marker_prefix text).map some <:+: o := fun hin =>
  marker_prefix_not_infix text ((outlines_outline h).infix_of (no_dollar_in_marker text)
    (signed_marker text).ne_nil hin)

/-- References with numbered markers, each with a value. -/
structure Valued (w : Str) (references : List VariableReference) (values : ℕ → Str) : Prop where
  marked : ∀ n reference, references[n]? = some reference → reference.marker = marker w n
  selected : ∀ n reference, references[n]? = some reference →
    reference.selected = some (values n)

section Resolve

variable {text : Str} {references : List VariableReference}

/-- The reference that is found is that of the first hole. -/
theorem next_reference_hole
    (hmarked : ∀ n reference, references[n]? = some reference →
      reference.marker = marker ( marker_prefix text) n)
    {l rest : Str} (hl : ¬ marker_prefix text <:+: l) {n : ℕ} {reference : VariableReference}
    (hn : references[n]? = some reference) :
    next_reference references (l ++ (marker ( marker_prefix text) n ++ rest))
      = some (l, reference, rest) := by
  have hsigned := signed_marker text
  unfold next_reference
  generalize hfounds : references.filterMap _ = founds
  -- Whatever is found is not before the hole, and there it is this one.
  have hfound : ∀ found ∈ founds,
      l.length ≤ found.1.length ∧ (found.1.length = l.length → found = (l, reference, rest)) := by
    intro found hmem
    rw [← hfounds] at hmem
    obtain ⟨other, hother, hmap⟩ := List.mem_filterMap.mp hmem
    obtain ⟨⟨before, after⟩, hsplit, rfl⟩ := Option.map_eq_some_iff.mp hmap
    obtain ⟨m, hm⟩ := List.getElem?_of_mem hother
    have heq := (eq_of_split_once_at hsplit).symm
    rw [hmarked m other hm] at heq
    refine ⟨hsigned.le_length hl heq, ?_⟩
    intro hlen
    obtain ⟨rfl, rfl, rfl⟩ := hsigned.eq_of_length heq hlen
    rw [hn] at hm
    cases hm
    rfl
  -- And something is found at the hole.
  have htext : l ++ (marker ( marker_prefix text) n ++ rest)
      = l ++ (reference.marker ++ rest) := by
    rw [hmarked n reference hn]
  obtain ⟨before, after, hsplit, hle⟩ := split_once_at_first l rest htext
  have hmem : (before, reference, after) ∈ founds := by
    rw [← hfounds]
    refine List.mem_filterMap.mpr ⟨reference, List.mem_of_getElem? hn, ?_⟩
    rw [hsplit]
    rfl
  cases hmin : List.argmin (fun found : Str × VariableReference × Str => found.1.length) founds with
  | none =>
    rw [List.argmin_eq_none] at hmin
    rw [hmin] at hmem
    cases hmem
  | some found =>
    obtain ⟨hge, heq⟩ := hfound found (List.argmin_mem hmin)
    have hlt := List.le_of_mem_argmin hmem hmin
    rw [heq (by simp only at hlt; omega)]

theorem next_reference_none
    (hmarked : ∀ n reference, references[n]? = some reference →
      reference.marker = marker ( marker_prefix text) n)
    {l : Str} (hl : ¬ marker_prefix text <:+: l) : next_reference references l = none := by
  rw [next_reference, List.argmin_eq_none, List.filterMap_eq_nil_iff]
  intro reference hmem
  obtain ⟨n, hn⟩ := List.getElem?_of_mem hmem
  rw [Option.map_eq_none_iff, ← Option.not_isSome_iff_eq_none, split_once_at_isSome_iff,
    hmarked n reference hn]
  exact (signed_marker text).absent hl n

/-- **The markers in an outline are found again**, in order, and each is given its value. -/
theorem resolve_loop_put {values : ℕ → Str}
    (h : Valued ( marker_prefix text) references values) (fuel : ℕ) {o : List (Option Char)} {n : ℕ}
    (ho : ¬ ( marker_prefix text).map some <:+: o) (hn : n + holes o = references.length)
    (hfuel : (put (marker ( marker_prefix text)) n o).length < fuel) (out : Str) :
    resolve_loop references fuel (put (marker ( marker_prefix text)) n o) out
      = some (out ++ put values n o) := by
  induction fuel generalizing o n out with
  | zero => exact absurd hfuel (Nat.not_lt_zero _)
  | succ fuel ih =>
    obtain ⟨l, rfl⟩ | ⟨l, o, rfl⟩ := cut o
    · have hl : ¬ marker_prefix text <:+: l := fun hin => ho (hin.map some)
      rw [put_map_some, put_map_some, resolve_loop, next_reference_none h.marked hl]
    · have hl : ¬ marker_prefix text <:+: l := fun hin =>
        ho ((hin.map some).trans (List.prefix_append _ _).isInfix)
      have hrest : ¬ ( marker_prefix text).map some <:+: o := fun hin =>
        ho (hin.trans (List.IsSuffix.isInfix ⟨l.map some ++ [none], by simp⟩))
      rw [holes_append, holes_map_some, holes_none] at hn
      rw [put_cut] at hfuel ⊢
      obtain ⟨reference, href⟩ : ∃ reference, references[n]? = some reference :=
        ⟨_, List.getElem?_eq_getElem (by omega)⟩
      rw [resolve_loop, next_reference_hole h.marked hl href]
      simp only [h.selected n reference href, Option.bind_some]
      have hpos : 0 < (marker ( marker_prefix text) n).length :=
        Nat.lt_of_lt_of_le (List.length_pos_iff.mpr (signed_marker text).ne_nil)
          ((signed_marker text).begins n).length_le
      rw [ih hrest (by omega)]
      · rw [put_cut]
        simp only [List.append_assoc]
      · rw [List.length_append, List.length_append] at hfuel
        omega

end Resolve

/-! ## The two modes together -/

/-- A reference that has a value to be given. -/
def VariableReference.given (reference : VariableReference) : Prop :=
  reference.state = .Set ∨ reference.state = .Defaulted

/-- The value of the `n`-th reference. -/
def value_of (references : List VariableReference) (n : ℕ) : Str :=
  (references[n]?.bind VariableReference.selected).getD []

/-- A reference is listed, and a hole left for it. -/
def traced (lookup : Str → Option Str) (w : Str) (line column : ℕ) (name : Str)
    (default : Option Str) (t : Inspecting × List (Option Char)) :
    Inspecting × List (Option Char) :=
  ({ t.1 with
      text := t.1.text ++ marker w t.1.occurrences.length
      referenced := note t.1.referenced name
      occurrences := t.1.occurrences
        ++ [occurrence lookup w line column name default t.1.occurrences.length] },
    t.2 ++ [none])

/-- The mode that inspects, with the outline. -/
def tracing (lookup : Str → Option Str) (w : Str) : Mode (Inspecting × List (Option Char)) where
  push text t := ((inspecting lookup w).push text t.1, outlining.push text t.2)
  refer line column body t :=
    (checked_reference line body).map fun (name, default) =>
      traced lookup w line column name default t

section Together

variable {lookup : Str → Option Str} {w : Str}

theorem simulates_inspecting (lookup : Str → Option Str) (w : Str) :
    Simulates (inspecting lookup w) (tracing lookup w) (fun e t => t.1 = e) (fun _ => False) where
  push text h := by
    rw [← h]
    rfl
  refer line column body h := by
    simp only [inspecting, tracing, inspect_reference, ← h]
    cases checked_reference line body with
    | ok _ => exact rfl
    | error _ => trivial
  bad_push _ h := h
  bad_refer _ _ _ h _ := h

theorem simulates_outlining (lookup : Str → Option Str) (w : Str) :
    Simulates outlining (tracing lookup w) (fun o t => t.2 = o) (fun _ => False) where
  push text h := by
    rw [← h]
    rfl
  refer line column body h := by
    simp only [outlining, tracing, ← h]
    cases checked_reference line body with
    | ok _ => exact rfl
    | error _ => trivial
  bad_push _ h := h
  bad_refer _ _ _ h _ := h

/-- The masked text so far is the outline with markers in its holes, one for each reference. -/
structure Traced (w : Str) (t : Inspecting × List (Option Char)) : Prop where
  text : t.1.text = put (marker w) 0 t.2
  holes : holes t.2 = t.1.occurrences.length
  marked : ∀ n reference, t.1.occurrences[n]? = some reference → reference.marker = marker w n
  referenced : t.1.referenced = (t.1.occurrences.map VariableReference.name).eraseDups

/-- A name is noted where it is first seen. -/
theorem note_eraseDups (names : List Str) (name : Str) :
    note names.eraseDups name = (names ++ [name]).eraseDups := by
  rw [List.eraseDups_append, note]
  by_cases h : name ∈ names
  · rw [if_pos (by simpa using h)]
    simp [List.removeAll, h]
  · rw [if_neg (by simpa using h)]
    simp [List.removeAll, h, List.eraseDups_cons]

theorem Traced.push {t : Inspecting × List (Option Char)} (h : Traced w t) (text : Str) :
    Traced w ((tracing lookup w).push text t) where
  text := by
    simp only [tracing, inspecting, outlining]
    rw [put_append, put_map_some, h.text]
  holes := by
    simp only [tracing, inspecting, outlining]
    rw [holes_append, holes_map_some]
    exact h.holes
  marked := h.marked
  referenced := h.referenced

theorem Traced.refer {t : Inspecting × List (Option Char)} (h : Traced w t) (line column : ℕ)
    (name : Str) (default : Option Str) :
    Traced w (traced lookup w line column name default t) where
  text := by
    simp only [traced]
    rw [put_append, h.text, Nat.zero_add, h.holes, put_none, put_nil, List.append_nil]
  holes := by
    simp only [traced]
    rw [holes_append, h.holes, List.length_append]
    rfl
  marked := by
    intro n reference hn
    simp only [traced] at hn
    by_cases hlt : n < t.1.occurrences.length
    · rw [List.getElem?_append_left hlt] at hn
      exact h.marked n reference hn
    · rw [List.getElem?_append_right (Nat.le_of_not_lt hlt), List.getElem?_singleton] at hn
      split at hn
      · rename_i hzero
        cases hn
        rw [show n = t.1.occurrences.length by omega]
        rfl
      · cases hn
  referenced := by
    simp only [traced, List.map_append, List.map_singleton]
    rw [h.referenced]
    exact note_eraseDups _ _

/-- The expanded text so far is the outline with the values in its holes. -/
structure Expanded (e : Expansion) (t : Inspecting × List (Option Char)) : Prop where
  text : e.text = put (value_of t.1.occurrences) 0 t.2
  referenced : e.referenced = t.1.referenced
  given : ∀ reference ∈ t.1.occurrences, reference.given ∧ reference.selected.isSome = true

/-- A reference is given its value. -/
theorem Expanded.refer {e : Expansion} {t : Inspecting × List (Option Char)} (ht : Traced w t)
    (h : Expanded e t) {line column : ℕ} {name value : Str} {default : Option Str}
    {defaulted : List Str}
    (hgiven : (occurrence lookup w line column name default t.1.occurrences.length).given)
    (hvalue : (occurrence lookup w line column name default t.1.occurrences.length).selected
      = some value) :
    Expanded
      { e with text := e.text ++ value, referenced := note e.referenced name, defaulted := defaulted }
      (traced lookup w line column name default t) where
  text := by
    simp only [traced]
    rw [put_append, put_none, put_nil, List.append_nil, Nat.zero_add, ht.holes, h.text]
    congr 1
    · -- The values before this one are as they were.
      refine put_congr ?_
      intro i _ hlt
      rw [Nat.zero_add, ht.holes] at hlt
      unfold value_of
      rw [List.getElem?_append_left hlt]
    · unfold value_of
      rw [List.getElem?_append_right (Nat.le_refl _), Nat.sub_self]
      simp only [List.getElem?_cons_zero, Option.bind_some, hvalue, Option.getD_some]
  referenced := by
    simp only [traced]
    rw [h.referenced]
  given := by
    intro reference hmem
    simp only [traced] at hmem
    obtain hmem | hmem := List.mem_append.mp hmem
    · exact h.given reference hmem
    · rw [List.mem_singleton.mp hmem, hvalue]
      exact ⟨hgiven, rfl⟩

theorem expand_reference_eq (line : ℕ) (body : Str) (e : Expansion) :
    expand_reference lookup none line body e =
      (checked_reference line body) >>= fun (name, default) =>
        (substituted lookup none line name default
          { e with referenced := note e.referenced name }) >>= fun (value, e) =>
          if is_structurally_safe value = false then .error (.ControlCharacter name line)
          else .ok { e with text := e.text ++ value } := by
  unfold expand_reference checked_reference
  dsimp only
  split
  · rfl
  · split
    · rfl
    · rfl

/-- What takes the place of a reference is what the other mode would select. -/
theorem substituted_eq (lookup : Str → Option Str) (line : ℕ) (name : Str) (default : Option Str)
    (e : Expansion) :
    (∃ value defaulted, (resolved lookup name).or default = some value ∧
        substituted lookup none line name default e
          = .ok (value, { e with defaulted := defaulted })) ∨
      ((resolved lookup name).or default = none ∧
        substituted lookup none line name default e = .error (.Unset name line)) := by
  unfold substituted
  cases resolved lookup name with
  | some v => exact .inl ⟨v, e.defaulted, rfl, rfl⟩
  | none =>
    cases default with
    | some d => exact .inl ⟨d, note e.defaulted name, rfl, rfl⟩
    | none => exact .inr ⟨rfl, rfl⟩

/-- A value that may be put in is selected, -/
theorem occurrence_safe (line column : ℕ) {name value : Str} {default : Option Str} (n : ℕ)
    (hvalue : (resolved lookup name).or default = some value)
    (hsafe : is_structurally_safe value = true) :
    (occurrence lookup w line column name default n).given ∧
      (occurrence lookup w line column name default n).selected = some value := by
  unfold occurrence VariableReference.given
  simp only [hvalue, Option.any_some, hsafe, Bool.not_true, Bool.false_eq_true, if_false, and_true]
  cases hresolved : resolved lookup name with
  | some v => exact .inl rfl
  | none =>
    rw [hresolved, Option.none_or] at hvalue
    rw [hvalue]
    exact .inr rfl

/-- and any other is none. -/
theorem occurrence_refused {line column : ℕ} {name : Str} {default : Option Str} (n : ℕ)
    (h : ∀ value, (resolved lookup name).or default = some value →
      is_structurally_safe value = false) :
    ¬ (occurrence lookup w line column name default n).given := by
  unfold occurrence VariableReference.given
  cases hvalue : (resolved lookup name).or default with
  | some value =>
    simp only [hvalue, Option.any_some, h value hvalue, Bool.not_false, if_true]
    decide
  | none =>
    obtain ⟨hresolved, hdefault⟩ := Option.or_eq_none_iff.mp hvalue
    simp only [hresolved, hdefault, Option.or_none, Option.any_none, Bool.false_eq_true, if_false]
    decide

/-- Some reference has no value to be given. -/
def Missing (t : Inspecting × List (Option Char)) : Prop :=
  ∃ reference ∈ t.1.occurrences, ¬ reference.given

/-- **The modes agree on a reference**: the one that expands it puts the value that the other
selects, and where it refuses the reference has none. -/
theorem agrees_refer {e : Expansion} {t : Inspecting × List (Option Char)} (ht : Traced w t)
    (h : Expanded e t) (line column : ℕ) (body : Str) :
    Agrees (fun e t => Traced w t ∧ Expanded e t) Missing
      ((expanding lookup none).refer line column body e)
      ((tracing lookup w).refer line column body t) := by
  simp only [expanding, tracing, expand_reference_eq]
  cases checked_reference line body with
  | error _ => trivial
  | ok checked =>
    obtain ⟨name, default⟩ := checked
    -- A reference that has no value is listed as such.
    have hmissing (hnot : ¬ (occurrence lookup w line column name default
        t.1.occurrences.length).given) : Missing (traced lookup w line column name default t) :=
      ⟨_, List.mem_append_right _ List.mem_cons_self, hnot⟩
    obtain ⟨value, defaulted, hvalue, hsub⟩ | ⟨hvalue, hsub⟩ := substituted_eq lookup
      line name default { e with referenced := note e.referenced name }
    · change Agrees _ _ (substituted lookup none line name default _ >>= _) (.ok _)
      rw [hsub]
      cases hsafe : is_structurally_safe value with
      | true =>
        obtain ⟨hgiven, hselected⟩ := occurrence_safe (w := w) line column
          t.1.occurrences.length hvalue hsafe
        simp only [bind, Except.bind, hsafe, Bool.true_eq_false, if_false]
        exact ⟨ht.refer line column name default, h.refer ht hgiven hselected⟩
      | false =>
        simp only [bind, Except.bind, hsafe, if_true]
        refine hmissing (occurrence_refused _ ?_)
        intro other hother
        rw [hvalue] at hother
        cases hother
        exact hsafe
    · change Agrees _ _ (substituted lookup none line name default _ >>= _) (.ok _)
      rw [hsub]
      refine hmissing (occurrence_refused _ ?_)
      intro other hother
      rw [hvalue] at hother
      cases hother

/-- **The modes agree**: where the one that expands goes on, it puts the value that the other
selects; where it stops and the other does not, there is none. -/
theorem simulates_expanding (lookup : Str → Option Str) (w : Str) :
    Simulates (expanding lookup none) (tracing lookup w)
      (fun e t => Traced w t ∧ Expanded e t) Missing where
  push := by
    rintro e t text ⟨ht, h⟩
    refine ⟨ht.push text, ?_, h.referenced, h.given⟩
    simp only [expanding, tracing, inspecting, outlining]
    rw [put_append, put_map_some, h.text]
  refer := by
    rintro e t line column body ⟨ht, h⟩
    exact agrees_refer ht h line column body
  bad_push := by
    rintro t text ⟨reference, hmem, hnot⟩
    exact ⟨reference, hmem, hnot⟩
  bad_refer := by
    rintro t t' line column body ⟨reference, hmem, hnot⟩ hrefer
    obtain ⟨⟨name, default⟩, -, rfl⟩ := map_eq_ok.mp hrefer
    exact ⟨reference, List.mem_append_left _ hmem, hnot⟩

theorem simulates_tracing (lookup : Str → Option Str) (w : Str) :
    Simulates (tracing lookup w) (tracing lookup w)
      (fun s t => s = t ∧ Traced w t) (fun _ => False) where
  push := by
    rintro s t text ⟨rfl, h⟩
    exact ⟨rfl, h.push text⟩
  refer := by
    rintro s t line column body ⟨rfl, h⟩
    simp only [tracing]
    cases checked_reference line body with
    | ok checked => exact ⟨rfl, h.refer line column checked.1 checked.2⟩
    | error _ => trivial
  bad_push _ h := h
  bad_refer _ _ _ h _ := h

theorem traced_nil : Traced w ({}, []) where
  text := rfl
  holes := rfl
  marked := by
    intro n reference hn
    cases hn
  referenced := rfl

theorem expanded_nil : Expanded {} ({}, []) where
  text := rfl
  referenced := rfl
  given := List.forall_mem_nil _

end Together

/-- An inspection, with the outline of its document. -/
theorem inspect_traced {lookup : Str → Option Str} {text : Str} {i : Inspection}
    (h : inspect lookup text = .ok i) :
    ∃ t, walk (tracing lookup ( marker_prefix text)) text ({}, []) = .ok t ∧
      i = ⟨t.1.text, t.1.occurrences⟩ ∧ outline text = .ok t.2 ∧
      Traced ( marker_prefix text) t := by
  obtain ⟨e, he, rfl⟩ := map_eq_ok.mp h
  have hinspect := (simulates_inspecting lookup ( marker_prefix text)).walk text
    (s := {}) (t := ({}, [])) rfl
  rw [he] at hinspect
  obtain ⟨t, ht, rfl⟩ := hinspect.of_left
  have houtline := (simulates_outlining lookup ( marker_prefix text)).walk text
    (s := []) (t := ({}, [])) rfl
  have htraced := (simulates_tracing lookup ( marker_prefix text)).walk text
    (s := ({}, [])) (t := ({}, [])) ⟨rfl, traced_nil⟩
  rw [ht] at houtline htraced
  obtain ⟨o, ho, rfl⟩ | ⟨-, hbad⟩ := houtline.of_right
  · exact ⟨t, ht, rfl, ho, htraced.2⟩
  · exact hbad.elim

/-- **What expands can be inspected**, and the two go together. -/
theorem inspect_of_interpolate {lookup : Str → Option Str} {text : Str} {e : Expansion}
    (h : interpolate lookup text = .ok e) :
    ∃ t, inspect lookup text = .ok ⟨t.1.text, t.1.occurrences⟩ ∧
      walk (tracing lookup ( marker_prefix text)) text ({}, []) = .ok t ∧ Expanded e t := by
  have hmodes := (simulates_expanding lookup ( marker_prefix text)).walk text
    (s := {}) (t := ({}, [])) ⟨traced_nil, expanded_nil⟩
  rw [← interpolate_eq_walk, h] at hmodes
  obtain ⟨t, ht, -, hexpanded⟩ := hmodes.of_left
  have hinspect := (simulates_inspecting lookup ( marker_prefix text)).walk text
    (s := {}) (t := ({}, [])) rfl
  rw [ht] at hinspect
  obtain ⟨w, hw, hwt⟩ | ⟨-, hbad⟩ := hinspect.of_right
  · refine ⟨t, ?_, ht, hexpanded⟩
    rw [inspect, hw, ← hwt]
    rfl
  · exact hbad.elim

/-- **What is inspected expands** where every reference has a value to be given. -/
theorem interpolate_of_inspect {lookup : Str → Option Str} {text : Str} {i : Inspection}
    (h : inspect lookup text = .ok i) (hgiven : ∀ reference ∈ i.references, reference.given) :
    ∃ e, interpolate lookup text = .ok e := by
  obtain ⟨t, ht, rfl, -, -⟩ := inspect_traced h
  have hmodes := (simulates_expanding lookup ( marker_prefix text)).walk text
    (s := {}) (t := ({}, [])) ⟨traced_nil, expanded_nil⟩
  rw [ht, ← interpolate_eq_walk] at hmodes
  obtain ⟨e, he, -⟩ | ⟨-, reference, hmem, hnot⟩ := hmodes.of_right
  · exact ⟨e, he⟩
  · exact absurd (hgiven reference hmem) hnot

/-- **Inspection agrees with expansion.** It succeeds with a value for every reference exactly
where expansion does. The masked text is the outline of the document, of which the environment and
the defaults are no part, with the markers in its holes; resolved as one scalar it is the expanded
text, and the names are those of the references. -/
theorem inspection_agrees (lookup : Str → Option Str) (text : Str) :
    ((∃ e, interpolate lookup text = .ok e) ↔ ∃ i, inspect lookup text = .ok i ∧
      ∀ reference ∈ i.references, reference.state = .Set ∨ reference.state = .Defaulted) ∧
    (∀ e i, interpolate lookup text = .ok e → inspect lookup text = .ok i →
      i.resolve_scalar i.masked = some e.text ∧
        (i.references.map VariableReference.name).eraseDups = e.referenced) ∧
    ∀ i, inspect lookup text = .ok i → ∃ o, outline text = .ok o ∧
      i.masked = put (marker ( marker_prefix text)) 0 o := by
  refine ⟨⟨?_, ?_⟩, ?_, ?_⟩
  · rintro ⟨e, he⟩
    obtain ⟨t, hinspect, -, hexpanded⟩ := inspect_of_interpolate he
    exact ⟨_, hinspect, fun reference hmem => (hexpanded.given reference hmem).1⟩
  · rintro ⟨i, hi, hgiven⟩
    exact interpolate_of_inspect hi hgiven
  · intro e i he hi
    obtain ⟨t, -, ht, hexpanded⟩ := inspect_of_interpolate he
    obtain ⟨t', ht', rfl, houtline, htraced⟩ := inspect_traced hi
    obtain rfl : t' = t := by
      rw [ht'] at ht
      exact Except.ok.inj ht
    refine ⟨?_, ?_⟩
    · have hvalued : Valued ( marker_prefix text) t'.1.occurrences (value_of t'.1.occurrences) := by
        refine ⟨htraced.marked, ?_⟩
        intro n reference hn
        obtain ⟨value, hvalue⟩ := Option.isSome_iff_exists.mp
          (hexpanded.given reference (List.mem_of_getElem? hn)).2
        rw [value_of, hn, Option.bind_some, hvalue, Option.getD_some]
      have hput := resolve_loop_put hvalued (t'.1.text.length + 1) (not_infix_outline houtline)
        (by rw [Nat.zero_add]; exact htraced.holes) (by rw [← htraced.text]; omega) []
      rw [← htraced.text, ← hexpanded.text] at hput
      exact hput
    · rw [hexpanded.referenced, htraced.referenced]
  · intro i hi
    obtain ⟨t, -, rfl, houtline, htraced⟩ := inspect_traced hi
    exact ⟨t.2, houtline, htraced.text⟩

end Lagos.Interpolate
