/-
`path.rs`: an untrusted request path is canonicalized once, every decision is made on
the canonical path, and that path is encoded again for the upstream.

What makes this safe is that the two ends agree. A canonical path has no segment that
an HTTP stack would resolve away and no `%` left to decode (`canonicalize_canonical`),
and the encoder's set contains `%`, `/`, `?` and `#`, so a decoder at the other end
gets back exactly the segments that were checked, however often it decodes.
-/
import Lagos.Lib.Percent
import Lagos.Lib.Segments

set_option autoImplicit false

open RustStd Percent Segments

namespace Lagos.Path

/-! ## Canonicalization -/

/-- Passes of percent-decoding. -/
def MAX_DECODE_PASSES : ℕ := 3

/-- `normalize_proxy_path`: strip leading and trailing slashes. -/
def normalize_proxy_path (path : Str) : Str := trim_matches '/' path

/-- The decoding loop: at most `n` passes, and `none` when one is not UTF-8. -/
def decode_passes : ℕ → Str → Option Str
  | 0, decoded => some decoded
  | n + 1, decoded =>
    if '%' ∉ decoded then some decoded
    else
      match decode_utf8 decoded with
      | none => none
      -- a pass that changes nothing ends the loop
      | some next => if next = decoded then some decoded else decode_passes n next

/-- A backslash, a control character or DEL. -/
def is_forbidden (c : Char) : Bool := c.toNat < 0x20 || c.toNat == 0x7f || c == '\\'

/-- A segment an HTTP stack resolves away. -/
def is_dot_segment (s : Str) : Bool := s == ['.'] || s == ['.', '.']

/-- `canonicalize_proxy_path`. -/
def canonicalize_proxy_path (raw : Str) : Option Str := do
  let without_query ← (split '?' raw).head?
  let without_query ← (split '#' without_query).head?
  let decoded ← decode_passes MAX_DECODE_PASSES without_query
  if '%' ∈ decoded then none
  else if decoded.any is_forbidden then none
  else
    let segments := (split '/' decoded).filter fun s => !s.isEmpty
    if segments.any is_dot_segment then none else some (join '/' segments)

/-! ## Encoding -/

/-- The characters `encode_path_segments` adds to `CONTROLS`: space `"` `#` `<` `>` `?`, the
backtick, the braces, `%` `^` `|` `\` `[` `]` `/`. -/
def SEGMENT_ADDED : List UInt8 :=
  [0x20, 0x22, 0x23, 0x3c, 0x3e, 0x3f, 0x60, 0x7b, 0x7d, 0x25, 0x5e, 0x7c, 0x5c, 0x5b, 0x5d, 0x2f]

/-- `SEGMENT`. -/
def SEGMENT : AsciiSet := SEGMENT_ADDED.foldl AsciiSet.add CONTROLS

/-- `encode_path_segments`. -/
def encode_path_segments (path : Str) : Str :=
  join '/' ((split '/' path).map (utf8_percent_encode SEGMENT))

/-! ## Canonical paths -/

/-- What every decision is made on: nothing left to decode, no character a downstream
component reads differently, and no segment that is empty or a dot. -/
structure Canonical (p : Str) : Prop where
  no_percent : '%' ∉ p
  clean : ∀ c ∈ p, is_forbidden c = false
  proper : ∀ s ∈ segments '/' p, s ≠ [] ∧ is_dot_segment s = false

/-- `Canonical`, computed. -/
def is_canonical (p : Str) : Bool :=
  !p.contains '%' && !p.any is_forbidden
    && (segments '/' p).all fun s => !s.isEmpty && !is_dot_segment s

theorem is_canonical_iff {p : Str} : is_canonical p = true ↔ Canonical p := by
  simp only [is_canonical, Bool.and_eq_true, Bool.not_eq_true', List.all_eq_true,
    List.any_eq_false, List.contains_eq_mem, decide_eq_false_iff_not, List.isEmpty_eq_false_iff,
    Bool.not_eq_true]
  constructor
  · rintro ⟨⟨hpercent, hclean⟩, hproper⟩
    exact ⟨hpercent, hclean, hproper⟩
  · intro hp
    exact ⟨⟨hp.no_percent, hp.clean⟩, hp.proper⟩

instance (p : Str) : Decidable (Canonical p) := decidable_of_iff _ is_canonical_iff

/-- What is left of a request target without its query and its fragment. -/
def before_query (raw : Str) : Str := (raw.takeWhile (· != '?')).takeWhile (· != '#')

/-- Everything a canonicalization that succeeds has checked. -/
theorem canonicalize_some {raw p : Str} (h : canonicalize_proxy_path raw = some p) :
    ∃ decoded : Str, decode_passes MAX_DECODE_PASSES (before_query raw) = some decoded
      ∧ '%' ∉ decoded ∧ (∀ c ∈ decoded, is_forbidden c = false)
      ∧ (∀ s ∈ (split '/' decoded).filter (fun s => !s.isEmpty), is_dot_segment s = false)
      ∧ p = join '/' ((split '/' decoded).filter fun s => !s.isEmpty) := by
  simp only [canonicalize_proxy_path, head?_split, bind, Option.bind_some,
    Option.bind_eq_some_iff] at h
  obtain ⟨decoded, hdecoded, h⟩ := h
  split at h
  · cases h
  · rename_i hpercent
    split at h
    · cases h
    · rename_i hclean
      split at h
      · cases h
      · rename_i hdots
        refine ⟨decoded, hdecoded, hpercent, ?_, ?_, (Option.some.inj h).symm⟩
        · simpa [List.any_eq_true] using hclean
        · simpa [List.any_eq_true] using hdots

/-- A path with proper segments is put together from exactly those. -/
theorem segments_filter (l : Str) :
    segments '/' (join '/' ((split '/' l).filter fun s => !s.isEmpty))
      = (split '/' l).filter fun s => !s.isEmpty := by
  refine segments_join ?_ ?_
  · intro s hs
    exact not_mem_of_mem_splitOn (List.mem_filter.mp hs).1
  · intro s hs
    have h := (List.mem_filter.mp hs).2
    rintro rfl
    cases h

/-- **Canonical.** Whatever the raw path was, its canonical form is canonical. -/
theorem canonicalize_canonical {raw p : Str} (h : canonicalize_proxy_path raw = some p) :
    Canonical p := by
  obtain ⟨decoded, -, hpercent, hclean, hdots, rfl⟩ := canonicalize_some h
  -- Joining adds only slashes to what was decoded.
  have hmem : ∀ c ∈ join '/' ((split '/' decoded).filter fun s => !s.isEmpty),
      c = '/' ∨ c ∈ decoded := by
    intro c hc
    rcases mem_intercalate hc with h | ⟨s, hs, hcs⟩
    · exact .inl h
    · exact .inr (mem_of_mem_splitOn (List.mem_filter.mp hs).1 hcs)
  refine ⟨?_, ?_, ?_⟩
  · intro hin
    rcases hmem _ hin with h | h
    · exact absurd h (by decide)
    · exact hpercent h
  · intro c hc
    rcases hmem c hc with rfl | h
    · decide
    · exact hclean c h
  · intro s hs
    rw [segments_filter] at hs
    refine ⟨?_, hdots s hs⟩
    have hne := (List.mem_filter.mp hs).2
    rintro rfl
    cases hne

/-- A path without empty segments has no segment to drop. -/
theorem filter_split_of_ne_nil {p : Str} (hp : ∀ s ∈ segments '/' p, s ≠ []) :
    (split '/' p).filter (fun s => !s.isEmpty) = segments '/' p := by
  rcases eq_or_ne p [] with rfl | hne
  · decide
  · rw [segments_of_ne_nil hne] at hp ⊢
    exact List.filter_eq_self.mpr fun s hs => by simpa using hp s hs

/-- With nothing to decode, the canonical path is what stands before the query, without its
empty segments. -/
theorem canonicalize_plain {raw p : Str} (h : canonicalize_proxy_path raw = some p)
    (hraw : '%' ∉ raw) :
    p = join '/' ((split '/' (before_query raw)).filter fun s => !s.isEmpty) := by
  obtain ⟨decoded, hdecoded, -, -, -, rfl⟩ := canonicalize_some h
  have hbefore : '%' ∉ before_query raw := fun hmem =>
    hraw (List.takeWhile_subset _ (List.takeWhile_subset _ hmem))
  rw [MAX_DECODE_PASSES, decode_passes, if_pos hbefore] at hdecoded
  rw [Option.some.inj hdecoded]

/-- Slashes at the two ends make empty segments and no others. -/
theorem filter_split_normalize (l : Str) :
    (split '/' (normalize_proxy_path l)).filter (fun s => !s.isEmpty)
      = (split '/' l).filter fun s => !s.isEmpty := by
  have hstart : ∀ n (t : Str), (split '/' (List.replicate n '/' ++ t)).filter
      (fun s => !s.isEmpty) = (split '/' t).filter fun s => !s.isEmpty := by
    intro n t
    induction n with
    | zero => rfl
    | succ n ih =>
      rw [← ih, split, List.replicate_succ, List.cons_append, ← List.nil_append ('/' :: _),
        List.splitOn_append_cons_self, List.splitOn_nil, List.singleton_append]
      rfl
  have hend : ∀ n (t : Str), (split '/' (t ++ List.replicate n '/')).filter
      (fun s => !s.isEmpty) = (split '/' t).filter fun s => !s.isEmpty := by
    intro n t
    cases n with
    | zero => rw [List.replicate_zero, List.append_nil]
    | succ n =>
      have hempty : (split '/' (List.replicate n '/')).filter (fun s => !s.isEmpty) = [] := by
        rw [← List.append_nil (List.replicate n '/'), hstart]
        rfl
      rw [split, List.replicate_succ, List.splitOn_append_cons_self, List.filter_append]
      rw [split] at hempty
      rw [hempty, List.append_nil, split]
  obtain ⟨m, n, hl⟩ := trim_matches_append '/' l
  conv_rhs => rw [hl]
  rw [hstart, hend, normalize_proxy_path]

/-- A canonical path has nothing to trim either. -/
theorem normalize_canonical {p : Str} (hp : Canonical p) : normalize_proxy_path p = p := by
  -- A slash at either end would leave an empty segment.
  have hnil : ∀ a b : Str, p = a ++ '/' :: b → [] ∉ split '/' a ∧ [] ∉ split '/' b := by
    rintro a b rfl
    have hproper := fun s hs => (hp.proper s hs).1
    rw [segments_of_ne_nil (by simp), List.splitOn_append_cons_self] at hproper
    exact ⟨fun h => hproper [] (List.mem_append_left _ h) rfl,
      fun h => hproper [] (List.mem_append_right _ h) rfl⟩
  obtain ⟨m, n, hl⟩ := trim_matches_append '/' p
  cases m with
  | succ m =>
    exact absurd (by decide) (hnil [] _ hl).1
  | zero =>
    cases n with
    | zero => simpa [normalize_proxy_path] using hl.symm
    | succ n =>
      rw [List.replicate_zero, List.nil_append, List.replicate_succ', ← List.append_assoc] at hl
      exact absurd (by decide) (hnil _ [] hl).2

/-- Canonicalizing changes nothing that is canonical already, apart from cutting it at a
`?` or a `#`. -/
theorem canonicalize_of_decoded {raw p : Str} (hq : '?' ∉ raw) (hf : '#' ∉ raw)
    (hdec : decode_passes MAX_DECODE_PASSES raw = some p) (hp : Canonical p) :
    canonicalize_proxy_path raw = some p := by
  have hany : p.any is_forbidden = false := by
    simpa [List.any_eq_false] using hp.clean
  have hdots : (segments '/' p).any is_dot_segment = false := by
    simpa [List.any_eq_false] using fun s hs => (hp.proper s hs).2
  simp only [canonicalize_proxy_path, split_of_not_mem hq, split_of_not_mem hf, List.head?_cons,
    bind, Option.bind_some, hdec, hp.no_percent, if_false, hany, Bool.false_eq_true,
    filter_split_of_ne_nil fun s hs => (hp.proper s hs).1, hdots]
  exact congrArg some (join_segments p)

/-! ## What goes upstream -/

theorem SEGMENT_percent : SEGMENT 0x25 = true := by decide

/-- The encoder escapes every separator of a URI that a segment could contain. -/
theorem not_mem_encode {c : Char} (hc : c = '/' ∨ c = '?' ∨ c = '#') (s : Str) :
    c ∉ utf8_percent_encode SEGMENT s := by
  rcases hc with rfl | rfl | rfl <;>
    exact not_mem_utf8_percent_encode (by decide) (by decide) (by decide) s

/-- Encoding keeps the segments apart and in place. -/
theorem split_encode (p : Str) :
    split '/' (encode_path_segments p) = (split '/' p).map (utf8_percent_encode SEGMENT) := by
  refine split_join ?_ ?_
  · intro s hs
    obtain ⟨t, -, rfl⟩ := List.mem_map.mp hs
    exact not_mem_encode (.inl rfl) t
  · simpa using split_ne_nil '/' p

theorem not_mem_encode_path {c : Char} (hc : c = '?' ∨ c = '#') (p : Str) :
    c ∉ encode_path_segments p := by
  intro hmem
  rcases mem_intercalate hmem with rfl | ⟨s, hs, hcs⟩
  · exact absurd hc (by decide)
  · obtain ⟨t, -, rfl⟩ := List.mem_map.mp hs
    exact not_mem_encode (.inr hc) t hcs

/-- One decode of the whole path gives the path back. -/
theorem decode_encode_path (p : Str) : decode_utf8 (encode_path_segments p) = some p := by
  have hslash : utf8_bytes ['/'] = [0x2f] := by decide
  have h := decode_utf8_join SEGMENT_percent hslash (by decide) (split '/' p)
  rwa [join_split] at h

/-- An upstream that decodes `n` times. -/
def decode_times : ℕ → Str → Option Str
  | 0, s => some s
  | n + 1, s => (decode_utf8 s).bind (decode_times n)

/-- Without a `%`, decoding again changes nothing. -/
theorem decode_times_of_not_mem {s : Str} (h : '%' ∉ s) (n : ℕ) : decode_times n s = some s := by
  induction n with
  | zero => rfl
  | succ n ih => rw [decode_times, decode_utf8_of_not_mem h, Option.bind_some, ih]

/-- However often it decodes, an upstream sees the canonical path. -/
theorem decode_times_encode_path {p : Str} (hp : '%' ∉ p) (n : ℕ) :
    decode_times (n + 1) (encode_path_segments p) = some p := by
  rw [decode_times, decode_encode_path, Option.bind_some, decode_times_of_not_mem hp]

/-- And each segment of it is the segment that was checked. -/
theorem decode_times_segments {p : Str} (hp : '%' ∉ p) (n : ℕ) :
    (split '/' (encode_path_segments p)).map (decode_times (n + 1))
      = (split '/' p).map some := by
  rw [split_encode, List.map_map]
  apply List.map_congr_left
  intro s hs
  have hs' : '%' ∉ s := fun h => hp (mem_of_mem_splitOn hs h)
  rw [Function.comp_apply, decode_times, decode_utf8_encode SEGMENT_percent, Option.bind_some,
    decode_times_of_not_mem hs']

/-- The loop stops after the pass that undoes the encoding. -/
theorem decode_passes_encode {p : Str} (hp : '%' ∉ p) :
    decode_passes MAX_DECODE_PASSES (encode_path_segments p) = some p := by
  -- Either the encoding has nothing to decode, or one pass gives `p`, which has not.
  by_cases hmem : '%' ∈ encode_path_segments p
  · have hne : p ≠ encode_path_segments p := fun h => hp (h ▸ hmem)
    rw [MAX_DECODE_PASSES, decode_passes, if_neg (not_not_intro hmem), decode_encode_path]
    simp only [if_neg hne]
    rw [decode_passes, if_pos hp]
  · have hsame : encode_path_segments p = p :=
      Option.some.inj ((decode_utf8_of_not_mem hmem).symm.trans (decode_encode_path p))
    rw [hsame, MAX_DECODE_PASSES, decode_passes, if_pos hp]

theorem canonicalize_encode {p : Str} (hp : Canonical p) :
    canonicalize_proxy_path (encode_path_segments p) = some p :=
  canonicalize_of_decoded (not_mem_encode_path (.inl rfl) p) (not_mem_encode_path (.inr rfl) p)
    (decode_passes_encode hp.no_percent) hp

/-- **The path that is checked is the path that is sent.** A canonical path has nothing in
it that a downstream component would resolve or reject; canonicalizing its encoding gives
it back; and an upstream that decodes once or more often, segment by segment or the whole
path, sees it. -/
theorem checked_path_is_sent (raw p : Str) (h : canonicalize_proxy_path raw = some p) :
    (∀ s ∈ segments '/' p, s ≠ [] ∧ s ≠ ['.'] ∧ s ≠ ['.', '.'])
      ∧ (∀ c ∈ p, c ≠ '%' ∧ c ≠ '\\' ∧ 0x20 ≤ c.toNat ∧ c.toNat ≠ 0x7f)
      ∧ canonicalize_proxy_path (encode_path_segments p) = some p
      ∧ (∀ n, (split '/' (encode_path_segments p)).map (decode_times (n + 1))
          = (split '/' p).map some)
      ∧ ∀ n, decode_times (n + 1) (encode_path_segments p) = some p := by
  have hp := canonicalize_canonical h
  refine ⟨fun s hs => ?_, fun c hc => ?_, canonicalize_encode hp,
    decode_times_segments hp.no_percent, decode_times_encode_path hp.no_percent⟩
  · obtain ⟨hne, hdot⟩ := hp.proper s hs
    simpa [is_dot_segment, hne] using hdot
  · have hclean := hp.clean c hc
    simp only [is_forbidden, Bool.or_eq_false_iff, decide_eq_false_iff_not, not_lt,
      beq_eq_false_iff_ne] at hclean
    exact ⟨fun h => hp.no_percent (h ▸ hc), hclean.2, hclean.1.1, hclean.1.2⟩

theorem checked_path_is_sent_pets :
    canonicalize_proxy_path "/pets//Mr B/?id=4#top".toList = some "pets/Mr B".toList
      ∧ canonicalize_proxy_path (encode_path_segments "pets/Mr B".toList)
          = some "pets/Mr B".toList :=
  have h : canonicalize_proxy_path "/pets//Mr B/?id=4#top".toList = some "pets/Mr B".toList := by
    decide
  ⟨h, (checked_path_is_sent _ _ h).2.2.1⟩

end Lagos.Path
