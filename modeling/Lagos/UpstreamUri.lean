/-
The request target that is sent upstream (`upstream_uri` of `proxy.rs`).

Three functions written apart have to fit: `under_prefix` matches a route,
`upstream_path` takes the prefix away again, and `upstream_uri` puts what is left behind
the upstream's own path and in front of the query. That they do is `upstream_target`: of
the target sent, what the request contributes is the segments that were checked, minus
those of the prefix, and the query it came with.
-/
import Lagos.Routes

set_option autoImplicit false

open RustStd Percent Segments

namespace Lagos.Proxy

open Lagos.Path Lagos.Routes

/-! ## The target -/

/-- `upstream_uri`. -/
def upstream_uri (base_path path : Str) (query : Option Str) : Str :=
  let uri : Str := []
  let uri := if !base_path.isEmpty then uri ++ ['/'] ++ base_path else uri
  let uri :=
    if !path.isEmpty || base_path.isEmpty then uri ++ ['/'] ++ encode_path_segments path else uri
  match query with
  | some q => uri ++ ['?'] ++ q
  | none => uri

/-- What of a target is the upstream's own. -/
def base_part (base_path : Str) : Str := if base_path.isEmpty then [] else '/' :: base_path

/-- The path the request contributes: none for the bare prefix behind a base path. -/
def path_part (base_path path : Str) : Str :=
  if path.isEmpty && !base_path.isEmpty then [] else '/' :: encode_path_segments path

/-- The query the request contributes. -/
def query_part (query : Option Str) : Str := query.elim [] ('?' :: ·)

/-- The three parts, in this order. -/
theorem upstream_uri_eq (base_path path : Str) (query : Option Str) :
    upstream_uri base_path path query
      = base_part base_path ++ (path_part base_path path ++ query_part query) := by
  unfold upstream_uri base_part path_part query_part
  cases query <;> cases base_path <;> cases path <;> simp

/-- The segments of a target's path, which are what follows its slash. -/
def target_segments (path : Str) : List Str :=
  segments '/' ((RustStd.strip_prefix path ['/']).getD path)

/-! ## What is under a prefix -/

/-- Cutting a canonical path at a slash leaves a canonical path. -/
theorem canonical_beneath {pre rest : Str} (h : Canonical (pre ++ '/' :: rest)) :
    Canonical rest ∧ segments '/' (pre ++ '/' :: rest) = segments '/' pre ++ segments '/' rest := by
  have hsplit : segments '/' (pre ++ '/' :: rest) = split '/' pre ++ split '/' rest := by
    rw [segments_of_ne_nil (by simp), List.splitOn_append_cons_self]
    rfl
  have hproper := h.proper
  rw [hsplit] at hproper
  -- neither part is empty: it would leave an empty segment
  have hne : ∀ s, (∀ t ∈ split '/' s, t ∈ split '/' pre ++ split '/' rest) → s ≠ [] := by
    rintro s hs rfl
    exact (hproper [] (hs [] (by decide))).1 rfl
  have hpre : pre ≠ [] := hne pre fun t ht => List.mem_append_left _ ht
  have hrest : rest ≠ [] := hne rest fun t ht => List.mem_append_right _ ht
  refine ⟨⟨fun hmem => h.no_percent (by simp [hmem]), fun c hc => h.clean c (by simp [hc]),
    fun s hs => ?_⟩, ?_⟩
  · rw [segments_of_ne_nil hrest] at hs
    exact hproper s (List.mem_append_right _ hs)
  · rw [hsplit, segments_of_ne_nil hpre, segments_of_ne_nil hrest]
    rfl

/-- A stripped prefix leaves what is beneath it, without the slash in between. -/
theorem upstream_path_of_strip {r : RouteConfig} (hstrip : r.strip_prefix = true) :
    r.upstream_path r.path_prefix = []
      ∧ ∀ rest, r.upstream_path (r.path_prefix ++ '/' :: rest) = rest := by
  have hself : RustStd.strip_prefix r.path_prefix r.path_prefix = some [] :=
    strip_prefix_eq_some.mpr (List.append_nil _).symm
  have hslash : ∀ rest : Str, RustStd.strip_prefix ('/' :: rest) ['/'] = some rest := fun rest =>
    strip_prefix_eq_some.mpr rfl
  have hbeneath : ∀ rest : Str, RustStd.strip_prefix (r.path_prefix ++ '/' :: rest) r.path_prefix
      = some ('/' :: rest) := fun rest => strip_prefix_eq_some.mpr rfl
  refine ⟨?_, ?_⟩
  · simp only [RouteConfig.upstream_path, hstrip, Bool.not_true, Bool.false_eq_true, if_false,
      hself]
  · intro rest
    simp only [RouteConfig.upstream_path, hstrip, Bool.not_true, Bool.false_eq_true, if_false,
      hbeneath, hslash, Option.getD_some]

/-- **Stripping.** What a route sends of a canonical path it matched is canonical, and is the
path or, if the prefix is stripped, the path without the segments of the prefix. -/
theorem upstream_path_segments {r : RouteConfig} {p : Str} (hp : Canonical p)
    (hmatch : under_prefix p r.path_prefix = true) :
    Canonical (r.upstream_path p) ∧
      (if r.strip_prefix then segments '/' r.path_prefix else [])
        ++ segments '/' (r.upstream_path p) = segments '/' p := by
  cases hstrip : r.strip_prefix with
  | false =>
    rw [show r.upstream_path p = p by simp [RouteConfig.upstream_path, hstrip]]
    exact ⟨hp, rfl⟩
  | true =>
    rw [if_pos rfl]
    obtain ⟨hself, hbeneath⟩ := upstream_path_of_strip hstrip
    -- The prefix itself, or the prefix, a slash and what is beneath it.
    rcases under_prefix_iff.mp hmatch with rfl | ⟨rest, rfl⟩
    · rw [hself, segments_nil, List.append_nil]
      exact ⟨by decide, rfl⟩
    · rw [hbeneath]
      exact ⟨(canonical_beneath hp).1, (canonical_beneath hp).2.symm⟩

/-! ## What the upstream reads -/

/-- Encoding neither makes a path empty nor anything of nothing. -/
theorem encode_path_segments_eq_nil {p : Str} : encode_path_segments p = [] ↔ p = [] := by
  constructor
  · intro h
    have hdecode := decode_encode_path p
    rw [h] at hdecode
    exact (Option.some.inj hdecode).symm
  · rintro rfl
    rfl

/-- The segments of the path that is sent are the path's, each encoded. -/
theorem target_segments_path_part (base_path path : Str) :
    target_segments (path_part base_path path)
      = (segments '/' path).map (utf8_percent_encode SEGMENT) := by
  -- No segment encodes to nothing, and none gets a slash.
  have hencode : segments '/' (encode_path_segments path)
      = (segments '/' path).map (utf8_percent_encode SEGMENT) := by
    rcases eq_or_ne path [] with rfl | hne
    · rfl
    · rw [segments_of_ne_nil (mt encode_path_segments_eq_nil.mp hne), segments_of_ne_nil hne]
      exact split_encode path
  rw [target_segments, path_part]
  split
  · rename_i h
    rw [Bool.and_eq_true, List.isEmpty_iff] at h
    rw [h.1]
    rfl
  · rw [show RustStd.strip_prefix ('/' :: encode_path_segments path) ['/']
      = some (encode_path_segments path) from strip_prefix_eq_some.mpr rfl, Option.getD_some,
      hencode]

/-- A segment that is neither empty nor a dot is not encoded as one that is. -/
theorem encode_proper {s : Str} (hne : s ≠ []) (hdot : is_dot_segment s = false) :
    utf8_percent_encode SEGMENT s ≠ [] ∧
      is_dot_segment (utf8_percent_encode SEGMENT s) = false := by
  have hdecode := decode_utf8_encode SEGMENT_percent s
  have hplain : ∀ t : Str, '%' ∉ t → utf8_percent_encode SEGMENT s = t → s = t := by
    intro t ht h
    rw [h, decode_utf8_of_not_mem ht] at hdecode
    exact (Option.some.inj hdecode).symm
  refine ⟨fun h => hne (hplain [] List.not_mem_nil h), ?_⟩
  rw [is_dot_segment, Bool.or_eq_false_iff, beq_eq_false_iff_ne, beq_eq_false_iff_ne] at hdot ⊢
  exact ⟨fun h => hdot.1 (hplain _ (by decide) h), fun h => hdot.2 (hplain _ (by decide) h)⟩

/-- There is no query or fragment delimiter in the path that is sent. -/
theorem not_mem_path_part {c : Char} (hc : c = '?' ∨ c = '#') (base_path path : Str) :
    c ∉ path_part base_path path := by
  rw [path_part]
  split
  · exact List.not_mem_nil
  · rw [List.mem_cons, not_or]
    refine ⟨?_, not_mem_encode_path hc path⟩
    rintro rfl
    exact absurd hc (by decide)

/-- So the query is what follows the first `?`. -/
theorem takeWhile_query {path : Str} (hq : '?' ∉ path) (query : Option Str) :
    (path ++ query_part query).takeWhile (· != '?') = path := by
  have hall : ∀ x ∈ path, (x != '?') = true := fun x hx => by
    rw [bne_iff_ne]
    rintro rfl
    exact hq hx
  rw [List.takeWhile_append_of_pos hall]
  cases query with
  | none => exact List.append_nil path
  | some q => exact List.append_nil path

/-- **The request target.** Behind the upstream's own path, and up to the first `?`, the
target is the request's path: its segments, decoded once, are those of the canonical path,
without those of the prefix if the route strips it; none of them is empty or a dot, as
sent or decoded, and no delimiter is in it, raw or behind an escape. What follows is the
query as it came. -/
theorem upstream_target (r : RouteConfig) (p base_path : Str) (query : Option Str)
    (hp : Canonical p) (hmatch : under_prefix p r.path_prefix = true) :
    ∃ rest, upstream_uri base_path (r.upstream_path p) query = base_part base_path ++ rest ∧
      let path := rest.takeWhile (· != '?')
      rest = path ++ query_part query
        ∧ (∃ sub : List Str, (target_segments path).map decode_utf8 = sub.map some
            ∧ (if r.strip_prefix then segments '/' r.path_prefix else []) ++ sub
              = segments '/' p)
        ∧ (path = [] ∨ starts_with path ['/'] = true) ∧ (path = ['/'] → base_path = [])
        ∧ (∀ s ∈ target_segments path, s ≠ [] ∧ s ≠ ['.'] ∧ s ≠ ['.', '.']
            ∧ ∀ d, decode_utf8 s = some d →
                d ≠ [] ∧ d ≠ ['.'] ∧ d ≠ ['.', '.'] ∧ '/' ∉ d ∧ '\\' ∉ d)
        ∧ '?' ∉ path ∧ '#' ∉ path := by
  obtain ⟨hsub, hsegments⟩ := upstream_path_segments hp hmatch
  have hq := not_mem_path_part (.inl rfl) base_path (r.upstream_path p)
  have hpath := takeWhile_query hq query
  refine ⟨_, upstream_uri_eq _ _ _, ?_⟩
  simp only [hpath]
  refine ⟨trivial, ⟨segments '/' (r.upstream_path p), ?_, hsegments⟩, ?_, ?_, fun s hs => ?_, hq,
    not_mem_path_part (.inr rfl) _ _⟩
  · rw [target_segments_path_part, List.map_map]
    exact List.map_congr_left fun s _ => decode_utf8_encode SEGMENT_percent s
  · rw [path_part]
    split
    · exact .inl rfl
    · exact .inr rfl
  · rw [path_part]
    split
    · rintro ⟨⟩
    · rename_i h
      intro heq
      obtain ⟨-, hnil⟩ := List.cons.inj heq
      simpa [encode_path_segments_eq_nil.mp hnil] using h
  · rw [target_segments_path_part] at hs
    obtain ⟨t, ht, rfl⟩ := List.mem_map.mp hs
    obtain ⟨hne, hdot⟩ := hsub.proper t ht
    obtain ⟨hne', hdot'⟩ := encode_proper hne hdot
    rw [is_dot_segment, Bool.or_eq_false_iff, beq_eq_false_iff_ne, beq_eq_false_iff_ne]
      at hdot hdot'
    refine ⟨hne', hdot'.1, hdot'.2, ?_⟩
    intro d hd
    obtain rfl : t = d := Option.some.inj ((decode_utf8_encode SEGMENT_percent t).symm.trans hd)
    -- What a segment has, the path has, and the path has no backslash.
    have hmem : ∀ c ∈ t, c ∈ r.upstream_path p := fun c hc => by
      rw [← join_segments (r.upstream_path p)]
      exact mem_intercalate_of_mem ht hc
    refine ⟨hne, hdot.1, hdot.2, not_mem_of_mem_segments ht, ?_⟩
    intro hback
    exact absurd (hsub.clean _ (hmem _ hback)) (by decide)

/-- A route that strips its prefix, and a request for what is beneath it. -/
theorem upstream_target_users :
    let r : RouteConfig :=
      .of_input { path_prefix := "svc/users".toList, upstream := ['u'], strip_prefix := true }
    ∃ rest, upstream_uri "api".toList (r.upstream_path "svc/users/Mr B".toList) (some "x=1".toList)
        = base_part "api".toList ++ rest ∧ '#' ∉ rest.takeWhile (· != '?') :=
  have h := upstream_target
    (.of_input { path_prefix := "svc/users".toList, upstream := ['u'], strip_prefix := true })
    "svc/users/Mr B".toList "api".toList (some "x=1".toList) (by decide) (by decide)
  h.imp fun _ h => ⟨h.1, h.2.2.2.2.2.2.2⟩

example : upstream_uri "api".toList "a b/42".toList (some "x=1".toList)
    = "/api/a%20b/42?x=1".toList := by decide +kernel

end Lagos.Proxy
