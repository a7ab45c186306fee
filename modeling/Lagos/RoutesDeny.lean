/-
The deny-list.

An entry denies a path when its segments begin the path's, after both are folded. The code
compares character by character and then looks at what is left of the path;
`under_prefix_ignore_case_iff` and `is_denied_iff` say that this is the same thing, whatever
letters the two are written in.

The entries of a table are only trimmed, while the paths they are compared with are
canonical. An entry that is not written as the gateway sees it denies nothing of its own:
`denies_own_path_iff` says which entries do.
-/
import Lagos.RoutesValidate

set_option autoImplicit false

open RustStd Segments

namespace Lagos.Routes

open Lagos.Config Lagos.Path

/-! ## Folding -/

/-- No character below the letters is the fold of another. -/
theorem fold_case_eq_iff {c x : Char} (hx : x.toNat < 65) : fold_case c = x ↔ c = x := by
  unfold fold_case
  split_ifs with hi hs hk
  · exact iff_of_false (by rintro rfl; exact absurd hx (by decide)) (by rintro rfl; omega)
  · exact iff_of_false (by rintro rfl; exact absurd hx (by decide)) (by rintro rfl; omega)
  · exact iff_of_false (by rintro rfl; exact absurd hx (by decide)) (by rintro rfl; omega)
  · -- what is left folds as ASCII letters do, by adding 32
    by_cases hupper : c.val ≥ 'A'.val ∧ c.val ≤ 'Z'.val
    · have hlo : 65 ≤ c.val.toNat := UInt32.le_iff_toNat_le.mp hupper.1
      have hhi : c.val.toNat ≤ 90 := UInt32.le_iff_toNat_le.mp hupper.2
      refine iff_of_false ?_ ?_
      · intro h
        have hlower : c.toLower.val = c.val + ('a'.val - 'A'.val) :=
          congrArg Char.val (dif_pos hupper)
        have hnat : (c.val + ('a'.val - 'A'.val)).toNat = x.toNat := by
          rw [← hlower, h]
          rfl
        rw [UInt32.toNat_add, show ('a'.val - 'A'.val).toNat = 32 from rfl,
          Nat.mod_eq_of_lt (by omega)] at hnat
        omega
      · intro h
        rw [h] at hlo
        exact absurd hx (Nat.not_lt.mpr hlo)
    · rw [show c.toLower = c from dif_neg hupper]

theorem fold_case_slash (c : Char) : fold_case c = '/' ↔ c = '/' := fold_case_eq_iff (by decide)

/-- The segments of a path, folded. -/
def folded_segments (s : Str) : List Str := (segments '/' s).map (List.map fold_case)

theorem segments_fold (s : Str) : segments '/' (s.map fold_case) = folded_segments s :=
  segments_map fold_case_slash s

/-- `under_prefix_ignore_case` is being a prefix on a segment boundary, after folding. -/
theorem under_prefix_ignore_case_iff {path pre : Str} :
    under_prefix_ignore_case path pre = true ↔
      Under '/' (pre.map fold_case) (path.map fold_case) := by
  -- The two are walked together until the entry is used up; a slash folds to itself only.
  induction pre generalizing path with
  | nil =>
    rw [under_prefix_ignore_case, Bool.or_eq_true, List.isEmpty_iff, starts_with_iff, List.map_nil,
      Under, List.map_eq_nil_iff]
    apply or_congr_right
    constructor
    · rintro ⟨r, rfl⟩
      exact ⟨r.map fold_case, rfl⟩
    · rintro ⟨r, hr⟩
      obtain ⟨c, rest, rfl, hc, -⟩ := List.map_eq_cons_iff.mp hr
      obtain rfl := (fold_case_slash c).mp hc
      exact ⟨rest, rfl⟩
  | cons p pre ih =>
    cases path with
    | nil =>
      apply iff_of_false Bool.false_ne_true
      rintro (h | ⟨r, h⟩) <;> cases h
    | cons c path =>
      rw [under_prefix_ignore_case, List.map_cons, List.map_cons, under_cons, ← ih]
      by_cases h : fold_case c = fold_case p
      · rw [if_pos h]
        exact (and_iff_right h.symm).symm
      · rw [if_neg h]
        exact iff_of_false Bool.false_ne_true fun h' => h h'.1.symm

/-- In terms of segments: an entry that is not empty denies by its folded segments, and the
empty one only the empty path. -/
theorem under_prefix_ignore_case_segments {path pre : Str} (hpath : path.head? ≠ some '/') :
    under_prefix_ignore_case path pre = true ↔
      (pre ≠ [] ∧ folded_segments pre <+: folded_segments path) ∨ (pre = [] ∧ path = []) := by
  rw [under_prefix_ignore_case_iff]
  -- An entry that was all slashes is empty, and no path begins with one.
  rcases eq_or_ne pre [] with rfl | hpre
  · simp only [ne_eq, not_true_eq_false, false_and, true_and, false_or, List.map_nil, Under,
      List.map_eq_nil_iff, or_iff_left_iff_imp]
    rintro ⟨r, hr⟩
    obtain ⟨c, rest, rfl, hc, -⟩ := List.map_eq_cons_iff.mp hr
    exact absurd (congrArg some ((fold_case_slash c).mp hc)) hpath
  · rw [← segments_prefix_iff (by simpa using hpre), segments_fold, segments_fold]
    simp [hpre]

/-! ## The deny-list of a table -/

/-- A path is denied by the entries it is under once both are folded. -/
theorem is_denied_iff {t : RouteTable} {path : Str} :
    t.is_denied path = true ↔ ∃ d ∈ t.deny_prefixes,
      Under '/' (d.map fold_case) ((normalize_proxy_path path).map fold_case) := by
  rw [RouteTable.is_denied, List.any_eq_true]
  simp only [under_prefix_ignore_case_iff]

/-- Nothing about a path counts but its fold. -/
theorem is_denied_congr {t : RouteTable} {path path' : Str}
    (h : path'.map fold_case = path.map fold_case) : t.is_denied path' = t.is_denied path := by
  rw [Bool.eq_iff_iff, is_denied_iff, is_denied_iff]
  simp only [normalize_proxy_path, ← trim_matches_map fold_case_slash, h]

variable (ns : ℕ) (groups : RouteGroups) (defaults : RouteDefaults) (shared : Bool)

/-- What denies a canonical path in a table that was built. -/
theorem build_with_is_denied_iff {p : Str} (hp : Canonical p) :
    (RouteTable.build_with ns groups defaults shared).is_denied p = true ↔
      ∃ e ∈ groups.internal, under_prefix_ignore_case p (normalize_proxy_path e) = true := by
  rw [RouteTable.is_denied, List.any_eq_true, normalize_canonical hp]
  simp [RouteTable.build_with]

/-- No canonical path begins with a slash. -/
theorem canonical_head {p : Str} (hp : Canonical p) : p.head? ≠ some '/' := by
  have h := head?_trim_matches '/' p
  rwa [← normalize_proxy_path, normalize_canonical hp] at h

/-- **The deny-list.** A canonical path is denied exactly by the entries whose folded
segments begin its own, and the empty path by the empty entry too. So only the folds of its
characters count, a denied path denies what is beneath it unless it is the empty one, an
entry that matches a path exactly denies it, and an entry that ends inside a segment of the
path does not. The comparison goes character by character and has no byte to stumble over. -/
theorem is_denied_by_segments {p : Str} (hp : Canonical p) :
    let t := RouteTable.build_with ns groups defaults shared
    (t.is_denied p = true ↔ ∃ e ∈ groups.internal,
        (normalize_proxy_path e ≠ []
          ∧ folded_segments (normalize_proxy_path e) <+: folded_segments p)
        ∨ (normalize_proxy_path e = [] ∧ p = []))
      ∧ (∀ p', p'.map fold_case = p.map fold_case → t.is_denied p' = t.is_denied p)
      ∧ (p ≠ [] → t.is_denied p = true →
          ∀ p', Canonical p' → segments '/' p <+: segments '/' p' → t.is_denied p' = true)
      ∧ ((∃ e ∈ groups.internal, under_prefix p (normalize_proxy_path e) = true) →
          t.is_denied p = true)
      ∧ ((∀ e ∈ groups.internal, ∀ s r, p = s ++ r →
            s.map fold_case = (normalize_proxy_path e).map fold_case →
            ∃ c rest, r = c :: rest ∧ c ≠ '/') →
          t.is_denied p = false) := by
  intro t
  have hsegments := build_with_is_denied_iff ns groups defaults shared hp
  simp only [under_prefix_ignore_case_segments (canonical_head hp)] at hsegments
  refine ⟨hsegments, fun p' hp' => is_denied_congr hp', fun hne hdenied p' hp' hunder => ?_,
    ?_, fun hinside => ?_⟩
  · -- the entry that denies `p` is not the empty one, and begins the longer path too
    obtain ⟨e, he, hd⟩ := hsegments.mp hdenied
    obtain ⟨hd, hpre⟩ := hd.resolve_right fun h => hne h.2
    rw [build_with_is_denied_iff _ _ _ _ hp']
    refine ⟨e, he, (under_prefix_ignore_case_segments (canonical_head hp')).mpr (.inl ⟨hd, ?_⟩)⟩
    exact hpre.trans (hunder.map _)
  · rintro ⟨e, he, hunder⟩
    rw [build_with_is_denied_iff _ _ _ _ hp]
    refine ⟨e, he, under_prefix_ignore_case_iff.mpr ?_⟩
    rcases under_prefix_iff.mp hunder with h | ⟨r, h⟩
    · exact .inl (congrArg (List.map fold_case) h)
    · exact .inr ⟨r.map fold_case, by rw [h, List.map_append, List.map_cons]; rfl⟩
  · rw [Bool.eq_false_iff, Ne, build_with_is_denied_iff _ _ _ _ hp]
    rintro ⟨e, he, hunder⟩
    rw [under_prefix_ignore_case_iff] at hunder
    rcases hunder with h | ⟨r, h⟩
    · obtain ⟨c, rest, hr, -⟩ := hinside e he p [] (List.append_nil p).symm h
      cases hr
    · -- The entry would have to end at a slash of the path.
      obtain ⟨s, rest, rfl, hs, hrest⟩ := List.map_eq_append_iff.mp h
      obtain ⟨c, rest, rfl, hc⟩ := hinside e he s _ rfl hs
      rw [List.map_cons, List.cons.injEq, fold_case_slash] at hrest
      exact hc hrest.1

theorem is_denied_by_segments_orders :
    let t := RouteTable.build_with 0 ⟨["/legacy/Internal/".toList], [], [], [], []⟩
      ⟨none, none, none⟩ false
    t.is_denied "Legacy/internal".toList = true →
      t.is_denied "Legacy/internal/users".toList = true :=
  have hp : Canonical "Legacy/internal".toList := by decide
  have hq : Canonical "Legacy/internal/users".toList := by decide
  fun h => (is_denied_by_segments 0 _ _ _ hp).2.2.1 (by decide) h _ hq (by decide)

/-- The empty path is the one whose denial does not extend to what is beneath it. -/
theorem root_denied_alone :
    let t := RouteTable.build_with 0 ⟨[['/']], [], [], [], []⟩ ⟨none, none, none⟩ false
    Canonical [] ∧ Canonical ['a'] ∧ segments '/' ([] : Str) <+: segments '/' ['a']
      ∧ t.is_denied [] = true ∧ t.is_denied ['a'] = false :=
  ⟨by decide, by decide, by decide, by decide, by decide⟩

/-! ## Entries as an operator writes them -/

/-- A character that folds from nothing else is in the entry only if it is in the path. -/
theorem mem_of_mem_entry {e p : Str} {x : Char} (hx : x.toNat < 65) (hslash : x ≠ '/')
    (hunder : Under '/' ((normalize_proxy_path e).map fold_case) (p.map fold_case))
    (hmem : x ∈ e) : x ∈ p := by
  have hfold : x ∈ p.map fold_case := by
    refine hunder.isPrefix.subset (List.mem_map.mpr ⟨x, mem_trim_matches hslash hmem, ?_⟩)
    exact (fold_case_eq_iff hx).mpr rfl
  obtain ⟨c, hc, hcx⟩ := List.mem_map.mp hfold
  rwa [← (fold_case_eq_iff hx).mp hcx]

/-- Nothing is cut off what has no `?` and no `#`. -/
theorem before_query_eq {raw : Str} (hq : '?' ∉ raw) (hf : '#' ∉ raw) :
    before_query raw = raw := by
  have hall : ∀ {c : Char}, c ∉ raw → raw.takeWhile (· != c) = raw := fun h =>
    List.takeWhile_eq_self_iff.mpr fun x hx => by
      rw [bne_iff_ne]
      rintro rfl
      exact h hx
  rw [before_query, hall hq, hall hf]

/-- **An entry's own path.** An entry denies the path that a request spelled like it has
only if the entry, trimmed, is that path. -/
theorem denies_own_path_iff {e p : Str} (h : canonicalize_proxy_path e = some p) :
    under_prefix_ignore_case p (normalize_proxy_path e) = true ↔ normalize_proxy_path e = p := by
  have hp := canonicalize_canonical h
  constructor
  · intro hunder
    have hfold := under_prefix_ignore_case_iff.mp hunder
    -- so the entry has nothing to decode and nothing to cut off
    have hraw : '%' ∉ e := fun hmem =>
      hp.no_percent (mem_of_mem_entry (by decide) (by decide) hfold hmem)
    have hplain := canonicalize_plain h hraw
    have hclean : ∀ x, x ≠ '/' → x ∉ before_query e → x ∉ p := by
      intro x hx hbefore hmem
      rw [hplain] at hmem
      rcases mem_intercalate hmem with h | ⟨s, hs, hxs⟩
      · exact hx h
      · exact hbefore (mem_of_mem_splitOn (List.mem_filter.mp hs).1 hxs)
    have hq : '?' ∉ e := fun hmem => by
      refine hclean '?' (by decide) (fun h => ?_)
        (mem_of_mem_entry (by decide) (by decide) hfold hmem)
      simpa using List.mem_takeWhile_imp (List.takeWhile_subset _ h)
    have hf : '#' ∉ e := fun hmem => by
      refine hclean '#' (by decide) (fun h => ?_)
        (mem_of_mem_entry (by decide) (by decide) hfold hmem)
      simpa using List.mem_takeWhile_imp h
    -- and no empty segment
    have hproper : ∀ s ∈ segments '/' (normalize_proxy_path e), s ≠ [] := by
      intro s hs hnil
      rcases (under_prefix_ignore_case_segments (canonical_head hp)).mp hunder with
        ⟨-, hpre⟩ | ⟨hempty, -⟩
      · have hmem := hpre.subset (List.mem_map_of_mem hs)
        obtain ⟨s', hs', heq⟩ := List.mem_map.mp hmem
        rw [hnil] at heq
        exact (hp.proper s' hs').1 (List.map_eq_nil_iff.mp heq)
      · rw [hempty, segments_nil] at hs
        exact absurd hs List.not_mem_nil
    rw [before_query_eq hq hf, ← filter_split_normalize, filter_split_of_ne_nil hproper] at hplain
    exact (hplain.trans (join_segments _)).symm
  · intro heq
    rw [heq, under_prefix_ignore_case_iff]
    exact .inl rfl

/-- **Dead entries.** The path that a request spelled like an entry has, and every path
beneath it, is denied on the public table if and only if the entry is written as the
canonical path itself, up to slashes at its ends, or some other entry covers that path. -/
theorem entry_denies_iff {e p : Str} (he : e ∈ groups.internal)
    (h : canonicalize_proxy_path e = some p) (hne : p ≠ []) :
    let public_table :=
      (RouteTable.build_with ns groups defaults shared).partition_by_listener.1
    (public_table.is_denied p = true ∧
        ∀ q, Canonical q → Under '/' p q → public_table.is_denied q = true)
      ↔ normalize_proxy_path e = p ∨ ∃ e' ∈ groups.internal, e' ≠ e ∧
          under_prefix_ignore_case p (normalize_proxy_path e') = true := by
  intro public_table
  have hp := canonicalize_canonical h
  have hdenied : ∀ q, public_table.is_denied q
      = (RouteTable.build_with ns groups defaults shared).is_denied q := fun _ => rfl
  simp only [hdenied]
  have hbeneath : (RouteTable.build_with ns groups defaults shared).is_denied p = true →
      ∀ q, Canonical q → Under '/' p q →
        (RouteTable.build_with ns groups defaults shared).is_denied q = true := by
    intro hd q hq hunder
    exact (is_denied_by_segments ns groups defaults shared hp).2.2.1 hne hd q hq
      ((segments_prefix_iff hne).mpr hunder)
  -- What is beneath a denied path is denied, so only the path itself is in question.
  rw [and_iff_left_of_imp hbeneath, build_with_is_denied_iff ns groups defaults shared hp,
    ← denies_own_path_iff h]
  constructor
  · rintro ⟨e', he', hunder⟩
    by_cases hsame : e' = e
    · exact .inl (hsame ▸ hunder)
    · exact .inr ⟨e', he', hsame, hunder⟩
  · rintro (hunder | ⟨e', he', -, hunder⟩)
    · exact ⟨e, he, hunder⟩
    · exact ⟨e', he', hunder⟩

theorem entry_denies_iff_internal :
    let table := RouteTable.build_with 0 ⟨["/a/b/".toList], [], [], [], []⟩ ⟨none, none, none⟩ false
    table.partition_by_listener.1.is_denied "a/b".toList = true :=
  ((entry_denies_iff 0 ⟨["/a/b/".toList], [], [], [], []⟩ ⟨none, none, none⟩ false
    List.mem_cons_self (by decide : canonicalize_proxy_path "/a/b/".toList = some "a/b".toList)
    (by decide)).mpr (.inl (by decide))).1

/-- A route for everything under `a`, and an entry for `a/b` with one slash too many. -/
def doubled_slash : RouteGroups where
  internal := ["a//b".toList]
  machine := []
  «public» := [.of_input { path_prefix := ['a'], upstream := ['u'] }]
  optional := []
  authenticated := []

/-- The configuration is accepted, and a request spelled like the entry is served. -/
theorem doubled_slash_served :
    let table := RouteTable.build_with 0 doubled_slash ⟨none, none, none⟩ false
    let cfg : ResolvedConfig :=
      { upstreams := [['u']], trusted_proxy_ips := [], shared_limits := false,
        shared_counters := none, cache := false, client_keys := false, machine := false,
        internal_listen := none }
    cfg.validate_table table = .ok ()
      ∧ canonicalize_proxy_path "a//b".toList = some "a/b".toList
      ∧ table.partition_by_listener.1.is_denied "a/b".toList = false
      ∧ (table.partition_by_listener.1.match_request none "a/b".toList "GET".toList).isSome :=
  ⟨rfl, by decide, by decide, by decide⟩

end Lagos.Routes
