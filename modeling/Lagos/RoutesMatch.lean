/-
The index finds what a scan of the table finds.

`PrefixIndex::find` meets the routes in the order of their prefixes along the path, keeps
the least position seen, and leaves a node as soon as it cannot improve on it. A scan of
the table meets them in table order and stops at the first. Both stop at the least
position of a route that matches (`find_eq_find?`), whatever the table, the path, the
method and the host.
-/
import Lagos.Routes

set_option autoImplicit false

open RustStd Segments FirstMatch

namespace Lagos.Routes

open Lagos.Path

/-! ## What the index holds -/

variable {routes : List RouteConfig} {index : PrefixIndex}

/-- The positions under a label are those of the routes with that prefix. -/
theorem mem_values_at_build (h : PrefixIndex.build routes = some index) (label : List Str)
    (i : ℕ) :
    i ∈ Trie.values_at index.nodes label ↔
      ∃ r, routes[i]? = some r ∧ segments '/' r.path_prefix = label := by
  rw [PrefixIndex.build, Option.ite_none_left_eq_some] at h
  obtain ⟨-, h⟩ := h
  obtain rfl := Option.some.inj h
  rw [Trie.values_at_build, List.mem_map]
  constructor
  · rintro ⟨e, he, rfl⟩
    obtain ⟨hmem, hlabel⟩ := List.mem_filter.mp he
    obtain ⟨⟨r, j⟩, hr, rfl⟩ := List.mem_map.mp hmem
    exact ⟨r, List.mem_zipIdx_iff_getElem?.mp hr, by simpa using hlabel⟩
  · rintro ⟨r, hr, rfl⟩
    refine ⟨(segments '/' r.path_prefix, i), List.mem_filter.mpr ⟨?_, by simp⟩, rfl⟩
    exact List.mem_map.mpr ⟨(r, i), List.mem_zipIdx_iff_getElem?.mpr hr, rfl⟩

/-- And they stand in ascending order, which is table order. -/
theorem values_at_build_ascending (h : PrefixIndex.build routes = some index)
    (label : List Str) : (Trie.values_at index.nodes label).Pairwise (· < ·) := by
  rw [PrefixIndex.build, Option.ite_none_left_eq_some] at h
  obtain ⟨-, h⟩ := h
  obtain rfl := Option.some.inj h
  rw [Trie.values_at_build]
  apply List.Pairwise.sublist (List.filter_sublist.map Prod.snd)
  -- an entry is made of its position, whatever its label is
  rw [List.map_map]
  change (routes.zipIdx.map Prod.snd).Pairwise (· < ·)
  rw [List.zipIdx_map_snd]
  exact List.pairwise_lt_range'

/-! ## The search -/

/-- A route's part of the match that does not depend on the path. -/
def serves (routes : List RouteConfig) (method : Str) (host : Option Str) (i : ℕ) : Bool :=
  routes[i]?.any fun route => route.matches_method method && route.matches_host host

/-- The node of a label holds the values under it. -/
theorem values_of_reach {label : List Str} {node : ℕ}
    (hreach : Trie.reach index.nodes 0 label = some node) :
    Trie.values_of index.nodes node = Trie.values_at index.nodes label := by
  rw [Trie.values_at, hreach, Option.elim_some]

/-- One `consider` takes into account all routes placed at its node. -/
theorem least_consider (h : PrefixIndex.build routes = some index) (method : Str)
    (host : Option Str) {label : List Str} {node : ℕ}
    (hreach : Trie.reach index.nodes 0 label = some node) {P : ℕ → Prop} {best : Option ℕ}
    (hbest : Least P best) :
    Least (fun i => P i ∨
        (i ∈ Trie.values_of index.nodes node ∧ serves routes method host i = true))
      (index.consider routes method host best node) := by
  refine least_scan ?_ hbest
  rw [values_of_reach hreach]
  exact values_at_build_ascending h label

/-- The prefixes a path is under are those whose segments begin its own, and the empty one
if the path is empty. -/
theorem under_prefix_segments {path pre : Str} (hpath : path.head? ≠ some '/') :
    under_prefix path pre = true ↔
      segments '/' pre <+: segments '/' path ∧ (pre = [] → path = []) := by
  rw [under_prefix_iff]
  -- The empty prefix is the one that segments do not describe: it is under every path,
  -- but matches only the empty one.
  rcases eq_or_ne pre [] with rfl | hpre
  · rw [segments_nil]
    constructor
    · rintro (h | ⟨r, rfl⟩)
      · exact ⟨List.nil_prefix, fun _ => h⟩
      · exact absurd rfl hpath
    · rintro ⟨-, h⟩
      exact .inl (h rfl)
  · rw [segments_prefix_iff hpre]
    exact ⟨fun h => ⟨h, fun h' => absurd h' hpre⟩, fun h => h.1⟩

/-- The positions the search takes into account are those of the routes that match. -/
theorem mem_considered (h : PrefixIndex.build routes = some index) {path : Str}
    (hpath : path.head? ≠ some '/') (method : Str) (host : Option Str) (i : ℕ) :
    (∃ r, routes[i]? = some r ∧
        ( under_prefix path r.path_prefix && r.matches_method method && r.matches_host host) = true)
      ↔ ∃ label, label <+: segments '/' path ∧ (label = [] → path = []) ∧
          i ∈ Trie.values_at index.nodes label ∧ serves routes method host i = true := by
  constructor
  · rintro ⟨r, hr, hmatch⟩
    rw [Bool.and_assoc, Bool.and_eq_true, under_prefix_segments hpath] at hmatch
    obtain ⟨⟨hpre, hempty⟩, hrest⟩ := hmatch
    refine ⟨segments '/' r.path_prefix, hpre, fun hl => hempty (segments_eq_nil.mp hl),
      (mem_values_at_build h _ i).mpr ⟨r, hr, rfl⟩, ?_⟩
    rw [serves, hr]
    exact hrest
  · rintro ⟨label, hpre, hempty, hmem, hserves⟩
    obtain ⟨r, hr, rfl⟩ := (mem_values_at_build h label i).mp hmem
    refine ⟨r, hr, ?_⟩
    rw [serves, hr] at hserves
    rw [Bool.and_assoc, Bool.and_eq_true, under_prefix_segments hpath]
    exact ⟨⟨hpre, fun hp => hempty (segments_eq_nil.mpr hp)⟩, hserves⟩

/-- **The index refines the scan.** -/
theorem find_eq_find? (h : PrefixIndex.build routes = some index) {path : Str}
    (hpath : path.head? ≠ some '/') (method : Str) (host : Option Str) :
    index.find routes path method host = routes.find? fun r =>
      under_prefix path r.path_prefix && r.matches_method method && r.matches_host host := by
  have hnone : Least (fun _ => False) none := fun _ hi => hi
  rw [PrefixIndex.find]
  refine find?_of_least ((least_congr (fun i => mem_considered h hpath method host i) _).mpr ?_)
  rcases eq_or_ne path [] with rfl | hne
  · -- the empty path is looked up at the root
    have hroot : Trie.reach index.nodes 0 [] = some 0 := rfl
    refine (least_congr ?_ _).mp (least_consider h method host hroot hnone)
    intro i
    rw [false_or, segments_nil, values_of_reach hroot]
    constructor
    · rintro ⟨hmem, hserves⟩
      exact ⟨[], List.prefix_rfl, fun _ => rfl, hmem, hserves⟩
    · rintro ⟨label, hpre, -, hmem, hserves⟩
      obtain rfl := List.prefix_nil.mp hpre
      exact ⟨hmem, hserves⟩
  · -- any other at every node its segments lead to
    rw [if_neg (by simpa using hne)]
    have hvisit : ∀ node ∈ Trie.visited index.nodes 0 (split '/' path), ∀ P best,
        Least P best → Least (fun i => P i ∨
          (i ∈ Trie.values_of index.nodes node ∧ serves routes method host i = true))
          (index.consider routes method host best node) := by
      intro node hnode P best hbest
      obtain ⟨label, -, -, hreach⟩ := Trie.mem_visited.mp hnode
      exact least_consider h method host hreach hbest
    refine (least_congr ?_ _).mp (least_foldl hvisit hnone)
    intro i
    rw [false_or, segments_of_ne_nil hne]
    constructor
    · rintro ⟨node, hnode, hmem, hserves⟩
      obtain ⟨label, hlabel, hpre, hreach⟩ := Trie.mem_visited.mp hnode
      rw [values_of_reach hreach] at hmem
      exact ⟨label, hpre, fun h => absurd h hlabel, hmem, hserves⟩
    · rintro ⟨label, hpre, hempty, hmem, hserves⟩
      -- A label that leads nowhere has no values, so it cannot be this one.
      cases hreach : Trie.reach index.nodes 0 label with
      | none =>
        rw [Trie.values_at, hreach] at hmem
        exact absurd hmem List.not_mem_nil
      | some node =>
        rw [← values_of_reach hreach] at hmem
        exact ⟨node, Trie.mem_visited.mpr ⟨label, fun h => hne (hempty h), hpre, hreach⟩,
          hmem, hserves⟩

/-! ## Requests -/

/-- What a request is matched on: its path, method and host, normalized. -/
def matches_request (host : Option Str) (path method : Str) (r : RouteConfig) : Bool :=
  under_prefix (normalize_proxy_path path) r.path_prefix
    && r.matches_method (to_ascii_uppercase method)
    && r.matches_host (host.map fun h => to_ascii_lowercase (normalize_host h))

theorem ascii_cased_upper (method : Str) :
    ascii_cased method Char.isLower to_ascii_uppercase = to_ascii_uppercase method := by
  refine ascii_cased_eq ?_ method
  intro c hc
  have hlower : ¬ (c.val ≥ 'a'.val ∧ c.val ≤ 'z'.val) := fun h => by
    rw [show c.isLower = true from Bool.and_eq_true_iff.mpr
      ⟨decide_eq_true h.1, decide_eq_true h.2⟩] at hc
    cases hc
  exact dif_neg hlower

theorem ascii_cased_lower (host : Str) :
    ascii_cased host Char.isUpper to_ascii_lowercase = to_ascii_lowercase host := by
  refine ascii_cased_eq ?_ host
  intro c hc
  have hupper : ¬ (c.val ≥ 'A'.val ∧ c.val ≤ 'Z'.val) := of_decide_eq_false hc
  exact dif_neg hupper

/-- The request path's answer is the scan's, with or without an index. -/
theorem match_request_eq_find? (t : RouteTable) (host : Option Str) (path method : Str) :
    t.match_request host path method = t.routes.find? (matches_request host path method) := by
  simp only [RouteTable.match_request, ascii_cased_upper, ascii_cased_lower]
  cases hindex : t.lookup with
  | none => rfl
  | some index =>
    exact find_eq_find? (t.lookup_eq.symm.trans hindex) (head?_trim_matches '/' path) _ _

/-- The first candidate that passes both tests is the first route that matches. -/
theorem find?_prefix_candidates (t : RouteTable) (host : Option Str) (path method : Str) :
    ((t.prefix_candidates host path method).find? fun c =>
        c.host_matches && c.method_matches).map RouteCandidate.route
      = t.routes.find? (matches_request host path method) := by
  rw [RouteTable.prefix_candidates, List.find?_map, List.find?_filter, Option.map_map]
  have htest : ∀ r : RouteConfig, matches_request host path method r
      = ( under_prefix (normalize_proxy_path path) r.path_prefix
        && (r.matches_host (host.map fun h => to_ascii_lowercase (normalize_host h))
          && r.matches_method (to_ascii_uppercase method))) := fun r => by
    rw [matches_request, Bool.and_assoc, Bool.and_comm (r.matches_method _)]
  simp only [Bool.decide_and, Bool.decide_eq_true, Function.comp_def, Option.map_id']
  exact congrArg t.routes.find? (funext fun r => (htest r).symm)

/-- **Matching is the first match in table order**, for every table, and by every way the
table has of finding it: the request path's own answer, the index when there is one, and
the first of the candidates reported to an operator that passes both of its tests. -/
theorem match_request_first_match (t : RouteTable) (host : Option Str) (path method : Str) :
    t.match_request host path method = t.routes.find? (matches_request host path method)
      ∧ (∀ index, t.lookup = some index →
          index.find t.routes (normalize_proxy_path path) (to_ascii_uppercase method)
              (host.map fun h => to_ascii_lowercase (normalize_host h))
            = t.match_request host path method)
      ∧ ((t.prefix_candidates host path method).find? fun c =>
            c.host_matches && c.method_matches).map RouteCandidate.route
          = t.match_request host path method := by
  rw [match_request_eq_find?]
  refine ⟨rfl, fun index hindex => ?_, find?_prefix_candidates t host path method⟩
  exact find_eq_find? (t.lookup_eq.symm.trans hindex) (head?_trim_matches '/' path) _ _

end Lagos.Routes
