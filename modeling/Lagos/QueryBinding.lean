/-
What a binding is checked against is what the upstream reads (`binding.rs`, and the reading of
headers in `proxy.rs`).

A query is read differently by different parsers where a name is in it twice: the first value wins,
or the last, or there is a list. `query_param` gives a value only if the name is in the query once,
in whatever spelling, and every other name can be decoded (`query_param_eq_some_iff`); then there
is nothing to disagree about (`FormParser.values_eq`).
-/
import Lagos.Binding
import Lagos.Headers

set_option autoImplicit false

open RustStd

namespace Lagos.Config

open Lagos.Auth Lagos.Headers

/-! ## One pair -/

/-- A pair as it is written: a name without a value has the empty one. -/
def written_pair (pair : Str) : Str × Str := (split_once '=' pair).getD (pair, [])

/-- The name of a pair, -/
def pair_key (pair : Str) : Option Str := percent_decode (written_pair pair).1

/-- and its value. -/
def pair_value (pair : Str) : Option Str := percent_decode (written_pair pair).2

/-- The pairs that have a name. -/
def pairs_named (name : Str) (pairs : List Str) : List Str :=
  pairs.filter fun pair => pair_key pair == some name

/-- A name has one value in a query: every name can be decoded, this one is there once, and so is
its value. -/
structure Unambiguous (query name v : Str) : Prop where
  readable : ∀ pair ∈ split '&' query, pair_key pair ≠ none
  once : (pairs_named name (split '&' query)).map pair_value = [some v]

/-! ## The loop -/

theorem scan_pairs_cons (name pair : Str) (pairs : List Str) (value : Option Str) :
    scan_pairs name (pair :: pairs) value
      = (pair_key pair).bind fun key =>
          if key = name then
            if value.isSome then none
            else (pair_value pair).bind fun v => scan_pairs name pairs (some v)
          else scan_pairs name pairs value := rfl

/-- **The loop over the pairs**, with what was found before: it is the only value, or none was
found and there is one. -/
theorem scan_pairs_eq_some_iff {name v : Str} {pairs : List Str} {value : Option Str} :
    scan_pairs name pairs value = some v
      ↔ (∀ pair ∈ pairs, pair_key pair ≠ none)
        ∧ (value.map some).toList ++ (pairs_named name pairs).map pair_value = [some v] := by
  induction pairs generalizing value with
  | nil =>
    cases value with
    | none => simp [scan_pairs, pairs_named]
    | some u => simp [scan_pairs, pairs_named]
  | cons pair pairs ih =>
    rw [scan_pairs_cons, List.forall_mem_cons]
    cases hkey : pair_key pair with
    | none => exact iff_of_false nofun fun h => h.1.1 rfl
    | some key =>
      rw [Option.bind_some]
      by_cases hname : key = name
      · have hnamed : pairs_named name (pair :: pairs) = pair :: pairs_named name pairs :=
          List.filter_cons_of_pos (by rw [hkey, hname, beq_self_eq_true])
        rw [if_pos hname, hnamed, List.map_cons]
        cases value with
        -- A second pair of the name ends the loop.
        | some u => simp
        | none =>
          cases hvalue : pair_value pair with
          | none => simp
          | some u => simpa using @ih (some u)
      · have hnamed : pairs_named name (pair :: pairs) = pairs_named name pairs :=
          List.filter_cons_of_neg (by simpa [hkey] using hname)
        rw [if_neg hname, hnamed, ih]
        simp

/-- `query_param` gives the one value of a name. -/
theorem query_param_eq_some_iff (query name v : Str) :
    query_param query name = some v ↔ Unambiguous query name v := by
  rw [query_param, scan_pairs_eq_some_iff]
  exact ⟨fun h => ⟨h.1, h.2⟩, fun h => ⟨h.readable, h.once⟩⟩

/-! ## Parsers of forms -/

/-- A parser of forms: how it reads bytes, as UTF-8 where they are, and whether pairs of nothing
are left out. What it cannot read at all it leaves out as well. -/
structure FormParser where
  read : List UInt8 → Option Str
  read_utf8 : ∀ bytes s, Percent.from_utf8 bytes = some s → read bytes = some s
  skips_empty : Bool

namespace FormParser

variable (p : FormParser)

/-- A plus is a space, and then the escapes are bytes. -/
def decode (s : Str) : Option Str :=
  p.read (Percent.percent_decode (utf8_bytes (s.map fun c => if c = '+' then ' ' else c)))

/-- The pairs that it finds in a query. -/
def pairs (query : Str) : List (Str × Str) :=
  ((split '&' query).filter fun pair => !(p.skips_empty && pair.isEmpty)).filterMap fun pair =>
    (p.decode (written_pair pair).1).bind fun k =>
      (p.decode (written_pair pair).2).map fun v => (k, v)

/-- All the values of a name, -/
def values (query name : Str) : List Str :=
  (p.pairs query).filterMap fun pair => if pair.1 = name then some pair.2 else none

/-- the first of them, -/
def first (query name : Str) : Option Str := (p.values query name).head?

/-- and the last. -/
def last (query name : Str) : Option Str := (p.values query name).getLast?

variable {p}

theorem decode_eq {s t : Str} (h : percent_decode s = some t) : p.decode s = some t :=
  p.read_utf8 _ _ h

/-- What a pair is to a parser that looks for a name. -/
def value_of (p : FormParser) (name pair : Str) : Option Str :=
  if p.skips_empty && pair.isEmpty then none
  else (p.decode (written_pair pair).1).bind fun k =>
    if k = name then p.decode (written_pair pair).2 else none

theorem values_eq_filterMap (query name : Str) :
    p.values query name = (split '&' query).filterMap (p.value_of name) := by
  rw [values, pairs, List.filterMap_filterMap, List.filterMap_filter]
  refine List.filterMap_congr fun pair _ => ?_
  unfold value_of
  cases p.skips_empty && pair.isEmpty with
  | true => rfl
  | false =>
    cases p.decode (written_pair pair).1 with
    | none => rfl
    | some k =>
      by_cases hk : k = name
      · cases p.decode (written_pair pair).2 with
        | none => simp [hk]
        | some v => simp [hk]
      · cases p.decode (written_pair pair).2 with
        | none => simp
        | some v => simp [hk]

/-- A pair that is decoded has its value for its name only. -/
theorem value_of_eq {name pair key : Str} (hname : name ≠ []) (hkey : pair_key pair = some key)
    (hvalue : key = name → pair_value pair ≠ none) :
    p.value_of name pair = if key = name then pair_value pair else none := by
  unfold value_of
  rw [decode_eq hkey, Option.bind_some]
  by_cases hk : key = name
  · obtain ⟨v, hv⟩ := Option.ne_none_iff_exists'.mp (hvalue hk)
    -- A pair of nothing has the empty name, which is never bound.
    have hpair : pair ≠ [] := by
      rintro rfl
      have hnil : pair_key [] = some [] := by decide
      rw [hnil] at hkey
      exact hname (hk ▸ (Option.some.inj hkey).symm)
    rw [List.isEmpty_eq_false_iff.mpr hpair, Bool.and_false, if_neg Bool.false_ne_true, if_pos hk,
      if_pos hk, hv]
    exact decode_eq hv
  · simp [hk]

/-- **All parsers agree on a name with one value.** -/
theorem values_eq {query name v : Str} (hname : name ≠ []) (h : Unambiguous query name v) :
    p.values query name = [v] := by
  rw [values_eq_filterMap]
  have hvalues : ∀ pair ∈ split '&' query,
      p.value_of name pair = if pair_key pair = some name then pair_value pair else none := by
    intro pair hpair
    obtain ⟨key, hkey⟩ := Option.ne_none_iff_exists'.mp (h.readable pair hpair)
    rw [hkey]
    refine (value_of_eq hname hkey fun hk hnone => ?_).trans (by simp)
    -- The pairs of the name are those whose values are listed.
    have hmem : pair_value pair ∈ (pairs_named name (split '&' query)).map pair_value :=
      List.mem_map_of_mem (List.mem_filter.mpr ⟨hpair, by rw [hkey, hk, beq_self_eq_true]⟩)
    rw [h.once, hnone] at hmem
    cases List.mem_singleton.mp hmem
  rw [List.filterMap_congr hvalues]
  have hnamed : (split '&' query).filterMap
        (fun pair => if pair_key pair = some name then pair_value pair else none)
      = ((pairs_named name (split '&' query)).map pair_value).filterMap id := by
    rw [pairs_named, List.filterMap_map, List.filterMap_filter]
    simp
  rw [hnamed, h.once]
  rfl

end FormParser

/-! ## Headers -/

/-- The header that a binding is given: one that is there once, and can be read. -/
def bound_header (headers : HeaderMap) (name : Str) : Option Str :=
  (headers.get_all name).head?.bind fun value => value.to_str.bind fun value =>
    if (headers.get_all name).tail.isEmpty then some value else none

theorem bound_header_eq_some_iff {headers : HeaderMap} {name v : Str} :
    bound_header headers name = some v
      ↔ ∃ value, headers.get_all name = [value] ∧ value.to_str = some v := by
  unfold bound_header
  cases headers.get_all name with
  | nil => simp
  | cons value rest =>
    cases hv : value.to_str with
    | none => simp [hv]
    | some u =>
      cases rest with
      | nil => simp [hv]
      | cons next rest => simp

/-! ## Bindings -/

/-- What the request has for a binding, and nothing beside it. -/
def Binding.Supplies (b : Binding) (query : Option Str) (headers : HeaderMap) (v : Str) : Prop :=
  match b.source with
  | .Query name => ∃ q, query = some q ∧ Unambiguous q name v
  | .Header name => ∃ value, headers.get_all name = [value] ∧ value.to_str = some v

/-- Every way of reading what is bound finds this value, and no other. -/
def Binding.SeenAs (b : Binding) (query : Option Str) (headers : HeaderMap) (v : Str) : Prop :=
  match b.source with
  | .Query name => ∃ q, query = some q ∧ ∀ p : FormParser,
      p.values q name = [v] ∧ p.first q name = some v ∧ p.last q name = some v
  | .Header name => (headers.get_all name).map HeaderValue.to_str = [some v]

theorem Binding.supplied_eq_some_iff {b : Binding} {query : Option Str} {headers : HeaderMap}
    {v : Str} : b.supplied query (bound_header headers) = some v ↔ b.Supplies query headers v := by
  unfold Binding.supplied Binding.Supplies
  cases b.source with
  | Query name =>
    rw [Option.bind_eq_some_iff]
    exact exists_congr fun q => and_congr_right fun _ => query_param_eq_some_iff q name v
  | Header name => exact bound_header_eq_some_iff

/-- A bound name is not empty. -/
theorem Source.parse_query {source name : Str} (h : Source.parse source = .ok (.Query name)) :
    name ≠ [] := by
  unfold Source.parse at h
  dsimp only at h
  split at h
  · split at h
    · rename_i hname
      cases h
      exact hname.2
    · split at h
      · cases h
      · cases h
  · cases h

theorem Binding.seenAs {b : Binding} {source target : Str}
    (hb : Binding.parse source target = .ok b) {query : Option Str} {headers : HeaderMap}
    {v : Str} (h : b.Supplies query headers v) : b.SeenAs query headers v := by
  obtain ⟨src, hsrc, hb⟩ := bind_eq_ok.mp hb
  obtain ⟨target, -, hb⟩ := bind_eq_ok.mp hb
  cases hb
  unfold Binding.Supplies at h
  unfold Binding.SeenAs
  cases src with
  | Query name =>
    obtain ⟨q, rfl, hv⟩ := h
    refine ⟨q, rfl, fun p => ?_⟩
    have hvalues := FormParser.values_eq (p := p) (Source.parse_query hsrc) hv
    exact ⟨hvalues, by rw [FormParser.first, hvalues]; rfl, by rw [FormParser.last, hvalues]; rfl⟩
  | Header name =>
    obtain ⟨value, hget, hv⟩ := h
    dsimp only
    rw [hget, List.map_singleton, hv]

/-- **A binding is checked against the one value that any upstream reads.** A request is permitted
exactly if it supplies one value, and the identity proves that one. -/
theorem binding_unambiguous (source target : Str) (b : Binding)
    (hb : Binding.parse source target = .ok b) (identity : Identity) (query : Option Str)
    (headers : HeaderMap) :
    (∀ q name v, query_param q name = some v ↔ Unambiguous q name v)
      ∧ (b.permits identity query (bound_header headers) = true
        ↔ ∃ v, b.Supplies query headers v ∧ b.proven identity = some v)
      ∧ (b.permits identity query (bound_header headers) = true →
        ∃ v, b.SeenAs query headers v ∧ b.proven identity = some v) := by
  have hiff : b.permits identity query (bound_header headers) = true
      ↔ ∃ v, b.Supplies query headers v ∧ b.proven identity = some v := by
    rw [Binding.permits_iff]
    exact exists_congr fun v => and_congr_left fun _ => Binding.supplied_eq_some_iff
  refine ⟨query_param_eq_some_iff, hiff, fun h => ?_⟩
  obtain ⟨v, hv, hproven⟩ := hiff.mp h
  exact ⟨v, Binding.seenAs hb hv, hproven⟩

/-- A subject that asks for itself, and for itself and someone else. -/
theorem own_id_only :
    let b : Binding := ⟨.Query "id".toList, .Subject⟩
    let identity : Identity :=
      { subject := "11".toList, issuer := [], audience := [], claims := [] }
    Binding.parse "query.id".toList "identity.sub".toList = .ok b
      ∧ (∃ v, b.SeenAs (some "a=b&id=%31%31".toList) ⟨[]⟩ v ∧ b.proven identity = some v)
      ∧ ¬ ∃ v, b.Supplies (some "id=11&i%64=12".toList) ⟨[]⟩ v ∧ b.proven identity = some v := by
  intro b identity
  have hb : Binding.parse "query.id".toList "identity.sub".toList = .ok b := by decide +kernel
  have hone := binding_unambiguous _ _ b hb identity (some "a=b&id=%31%31".toList) ⟨[]⟩
  have htwo := binding_unambiguous _ _ b hb identity (some "id=11&i%64=12".toList) ⟨[]⟩
  refine ⟨hb, hone.2.2 (by decide +kernel), fun h => ?_⟩
  exact absurd (htwo.2.1.mpr h) (by decide +kernel)

end Lagos.Config
