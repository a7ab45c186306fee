/-
Under what a response is cached (`cache/policy.rs`, `cache_key_callback` and
`cache_vary_filter` of `proxy.rs`).

A key is one text in which each of its parts stands behind its length, and so do the values of
a field that a stored response varies by. `variance` writes down what the upstream is sent of
such a field without sending it: it looks at the plan and at the allowlist, where
`upstream_request_filter` edits the headers. The two agree on every field but `Host`
(`map_bytes_sent`), so requests that share a response are told apart by nothing that the
response depends on (`cache_isolated`).

The hash of a variance is Pingora's, and is taken for the variance itself: `VarianceBuilder` has
that no two of them have one hash.
-/
import Lagos.HeaderPolicy
import Lagos.Lib.Framing
import Mathlib.Data.List.SplitLengths
import Mathlib.Tactic.IntervalCases

set_option autoImplicit false

open RustStd Framing

namespace Lagos.CachePolicy

open Lagos.Headers Lagos.Outbound

/-! ## Keys -/

/-- `isize::MAX`. -/
def ISIZE_MAX : ℕ := 9223372036854775807

/-- What is in memory: no allocation is larger. -/
def Fits (bytes : List UInt8) : Prop := bytes.length ≤ ISIZE_MAX

instance (bytes : List UInt8) : Decidable (Fits bytes) := inferInstanceAs (Decidable (_ ≤ _))

/-- `usize::to_be_bytes`. -/
def to_be_bytes (n : ℕ) : List UInt8 := (digits 256 8 n).map UInt8.ofNat

/-- `frame`. -/
def frame (out value : List UInt8) : List UInt8 := out ++ (to_be_bytes value.length ++ value)

/-- `CacheKey`, of which the hash is that of `primary`. -/
structure CacheKey where
  primary : List UInt8
  user_tag : Str
  deriving DecidableEq, Repr

/-- `key`. -/
def key (parts : List Str) (tag : Str) : CacheKey where
  primary := (parts.map utf8_bytes).foldl frame []
  user_tag := tag

/-- `Uuid::to_string`: the digits in groups of 8, 4, 4, 4 and 12. -/
def hyphenated (uuid : ℕ) : Str :=
  join '-' ([8, 4, 4, 4, 12].splitLengths ((digits 16 32 uuid).map Nat.digitChar))

/-- A request on a cacheable route, with what the context has of its table and its route. -/
structure Lookup where
  cache_namespace : ℕ
  route_id : Str
  upstream_name : Str
  plan : HeaderPlan
  method : Str
  /-- `path_and_query`, or the path where there is none. -/
  path_and_query : Str
  headers : HeaderMap
  uuid_range : cache_namespace < 16 ^ 32
  texts_fit : ∀ s ∈ [route_id, upstream_name, method, path_and_query], Fits (utf8_bytes s)
  plan_fits : ∀ p ∈ plan.additions, Fits (utf8_bytes p.2)
  headers_fit : ∀ e ∈ headers.entries, Fits e.2.bytes

/-- The `Host` of a request, in lowercase; empty where it has none that can be read. -/
def lower_host (headers : HeaderMap) : Str :=
  to_ascii_lowercase ((header_str headers HOST).getD [])

/-- `Gateway::cache_key_callback`. -/
def cache_key_callback (l : Lookup) : CacheKey :=
  key [hyphenated l.cache_namespace, l.route_id, l.upstream_name, lower_host l.headers, l.method,
    l.path_and_query] l.route_id

/-! ## Variance -/

def VARY : Str := "vary".toList

/-- A name in a `Vary`. -/
def vary_field (crates : Crates) (name : Str) : Option Str :=
  if name = ['*'] then none
  else if crates.header_name name then some (to_ascii_lowercase name)
  else none

/-- `vary_fields`: a set, in order. -/
def vary_fields (crates : Crates) (resp : HeaderMap) : Option (List Str) := do
  let values ← (resp.get_all VARY).mapM HeaderValue.to_str
  let names := ((values.flatMap (split ',')).map trim).filter fun s => !s.isEmpty
  let fields ← names.mapM (vary_field crates)
  return fields.dedup.mergeSort fun a b => !(b < a)

/-- `pingora::cache::VarianceBuilder`, of the fields in order. -/
structure VarianceBuilder (HashBinary : Type) where
  finalize : List (Str × List UInt8) → Option HashBinary
  finalize_nil : finalize [] = none
  /-- Hashing is free of collisions. -/
  finalize_injective : ∀ {m m' : List (Str × List UInt8)} {h : HashBinary},
    finalize m = some h → finalize m' = some h → m = m'

/-- The bytes of a field, in `variance`. -/
def field_bytes (req : HeaderMap) (plan : HeaderPlan) (forwardable : Str → Bool) (name : Str) :
    List UInt8 :=
  match plan.additions.lookup name with
  | some value => frame [] (utf8_bytes value)
  | none =>
    if name ∉ plan.removals ∧ forwardable name = true then
      ((req.get_all name).map HeaderValue.bytes).foldl frame []
    else []

section Variance

variable {HashBinary : Type} (builder : VarianceBuilder HashBinary) (crates : Crates)

/-- `variance`. -/
def variance (resp req : HeaderMap) (plan : HeaderPlan) (forwardable : Str → Bool) :
    Option HashBinary := do
  let fields ← vary_fields crates resp
  builder.finalize (fields.map fun name => (name, field_bytes req plan forwardable name))

/-- The closure of `cache_vary_filter`. -/
def forwardable (g : Gateway) (name : Str) : Bool :=
  g.cfg.raw.forward.mode = .Passthrough || g.is_forwardable name

/-- `Gateway::cache_vary_filter`, for a response that is stored. -/
def cache_vary_filter (g : Gateway) (resp : HeaderMap) (l : Lookup) : Option HashBinary :=
  variance builder crates resp l.headers l.plan (forwardable g)

end Variance

/-! ## Frames can be read back -/

theorem foldl_frame (out : List UInt8) (l : List (List UInt8)) :
    l.foldl frame out = out ++ frames to_be_bytes l := by
  induction l generalizing out with
  | nil => rw [List.foldl_nil, frames, List.flatMap_nil, List.append_nil]
  | cons x l ih =>
    rw [List.foldl_cons, ih, frame, List.append_assoc, frames, frames, List.flatMap_cons]

theorem frames_inj {l l' : List (List UInt8)} (hl : ∀ x ∈ l, Fits x) (hl' : ∀ x ∈ l', Fits x)
    (h : frames to_be_bytes l = frames to_be_bytes l') : l = l' := by
  have hbyte : Set.InjOn UInt8.ofNat {d | d < 256} := by
    intro d hd e he h
    rw [← UInt8.toNat_ofNat_of_lt' hd, h, UInt8.toNat_ofNat_of_lt' he]
  have hbound : ∀ x : List UInt8, Fits x → x.length < 256 ^ 8 := by
    intro x hx
    rw [Fits, ISIZE_MAX] at hx
    omega
  have hwidth : ∀ n < 256 ^ 8, (to_be_bytes n).length = 8 := fun n hn => by
    rw [to_be_bytes, List.length_map, length_digits (by omega) hn]
  exact frames_injective (by omega) hwidth (injOn_digits_map (by omega) hbyte)
    (fun x hx => hbound x (hl x hx)) (fun x hx => hbound x (hl' x hx)) h

theorem utf8_bytes_inj {s t : Str} (h : utf8_bytes s = utf8_bytes t) : s = t := by
  have hread := congrArg Percent.from_utf8 h
  rw [Percent.from_utf8_utf8_bytes, Percent.from_utf8_utf8_bytes] at hread
  exact Option.some.inj hread

/-- **The parts of a key can be read back.** -/
theorem key_injective {parts parts' : List Str} {tag tag' : Str}
    (hparts : ∀ s ∈ parts, Fits (utf8_bytes s)) (hparts' : ∀ s ∈ parts', Fits (utf8_bytes s))
    (h : (key parts tag).primary = (key parts' tag').primary) : parts = parts' := by
  rw [key, key, foldl_frame, foldl_frame, List.nil_append, List.nil_append] at h
  refine List.map_injective_iff.mpr (fun s t hst => utf8_bytes_inj hst)
    (frames_inj (List.forall_mem_map.mpr hparts) (List.forall_mem_map.mpr hparts') h)

/-! ## The parts of a key -/

theorem injOn_digitChar : Set.InjOn Nat.digitChar {d | d < 16} := by
  intro d hd e he
  rw [Set.mem_ofPred_eq] at hd he
  interval_cases d <;> interval_cases e <;> simp [Nat.digitChar]

theorem length_hex {uuid : ℕ} (h : uuid < 16 ^ 32) :
    ((digits 16 32 uuid).map Nat.digitChar).length = 32 := by
  rw [List.length_map, length_digits (by omega) h]

/-- The hyphens of a UUID stand only between its groups, so its digits can be read back. -/
theorem flatten_split_hyphenated {uuid : ℕ} (h : uuid < 16 ^ 32) :
    (split '-' (hyphenated uuid)).flatten = (digits 16 32 uuid).map Nat.digitChar := by
  have hflat : ([8, 4, 4, 4, 12].splitLengths ((digits 16 32 uuid).map Nat.digitChar)).flatten
      = (digits 16 32 uuid).map Nat.digitChar :=
    List.flatten_splitLengths _ _ (Nat.le_of_eq (length_hex h))
  have hplain : ∀ s ∈ [8, 4, 4, 4, 12].splitLengths ((digits 16 32 uuid).map Nat.digitChar),
      '-' ∉ s := by
    intro s hs hmem
    have hall := List.mem_flatten_of_mem hs hmem
    rw [hflat] at hall
    obtain ⟨d, hd, hchar⟩ := List.mem_map.mp hall
    have hlt := lt_of_mem_digits (by omega) hd
    interval_cases d <;> simp [Nat.digitChar] at hchar
  rw [hyphenated, split_join hplain (by simp), hflat]

theorem hyphenated_injOn : Set.InjOn hyphenated {n | n < 16 ^ 32} := by
  intro m hm n hn h
  refine injOn_digits_map (by omega) injOn_digitChar hm hn ?_
  have hsame := congrArg (fun s => (split '-' s).flatten) h
  simpa only [flatten_split_hyphenated hm, flatten_split_hyphenated hn] using hsame

theorem fits_hyphenated {uuid : ℕ} (h : uuid < 16 ^ 32) : Fits (utf8_bytes (hyphenated uuid)) := by
  have hlen : (hyphenated uuid).length = 36 := by
    simp [hyphenated, join, List.intercalate, length_hex h]
  have hle := len_le (hyphenated uuid)
  rw [Fits, length_utf8_bytes, ISIZE_MAX]
  omega

/-- A value that reads as a text has as many bytes as the text. -/
theorem len_of_to_str {v : HeaderValue} {s : Str} (h : v.to_str = some s) :
    len s = v.bytes.length := by
  unfold HeaderValue.to_str at h
  split at h
  · rename_i hall
    cases h
    generalize v.bytes = bytes at hall
    induction bytes with
    | nil => rfl
    | cons b bytes ih =>
      rw [List.all_cons, Bool.and_eq_true] at hall
      have hone : (Char.ofNat b.toNat).utf8Size = 1 := by
        have hvisible := hall.1
        revert hvisible
        refine Percent.byte_induction (P := fun b => is_visible_ascii b = true →
          (Char.ofNat b.toNat).utf8Size = 1) ?_ b
        decide +kernel
      rw [chars, List.map_cons, len_cons, ← chars, ih hall.2, hone, List.length_cons, Nat.add_comm]
  · cases h

theorem fits_lower_host (l : Lookup) : Fits (utf8_bytes (lower_host l.headers)) := by
  rw [Fits, length_utf8_bytes, lower_host, len_lowercase]
  cases hread : header_str l.headers HOST with
  | none => exact Nat.zero_le _
  | some host =>
    obtain ⟨value, hvalue, hstr⟩ := Option.bind_eq_some_iff.mp hread
    have hmem := MultiMap.mem_entries_of_get_all (List.mem_of_mem_head? hvalue)
    rw [Option.getD_some, len_of_to_str hstr]
    exact l.headers_fit _ hmem

theorem cache_key_callback_parts {l l' : Lookup}
    (h : (cache_key_callback l).primary = (cache_key_callback l').primary) :
    l.cache_namespace = l'.cache_namespace ∧ l.route_id = l'.route_id
      ∧ l.upstream_name = l'.upstream_name ∧ lower_host l.headers = lower_host l'.headers
      ∧ l.method = l'.method ∧ l.path_and_query = l'.path_and_query := by
  -- Every part is short enough for its length to be written in eight bytes.
  have hfit : ∀ l : Lookup, ∀ s ∈ [hyphenated l.cache_namespace, l.route_id, l.upstream_name,
      lower_host l.headers, l.method, l.path_and_query], Fits (utf8_bytes s) := by
    intro l s hs
    have htexts := l.texts_fit
    simp only [List.mem_cons, List.not_mem_nil, or_false, forall_eq_or_imp, forall_eq]
      at hs htexts
    obtain rfl | rfl | rfl | rfl | rfl | rfl := hs
    · exact fits_hyphenated l.uuid_range
    · exact htexts.1
    · exact htexts.2.1
    · exact fits_lower_host l
    · exact htexts.2.2.1
    · exact htexts.2.2.2
  have hparts := key_injective (hfit l) (hfit l') h
  simp only [List.cons.injEq, and_true] at hparts
  exact ⟨hyphenated_injOn l.uuid_range l'.uuid_range hparts.1, hparts.2⟩

/-! ## What the upstream is sent -/

/-- The values of a field as `variance` has them, each by its bytes. -/
def field_values (req : HeaderMap) (plan : HeaderPlan) (forwardable : Str → Bool) (name : Str) :
    List (List UInt8) :=
  match plan.additions.lookup name with
  | some value => [utf8_bytes value]
  | none =>
    if name ∉ plan.removals ∧ forwardable name = true then (req.get_all name).map HeaderValue.bytes
    else []

theorem field_bytes_eq (req : HeaderMap) (plan : HeaderPlan) (forwardable : Str → Bool)
    (name : Str) :
    field_bytes req plan forwardable name
      = frames to_be_bytes (field_values req plan forwardable name) := by
  unfold field_bytes field_values
  split
  · exact foldl_frame [] [_]
  · split
    · exact foldl_frame [] _
    · rfl

theorem fits_field_values (l : Lookup) (forwardable : Str → Bool) (name : Str) :
    ∀ x ∈ field_values l.headers l.plan forwardable name, Fits x := by
  unfold field_values
  split
  · rename_i value hvalue
    obtain ⟨before, after, hsplit, -⟩ := List.lookup_eq_some_iff.mp hvalue
    rw [List.forall_mem_singleton]
    exact l.plan_fits (name, value) (by rw [hsplit]; simp)
  · split
    · rw [List.forall_mem_map]
      exact fun v hv => l.headers_fit _ (MultiMap.mem_entries_of_get_all hv)
    · exact List.forall_mem_nil _

theorem forwardable_eq_false {g : Gateway} {name : Str} :
    forwardable g name = false ↔ g.swept name := by
  rw [forwardable, Bool.or_eq_false_iff, Gateway.swept]
  cases g.cfg.raw.forward.mode <;> simp

/-- **The variance is that of what is sent.** Of every field but `Host`, the upstream is sent the
values that `variance` takes down. -/
theorem map_bytes_sent {g : Gateway} {crates : Crates} {target : Str} {plan : HeaderPlan}
    {headers out : HeaderMap}
    (h : g.upstream_request_filter crates target plan headers = .ok out) {n : Str}
    (hn : n ≠ HOST) :
    (out.get_all n).map HeaderValue.bytes = field_values headers plan (forwardable g) n := by
  have hcarried := carried_of_filter h n
  unfold HeaderPlan.fate at hcarried
  unfold field_values
  split
  · rename_i value hvalue
    rw [hvalue] at hcarried
    obtain ⟨sent, hsent, hout⟩ := hcarried.put value rfl
    rw [hout, List.map_singleton, insertable_bytes hsent]
  · rename_i hnone
    rw [hnone] at hcarried
    by_cases hremoved : n ∈ plan.removals
    · rw [if_pos hremoved] at hcarried
      rw [hcarried.dropped rfl, if_neg (fun hkept => hkept.1 hremoved), List.map_nil]
    · rw [if_neg hremoved] at hcarried
      cases hforwardable : forwardable g n with
      | false =>
        rw [hcarried.swept rfl (forwardable_eq_false.mp hforwardable), if_neg (by simp),
          List.map_nil]
      | true =>
        have hnot : ¬ g.swept n := fun hswept => by
          rw [forwardable_eq_false.mpr hswept] at hforwardable
          cases hforwardable
        rw [hcarried.kept rfl hnot (fun hhost => hn hhost.1), if_pos ⟨hremoved, rfl⟩]

theorem bytes_injective : Function.Injective HeaderValue.bytes := by
  rintro ⟨bytes, _⟩ ⟨_, _⟩ rfl
  rfl

/-- Responses that vary alike were asked for with the same values in every field that counts. -/
theorem sent_eq_of_variance_eq {HashBinary : Type} {builder : VarianceBuilder HashBinary}
    {crates : Crates} {g g' : Gateway} {target target' : Str} {resp out out' : HeaderMap}
    {l l' : Lookup} {h : HashBinary} {fields : List Str}
    (hvary : cache_vary_filter builder crates g resp l = some h)
    (hvary' : cache_vary_filter builder crates g' resp l' = some h)
    (hout : g.upstream_request_filter crates target l.plan l.headers = .ok out)
    (hout' : g'.upstream_request_filter crates target' l'.plan l'.headers = .ok out')
    (hfields : vary_fields crates resp = some fields) {n : Str} (hn : n ∈ fields)
    (hhost : n ≠ HOST) : out.get_all n = out'.get_all n := by
  rw [cache_vary_filter, variance, hfields] at hvary hvary'
  have hsame := List.map_inj_left.mp (builder.finalize_injective hvary hvary') n hn
  have hbytes := (Prod.mk.inj hsame).2
  rw [field_bytes_eq, field_bytes_eq] at hbytes
  have hvalues := frames_inj (fits_field_values l _ n) (fits_field_values l' _ n) hbytes
  rw [← map_bytes_sent hout hhost, ← map_bytes_sent hout' hhost] at hvalues
  exact List.map_injective_iff.mpr bytes_injective hvalues

/-- **No response is served to a request it was not for.** Requests with one primary key are for
the same table, route, upstream, host, method and target, whatever tables they were matched in;
and those that a stored response does not tell apart send the upstream the same in every field
that it varies by, but for `Host`. -/
theorem cache_isolated {l l' : Lookup}
    (h : (cache_key_callback l).primary = (cache_key_callback l').primary) :
    (l.cache_namespace = l'.cache_namespace ∧ l.route_id = l'.route_id
        ∧ l.upstream_name = l'.upstream_name ∧ lower_host l.headers = lower_host l'.headers
        ∧ l.method = l'.method ∧ l.path_and_query = l'.path_and_query)
      ∧ ∀ (HashBinary : Type) (builder : VarianceBuilder HashBinary) (crates : Crates)
        (g g' : Gateway) (target target' : Str) (resp out out' : HeaderMap) (hash : HashBinary)
        (fields : List Str),
        cache_vary_filter builder crates g resp l = some hash →
        cache_vary_filter builder crates g' resp l' = some hash →
        g.upstream_request_filter crates target l.plan l.headers = .ok out →
        g'.upstream_request_filter crates target' l'.plan l'.headers = .ok out' →
        vary_fields crates resp = some fields →
        ∀ n ∈ fields, n ≠ HOST → out.get_all n = out'.get_all n :=
  ⟨cache_key_callback_parts h, fun _ _ _ _ _ _ _ _ _ _ _ _ hvary hvary' hout hout' hfields _ hn
    hhost => sent_eq_of_variance_eq hvary hvary' hout hout' hfields hn hhost⟩

namespace TwoVisits

/-- The hash of a variance, which is the variance. -/
def builder : VarianceBuilder (List (Str × List UInt8)) where
  finalize := fun m => if m = [] then none else some m
  finalize_nil := rfl
  finalize_injective := by
    intro m m' h hm hm'
    rw [Option.ite_none_left_eq_some] at hm hm'
    exact Option.some.inj (hm.2.trans hm'.2.symm)

/-- `de`. -/
def de : HeaderValue := ⟨[0x64, 0x65], rfl⟩

/-- `a` and `b`. -/
def session_ids : HeaderValue × HeaderValue := (⟨[0x61], rfl⟩, ⟨[0x62], rfl⟩)

/-- The articles, in German, in a session. -/
def visit (session_id : HeaderValue) (h : Fits session_id.bytes) : Lookup where
  cache_namespace := 7
  route_id := "articles".toList
  upstream_name := "content".toList
  plan := HeaderPlan.new
  method := "GET".toList
  path_and_query := "/articles".toList
  headers := of_fields [("Accept-Language".toList, de), ("X-Session".toList, session_id)]
  uuid_range := by norm_num
  texts_fit := by decide +kernel
  plan_fits := by simp [HeaderPlan.new]
  headers_fit := by
    have hde : Fits de.bytes := by decide
    simp [of_fields, h, hde]

def first : Lookup := visit session_ids.1 (by decide)

def second : Lookup := visit session_ids.2 (by decide)

/-- The articles, which come in the language that is asked for. -/
def resp : HeaderMap :=
  of_fields [("Vary".toList, ⟨utf8_bytes "Accept-Language".toList, by decide +kernel⟩)]

/-- What the backend is sent. -/
def sent (l : Lookup) : HeaderMap :=
  (plain_gateway.upstream_request_filter plain_crates "content:80".toList l.plan
    l.headers).toOption.getD ⟨[]⟩

end TwoVisits

open TwoVisits in
/-- Two sessions share an article, which both of them asked for in German. -/
theorem cache_isolated_two_visits :
    first.headers ≠ second.headers ∧ first.path_and_query = second.path_and_query
      ∧ (sent first).get_all "accept-language".toList
        = (sent second).get_all "accept-language".toList :=
  have hisolated := @cache_isolated first second rfl
  ⟨by decide +kernel, hisolated.1.2.2.2.2.2,
    hisolated.2 _ builder plain_crates plain_gateway plain_gateway "content:80".toList
      "content:80".toList resp (sent first) (sent second)
      [("accept-language".toList, frame [] de.bytes)] ["accept-language".toList]
      (by decide +kernel) (by decide +kernel) (by decide +kernel) (by decide +kernel)
      (by decide +kernel) _ (by decide +kernel) (by decide +kernel)⟩

end Lagos.CachePolicy
