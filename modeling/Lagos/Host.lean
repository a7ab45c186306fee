/-
`HostPattern` and `normalize_host` of `routes/mod.rs`: which `Host` header a route
serves.

A pattern is a name or `*.` and a name. What the route table needs to know of two
patterns is whether one host can satisfy both, since then a request could match two
routes; `overlaps_of_matches` says that `overlaps` misses no such pair, two wildcards
included.
-/
import Lagos.Lib.RustStd

set_option autoImplicit false

open RustStd

namespace Lagos.Routes

/-! ## Patterns -/

/-- `HostPattern`. -/
inductive HostPattern where
  /-- `api.example.com` -/
  | Exact (want : Str)
  /-- `*.example.com`: any sub-domain, but not the bare suffix. -/
  | Suffix (suffix : Str)
  deriving DecidableEq, Repr

/-- `HostPattern::parse`. -/
def HostPattern.parse (raw : Str) : Except String HostPattern :=
  let raw := to_ascii_lowercase (trim raw)
  if raw.isEmpty then .error "host pattern is empty"
  else if '/' ∈ raw then
    .error s!"host `{text raw}` looks like a URL; a host is a name, optionally with a port"
  else
    match strip_prefix raw ['*', '.'] with
    | some suffix =>
      if !suffix.isEmpty then .ok (.Suffix suffix)
      else .error s!"host `{text raw}` has an empty wildcard suffix"
    | none => .ok (.Exact raw)

/-- `HostPattern::matches`. The leading dot is what stops `evilexample.com` matching
`*.example.com`. -/
def HostPattern.matches (pattern : HostPattern) (host : Str) : Bool :=
  match pattern with
  | .Exact want => host == want
  | .Suffix suffix =>
    len host > len suffix + 1 && ends_with host suffix
      && (get_to host (len host - len suffix)).any fun p => ends_with p ['.']

/-- `HostPattern::overlaps`: whether one `Host` value can satisfy both patterns. -/
def HostPattern.overlaps : HostPattern → HostPattern → Bool
  | .Exact a, .Exact b => a == b
  | .Exact a, b => b.matches a
  | a, .Exact b => a.matches b
  | .Suffix a, .Suffix b =>
    a == b || (strip_suffix a b).any (fun p => ends_with p ['.'])
      || (strip_suffix b a).any fun p => ends_with p ['.']

/-- `normalize_host`: the port removed, the brackets of an IPv6 literal kept. -/
def normalize_host (raw : Str) : Str :=
  let host := trim raw
  if starts_with host ['['] then
    match split_once ']' host with
    | some (h, _) => h ++ [']']
    | none => host
  else
    match split_once ':' host with
    | some (h, _) => h
    | none => host

/-! ## What the patterns mean -/

/-- A wildcard matches exactly the hosts that put at least one character and a dot before
its suffix. -/
theorem matches_suffix {suffix host : Str} :
    (HostPattern.Suffix suffix).matches host = true ↔
      ∃ p, p ≠ [] ∧ host = p ++ '.' :: suffix := by
  simp only [HostPattern.matches, Bool.and_eq_true, decide_eq_true_eq, gt_iff_lt]
  constructor
  · rintro ⟨⟨hlen, hends⟩, hdot⟩
    obtain ⟨q, rfl⟩ := ends_with_iff.mp hends
    rw [len_append, Nat.add_sub_cancel, get_to_append, Option.any_some, ends_with_iff] at hdot
    obtain ⟨p, rfl⟩ := hdot
    refine ⟨p, ?_, by simp⟩
    rintro rfl
    simp only [List.nil_append, len_append] at hlen
    exact absurd hlen (by rw [show len ['.'] = 1 from rfl]; omega)
  · rintro ⟨p, hp, rfl⟩
    -- One character is at least one byte, so the length test passes.
    have hpos : len p ≠ 0 := fun h => hp (len_eq_zero.mp h)
    rw [show p ++ '.' :: suffix = (p ++ ['.']) ++ suffix by simp, len_append,
      Nat.add_sub_cancel, get_to_append, Option.any_some, len_append,
      show len ['.'] = 1 from rfl]
    refine ⟨⟨by omega, ?_⟩, ?_⟩
    · exact ends_with_iff.mpr ⟨_, rfl⟩
    · exact ends_with_iff.mpr ⟨p, rfl⟩

example : (HostPattern.Suffix "example.com".toList).matches "evilexample.com".toList = false := by
  decide

/-- Of two dotted suffixes of one host, the longer is a sub-domain of the shorter. -/
theorem dotted_suffixes {a b p q : Str} (h : p ++ '.' :: a = q ++ '.' :: b)
    (hle : a.length ≤ b.length) :
    a = b ∨ (strip_suffix b a).any (fun p => ends_with p ['.']) = true := by
  rcases List.append_eq_append_iff.mp h with ⟨r, rfl, hr⟩ | ⟨r, rfl, hr⟩
  · cases r with
    | nil => exact .inl (List.cons.inj hr).2
    | cons x r =>
      have hlen := congrArg List.length hr
      simp only [List.length_cons, List.length_append] at hlen
      omega
  · cases r with
    | nil => exact .inl (List.cons.inj hr).2.symm
    | cons x r =>
      -- what the longer suffix has before the shorter ends with the shorter one's dot
      obtain ⟨rfl, hb⟩ := List.cons.inj hr
      right
      have hstrip : strip_suffix b a = some (r ++ ['.']) :=
        strip_suffix_eq_some.mpr (by simpa using hb)
      rw [hstrip, Option.any_some, ends_with_iff]
      exact ⟨r, rfl⟩

/-- **Overlap.** Two patterns that one host satisfies overlap. -/
theorem overlaps_of_matches {a b : HostPattern} {host : Str} (ha : a.matches host = true)
    (hb : b.matches host = true) : a.overlaps b = true := by
  cases a with
  | Exact x =>
    cases b with
    | Exact y =>
      simp only [HostPattern.matches, beq_iff_eq] at ha hb
      simp only [HostPattern.overlaps, beq_iff_eq, ← ha, ← hb]
    | Suffix y =>
      obtain rfl : host = x := by simpa [HostPattern.matches] using ha
      exact hb
  | Suffix x =>
    cases b with
    | Exact y =>
      obtain rfl : host = y := by simpa [HostPattern.matches] using hb
      exact ha
    | Suffix y =>
      obtain ⟨p, -, hp⟩ := matches_suffix.mp ha
      obtain ⟨q, -, hq⟩ := matches_suffix.mp hb
      simp only [HostPattern.overlaps, Bool.or_eq_true, beq_iff_eq]
      -- The host ends with both suffixes, so the longer one ends with the shorter.
      rcases Nat.le_total x.length y.length with hle | hle
      · rcases dotted_suffixes (hp.symm.trans hq) hle with h | h
        · exact .inl (.inl h)
        · exact .inr h
      · rcases dotted_suffixes (hq.symm.trans hp) hle with h | h
        · exact .inl (.inl h.symm)
        · exact .inl (.inr h)

end Lagos.Routes
