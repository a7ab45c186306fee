/-
Which host patterns a request can match (`HostPattern::parse`, `HostPattern::matches`,
`normalize_host` in `routes/mod.rs`).

The port is taken off an incoming host and not off a pattern, although `parse` takes a pattern with
one. So there is a `Host` field that a pattern matches just if the pattern is a host itself, without
a port, or one in which `*.` stands for the beginning of a literal (`host_reachable_iff`).
-/
import Lagos.Host
import Lagos.Lib.UriHost

set_option autoImplicit false

open RustStd

namespace Lagos.Routes

open UriHost

/-! ## Incoming hosts -/

/-- Some `Host` field is matched, as `match_request` reads it. -/
def HostPattern.Reachable (pattern : HostPattern) : Prop :=
  ∃ field, Field field
    ∧ pattern.matches (to_ascii_lowercase (normalize_host field)) = true

/-- A text that is matched if it is a pattern: a host, or `*.` and the end of a literal. -/
def Servable (text : Str) : Prop :=
  Host text ∨ ∃ s, text = '*' :: '.' :: (s ++ [']']) ∧ ∀ c ∈ s, literal_char c = true

theorem not_blank_of_literal_char {c : Char} (h : literal_char c = true) :
    is_whitespace c = false :=
  ascii_induction (P := fun c => is_whitespace c = false) (fun _ => id) (by decide +kernel) h

theorem not_blank_of_host {host : Str} (h : Host host) :
    ∀ c ∈ host, is_whitespace c = false := by
  cases h with
  | name h =>
    intro c hc
    obtain hname | rfl := h.mem c hc
    · exact not_blank_of_literal_char (literal_of_name hname)
    · rfl
  | literal h =>
    refine List.forall_mem_cons.mpr ⟨rfl, List.forall_mem_append.mpr ⟨?_, ?_⟩⟩
    · exact fun c hc => not_blank_of_literal_char (h.mem c hc)
    · exact List.forall_mem_singleton.mpr rfl

theorem not_mem_of_name {host : Str} (h : RegName host) {c : Char} (hname : name_char c = false)
    (hne : c ≠ '%') : c ∉ host := by
  intro hmem
  obtain hc | hc := h.mem c hmem
  · rw [hname] at hc
    cases hc
  · exact hne hc

/-- What `normalize_host` makes of a host that something follows, after a colon. -/
theorem normalize_followed {host rest : Str} (h : Host host)
    (hblank : ∀ c ∈ rest, is_whitespace c = false)
    (hrest : rest = [] ∨ ∃ digits, rest = ':' :: digits) :
    normalize_host (host ++ rest) = host := by
  have htrim : trim (host ++ rest) = host ++ rest :=
    trim_of_no_blank (List.forall_mem_append.mpr ⟨not_blank_of_host h, hblank⟩)
  rw [normalize_host, htrim]
  cases h with
  | name h =>
    -- A name has no colon of its own, so the first one is that of the port.
    have hcolon : ':' ∉ host := not_mem_of_name h rfl (by decide)
    have hstart : starts_with (host ++ rest) ['['] = false := by
      have hbracket : '[' ∉ host := not_mem_of_name h rfl (by decide)
      cases host with
      | nil =>
        obtain rfl | ⟨digits, rfl⟩ := hrest
        · rfl
        · rfl
      | cons c host =>
        rw [List.mem_cons, not_or] at hbracket
        simp [starts_with, List.isPrefixOf, hbracket.1]
    rw [hstart, if_neg Bool.false_ne_true]
    obtain rfl | ⟨digits, rfl⟩ := hrest
    · rw [List.append_nil, split_once_eq_none hcolon]
    · rw [split_once_append hcolon]
  | @literal s h =>
    -- A literal is cut behind its bracket, whatever colons are in it.
    have hbracket : ']' ∉ '[' :: s := by
      rw [List.mem_cons, not_or]
      refine ⟨by decide, fun hmem => ?_⟩
      have hliteral := h.mem _ hmem
      revert hliteral
      decide
    have hsplit : '[' :: (s ++ [']']) ++ rest = ('[' :: s) ++ ']' :: rest := by simp
    have hstart : starts_with ('[' :: (s ++ [']']) ++ rest) ['['] = true := rfl
    rw [hstart, if_pos rfl, hsplit, split_once_append hbracket]
    rfl

/-- **The port is taken off, and nothing else.** -/
theorem normalize_field {field : Str} (h : Field field) :
    ∃ host, Host host ∧ normalize_host field = host := by
  cases h with
  | host h =>
    refine ⟨field, h, ?_⟩
    have hnormal := normalize_followed h (List.forall_mem_nil _) (.inl rfl)
    rwa [List.append_nil] at hnormal
  | port h hdigits =>
    refine ⟨_, h, normalize_followed h ?_ (.inr ⟨_, rfl⟩)⟩
    refine List.forall_mem_cons.mpr ⟨rfl, fun c hc => ?_⟩
    exact not_blank_of_literal_char (literal_of_digit (hdigits c hc))

/-- So a pattern is matched just by hosts. -/
theorem reachable_iff (pattern : HostPattern) :
    pattern.Reachable
      ↔ ∃ host, Host host ∧ pattern.matches (to_ascii_lowercase host) = true := by
  constructor
  · rintro ⟨field, hfield, hmatch⟩
    obtain ⟨host, hhost, hnormal⟩ := normalize_field hfield
    exact ⟨host, hhost, hnormal ▸ hmatch⟩
  · rintro ⟨host, hhost, hmatch⟩
    refine ⟨host, .host hhost, ?_⟩
    have hnormal := normalize_followed hhost (List.forall_mem_nil _) (.inl rfl)
    rw [List.append_nil] at hnormal
    rwa [hnormal]

/-! ## Patterns -/

/-- Text that is in lowercase, part by part. -/
theorem lowercase_append {s t : Str} (h : to_ascii_lowercase (s ++ t) = s ++ t) :
    to_ascii_lowercase s = s ∧ to_ascii_lowercase t = t := by
  rw [to_ascii_lowercase, List.map_append] at h
  exact List.append_inj h (List.length_map _)

/-- A name is matched just if it is a host. -/
theorem reachable_exact {want : Str} (hlower : to_ascii_lowercase want = want) :
    (HostPattern.Exact want).Reachable ↔ Host want := by
  rw [reachable_iff]
  constructor
  · rintro ⟨host, hhost, hmatch⟩
    rw [HostPattern.matches, beq_iff_eq] at hmatch
    exact hmatch ▸ hhost.lower
  · intro hhost
    exact ⟨want, hhost, by rw [hlower, HostPattern.matches, beq_self_eq_true]⟩

/-- What may come after a dot in a host: a name, or the end of a literal. -/
theorem after_dot {p s : Str} (hp : p ≠ []) (h : Host (p ++ '.' :: s)) :
    RegName s ∨ ∃ t, s = t ++ [']'] ∧ ∀ c ∈ t, literal_char c = true := by
  generalize hwhole : p ++ '.' :: s = whole at h
  cases h with
  | name h => exact .inl (RegName.of_append_dot (hwhole ▸ h))
  | @literal inner h =>
    right
    cases p with
    | nil => exact absurd rfl hp
    | cons d p =>
      have hinner : p ++ '.' :: s = inner ++ [']'] := (List.cons.inj hwhole).2
      -- The bracket at the end is that of what comes after the dot.
      obtain rfl | ⟨t, c, rfl⟩ := List.eq_nil_or_concat s
      · have hlast := congrArg List.getLast? hinner
        simp at hlast
      · rw [List.concat_eq_append] at hinner ⊢
        have hsplit : (p ++ '.' :: t) ++ [c] = inner ++ [']'] := by simpa using hinner
        obtain ⟨rfl, hc⟩ := List.append_inj' hsplit rfl
        refine ⟨t, by rw [(List.cons.inj hc).1], fun c hmem => h.mem c ?_⟩
        exact List.mem_append_right _ (List.mem_cons_of_mem _ hmem)

/-- A wildcard is matched just if what comes after it may come after a dot. -/
theorem reachable_suffix {suffix : Str} (hlower : to_ascii_lowercase suffix = suffix) :
    (HostPattern.Suffix suffix).Reachable
      ↔ RegName suffix ∨ ∃ t, suffix = t ++ [']'] ∧ ∀ c ∈ t, literal_char c = true := by
  rw [reachable_iff]
  constructor
  · rintro ⟨host, hhost, hmatch⟩
    obtain ⟨p, hp, heq⟩ := matches_suffix.mp hmatch
    exact after_dot hp (heq ▸ hhost.lower)
  · rintro (hname | ⟨t, rfl, ht⟩)
    · refine ⟨'a' :: '.' :: suffix, .name (.char rfl (.char rfl hname)), matches_suffix.mpr ?_⟩
      refine ⟨['a'], List.cons_ne_nil _ _, ?_⟩
      rw [to_ascii_lowercase, List.map_cons, List.map_cons, ← to_ascii_lowercase, hlower]
      rfl
    · -- An address of some version to come, with a part before the dot.
      refine ⟨'[' :: ('v' :: (['1'] ++ '.' :: ('a' :: '.' :: t)) ++ [']']), .literal ?_,
        matches_suffix.mpr ⟨"[v1.a".toList, List.cons_ne_nil _ _, ?_⟩⟩
      · refine .future (.inl rfl) (List.cons_ne_nil _ _) (List.forall_mem_singleton.mpr rfl)
          (List.cons_ne_nil _ _) ?_
        exact List.forall_mem_cons.mpr ⟨rfl, List.forall_mem_cons.mpr ⟨rfl, ht⟩⟩
      · have hhost : '[' :: ('v' :: (['1'] ++ '.' :: ('a' :: '.' :: t)) ++ [']'])
            = "[v1.a.".toList ++ (t ++ [']']) := rfl
        rw [hhost, to_ascii_lowercase, List.map_append, ← to_ascii_lowercase, ← to_ascii_lowercase,
          hlower]
        rfl

/-- What a pattern that is accepted is made of. -/
theorem parse_ok {raw : Str} {pattern : HostPattern} (h : HostPattern.parse raw = .ok pattern) :
    (∃ suffix, to_ascii_lowercase (trim raw) = '*' :: '.' :: suffix ∧ pattern = .Suffix suffix)
      ∨ (∀ suffix, to_ascii_lowercase (trim raw) ≠ '*' :: '.' :: suffix)
        ∧ pattern = .Exact (to_ascii_lowercase (trim raw)) := by
  unfold HostPattern.parse at h
  generalize to_ascii_lowercase (trim raw) = name at h
  dsimp only at h
  split at h
  · cases h
  · split at h
    · cases h
    · split at h
      · rename_i suffix hsuffix
        split at h
        · cases h
          exact .inl ⟨suffix, (List.isPrefixOf?_eq_some_iff_append_eq.mp hsuffix).symm, rfl⟩
        · cases h
      · rename_i hnone
        cases h
        refine .inr ⟨fun suffix heq => ?_, rfl⟩
        have hsome : strip_prefix name ['*', '.'] = some suffix :=
          List.isPrefixOf?_eq_some_iff_append_eq.mpr heq.symm
        rw [hnone] at hsome
        cases hsome

/-- A wildcard is a text like others, the asterisk being a character of names. -/
theorem servable_suffix {suffix : Str} :
    Servable ('*' :: '.' :: suffix)
      ↔ RegName suffix ∨ ∃ t, suffix = t ++ [']'] ∧ ∀ c ∈ t, literal_char c = true := by
  have hhost : Host ('*' :: '.' :: suffix) ↔ RegName suffix := by
    constructor
    · intro h
      cases h with
      | name h => exact RegName.of_append_dot (p := ['*']) h
    · exact fun h => .name (.char rfl (.char rfl h))
  rw [Servable, hhost]
  simp

theorem servable_exact {want : Str} (h : ∀ suffix, want ≠ '*' :: '.' :: suffix) :
    Servable want ↔ Host want := by
  refine or_iff_left ?_
  rintro ⟨s, hs, -⟩
  exact h _ hs

/-- **Which patterns can be matched**: those that are hosts, or end like a literal. -/
theorem host_reachable_iff {raw : Str} {pattern : HostPattern}
    (h : HostPattern.parse raw = .ok pattern) :
    pattern.Reachable ↔ Servable (to_ascii_lowercase (trim raw)) := by
  have hlower := lowercase_lowercase (trim raw)
  obtain ⟨suffix, heq, rfl⟩ | ⟨hne, rfl⟩ := parse_ok h
  · rw [heq] at hlower ⊢
    rw [servable_suffix]
    exact reachable_suffix (lowercase_append (s := ['*', '.']) hlower).2
  · rw [servable_exact hne]
    exact reachable_exact hlower

/-- Some wildcard that can be. -/
theorem subdomains_reachable : (HostPattern.Suffix "example.com".toList).Reachable := by
  refine (@host_reachable_iff " *.Example.com".toList _ (by decide +kernel)).mpr (.inl ?_)
  have hname : to_ascii_lowercase (trim " *.Example.com".toList) = "*.example.com".toList := by
    decide +kernel
  rw [hname]
  exact .name (.of_chars (List.all_eq_true.mp (by decide +kernel)))

/-- And a name with a port that cannot. -/
theorem port_unreachable :
    HostPattern.parse "api.example.com:8443".toList = .ok (.Exact "api.example.com:8443".toList)
      ∧ ¬ (HostPattern.Exact "api.example.com:8443".toList).Reachable := by
  refine ⟨by decide +kernel, fun h => ?_⟩
  have hhost := (reachable_exact (by decide)).mp h
  generalize hwant : "api.example.com:8443".toList = want at hhost
  cases hhost with
  | name h =>
    obtain hname | hname := h.mem ':' (hwant ▸ by decide)
    · cases hname
    · exact absurd hname (by decide)
  | literal h => cases hwant

end Lagos.Routes
