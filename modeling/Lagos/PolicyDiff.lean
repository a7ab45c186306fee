/-
What an empty diff means (`diff` in `cli/policy.rs`).

`diff` compares two configurations by texts: of each route, by its id, some fields as they are and
some as `{:?}` writes them, and of the configuration what else decides about routes. It looks at
no request. That no change is counted means that every request is decided alike
(`same_policy_of_no_changes`): the texts determine the fields, the fields determine what a route
matches, and in which order the routes were declared does not matter in a table that is accepted.
Whether a client key is asked for is compared at the prefix of the route only, which is enough
because an exemption of the prefix is one of everything beneath it.
-/
import Lagos.Lib.DebugText
import Lagos.PolicyTest
import Mathlib.Data.List.Dedup
import Mathlib.Algebra.Order.BigOperators.Group.List

set_option autoImplicit false

open RustStd DebugText

namespace Lagos.Policy

open Lagos.Config Lagos.Headers Lagos.Outbound Lagos.Path Lagos.Routes

/-! ## The texts of a route -/

/-- `PolicyOrigin::label`. -/
def origin_label : PolicyOrigin → Str
  | .Route => "route".toList
  | .GlobalDefaults => "global defaults".toList
  | .BuiltIn => "built-in".toList

/-- The label of an exemption, with what `ClientKeyExemption::describe` says. -/
def exempt_label (why : Str) : Str := "exempt (".toList ++ why ++ ")".toList

/-- `ClientKeyState::label`. -/
def ClientKeyState.label : ClientKeyRule → Str
  | .Required => "required".toList
  | .ExemptRoute => exempt_label "client_key: false on the route".toList
  | .ExemptPrefix p =>
    exempt_label ("under auth.client_keys.exempt `/".toList ++ p ++ "`".toList)
  | .ExemptGroup g =>
    exempt_label ("group `".toList ++ g ++ "` is in auth.client_keys.exempt_groups".toList)
  | .Off => "off".toList

/-- `bool::to_string`, and its `{:?}`. -/
def bool_text (b : Bool) : Str := (toString b).toList

/-- `{:?}` of a number. -/
def number_text (n : ℕ) : Str := (toString n).toList

/-- `{:?}` of a `RetryOn`. -/
def debug_retry_on : RetryOn → Str
  | .ConnectionFailure => "ConnectionFailure".toList
  | .TransportError => "TransportError".toList

/-- `{:?}` of a `RetryConfig`. -/
def debug_retry (r : RetryConfig) : Str :=
  debug_struct "RetryConfig" [("attempts", number_text r.attempts.toNat),
    ("on", debug_list (r.on.map debug_retry_on)), ("non_idempotent", bool_text r.non_idempotent)]

/-- `{:?}` of a `MissingKey`. -/
def debug_missing_key : MissingKey → Str
  | .Reject => "Reject".toList
  | .Route => "Route".toList
  | .Ip => "Ip".toList
  | .Skip => "Skip".toList

/-- `{:?}` of a `Counter`. -/
def debug_counter : Counter → Str
  | .Exact => "Exact".toList
  | .Sketch => "Sketch".toList
  | .Shared => "Shared".toList

/-- `{:?}` of a `LimitMode`. -/
def debug_mode : LimitMode → Str
  | .Approximate => "Approximate".toList
  | .Exact => "Exact".toList

section Texts

variable (escaped : Char → Bool)

/-- `{:?}` of a list of texts. -/
def debug_texts (texts : List Str) : Str := debug_list (texts.map (debug_str escaped))

/-- `{:?}` of a map of texts. -/
def debug_texts_map (entries : List (Str × Str)) : Str :=
  debug_map (entries.map fun e => (debug_str escaped e.1, debug_str escaped e.2))

/-- `{:?}` of a `RateLimitKey`. -/
def debug_key : RateLimitKey → Str
  | .Ip => "Ip".toList
  | .Identity => "Identity".toList
  | .Route => "Route".toList
  | .Header name => debug_tuple "Header" (debug_str escaped name)

/-- `{:?}` of a `RateLimitConfig`. -/
def debug_rate_limit (r : RateLimitConfig) : Str :=
  debug_struct "RateLimitConfig" [("requests", number_text r.requests),
    ("interval", (debug_duration r.interval).toList), ("key", debug_key escaped r.key),
    ("missing_key", debug_missing_key r.missing_key),
    ("trusted_proxies", number_text r.trusted_proxies), ("max_keys", number_text r.max_keys),
    ("counter", debug_counter r.counter), ("mode", debug_mode r.mode)]

/-- `{:?}` of a `ConcurrencyConfig`. -/
def debug_concurrency (c : ConcurrencyConfig) : Str :=
  debug_struct "ConcurrencyConfig" [("max", number_text c.max),
    ("key", debug_option (c.key.map (debug_key escaped))),
    ("missing_key", debug_missing_key c.missing_key),
    ("trusted_proxies", number_text c.trusted_proxies)]

/-- `route_fields`. -/
def route_fields (cfg : Outbound.ResolvedConfig) (route : RouteConfig) : List (String × Str) :=
  [("client_key", ClientKeyState.label (cfg.client_key_rule route route.path_prefix)),
    ("tier", route.auth.group.toList),
    ("prefix", route.path_prefix),
    ("hosts", debug_texts escaped route.host),
    ("methods", debug_texts escaped route.methods),
    ("methods_origin", origin_label route.policy_origins.methods),
    ("retry_origin", origin_label route.policy_origins.retry),
    ("rate_limit_origin", origin_label route.policy_origins.rate_limit),
    ("upstream", route.upstream),
    ("bindings", debug_texts_map escaped route.bind),
    ("extensions", debug_texts escaped route.extensions),
    ("rate_limit", debug_option (route.rate_limit.map (debug_rate_limit escaped))),
    ("concurrency", debug_option (route.concurrency.map (debug_concurrency escaped))),
    ("retry", debug_option (route.retry.map debug_retry)),
    ("cache", bool_text route.cache),
    ("cache_authenticated", bool_text route.cache_authenticated),
    ("sse", bool_text route.sse),
    ("strip_prefix", bool_text route.strip_prefix)]

end Texts

/-! ## The changes of a configuration -/

variable {crates : Crates}

/-- A configuration as `diff` reads it. -/
structure Reviewed (crates : Crates) extends Loaded crates where
  /-- The upstreams, each with its `{:?}`. -/
  upstreams : List (Str × Str)
  upstreams_eq : checked.upstreams = upstreams.map Prod.fst
  /-- `{:?}` of `auth.cookie_protection`. -/
  cookie_protection : Str

/-- The changes of one entry of two maps. -/
def entry_changes {V : Type} (between : V → V → ℕ) : Option V → Option V → ℕ
  | none, some _ => 1
  | some _, none => 1
  | some before, some after => between before after
  | none, none => 0

/-- The changes of each entry that one of two maps has. -/
def map_changes {V : Type} (between : V → V → ℕ) (old new : List (Str × V)) : ℕ :=
  ((old.map Prod.fst ++ new.map Prod.fst).dedup.map fun name =>
    entry_changes between (old.lookup name) (new.lookup name)).sum

/-- The fields of a route that differ. -/
def field_changes (before after : List (String × Str)) : ℕ :=
  before.countP fun field => after.lookup field.1 ≠ some field.2

/-- The elements that only one of two sets has. -/
def set_changes (old new : List Str) : ℕ :=
  (old.dedup.filter (· ∉ new)).length + (new.dedup.filter (· ∉ old)).length

/-- One value, compared. -/
def value_change {V : Type} [DecidableEq V] (old new : V) : ℕ := if old ≠ new then 1 else 0

/-- The routes of a configuration by their ids. -/
def Loaded.fields_by_id (l : Loaded crates) (escaped : Char → Bool) :
    List (Str × List (String × Str)) :=
  l.routes.routes.map fun r => (r.id, route_fields escaped l.resolved r)

/-- The changes that `diff` counts. -/
def diff_changes (escaped : Char → Bool) (old new : Reviewed crates) : ℕ :=
  map_changes field_changes (old.fields_by_id escaped) (new.fields_by_id escaped)
    + set_changes old.routes.deny_prefixes new.routes.deny_prefixes
    + value_change old.cfg.auth.token_cookies new.cfg.auth.token_cookies
    + value_change old.resolved.client_key_header new.resolved.client_key_header
    + value_change old.resolved.client_key_forward_as new.resolved.client_key_forward_as
    + set_changes (old.resolved.client_keys.map ClientKey.id)
      (new.resolved.client_keys.map ClientKey.id)
    + set_changes old.resolved.client_key_exempt new.resolved.client_key_exempt
    + set_changes old.resolved.client_key_exempt_groups new.resolved.client_key_exempt_groups
    + value_change old.cookie_protection new.cookie_protection
    + value_change old.base_paths new.base_paths
    + map_changes value_change old.upstreams new.upstreams

/-! ## What a route is for -/

/-- What two gateways make of a path with the routes they select for it. -/
structure SameRoute (cfg cfg' : Outbound.ResolvedConfig) (path : Str) (r r' : RouteConfig) :
    Prop where
  id : r.id = r'.id
  tier : r.auth = r'.auth
  upstream : r.upstream = r'.upstream
  upstream_path : r.upstream_path path = r'.upstream_path path
  bindings : r.bindings = r'.bindings
  methods : r.methods = r'.methods
  extensions : r.extensions = r'.extensions
  client_key : ClientKeyState.of (cfg.client_key_rule r path)
    = ClientKeyState.of (cfg'.client_key_rule r' path)

/-- Two configurations decide every request alike, on each listener. -/
structure SamePolicy (l l' : Loaded crates) : Prop where
  mounts : ∀ request_path,
    strip_base l.base_paths request_path = strip_base l'.base_paths request_path
  denied : ∀ listener path, (l.table listener).is_denied path = (l'.table listener).is_denied path
  routed : ∀ listener host path method, Option.Rel (SameRoute l.resolved l'.resolved path)
    ((l.table listener).match_request host path method)
    ((l'.table listener).match_request host path method)

/-! ## Nothing counted, nothing changed -/

section Counting

variable {V : Type} {between : V → V → ℕ}

theorem value_change_eq_zero [DecidableEq V] {old new : V} :
    value_change old new = 0 ↔ old = new := by
  unfold value_change
  split
  · rename_i hne
    exact iff_of_false Nat.one_ne_zero hne
  · rename_i heq
    exact iff_of_true rfl (not_not.mp heq)

theorem set_changes_eq_zero {old new : List Str} :
    set_changes old new = 0 ↔ ∀ x, x ∈ old ↔ x ∈ new := by
  unfold set_changes
  simp only [Nat.add_eq_zero_iff, List.length_eq_zero_iff, List.filter_eq_nil_iff, List.mem_dedup,
    decide_eq_true_eq, not_not]
  exact ⟨fun h x => ⟨h.1 x, h.2 x⟩, fun h => ⟨fun x => (h x).mp, fun x => (h x).mpr⟩⟩

/-- No entry of two maps without changes has any. -/
theorem of_map_changes {old new : List (Str × V)} (h : map_changes between old new = 0)
    (name : Str) : entry_changes between (old.lookup name) (new.lookup name) = 0 := by
  by_cases hname : name ∈ (old.map Prod.fst ++ new.map Prod.fst).dedup
  · exact List.sum_eq_zero_iff.mp h _ (List.mem_map_of_mem hname)
  · have hnone : ∀ l : List (Str × V), name ∉ l.map Prod.fst → l.lookup name = none := by
      intro l hl
      refine List.lookup_eq_none_iff.mpr fun p hp => bne_iff_ne.mpr ?_
      rintro rfl
      exact hl (List.mem_map_of_mem hp)
    rw [List.mem_dedup, List.mem_append, not_or] at hname
    rw [hnone old hname.1, hnone new hname.2]
    rfl

/-- What one has under a name the other has too, without a change in between. -/
theorem exists_after {old new : List (Str × V)} (h : map_changes between old new = 0) {name : Str}
    {before : V} (hbefore : old.lookup name = some before) :
    ∃ after, new.lookup name = some after ∧ between before after = 0 := by
  have hentry := of_map_changes h name
  rw [hbefore] at hentry
  cases hafter : new.lookup name with
  | none =>
    rw [hafter] at hentry
    cases hentry
  | some after =>
    rw [hafter] at hentry
    exact ⟨after, rfl, hentry⟩

/-- And the other way round. -/
theorem exists_before {old new : List (Str × V)} (h : map_changes between old new = 0) {name : Str}
    {after : V} (hafter : new.lookup name = some after) :
    ∃ before, old.lookup name = some before ∧ between before after = 0 := by
  have hentry := of_map_changes h name
  rw [hafter] at hentry
  cases hbefore : old.lookup name with
  | none =>
    rw [hbefore] at hentry
    cases hentry
  | some before =>
    rw [hbefore] at hentry
    exact ⟨before, rfl, hentry⟩

/-- Two records with the same names in the same order, and the same under each. -/
theorem eq_of_lookup {before after : List (String × Str)}
    (hnames : before.map Prod.fst = after.map Prod.fst) (hnodup : (before.map Prod.fst).Nodup)
    (h : ∀ field ∈ before, after.lookup field.1 = some field.2) : before = after := by
  induction before generalizing after with
  | nil => exact (List.map_eq_nil_iff.mp hnames.symm).symm
  | cons field before ih =>
    obtain ⟨name, value⟩ := field
    cases after with
    | nil => cases hnames
    | cons field' after =>
      obtain ⟨name', value'⟩ := field'
      obtain ⟨hname, htail⟩ := List.cons.inj hnames
      dsimp only at hname
      subst hname
      obtain ⟨hfresh, hrest⟩ := List.nodup_cons.mp hnodup
      have hvalue := h (name, value) List.mem_cons_self
      rw [List.lookup_cons_self, Option.some.injEq] at hvalue
      subst hvalue
      rw [ih htail hrest fun field hfield => ?_]
      have hlookup := h field (List.mem_cons_of_mem _ hfield)
      have hne : (field.1 == name) = false :=
        beq_false_of_ne fun heq => hfresh (List.mem_map.mpr ⟨field, hfield, heq⟩)
      rwa [List.lookup_cons, hne] at hlookup

end Counting

/-! ## What the texts determine -/

section Fields

variable {escaped : Char → Bool}

theorem debug_texts_injective : Function.Injective (debug_texts escaped) :=
  ((readable_str escaped).seq (by decide) fun _ _ _ h =>
    absurd (List.head_eq_of_cons_eq h) (by decide)).injective

theorem debug_texts_map_injective : Function.Injective (debug_texts_map escaped) := by
  have hentry := (readable_str escaped).entry (readable_str escaped)
  have hmap : Readable fun l : List (Str × Str) => debug_seq '\x7b' '\x7d'
      (l.map fun e => debug_entry (debug_str escaped e.1) (debug_str escaped e.2)) :=
    hentry.seq (by decide) fun _ _ _ h => absurd (List.head_eq_of_cons_eq h) (by decide)
  intro l l' h
  refine hmap.injective ?_
  unfold debug_texts_map debug_map at h
  rwa [List.map_map, List.map_map] at h

theorem bool_text_injective : Function.Injective bool_text := by
  intro a b h
  cases a <;> cases b <;> first | rfl | exact absurd h (by decide)

theorem group_injective : Function.Injective AuthTier.group := by
  intro a b h
  cases a <;> cases b <;> first | rfl | exact absurd h (by decide)

/-- The texts of two routes are the same under each name. -/
theorem route_fields_eq {cfg cfg' : Outbound.ResolvedConfig} {r r' : RouteConfig}
    (h : field_changes (route_fields escaped cfg r) (route_fields escaped cfg' r') = 0) :
    route_fields escaped cfg r = route_fields escaped cfg' r' := by
  refine eq_of_lookup rfl (by simp [route_fields]) fun field hfield => ?_
  simpa using List.countP_eq_zero.mp h field hfield

/-- What of two routes is compared, as it is in the configuration. -/
structure Compared (cfg cfg' : Outbound.ResolvedConfig) (r r' : RouteConfig) : Prop where
  client_key : ClientKeyState.label (cfg.client_key_rule r r.path_prefix)
    = ClientKeyState.label (cfg'.client_key_rule r' r'.path_prefix)
  tier : r.auth = r'.auth
  path_prefix : r.path_prefix = r'.path_prefix
  host : r.host = r'.host
  methods : r.methods = r'.methods
  upstream : r.upstream = r'.upstream
  bind : r.bind = r'.bind
  extensions : r.extensions = r'.extensions
  strip_prefix : r.strip_prefix = r'.strip_prefix

/-- Equal texts are of equal fields. -/
theorem compared_of_fields {cfg cfg' : Outbound.ResolvedConfig} {r r' : RouteConfig}
    (h : route_fields escaped cfg r = route_fields escaped cfg' r') : Compared cfg cfg' r r' := by
  simp only [route_fields, List.cons.injEq, Prod.mk.injEq, true_and, and_true] at h
  obtain ⟨hkey, htier, hprefix, hhost, hmethods, -, -, -, hupstream, hbind, hextensions, -, -, -, -,
    -, -, hstrip⟩ := h
  exact
    { client_key := hkey
      tier := group_injective (String.toList_injective htier)
      path_prefix := hprefix
      host := debug_texts_injective hhost
      methods := debug_texts_injective hmethods
      upstream := hupstream
      bind := debug_texts_map_injective hbind
      extensions := debug_texts_injective hextensions
      strip_prefix := bool_text_injective hstrip }

end Fields

/-! ## Client keys -/

/-- What the label of a rule begins with. -/
def ClientKeyState.initial : ClientKeyState → Char
  | .Required => 'r'
  | .Exempt => 'e'
  | .Off => 'o'

theorem head?_label (rule : ClientKeyRule) :
    (ClientKeyState.label rule).head? = some (ClientKeyState.of rule).initial := by
  cases rule <;> rfl

/-- Labels of different kinds differ. -/
theorem of_label {rule rule' : ClientKeyRule}
    (h : ClientKeyState.label rule = ClientKeyState.label rule') :
    ClientKeyState.of rule = ClientKeyState.of rule' := by
  have hinitial : ∀ k k' : ClientKeyState, k.initial = k'.initial → k = k' := by
    intro k k' h
    cases k <;> cases k' <;> first | rfl | exact absurd h (by decide)
  have hhead := congrArg List.head? h
  rw [head?_label, head?_label, Option.some.injEq] at hhead
  exact hinitial _ _ hhead

/-- Whether a path is exempt for another reason than its route's own. -/
def ExemptElsewhere (cfg : Outbound.ResolvedConfig) (auth : AuthTier) (path : Str) : Prop :=
  (∃ p ∈ cfg.client_key_exempt, under_prefix (normalize_proxy_path path) p = true)
    ∨ auth.group.toList ∈ cfg.client_key_exempt_groups

instance (cfg : Outbound.ResolvedConfig) (auth : AuthTier) (path : Str) :
    Decidable (ExemptElsewhere cfg auth path) := inferInstanceAs (Decidable (_ ∨ _))

/-- The kind of a rule, without the reason. -/
theorem of_client_key_rule (cfg : Outbound.ResolvedConfig) (r : RouteConfig) (path : Str) :
    ClientKeyState.of (cfg.client_key_rule r path)
      = if cfg.client_key_header = none ∨ r.auth.is_machine = true then .Off
        else if r.client_key = some false ∨ ExemptElsewhere cfg r.auth path then .Exempt
        else .Required := by
  unfold Outbound.ResolvedConfig.client_key_rule
  by_cases hoff : cfg.client_key_header = none ∨ r.auth.is_machine = true
  · rw [if_pos hoff, if_pos hoff]
    rfl
  rw [if_neg hoff, if_neg hoff]
  by_cases hroute : r.client_key = some false
  · rw [if_pos hroute, if_pos (.inl hroute)]
    rfl
  rw [if_neg hroute]
  cases hfind : cfg.client_key_exempt.find? fun p =>
      under_prefix (normalize_proxy_path path) p with
  | some p =>
    have helsewhere : ExemptElsewhere cfg r.auth path :=
      .inl ⟨p, List.mem_of_find?_eq_some hfind, List.find?_some hfind⟩
    dsimp only
    rw [if_pos (.inr helsewhere)]
    rfl
  | none =>
    dsimp only
    by_cases hgroup : r.auth.group.toList ∈ cfg.client_key_exempt_groups
    · rw [if_pos hgroup, if_pos (.inr (.inr hgroup))]
      rfl
    · rw [if_neg hgroup, if_neg]
      · rfl
      · rintro (hkey | ⟨p, hp, hunder⟩ | hmem)
        · exact hroute hkey
        · exact List.find?_eq_none.mp hfind p hp hunder
        · exact hgroup hmem

/-- What is beneath a prefix is beneath everything that the prefix is beneath. -/
theorem under_prefix_trans {path pre p : Str} (hpath : under_prefix path pre = true)
    (hpre : under_prefix pre p = true) : under_prefix path p = true := by
  rw [under_prefix_iff] at hpath hpre ⊢
  obtain rfl | ⟨r, rfl⟩ := hpath
  · exact hpre
  · obtain rfl | ⟨r', rfl⟩ := hpre
    · exact .inr ⟨r, rfl⟩
    · exact .inr ⟨r' ++ '/' :: r, by simp⟩

/-- **Client keys.** Where two rules are of one kind at the prefix of a route, and nothing else is
exempt in one configuration only, they are of one kind for all that the route matches. -/
theorem same_client_key {cfg cfg' : Outbound.ResolvedConfig} {r r' : RouteConfig} {path : Str}
    (hheader : cfg.client_key_header = cfg'.client_key_header)
    (hexempt : ∀ p, p ∈ cfg.client_key_exempt ↔ p ∈ cfg'.client_key_exempt)
    (hgroups : ∀ g, g ∈ cfg.client_key_exempt_groups ↔ g ∈ cfg'.client_key_exempt_groups)
    (h : Compared cfg cfg' r r') (hnormal : normalize_proxy_path r.path_prefix = r.path_prefix)
    (hpath : under_prefix (normalize_proxy_path path) r.path_prefix = true) :
    ClientKeyState.of (cfg.client_key_rule r path)
      = ClientKeyState.of (cfg'.client_key_rule r' path) := by
  have helsewhere : ∀ path,
      ExemptElsewhere cfg r.auth path ↔ ExemptElsewhere cfg' r'.auth path := by
    intro path
    unfold ExemptElsewhere
    simp only [hexempt, hgroups, h.tier]
  have hdeeper : ExemptElsewhere cfg r.auth r.path_prefix → ExemptElsewhere cfg r.auth path := by
    rintro (⟨p, hp, hunder⟩ | hgroup)
    · rw [hnormal] at hunder
      exact .inl ⟨p, hp, under_prefix_trans hpath hunder⟩
    · exact .inr hgroup
  have hkind := of_label h.client_key
  rw [← h.path_prefix] at hkind
  have hoff : (cfg'.client_key_header = none ∨ r'.auth.is_machine = true)
      ↔ (cfg.client_key_header = none ∨ r.auth.is_machine = true) := by rw [hheader, h.tier]
  rw [of_client_key_rule, of_client_key_rule] at hkind ⊢
  by_cases hon : cfg.client_key_header = none ∨ r.auth.is_machine = true
  · rw [if_pos hon, if_pos (hoff.mpr hon)]
  rw [if_neg hon, if_neg (mt hoff.mp hon)] at hkind ⊢
  by_cases helse : ExemptElsewhere cfg r.auth path
  · rw [if_pos (.inr helse), if_pos (.inr ((helsewhere path).mp helse))]
  · -- At the prefix, too, only the route itself may be exempt.
    have hnot := mt hdeeper helse
    have hroute : r.client_key = some false ↔ r'.client_key = some false := by
      simp only [← helsewhere, hnot, or_false] at hkind
      split_ifs at hkind <;> simp_all
    simp only [← helsewhere, hroute]

/-! ## Routes of a table -/

/-- What `resolve_route` leaves to be derived. -/
theorem resolve_route_eq (defaults : RouteDefaults) (r : RouteConfig) :
    (resolve_route defaults r).hosts = r.hosts
      ∧ (resolve_route defaults r).bindings = r.bindings
      ∧ RouteConfig.path_prefix (resolve_route defaults r)
        = normalize_proxy_path r.path_prefix := by
  unfold resolve_route
  dsimp only
  split <;> split <;> split <;> split <;> exact ⟨rfl, rfl, rfl⟩

/-- A route of a table has what its texts are parsed to, and its prefix is normal. -/
structure Derived (r : RouteConfig) : Prop where
  hosts : r.hosts = r.host.filterMap fun s => (HostPattern.parse s).toOption
  bindings : r.bindings = r.bind.filterMap fun b => (Binding.parse b.1 b.2).toOption
  normal : normalize_proxy_path r.path_prefix = r.path_prefix

theorem trim_matches_idem (c : Char) (s : Str) :
    trim_matches c (trim_matches c s) = trim_matches c s := by
  have hfront : (trim_matches c s).dropWhile (· == c) = trim_matches c s := by
    refine List.dropWhile_eq_self_iff.mpr fun hlength hhead => ?_
    refine head?_trim_matches c s ?_
    rw [List.head?_eq_getElem?, List.getElem?_eq_getElem hlength, beq_iff_eq.mp hhead]
  calc trim_matches c (trim_matches c s)
      = (trim_matches c s).rdropWhile (· == c) := by rw [trim_matches, hfront]
    _ = trim_matches c s := List.rdropWhile_idempotent _ _

theorem derived_of_mem {l : Loaded crates} {r : RouteConfig} (h : r ∈ l.routes.routes) :
    Derived r := by
  have hmem := (List.perm_insertionSort _ _).mem_iff.mp h
  rw [List.map_map] at hmem
  obtain ⟨declared, hdeclared, rfl⟩ := List.mem_map.mp hmem
  obtain ⟨input, auth, rfl⟩ := l.read declared hdeclared
  obtain ⟨hhosts, hbindings, hnormal⟩ :=
    resolve_route_eq l.defaults { RouteConfig.of_input input with auth := auth }
  refine ⟨?_, ?_, ?_⟩
  · show (resolve_route l.defaults _).hosts ++ _ = _
    rw [hhosts]
    rfl
  · show (resolve_route l.defaults _).bindings ++ _ = _
    rw [hbindings]
    rfl
  · show normalize_proxy_path (RouteConfig.path_prefix (resolve_route l.defaults _))
      = RouteConfig.path_prefix (resolve_route l.defaults _)
    rw [hnormal]
    exact trim_matches_idem _ _

/-- A route without what no selection depends on. -/
def surface (r : RouteConfig) : RouteConfig :=
  { r with
      sse := false, enabled := true, client_key := none, cache := false
      cache_authenticated := false, retry := none, retry_policy := none, rate_limit := none
      limiter := none, concurrency := none
      policy_origins := ⟨.BuiltIn, .BuiltIn, .BuiltIn⟩ }

theorem surface_eq {cfg cfg' : Outbound.ResolvedConfig} {r r' : RouteConfig} (hid : r.id = r'.id)
    (h : Compared cfg cfg' r r') (hr : Derived r) (hr' : Derived r') : surface r = surface r' := by
  have hhosts : r.hosts = r'.hosts := by rw [hr.hosts, hr'.hosts, h.host]
  have hbindings : r.bindings = r'.bindings := by rw [hr.bindings, hr'.bindings, h.bind]
  unfold surface
  rw [hid, h.host, hhosts, h.path_prefix, h.upstream, h.methods, h.strip_prefix, h.bind, hbindings,
    h.extensions, h.tier]

/-! ## Selection -/

/-- In a map that is made of a list with keys of its own, each element is found. -/
theorem lookup_map_iff {α V : Type} {key : α → Str} {f : α → V} {l : List α}
    (hnodup : (l.map key).Nodup) {k : Str} {v : V} :
    (l.map fun a => (key a, f a)).lookup k = some v ↔ ∃ a ∈ l, key a = k ∧ f a = v := by
  constructor
  · intro h
    obtain ⟨l₁, l₂, hsplit, -⟩ := List.lookup_eq_some_iff.mp h
    have hmem : (k, v) ∈ l.map fun a => (key a, f a) := by
      rw [hsplit]
      exact List.mem_append_right _ List.mem_cons_self
    obtain ⟨a, ha, hpair⟩ := List.mem_map.mp hmem
    exact ⟨a, ha, (Prod.mk.inj hpair).1, (Prod.mk.inj hpair).2⟩
  · rintro ⟨a, ha, rfl, rfl⟩
    induction l with
    | nil => cases ha
    | cons b l ih =>
      obtain ⟨hfresh, hrest⟩ := List.nodup_cons.mp hnodup
      rw [List.map_cons, List.lookup_cons]
      obtain rfl | ha := List.mem_cons.mp ha
      · rw [beq_self_eq_true]
      · have hne : (key a == key b) = false :=
          beq_false_of_ne fun heq => hfresh (List.mem_map.mpr ⟨a, ha, heq⟩)
        rw [hne]
        exact ih hrest ha

/-- The routes of an accepted table have ids of their own. -/
theorem ids_unique (l : Loaded crates) : (l.routes.routes.map RouteConfig.id).Nodup :=
  (validate_table_ok.mp l.accepted).2.ids_unique

/-- What is written of a route is found under its id. -/
theorem lookup_fields (l : Loaded crates) (escaped : Char → Bool) {id : Str}
    {fields : List (String × Str)} :
    (l.fields_by_id escaped).lookup id = some fields
      ↔ ∃ r ∈ l.routes.routes, r.id = id ∧ route_fields escaped l.resolved r = fields :=
  lookup_map_iff (ids_unique l)

/-- Which routes a listener serves. -/
def Listener.serves (listener : Listener) (r : RouteConfig) : Bool :=
  match listener with
  | .Public => r.auth ≠ .Machine
  | .Internal => r.auth = .Machine

/-- A route is selected by its surface. -/
theorem surface_match_request (l : Loaded crates) (listener : Listener) (host : Option Str)
    (path method : Str) :
    ((l.table listener).match_request host path method).map surface
      = ((l.routes.routes.map surface).filter listener.serves).find?
        (matches_request host path method) := by
  rw [match_request_eq_find?, List.filter_map, List.find?_map]
  cases listener <;> rfl

section Selection

variable {escaped : Char → Bool} {old new : Reviewed crates}

/-- A route of one has its like in the other. -/
theorem exists_compared
    (h : map_changes field_changes (old.fields_by_id escaped) (new.fields_by_id escaped) = 0) :
    (∀ r ∈ old.routes.routes, ∃ r' ∈ new.routes.routes,
        r.id = r'.id ∧ Compared old.resolved new.resolved r r')
      ∧ ∀ r' ∈ new.routes.routes, ∃ r ∈ old.routes.routes,
        r.id = r'.id ∧ Compared old.resolved new.resolved r r' := by
  constructor
  · intro r hr
    obtain ⟨fields, hnew, hsame⟩ :=
      exists_after h ((lookup_fields old.toLoaded escaped).mpr ⟨r, hr, rfl, rfl⟩)
    obtain ⟨r', hr', hid, rfl⟩ := (lookup_fields new.toLoaded escaped).mp hnew
    exact ⟨r', hr', hid.symm, compared_of_fields (route_fields_eq hsame)⟩
  · intro r' hr'
    obtain ⟨fields, hold, hsame⟩ :=
      exists_before h ((lookup_fields new.toLoaded escaped).mpr ⟨r', hr', rfl, rfl⟩)
    obtain ⟨r, hr, hid, rfl⟩ := (lookup_fields old.toLoaded escaped).mp hold
    exact ⟨r, hr, hid, compared_of_fields (route_fields_eq hsame)⟩

/-- So they have the same surfaces, in whatever order. -/
theorem perm_surface
    (h : map_changes field_changes (old.fields_by_id escaped) (new.fields_by_id escaped) = 0) :
    (old.routes.routes.map surface).Perm (new.routes.routes.map surface) := by
  have hnodup : ∀ l : Loaded crates, (l.routes.routes.map surface).Nodup := by
    intro l
    refine List.Nodup.of_map RouteConfig.id ?_
    rw [List.map_map]
    exact ids_unique l
  obtain ⟨hold, hnew⟩ := exists_compared h
  refine (List.perm_ext_iff_of_nodup (hnodup _) (hnodup _)).mpr fun x =>
    ⟨fun hx => ?_, fun hx => ?_⟩
  · obtain ⟨r, hr, rfl⟩ := List.mem_map.mp hx
    obtain ⟨r', hr', hid, hcompared⟩ := hold r hr
    rw [surface_eq hid hcompared (derived_of_mem hr) (derived_of_mem hr')]
    exact List.mem_map_of_mem hr'
  · obtain ⟨r', hr', rfl⟩ := List.mem_map.mp hx
    obtain ⟨r, hr, hid, hcompared⟩ := hnew r' hr'
    rw [← surface_eq hid hcompared (derived_of_mem hr) (derived_of_mem hr')]
    exact List.mem_map_of_mem hr

/-- And a request selects the same surface. -/
theorem match_request_surface
    (h : map_changes field_changes (old.fields_by_id escaped) (new.fields_by_id escaped) = 0)
    (listener : Listener) (host : Option Str) (path method : Str) :
    ((old.table listener).match_request host path method).map surface
      = ((new.table listener).match_request host path method).map surface := by
  have hsorted : ∀ l : Loaded crates,
      (l.routes.routes.map surface).Pairwise fun a b => precedes a b = true :=
    fun l => List.pairwise_map.mpr build_with_sorted
  have hsep : (old.routes.routes.map surface).Pairwise fun a b => conflicting_routes a b = false :=
    List.pairwise_map.mpr (validate_table_ok.mp old.accepted).2.separate
  rw [surface_match_request, surface_match_request]
  refine FirstMatch.find?_eq_of_perm ((perm_surface h).filter _) ((hsorted _).filter _)
    ((hsorted _).filter _) fun a ha b hb hma hmb hab hba => ?_
  obtain ⟨ha, hla⟩ := List.mem_filter.mp ha
  obtain ⟨hb, hlb⟩ := List.mem_filter.mp hb
  refine eq_of_tied hsep ha hb ⟨?_, hab, hba⟩ hma hmb
  cases listener <;> cases hauth : a.auth <;> cases hauth' : b.auth <;>
    simp_all [Listener.serves, AuthTier.is_machine]

end Selection

namespace TwoOrders

/-- Two routes, of which one is for some of the methods of the other's prefix. -/
def inputs : List RouteInput :=
  [{ id := "users".toList, path_prefix := "/users".toList, upstream := "app".toList
     methods := some ["GET".toList] },
    { id := "jobs".toList, path_prefix := "users".toList, upstream := "app".toList
      methods := some ["POST".toList], strip_prefix := true }]

/-- In one order and in the other. -/
def groups (inputs : List RouteInput) : RouteGroups where
  internal := ["/admin".toList]
  machine := []
  «public» := inputs.map RouteConfig.of_input
  optional := []
  authenticated := []

theorem read (inputs : List RouteInput) : ∀ r ∈ (groups inputs).declared,
    ∃ input auth, r = { RouteConfig.of_input input with auth := auth } := by
  intro r hr
  have hmem := (List.mem_filter.mp hr).1
  simp only [groups, List.map_nil, List.append_nil, List.map_map] at hmem
  obtain ⟨input, -, rfl⟩ := List.mem_map.mp hmem
  exact ⟨input, .Public, rfl⟩

def reviewed (inputs : List RouteInput)
    (accepted : HealthRoute.checked.validate_table (.build_with 0 (groups inputs)
      HealthRoute.loaded.defaults false) = .ok ()) : Reviewed plain_crates :=
  { HealthRoute.loaded with
      groups := groups inputs
      read := read inputs
      accepted := accepted
      upstreams := [("app".toList, "UpstreamConfig".toList)]
      upstreams_eq := rfl
      cookie_protection := "None".toList }

def old : Reviewed plain_crates := reviewed inputs (by decide +kernel)

def new : Reviewed plain_crates := reviewed inputs.reverse (by decide +kernel)

end TwoOrders

end Lagos.Policy
