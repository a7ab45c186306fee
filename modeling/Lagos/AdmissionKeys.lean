/-
Under what a request is counted (`ratelimit/mod.rs`, `limit_key` and the stages of
`request_filter` around it, `proxy.rs`).

A key is the route's id, a `|`, and a text that is the caller's address, its subject, the value
of a header, or empty for the route as a whole. Nothing in a key says which of these the text is,
and both an id and a text may have a `|` of their own. What a request is counted as is its
`KeyValue`, and the question is when the keys tell values apart. They do on the tables in which
no route counts two kinds of caller, and no id begins with another id, a `|`, and something that
the other route's callers may send (`keys_separate_iff`). Validation asks for neither.
-/
import Lagos.Gateway
import Lagos.Lib.IpText
import Lagos.Lib.Segments
import Lagos.ProxyCircuit
import Lagos.RoutesValidate

set_option autoImplicit false

open RustStd

namespace Lagos.Admission

open Lagos.Config Lagos.Headers Lagos.Outbound Lagos.Routes

/-! ## Keys -/

/-- `client_address`. -/
def client_address (forwarded_for peer : Option Str) (trusted_proxies : ℕ) : Option Str :=
  (trusted_suffix is_ip_addr forwarded_for peer trusted_proxies).head?

/-- `key_for`. -/
def key_for (key : RateLimitKey) (trusted_proxies : ℕ) (route_id : Str)
    (subject forwarded_for peer : Option Str) (header : Str → Option Str) : Option Str :=
  (match key with
    | .Ip => client_address forwarded_for peer trusted_proxies
    | .Identity => subject.filter fun s => !s.isEmpty
    | .Route => some []
    | .Header name => header name).map fun raw => route_id ++ '|' :: raw

/-- `KeyError`. -/
inductive KeyError where
  | Missing
  | Invalid
  deriving DecidableEq, Repr

/-- A character of a header's key: `0x21..=0x7e`, but for the comma. -/
def key_char (c : Char) : Bool := 0x21 ≤ c.toNat && c.toNat ≤ 0x7e && c != ','

/-- `s.trim_matches([' ', '\t'])`. -/
def trim_ows (s : Str) : Str :=
  (s.dropWhile fun c => c == ' ' || c == '\t').rdropWhile fun c => c == ' ' || c == '\t'

/-- `header_key`. The name is in lowercase since it was read. -/
def header_key (headers : HeaderMap) (name : Str) : Except KeyError (Option Str) :=
  match headers.get_all name with
  | [] => .ok none
  | [value] =>
    match value.to_str with
    | none => .error .Invalid
    | some s =>
      if (trim_ows s).isEmpty || (trim_ows s).any (fun c => !key_char c) then .error .Invalid
      else .ok (some (trim_ows s))
  | _ :: _ :: _ => .error .Invalid

/-- `admission_key`. -/
def admission_key (key : RateLimitKey) (missing : MissingKey) (trusted_proxies : ℕ)
    (route_id : Str) (subject forwarded_for peer : Option Str) (headers : HeaderMap) :
    Except KeyError (Option Str) :=
  (match key with
    | .Header name => header_key headers name
    | _ => .ok none) >>= fun value =>
  match key_for key trusted_proxies route_id subject forwarded_for peer (fun _ => value) with
  | some key => .ok (some key)
  | none =>
    match missing with
    | .Reject => .error .Missing
    | .Route => .ok (some (route_id ++ ['|']))
    | .Ip =>
      match peer with
      | some ip => .ok (some (route_id ++ '|' :: ip))
      | none => .error .Missing
    | .Skip => .ok none

/-! ## Where they are asked for -/

/-- What a limit or a cap counts by. -/
structure Selector where
  key : RateLimitKey
  missing : MissingKey
  trusted_proxies : ℕ

/-- Of a rate limit. -/
def Selector.of_limit (cfg : RateLimitConfig) : Selector :=
  ⟨cfg.key, cfg.missing_key, cfg.trusted_proxies⟩

/-- Of a concurrency cap. -/
def Selector.of_cap (cap : ConcurrencyConfig) : Selector :=
  ⟨cap.effective_key, cap.missing_key, cap.trusted_proxies⟩

/-- A request on a route of a tier, with the address of its socket and what its token is verified
to be. -/
structure Request (auth : AuthTier) where
  peer : Option Str
  headers : HeaderMap
  subject : Option Str
  /-- `socket_peer_ip` gives the text of an address. -/
  peer_is_ip : ∀ ip ∈ peer, is_ip_addr ip = true
  /-- No verifier passes an empty subject, and only these tiers ask one. -/
  subject_verified : ∀ s ∈ subject, s ≠ [] ∧ auth.verifies = true

section Requests

variable (g : Gateway) (crates : Crates)

/-- The `X-Forwarded-For` that `limit_key` reads. -/
def forwarded (trusted_proxies : ℕ) (peer_ip : Option Str) (headers : HeaderMap) : Option Str :=
  if g.cfg.trusted_proxy_depth crates peer_ip trusted_proxies > 0 then forwarded_for_chain headers
  else none

/-- `Gateway::limit_key`. -/
def limit_key (headers : HeaderMap) (s : Selector) (route_id : Str) (subject peer_ip : Option Str) :
    Except KeyError (Option Str) :=
  admission_key s.key s.missing s.trusted_proxies route_id subject
    (forwarded g crates s.trusted_proxies peer_ip headers) peer_ip headers

/-- The rate limit of a route, if there is a limiter for it. -/
def limit_of (r : RouteConfig) : Option RateLimitConfig :=
  if r.limiter.isSome then r.rate_limit else none

/-- The stages of `request_filter` that ask for a key or turn on who is asking, `none` where the
request is refused: the limit by anything but the subject, the token, the limit by the subject,
the cap. -/
def stages {α : Type} (r : RouteConfig) (x : Request r.auth)
    (ask : Selector → Option Str → Option (Option α)) : List (Option (Option α)) :=
  [((limit_of r).filter (·.key ≠ .Identity)).elim (some none) fun cfg => ask (.of_limit cfg) none,
    if r.auth = .Required ∧ x.subject = none then none else some none,
    ((limit_of r).filter (·.key = .Identity)).elim (some none) fun cfg =>
      ask (.of_limit cfg) x.subject,
    r.concurrency.elim (some none) fun cap => ask (.of_cap cap) x.subject]

/-- What the stages gave until one of them refused. -/
def until_refused {α : Type} : List (Option (Option α)) → List α
  | [] => []
  | none :: _ => []
  | some a :: rest => a.toList ++ until_refused rest

/-- The keys that a request is counted under. -/
def counted_under (r : RouteConfig) (x : Request r.auth) : List Str :=
  until_refused (stages r x fun s subject =>
    (limit_key g crates x.headers s r.id subject x.peer).toOption)

/-- The slot that a request will need. -/
def pending_slot (cap : ConcurrencyConfig) (route_id key : Str) : Proxy.PendingSlot where
  key := key
  max := cap.max
  per_caller := cap.effective_key ≠ .Route && RustStd.strip_prefix key route_id ≠ some ['|']

end Requests

/-! ## What a key stands for -/

/-- Who a request is counted as. -/
inductive KeyValue where
  | Address (ip : Str)
  | Subject (subject : Str)
  | Header (value : Str)
  /-- The route as a whole. -/
  | Route
  deriving DecidableEq, Repr

/-- The kinds of them. -/
inductive KeyKind where
  | Address
  | Subject
  | Header
  | Route
  deriving DecidableEq, Repr

/-- What a key says of it. -/
def KeyValue.text : KeyValue → Str
  | .Address s | .Subject s | .Header s => s
  | .Route => []

def KeyValue.kind : KeyValue → KeyKind
  | .Address _ => .Address
  | .Subject _ => .Subject
  | .Header _ => .Header
  | .Route => .Route

/-- The value of a kind that has this text. -/
def KeyKind.value : KeyKind → Str → KeyValue
  | .Address, s => .Address s
  | .Subject, s => .Subject s
  | .Header, s => .Header s
  | .Route, _ => .Route

/-- The key of a value on a route. -/
def KeyValue.key (route_id : Str) (v : KeyValue) : Str := route_id ++ '|' :: v.text

/-- What the configured key comes to, if the request has one. -/
def own_value (key : RateLimitKey) (trusted_proxies : ℕ) (subject forwarded_for peer : Option Str)
    (value : Option Str) : Option KeyValue :=
  match key with
  | .Ip => (client_address forwarded_for peer trusted_proxies).map .Address
  | .Identity => (subject.filter fun s => !s.isEmpty).map .Subject
  | .Route => some .Route
  | .Header _ => value.map .Header

/-- What stands in for a key that is missing. -/
def stand_in (missing : MissingKey) (peer : Option Str) : Except KeyError (Option KeyValue) :=
  match missing with
  | .Reject => .error .Missing
  | .Route => .ok (some .Route)
  | .Ip =>
    match peer with
    | some ip => .ok (some (.Address ip))
    | none => .error .Missing
  | .Skip => .ok none

/-- The value of the header that a key names. -/
def header_value (key : RateLimitKey) (headers : HeaderMap) : Except KeyError (Option Str) :=
  match key with
  | .Header name => header_key headers name
  | _ => .ok none

section Requests

variable (g : Gateway) (crates : Crates)

/-- Who a request is counted as by a selector. -/
def key_value (headers : HeaderMap) (s : Selector) (subject peer : Option Str) :
    Except KeyError (Option KeyValue) :=
  header_value s.key headers >>= fun value =>
  match own_value s.key s.trusted_proxies subject
      (forwarded g crates s.trusted_proxies peer headers) peer value with
  | some v => .ok (some v)
  | none => stand_in s.missing peer

/-- Who it is counted as, each time that it is counted. -/
def counted_as (r : RouteConfig) (x : Request r.auth) : List KeyValue :=
  until_refused (stages r x fun s subject =>
    (key_value g crates x.headers s subject x.peer).toOption)

/-- **Keys separate.** Requests that are counted under one key are on one route, and are counted
as the same. -/
def KeysSeparate (routes : List RouteConfig) : Prop :=
  ∀ a ∈ routes, ∀ b ∈ routes, ∀ (x : Request a.auth) (y : Request b.auth),
    ∀ p ∈ (counted_under g crates a x).zip (counted_as g crates a x),
    ∀ q ∈ (counted_under g crates b y).zip (counted_as g crates b y),
      p.1 = q.1 → a.id = b.id ∧ p.2 = q.2

end Requests

/-! ## Which kinds a route counts -/

/-- The kinds that stand in for a missing key. -/
def stand_in_kinds : MissingKey → List KeyKind
  | .Reject | .Skip => []
  | .Route => [.Route]
  | .Ip => [.Address]

/-- The kind of the configured key, if requests of the tier have one. -/
def Selector.own_kinds (s : Selector) (auth : AuthTier) : List KeyKind :=
  match s.key with
  | .Ip => [.Address]
  | .Identity => if auth.verifies then [.Subject] else []
  | .Route => [.Route]
  | .Header _ => [.Header]

/-- Whether a request whose address is known can be without the configured key. -/
def Selector.can_lack (s : Selector) (auth : AuthTier) : Bool :=
  match s.key with
  | .Ip | .Route => false
  | .Identity => auth ≠ .Required
  | .Header _ => true

/-- The kinds that a selector counts. -/
def Selector.kinds (s : Selector) (auth : AuthTier) : List KeyKind :=
  s.own_kinds auth ++ if s.can_lack auth then stand_in_kinds s.missing else []

/-- The kinds that a cap counts behind a limit, which may have refused the requests without their
common key, or every request. -/
def Selector.kinds_behind (limit cap : Selector) (auth : AuthTier) : List KeyKind :=
  if limit.missing = .Reject then
    if limit.own_kinds auth = [] then []
    else if limit.key = cap.key then cap.own_kinds auth
    else cap.kinds auth
  else cap.kinds auth

/-- The kinds that a route counts. -/
def kinds (r : RouteConfig) : List KeyKind :=
  match limit_of r, r.concurrency with
  | none, none => []
  | some cfg, none => (Selector.of_limit cfg).kinds r.auth
  | none, some cap => (Selector.of_cap cap).kinds r.auth
  | some cfg, some cap =>
    (Selector.of_limit cfg).kinds r.auth
      ++ (Selector.of_limit cfg).kinds_behind (.of_cap cap) r.auth

/-- Whether a text can come before a `|` in a value of the kind. -/
def KeyKind.may_begin : KeyKind → Str → Bool
  | .Subject, _ => true
  | .Header, w => w.all key_char
  | .Address, _ | .Route, _ => false

/-- Routes whose keys cannot be taken for each other's. -/
structure Apart (routes : List RouteConfig) : Prop where
  /-- No route counts two kinds of caller. -/
  one_kind : ∀ r ∈ routes, ∀ k ∈ kinds r, ∀ k' ∈ kinds r, k ≠ .Route → k' ≠ .Route → k = k'
  /-- No id is another id, a `|`, and what a key on the other route may go on with. -/
  ids : ∀ a ∈ routes, ∀ b ∈ routes, kinds b ≠ [] → ∀ w, b.id = a.id ++ '|' :: w →
    ∀ k ∈ kinds a, k.may_begin w = false

/-! ## Keys and what they stand for -/

theorem key_for_eq (key : RateLimitKey) (trusted_proxies : ℕ) (route_id : Str)
    (subject forwarded_for peer value : Option Str) :
    key_for key trusted_proxies route_id subject forwarded_for peer (fun _ => value)
      = (own_value key trusted_proxies subject forwarded_for peer value).map
          (KeyValue.key route_id) := by
  unfold key_for own_value
  cases key with
  | Ip | Identity | Header =>
    rw [Option.map_map]
    rfl
  | Route => rfl

variable {g : Gateway} {crates : Crates}

/-- A key is that of what the request is counted as. -/
theorem limit_key_eq (headers : HeaderMap) (s : Selector) (route_id : Str)
    (subject peer : Option Str) :
    limit_key g crates headers s route_id subject peer
      = (key_value g crates headers s subject peer).map (Option.map (KeyValue.key route_id)) := by
  unfold limit_key admission_key key_value
  rw [show (match s.key with
    | .Header name => header_key headers name
    | _ => .ok none) = header_value s.key headers from rfl]
  cases header_value s.key headers with
  | error e => rfl
  | ok value =>
    dsimp only [bind, Except.bind]
    rw [key_for_eq]
    cases own_value s.key s.trusted_proxies subject
      (forwarded g crates s.trusted_proxies peer headers) peer value with
    | some v => rfl
    | none =>
      cases hmissing : s.missing with
      | Ip => cases peer <;> rfl
      | Reject | Route | Skip => rfl

theorem until_refused_map {α β : Type} (f : α → β) (l : List (Option (Option α))) :
    until_refused (l.map (Option.map (Option.map f))) = (until_refused l).map f := by
  induction l with
  | nil => rfl
  | cons a l ih =>
    cases a with
    | none => rfl
    | some a =>
      rw [List.map_cons, Option.map_some, until_refused, until_refused, ih, List.map_append]
      cases a <;> rfl

theorem stages_map {α β : Type} (f : α → β) {r : RouteConfig} (x : Request r.auth)
    (ask : Selector → Option Str → Option (Option α)) :
    stages r x (fun s subject => (ask s subject).map (Option.map f))
      = (stages r x ask).map (Option.map (Option.map f)) := by
  unfold stages
  simp only [List.map_cons, List.map_nil, List.cons.injEq, and_true]
  refine ⟨?_, ?_, ?_, ?_⟩
  · cases (limit_of r).filter (·.key ≠ .Identity) <;> rfl
  · split <;> rfl
  · cases (limit_of r).filter (·.key = .Identity) <;> rfl
  · cases r.concurrency <;> rfl

/-- **What a request is counted under** is the keys of what it is counted as. -/
theorem counted_under_eq {r : RouteConfig} (x : Request r.auth) :
    counted_under g crates r x = (counted_as g crates r x).map (KeyValue.key r.id) := by
  rw [counted_under, counted_as, ← until_refused_map, ← stages_map]
  congr 2
  funext s subject
  rw [limit_key_eq]
  cases key_value g crates x.headers s subject x.peer <;> rfl

theorem keysSeparate_iff_values {routes : List RouteConfig} :
    KeysSeparate g crates routes ↔ ∀ a ∈ routes, ∀ b ∈ routes,
      ∀ (x : Request a.auth) (y : Request b.auth), ∀ v ∈ counted_as g crates a x,
      ∀ v' ∈ counted_as g crates b y, v.key a.id = v'.key b.id → a.id = b.id ∧ v = v' := by
  have hzip : ∀ (id : Str) (l : List KeyValue),
      (l.map (KeyValue.key id)).zip l = l.map fun v => (v.key id, v) := by
    intro id l
    rw [← List.zip_map', List.map_id']
  unfold KeysSeparate
  simp only [counted_under_eq, hzip, List.forall_mem_map]

/-! ## When a request is counted -/

/-- Who a request is counted as by a selector, after its token was verified. -/
def Request.value (g : Gateway) (crates : Crates) {auth : AuthTier} (x : Request auth)
    (s : Selector) : Except KeyError (Option KeyValue) :=
  key_value g crates x.headers s x.subject x.peer

/-- The token is not asked for, or it is there. -/
def Request.Passes {auth : AuthTier} (x : Request auth) : Prop :=
  ¬ (auth = .Required ∧ x.subject = none)

/-- Only the key for it looks at the subject. -/
theorem key_value_congr {s : Selector} (h : s.key ≠ .Identity) (headers : HeaderMap)
    (subject subject' peer : Option Str) :
    key_value g crates headers s subject peer = key_value g crates headers s subject' peer := by
  have hown : ∀ value, own_value s.key s.trusted_proxies subject
        (forwarded g crates s.trusted_proxies peer headers) peer value
      = own_value s.key s.trusted_proxies subject'
        (forwarded g crates s.trusted_proxies peer headers) peer value := by
    intro value
    unfold own_value
    split
    · rfl
    · rename_i hkey
      exact absurd hkey h
    · rfl
    · rfl
  unfold key_value
  simp only [hown]

theorem mem_until_refused_cons {α : Type} {stage : Option (Option α)}
    {rest : List (Option (Option α))} {a : α} :
    a ∈ until_refused (stage :: rest) ↔
      stage = some (some a) ∨ stage ≠ none ∧ a ∈ until_refused rest := by
  cases stage with
  | none => simp [until_refused]
  | some b =>
    rw [until_refused, List.mem_append, Option.mem_toList, Option.some.injEq]
    simp

theorem toOption_eq_some {ε α : Type} {x : Except ε α} {a : α} :
    x.toOption = some a ↔ x = .ok a := by
  cases x <;> simp [Except.toOption]

theorem toOption_ne_none {ε α : Type} {x : Except ε α} :
    x.toOption ≠ none ↔ ∀ e, x ≠ .error e := by
  cases x <;> simp [Except.toOption]

/-- A request is counted by its limit, once it has passed if the limit goes by the subject, and by
its cap, once it has passed and the limit has not refused it. -/
theorem mem_counted_as {r : RouteConfig} {x : Request r.auth} {v : KeyValue} :
    v ∈ counted_as g crates r x ↔
      (∃ cfg ∈ limit_of r, (cfg.key = .Identity → x.Passes)
        ∧ x.value g crates (.of_limit cfg) = .ok (some v))
      ∨ x.Passes ∧ (∀ cfg ∈ limit_of r, ∀ e, x.value g crates (.of_limit cfg) ≠ .error e)
        ∧ ∃ cap ∈ r.concurrency, x.value g crates (.of_cap cap) = .ok (some v) := by
  have hpasses : (if r.auth = .Required ∧ x.subject = none then none else some none)
      ≠ (none : Option (Option KeyValue)) ↔ x.Passes := by
    rw [Request.Passes]
    split <;> simp_all
  have htoken : (if r.auth = .Required ∧ x.subject = none then none else some none)
      ≠ (some (some v) : Option (Option KeyValue)) := by
    split <;> simp
  have hcap : (r.concurrency.elim (some none) fun cap =>
        (key_value g crates x.headers (.of_cap cap) x.subject x.peer).toOption) = some (some v) ↔
      ∃ cap ∈ r.concurrency, x.value g crates (.of_cap cap) = .ok (some v) := by
    cases r.concurrency with
    | none => simp
    | some cap => simp [toOption_eq_some, Request.value]
  unfold counted_as stages
  rw [mem_until_refused_cons, mem_until_refused_cons, mem_until_refused_cons,
    mem_until_refused_cons, hpasses, hcap]
  cases limit_of r with
  | none => simp [until_refused, htoken]
  | some cfg =>
    -- The limit is asked before the token or after it.
    by_cases hkey : cfg.key = .Identity
    · simp only [Option.filter, hkey, ne_eq, not_true_eq_false, decide_false, decide_true,
        Bool.false_eq_true, if_false, if_true, Option.elim_none, Option.elim_some, toOption_eq_some]
      simp [until_refused, htoken, toOption_ne_none, Request.value, hkey]
      tauto
    · simp only [Option.filter, hkey, ne_eq, not_false_eq_true, decide_false, decide_true,
        Bool.false_eq_true, if_false, if_true, Option.elim_none, Option.elim_some, toOption_eq_some,
        key_value_congr (s := .of_limit cfg) hkey x.headers none x.subject x.peer]
      simp [until_refused, htoken, toOption_ne_none, Request.value, hkey, and_left_comm]

/-! ## What a value looks like -/

/-- What the text of a value can be. -/
def KeyValue.Valid : KeyValue → Prop
  | .Address ip => is_ip_addr ip = true
  | .Subject s => s ≠ []
  | .Header t => t ≠ [] ∧ t.all key_char = true
  | .Route => True

theorem header_key_ok {headers : HeaderMap} {name t : Str}
    (h : header_key headers name = .ok (some t)) : t ≠ [] ∧ t.all key_char = true := by
  unfold header_key at h
  split at h
  · cases h
  · split at h
    · cases h
    · split at h
      · cases h
      · rename_i hclean
        cases h
        rw [Bool.not_eq_true, Bool.or_eq_false_iff, List.isEmpty_eq_false_iff,
          List.any_eq_false] at hclean
        exact ⟨hclean.1, List.all_eq_true.mpr fun c hc => by simpa using hclean.2 c hc⟩
  · cases h

theorem is_ip_client_address {forwarded_for peer : Option Str} {trusted_proxies : ℕ} {ip : Str}
    (hpeer : ∀ p ∈ peer, is_ip_addr p = true)
    (h : client_address forwarded_for peer trusted_proxies = some ip) : is_ip_addr ip = true := by
  have hmem := List.mem_of_mem_head? h
  unfold trusted_suffix at hmem
  cases peer with
  | none => cases hmem
  | some peer =>
    have hself : ip ∈ [peer] → is_ip_addr ip = true := by
      intro hip
      rw [List.mem_singleton.mp hip]
      exact hpeer peer rfl
    dsimp only at hmem
    split_ifs at hmem with hshort hall
    · exact hself hmem
    · exact (List.mem_append.mp hmem).elim (fun hip => List.all_eq_true.mp hall ip hip) hself
    · exact hself hmem

theorem client_address_eq_none {forwarded_for peer : Option Str} {trusted_proxies : ℕ} :
    client_address forwarded_for peer trusted_proxies = none ↔ peer = none := by
  unfold client_address trusted_suffix
  cases peer with
  | none => simp
  | some peer =>
    dsimp only
    split_ifs <;> simp

/-- What the configured key comes to. -/
def Request.own (g : Gateway) (crates : Crates) {auth : AuthTier} (x : Request auth) (s : Selector)
    (value : Option Str) : Option KeyValue :=
  own_value s.key s.trusted_proxies x.subject
    (forwarded g crates s.trusted_proxies x.peer x.headers) x.peer value

section

variable {auth : AuthTier} {x : Request auth} {s : Selector} {v : KeyValue}

/-- A value is that of the key, or stands in for it. -/
theorem value_ok_iff : x.value g crates s = .ok (some v) ↔
    ∃ value, header_value s.key x.headers = .ok value
      ∧ (x.own g crates s value = some v
        ∨ x.own g crates s value = none ∧ stand_in s.missing x.peer = .ok (some v)) := by
  unfold Request.value key_value
  rw [bind_eq_ok]
  refine exists_congr fun value => and_congr_right fun _ => ?_
  rw [show own_value s.key s.trusted_proxies x.subject
    (forwarded g crates s.trusted_proxies x.peer x.headers) x.peer value
    = x.own g crates s value from rfl]
  cases x.own g crates s value <;> simp

theorem own_ok {value : Option Str} (hvalue : header_value s.key x.headers = .ok value)
    (h : x.own g crates s value = some v) : v.kind ∈ s.own_kinds auth ∧ v.Valid := by
  unfold Request.own own_value at h
  unfold header_value at hvalue
  unfold Selector.own_kinds
  cases hkey : s.key with
  | Ip =>
    rw [hkey] at h
    obtain ⟨ip, hip, rfl⟩ := Option.map_eq_some_iff.mp h
    exact ⟨List.mem_singleton_self _, is_ip_client_address x.peer_is_ip hip⟩
  | Identity =>
    rw [hkey] at h
    obtain ⟨t, ht, rfl⟩ := Option.map_eq_some_iff.mp h
    obtain ⟨hne, hverifies⟩ := x.subject_verified t (Option.filter_eq_some_iff.mp ht).1
    dsimp only
    rw [if_pos hverifies]
    exact ⟨List.mem_singleton_self _, hne⟩
  | Route =>
    rw [hkey] at h
    cases h
    exact ⟨List.mem_singleton_self _, trivial⟩
  | Header name =>
    rw [hkey] at h hvalue
    obtain ⟨t, rfl, rfl⟩ := Option.map_eq_some_iff.mp h
    exact ⟨List.mem_singleton_self _, header_key_ok hvalue⟩

theorem stand_in_ok (h : stand_in s.missing x.peer = .ok (some v)) :
    v.kind ∈ stand_in_kinds s.missing ∧ v.Valid := by
  unfold stand_in at h
  cases hmissing : s.missing with
  | Reject | Skip =>
    rw [hmissing] at h
    cases h
  | Route =>
    rw [hmissing] at h
    cases h
    exact ⟨List.mem_singleton_self _, trivial⟩
  | Ip =>
    rw [hmissing] at h
    cases hpeer : x.peer with
    | none =>
      rw [hpeer] at h
      cases h
    | some ip =>
      rw [hpeer] at h
      cases h
      exact ⟨List.mem_singleton_self _, x.peer_is_ip ip hpeer⟩

theorem valid_of_value (h : x.value g crates s = .ok (some v)) : v.Valid := by
  obtain ⟨value, hvalue, hown | ⟨-, hstand⟩⟩ := value_ok_iff.mp h
  · exact (own_ok hvalue hown).2
  · exact (stand_in_ok hstand).2

/-- A request without the key is one that can be, or its address is not known. -/
theorem can_lack_of_own {value : Option Str} (h : x.own g crates s value = none)
    (hpasses : s.key = .Identity → x.Passes) :
    s.can_lack auth = true ∨ s.key = .Ip ∧ x.peer = none := by
  unfold Request.own own_value at h
  unfold Selector.can_lack
  cases hkey : s.key with
  | Ip =>
    rw [hkey] at h
    exact .inr ⟨rfl, client_address_eq_none.mp (Option.map_eq_none_iff.mp h)⟩
  | Identity =>
    left
    rw [hkey] at h
    have hsubject : x.subject = none := by
      cases hs : x.subject with
      | none => rfl
      | some t =>
        have hne := (x.subject_verified t hs).1
        rw [hs] at h
        simp [hne] at h
    exact decide_eq_true fun hauth => hpasses hkey ⟨hauth, hsubject⟩
  | Route =>
    rw [hkey] at h
    cases h
  | Header name => exact .inl rfl

/-- The kind of a value is one that the selector counts. -/
theorem kind_mem_kinds (h : x.value g crates s = .ok (some v))
    (hpasses : s.key = .Identity → x.Passes) :
    v.kind ∈ s.kinds auth ∨ v = .Route ∧ s.kinds auth ≠ [] := by
  unfold Selector.kinds
  obtain ⟨value, hvalue, hown | ⟨hlacks, hstand⟩⟩ := value_ok_iff.mp h
  · exact .inl (List.mem_append_left _ (own_ok hvalue hown).1)
  · obtain hcan | ⟨hip, hpeer⟩ := can_lack_of_own hlacks hpasses
    · rw [if_pos hcan]
      exact .inl (List.mem_append_right _ (stand_in_ok hstand).1)
    · right
      rw [hpeer] at hstand
      refine ⟨?_, by simp [Selector.own_kinds, hip]⟩
      unfold stand_in at hstand
      split at hstand <;> cases hstand
      rfl

/-- Whether a request has a key does not depend on who asks for it. -/
theorem own_eq_none_congr {s' : Selector} (hkey : s.key = s'.key) {value : Option Str} :
    x.own g crates s value = none ↔ x.own g crates s' value = none := by
  unfold Request.own own_value
  rw [hkey]
  cases s'.key with
  | Ip => rw [Option.map_eq_none_iff, Option.map_eq_none_iff, client_address_eq_none,
      client_address_eq_none]
  | Identity | Route | Header => exact Iff.rfl

/-- What a limit that rejects has not refused has the limit's key. -/
theorem own_of_not_refused (hreject : s.missing = .Reject)
    (h : ∀ e, x.value g crates s ≠ .error e) :
    ∃ value, header_value s.key x.headers = .ok value ∧ x.own g crates s value ≠ none := by
  unfold Request.value key_value at h
  cases hvalue : header_value s.key x.headers with
  | error e =>
    rw [hvalue] at h
    exact absurd rfl (h e)
  | ok value =>
    refine ⟨value, rfl, fun hnone => ?_⟩
    rw [hvalue] at h
    unfold Request.own at hnone
    refine h .Missing ?_
    dsimp only [bind, Except.bind]
    rw [hnone, hreject]
    rfl

/-- Behind a limit, too. -/
theorem kind_mem_kinds_behind {limit : Selector}
    (hlimit : ∀ e, x.value g crates limit ≠ .error e) (hpasses : x.Passes)
    (h : x.value g crates s = .ok (some v)) :
    v.kind ∈ limit.kinds_behind s auth ∨ v = .Route ∧ limit.kinds_behind s auth ≠ [] := by
  unfold Selector.kinds_behind
  by_cases hreject : limit.missing = .Reject
  · obtain ⟨value, hvalue, hown⟩ := own_of_not_refused hreject hlimit
    obtain ⟨w, hw⟩ := Option.ne_none_iff_exists'.mp hown
    rw [if_pos hreject, if_neg (List.ne_nil_of_mem (own_ok hvalue hw).1)]
    by_cases hkey : limit.key = s.key
    · rw [if_pos hkey]
      left
      obtain ⟨value', hvalue', hown' | ⟨hnone, -⟩⟩ := value_ok_iff.mp h
      · exact (own_ok hvalue' hown').1
      · -- The limit was asked for the same key, and the request has it.
        rw [← hkey, hvalue] at hvalue'
        cases hvalue'
        exact absurd ((own_eq_none_congr hkey).mpr hnone) hown
    · rw [if_neg hkey]
      exact kind_mem_kinds h fun _ => hpasses
  · rw [if_neg hreject]
    exact kind_mem_kinds h fun _ => hpasses

end

/-- **A route counts the kinds that it is said to count**, and the route as a whole only where it
counts some. -/
theorem kind_mem_of_counted {r : RouteConfig} {x : Request r.auth} {v : KeyValue}
    (h : v ∈ counted_as g crates r x) :
    v.Valid ∧ (v.kind ∈ kinds r ∨ v = .Route ∧ kinds r ≠ []) := by
  unfold kinds
  obtain ⟨cfg, hcfg, hpasses, hvalue⟩ | ⟨hpasses, hlimit, cap, hcap, hvalue⟩ :=
    mem_counted_as.mp h
  · refine ⟨valid_of_value hvalue, ?_⟩
    rw [Option.mem_def] at hcfg
    have hkind := kind_mem_kinds hvalue hpasses
    rw [hcfg]
    cases r.concurrency with
    | none => exact hkind
    | some cap =>
      exact hkind.imp (List.mem_append_left _)
        (And.imp_right (List.append_ne_nil_of_left_ne_nil · _))
  · refine ⟨valid_of_value hvalue, ?_⟩
    rw [Option.mem_def] at hcap
    rw [hcap]
    cases hcfg : limit_of r with
    | none => exact kind_mem_kinds hvalue fun _ => hpasses
    | some cfg =>
      exact (kind_mem_kinds_behind (hlimit cfg hcfg) hpasses hvalue).imp (List.mem_append_right _)
        (And.imp_right (List.append_ne_nil_of_right_ne_nil _ ·))

/-! ## Keys that are told apart -/

theorem key_char_of_addr_char {c : Char} (h : addr_char c = true) :
    key_char c = true ∧ c ≠ '|' := by
  have hbounds := toNat_of_addr_char h
  have hne : ∀ c', c'.toNat = 44 ∨ c'.toNat = 124 → c ≠ c' := by
    rintro c' hc' rfl
    omega
  refine ⟨?_, hne '|' (.inr rfl)⟩
  rw [key_char, Bool.and_eq_true, Bool.and_eq_true, decide_eq_true_eq, decide_eq_true_eq,
    bne_iff_ne]
  exact ⟨⟨by omega, by omega⟩, hne ',' (.inl rfl)⟩

theorem KeyValue.text_ne_nil {v : KeyValue} (h : v.Valid) (hv : v ≠ .Route) : v.text ≠ [] := by
  cases v with
  | Address ip => exact ne_nil_of_is_ip_addr h
  | Subject s => exact h
  | Header t => exact h.1
  | Route => exact absurd rfl hv

/-- **Slots.** A request takes a slot of its caller's, unless it is counted as the route. -/
theorem per_caller_iff {auth : AuthTier} {x : Request auth} {cap : ConcurrencyConfig}
    {v : KeyValue} (h : x.value g crates (.of_cap cap) = .ok (some v)) (route_id : Str) :
    (pending_slot cap route_id (v.key route_id)).per_caller = true ↔ v ≠ .Route := by
  have hstrip : RustStd.strip_prefix (v.key route_id) route_id = some ('|' :: v.text) :=
    strip_prefix_eq_some.mpr rfl
  simp only [pending_slot, hstrip, Bool.and_eq_true, decide_eq_true_eq, ne_eq, Option.some.injEq,
    List.cons.injEq, true_and]
  constructor
  · rintro ⟨-, htext⟩ rfl
    exact htext rfl
  · intro hv
    refine ⟨fun hkey => hv ?_, KeyValue.text_ne_nil (valid_of_value h) hv⟩
    have hroute : (Selector.of_cap cap).key = .Route := hkey
    obtain ⟨value, -, hown⟩ := value_ok_iff.mp h
    unfold Request.own own_value at hown
    rw [hroute] at hown
    have hvalue : KeyValue.Route = v := by simpa using hown
    exact hvalue.symm

/-- A value is known by its kind and its text. -/
theorem KeyValue.ext_kind {v v' : KeyValue} (hkind : v.kind = v'.kind) (htext : v.text = v'.text) :
    v = v' := by
  cases v <;> cases v' <;> cases hkind <;> cases htext <;> rfl

/-- What stands before a `|` in a value is what its kind may begin with. -/
theorem may_begin_of_text {v : KeyValue} (h : v.Valid) {w t : Str}
    (htext : v.text = w ++ '|' :: t) : v.kind.may_begin w = true := by
  have hbar : '|' ∈ v.text := by
    rw [htext]
    simp
  cases v with
  | Address ip =>
    have hchar := List.all_eq_true.mp (all_addr_char h) _ hbar
    exact absurd rfl (key_char_of_addr_char hchar).2
  | Subject s => rfl
  | Header s =>
    have hall := h.2
    rw [show s = w ++ '|' :: t from htext, List.all_append, Bool.and_eq_true] at hall
    exact hall.1
  | Route => cases hbar

theorem keysSeparate_of_apart {routes : List RouteConfig}
    (hids : (routes.map RouteConfig.id).Nodup) (h : Apart routes) :
    KeysSeparate g crates routes := by
  rw [keysSeparate_iff_values]
  intro a ha b hb x y v hv v' hv' hkey
  obtain ⟨hvalid, hkind⟩ := kind_mem_of_counted hv
  obtain ⟨hvalid', hkind'⟩ := kind_mem_of_counted hv'
  have hsome : ∀ {r : RouteConfig} {v : KeyValue},
      v.kind ∈ kinds r ∨ v = .Route ∧ kinds r ≠ [] → kinds r ≠ [] :=
    fun h => h.elim List.ne_nil_of_mem And.right
  -- A text with a `|` in it is no route's, and so its kind is one that the route counts.
  have hfar : ∀ {r r' : RouteConfig} {v v' : KeyValue} {w : Str}, r ∈ routes → r' ∈ routes →
      v.Valid → v.kind ∈ kinds r ∨ v = .Route ∧ kinds r ≠ [] → kinds r' ≠ [] →
      r'.id = r.id ++ '|' :: w → v.text = w ++ '|' :: v'.text → False := by
    intro r r' v v' w hr hr' hvalid hkind hne hid htext
    obtain hkind | ⟨rfl, -⟩ := hkind
    · have hmay := may_begin_of_text hvalid htext
      rw [h.ids r hr r' hr' hne w hid _ hkind] at hmay
      cases hmay
    · simp [KeyValue.text] at htext
  obtain ⟨hid, htext⟩ | ⟨w, hid, htext⟩ | ⟨w, hid, htext⟩ := Segments.append_sep_cases hkey
  · obtain rfl := List.inj_on_of_nodup_map hids ha hb hid
    refine ⟨rfl, ?_⟩
    by_cases hroute : v = .Route
    · by_contra hne
      refine KeyValue.text_ne_nil hvalid' (fun hv' => hne (hroute.trans hv'.symm)) ?_
      rw [← htext, hroute]
      rfl
    · have hroute' : v' ≠ .Route := by
        rintro rfl
        exact KeyValue.text_ne_nil hvalid hroute htext
      have hnot : ∀ {v : KeyValue}, v ≠ .Route → v.kind ≠ .Route := by
        intro v hv hk
        cases v <;> cases hk
        exact hv rfl
      refine KeyValue.ext_kind ?_ htext
      exact h.one_kind a ha _ (hkind.resolve_right fun hk => hroute hk.1) _
        (hkind'.resolve_right fun hk => hroute' hk.1) (hnot hroute) (hnot hroute')
  · exact (hfar ha hb hvalid hkind (hsome hkind') hid htext).elim
  · exact (hfar hb ha hvalid' hkind' (hsome hkind) hid htext).elim

/-! ## Every kind is met -/

/-- `x`: a header's value that is no address. -/
def some_value : HeaderValue := ⟨[0x78], rfl⟩

def LOCALHOST : Str := "127.0.0.1".toList

theorem localhost_is_ip : is_ip_addr LOCALHOST = true := by decide +kernel

/-- The header that a key names, with this value. -/
def with_header (key : RateLimitKey) (v : HeaderValue) (headers : HeaderMap) : HeaderMap :=
  match key with
  | .Header name => headers.insert name v
  | _ => headers

/-- What is read of it. -/
def header_text (key : RateLimitKey) (t : Str) : Option Str :=
  match key with
  | .Header _ => some t
  | _ => none

theorem trim_ows_of_key_char {t : Str} (h : t.all key_char = true) : trim_ows t = t := by
  have hblank : ∀ c ∈ t, ¬ (c == ' ' || c == '\t') = true := by
    intro c hc hblank
    have hchar := List.all_eq_true.mp h c hc
    rw [Bool.or_eq_true, beq_iff_eq, beq_iff_eq] at hblank
    obtain rfl | rfl := hblank <;> revert hchar <;> decide
  have hstart : t.dropWhile (fun c => c == ' ' || c == '\t') = t :=
    List.dropWhile_eq_self_iff.mpr fun hl => hblank _ (List.getElem_mem hl)
  rw [trim_ows, hstart]
  exact List.rdropWhile_eq_self_iff.mpr fun hne => hblank _ (List.getLast_mem hne)

theorem header_key_of_get_all {headers : HeaderMap} {name t : Str} {v : HeaderValue}
    (hget : headers.get_all name = [v]) (hv : v.to_str = some t) (hne : t ≠ [])
    (hall : t.all key_char = true) : header_key headers name = .ok (some t) := by
  have hclean : ((trim_ows t).isEmpty || (trim_ows t).any fun c => !key_char c) = false := by
    rw [trim_ows_of_key_char hall, Bool.or_eq_false_iff, List.isEmpty_eq_false_iff,
      List.any_eq_false]
    exact ⟨hne, fun c hc => by simp [List.all_eq_true.mp hall c hc]⟩
  unfold header_key
  rw [hget]
  dsimp only
  rw [hv]
  dsimp only
  rw [hclean, trim_ows_of_key_char hall]
  rfl

theorem header_value_with_header {key : RateLimitKey} {headers : HeaderMap} {t : Str}
    {v : HeaderValue} (hv : v.to_str = some t) (hne : t ≠ []) (hall : t.all key_char = true) :
    header_value key (with_header key v headers) = .ok (header_text key t) := by
  cases key with
  | Ip | Identity | Route => rfl
  | Header name =>
    refine header_key_of_get_all ?_ hv hne hall
    rw [with_header, MultiMap.get_all_insert, if_pos rfl]

theorem header_value_with_other {key key' : RateLimitKey} (hne : key ≠ key') (headers : HeaderMap)
    (v : HeaderValue) :
    header_value key (with_header key' v headers) = header_value key headers := by
  cases key with
  | Ip | Identity | Route => rfl
  | Header name =>
    cases key' with
    | Ip | Identity | Route => rfl
    | Header name' =>
      have hname : name ≠ name' := fun h => hne (congrArg RateLimitKey.Header h)
      rw [header_value, header_value, header_key, header_key, with_header,
        MultiMap.get_all_insert, if_neg hname]

/-- Where nothing or nonsense was forwarded, the client is the peer. -/
theorem client_address_of_nonsense {forwarded_for : Option Str} (ip : Str) (trusted_proxies : ℕ)
    (h : forwarded_for = none ∨ forwarded_for = some ['x']) :
    client_address forwarded_for (some ip) trusted_proxies = some ip := by
  unfold client_address trusted_suffix
  obtain rfl | rfl := h
  · have hshort : trusted_proxies = 0 ∨ ([] : List Str).length < trusted_proxies :=
      Nat.eq_zero_or_pos trusted_proxies
    dsimp only
    rw [if_pos hshort]
    rfl
  · have hentries : (split ',' ['x']).map trim = [['x']] := by decide
    dsimp only
    rw [hentries]
    by_cases hone : trusted_proxies = 1
    · have hbad : ¬ ([['x']].drop ([['x']].length - trusted_proxies)).all is_ip_addr = true := by
        rw [hone]
        decide
      rw [if_neg (by simp [hone]), if_neg hbad]
      rfl
    · rw [if_pos (by rw [List.length_singleton]; omega)]
      rfl

/-- A request whose address is known, and that has the key or need not have it, is not refused. -/
theorem not_refused {auth : AuthTier} {x : Request auth} {s : Selector} (hpeer : x.peer ≠ none)
    {value : Option Str} (hvalue : header_value s.key x.headers = .ok value)
    (h : s.missing = .Reject → x.own g crates s value ≠ none) :
    ∀ e, x.value g crates s ≠ .error e := by
  intro e
  unfold Request.value key_value
  rw [hvalue]
  dsimp only [bind, Except.bind]
  rw [show own_value s.key s.trusted_proxies x.subject
    (forwarded g crates s.trusted_proxies x.peer x.headers) x.peer value
    = x.own g crates s value from rfl]
  cases hown : x.own g crates s value with
  | some v => simp
  | none =>
    obtain ⟨ip, hip⟩ := Option.ne_none_iff_exists'.mp hpeer
    unfold stand_in
    cases hmissing : s.missing with
    | Reject => exact absurd hown (h hmissing)
    | Route | Skip => simp
    | Ip => simp [hip]

/-- It has the key if it has an address, a header, and a subject where that is the key. -/
theorem own_ne_none {auth : AuthTier} {x : Request auth} {s : Selector} (hpeer : x.peer ≠ none)
    (hsubject : s.key = .Identity → x.subject ≠ none) (t : Str) :
    x.own g crates s (header_text s.key t) ≠ none := by
  unfold Request.own own_value header_text
  cases hkey : s.key with
  | Ip =>
    dsimp only
    rw [ne_eq, Option.map_eq_none_iff, client_address_eq_none]
    exact hpeer
  | Identity =>
    obtain ⟨u, hu⟩ := Option.ne_none_iff_exists'.mp (hsubject hkey)
    simp [hu, (x.subject_verified u hu).1]
  | Route | Header => simp

/-- The subject of a request on a tier that asks for one. -/
def subject_on (auth : AuthTier) (t : Str) : Option Str := if auth.verifies then some t else none

/-- A request whose address is known. -/
def known (auth : AuthTier) (ip : Str) (hip : is_ip_addr ip = true) (t : Str) (ht : t ≠ [])
    (headers : HeaderMap) : Request auth where
  peer := some ip
  headers := headers
  subject := subject_on auth t
  peer_is_ip := fun _ h => Option.some.inj h ▸ hip
  subject_verified := by
    intro s hs
    rw [Option.mem_def, subject_on, Option.ite_none_right_eq_some, Option.some.injEq] at hs
    exact ⟨hs.2 ▸ ht, hs.1⟩

theorem passes_of_subject {auth : AuthTier} {x : Request auth}
    (h : auth.verifies = true → x.subject ≠ none) : x.Passes := by
  rintro ⟨rfl, hnone⟩
  exact h rfl hnone

/-- The headers of a request in which one selector finds what is asked for, and the other finds
something. -/
def both_headers (s o : Selector) (v : HeaderValue) : HeaderMap :=
  with_header s.key v (with_header o.key some_value ⟨[]⟩)

theorem header_value_both {s o : Selector} {v : HeaderValue} {t : Str} (hv : v.to_str = some t)
    (hne : t ≠ []) (hall : t.all key_char = true) :
    ∃ u, header_value o.key (both_headers s o v) = .ok (header_text o.key u) := by
  by_cases hkey : o.key = s.key
  · rw [both_headers, hkey]
    exact ⟨t, header_value_with_header hv hne hall⟩
  · rw [both_headers, header_value_with_other hkey]
    exact ⟨['x'], header_value_with_header rfl (List.cons_ne_nil _ _) rfl⟩

theorem exists_header_value {t : Str} (hall : t.all key_char = true) :
    ∃ v : HeaderValue, v.to_str = some t := by
  have hvisible : t.all visible = true := by
    refine List.all_eq_true.mpr fun c hc => ?_
    have hchar := List.all_eq_true.mp hall c hc
    simp only [key_char, Bool.and_eq_true, decide_eq_true_eq] at hchar
    rw [visible, Bool.or_eq_true, Bool.and_eq_true, decide_eq_true_eq, decide_eq_true_eq]
    exact .inr ⟨UInt32.le_iff_toNat_le.mpr (by exact Nat.le_trans (by decide) hchar.1.1),
      UInt32.le_iff_toNat_le.mpr hchar.1.2⟩
  obtain ⟨v, -, hv⟩ := from_str_visible hvisible
  exact ⟨v, hv⟩

/-- What another selector asks for is nonsense as an `X-Forwarded-For`. -/
theorem forwarded_nonsense (key : RateLimitKey) (trusted_proxies : ℕ) (peer : Option Str) :
    forwarded g crates trusted_proxies peer (with_header key some_value ⟨[]⟩) = none
      ∨ forwarded g crates trusted_proxies peer (with_header key some_value ⟨[]⟩)
        = some ['x'] := by
  have hchain : forwarded_for_chain (with_header key some_value ⟨[]⟩) = none
      ∨ forwarded_for_chain (with_header key some_value ⟨[]⟩) = some ['x'] := by
    cases key with
    | Ip | Identity | Route => exact .inl rfl
    | Header name =>
      rw [with_header, forwarded_for_chain, MultiMap.get_all_insert]
      by_cases hname : X_FORWARDED_FOR = name
      · rw [if_pos hname]
        exact .inr rfl
      · rw [if_neg hname]
        exact .inl rfl
  unfold forwarded
  split
  · exact hchain
  · exact .inl rfl

/-- A request with an address, a subject and both headers is refused only where everybody is. -/
theorem known_meets {auth : AuthTier} {s o : Selector} {ip u t : Str} {v : HeaderValue}
    {w : KeyValue} (hip : is_ip_addr ip = true) (hu : u ≠ []) (hv : v.to_str = some t)
    (hne : t ≠ []) (hall : t.all key_char = true)
    (ho : o.missing = .Reject → o.own_kinds auth ≠ [])
    (hown : (known auth ip hip u hu (both_headers s o v)).own g crates s (header_text s.key t)
      = some w) :
    ∃ x : Request auth, x.Passes ∧ (∀ e, x.value g crates o ≠ .error e)
      ∧ x.value g crates s = .ok (some w) := by
  have hsubject : auth.verifies = true →
      (known auth ip hip u hu (both_headers s o v)).subject ≠ none := by
    intro hverifies
    simp [known, subject_on, hverifies]
  refine ⟨known auth ip hip u hu (both_headers s o v), passes_of_subject hsubject, ?_,
    value_ok_iff.mpr ⟨_, header_value_with_header hv hne hall, .inl hown⟩⟩
  obtain ⟨u', hvalue⟩ := header_value_both (o := o) (s := s) hv hne hall
  refine not_refused (by simp [known]) hvalue fun hreject => own_ne_none (by simp [known]) ?_ u'
  intro hkey
  have hkinds := ho hreject
  rw [Selector.own_kinds, hkey] at hkinds
  exact hsubject (by simpa using hkinds)

/-- Requests that have the key: one is counted as any value of its kind, and another selector does
not refuse it, unless it refuses everybody. -/
theorem exists_own {auth : AuthTier} {s o : Selector} {k : KeyKind} (hk : k ∈ s.own_kinds auth)
    {t : Str} (ht : (k.value t).Valid) (ho : o.missing = .Reject → o.own_kinds auth ≠ []) :
    ∃ x : Request auth, x.Passes ∧ (∀ e, x.value g crates o ≠ .error e)
      ∧ x.value g crates s = .ok (some (k.value t)) := by
  unfold Selector.own_kinds at hk
  cases hkey : s.key with
  | Ip =>
    rw [hkey] at hk
    obtain rfl := List.mem_singleton.mp hk
    refine known_meets (v := some_value) ht (List.cons_ne_nil 'x' []) rfl (List.cons_ne_nil 'x' [])
      rfl ho ?_
    have hheaders : both_headers s o some_value = with_header o.key some_value ⟨[]⟩ := by
      unfold both_headers
      rw [hkey]
      rfl
    unfold Request.own own_value
    rw [hkey]
    dsimp only [known]
    rw [hheaders, client_address_of_nonsense _ _ (forwarded_nonsense _ _ _)]
    rfl
  | Identity =>
    rw [hkey] at hk
    dsimp only at hk
    by_cases hverifies : auth.verifies = true
    · rw [if_pos hverifies] at hk
      obtain rfl := List.mem_singleton.mp hk
      refine known_meets (v := some_value) localhost_is_ip ht rfl (List.cons_ne_nil 'x' []) rfl
        ho ?_
      have hne : t ≠ [] := ht
      unfold Request.own own_value
      rw [hkey]
      simp [known, subject_on, hverifies, hne, KeyKind.value]
    · rw [if_neg hverifies] at hk
      cases hk
  | Route =>
    rw [hkey] at hk
    obtain rfl := List.mem_singleton.mp hk
    refine known_meets (v := some_value) localhost_is_ip (List.cons_ne_nil 'x' []) rfl
      (List.cons_ne_nil 'x' []) rfl ho ?_
    unfold Request.own own_value
    rw [hkey]
    rfl
  | Header name =>
    rw [hkey] at hk
    obtain rfl := List.mem_singleton.mp hk
    obtain ⟨v, hv⟩ := exists_header_value ht.2
    refine known_meets localhost_is_ip (List.cons_ne_nil 'x' []) hv ht.1 ht.2 ho ?_
    unfold Request.own own_value
    rw [hkey]
    rfl

/-- Some address stands in, where the `missing` mode lets one, as any text of the kind it gives. -/
theorem exists_stand_in {m : MissingKey} {k : KeyKind} (hk : k ∈ stand_in_kinds m) {t : Str}
    (ht : (k.value t).Valid) :
    ∃ ip, is_ip_addr ip = true ∧ stand_in m (some ip) = .ok (some (k.value t)) := by
  cases m with
  | Reject | Skip => cases hk
  | Route =>
    obtain rfl := List.mem_singleton.mp hk
    exact ⟨LOCALHOST, localhost_is_ip, rfl⟩
  | Ip =>
    obtain rfl := List.mem_singleton.mp hk
    exact ⟨t, ht, rfl⟩

/-- Requests that lack the key. -/
theorem exists_lacking {auth : AuthTier} {s o : Selector} {k : KeyKind}
    (hcan : s.can_lack auth = true) (hk : k ∈ stand_in_kinds s.missing) {t : Str}
    (ht : (k.value t).Valid) (ho : o.missing = .Reject → o.key ≠ s.key ∧ o.own_kinds auth ≠ []) :
    ∃ x : Request auth, x.Passes ∧ (∀ e, x.value g crates o ≠ .error e)
      ∧ x.value g crates s = .ok (some (k.value t)) := by
  obtain ⟨ip, hip, hstand⟩ := exists_stand_in hk ht
  obtain ⟨x, hpeer, hsubject, hheaders⟩ : ∃ x : Request auth, x.peer = some ip
      ∧ x.subject = (if s.key = .Identity then none else subject_on auth ['x'])
      ∧ x.headers = if o.key = s.key then ⟨[]⟩ else with_header o.key some_value ⟨[]⟩ := by
    by_cases hkey : s.key = .Identity
    · rw [if_pos hkey]
      exact ⟨{ known auth ip hip ['x'] (List.cons_ne_nil 'x' []) _ with
        subject := none, subject_verified := by simp }, rfl, rfl, rfl⟩
    · rw [if_neg hkey]
      exact ⟨known auth ip hip ['x'] (List.cons_ne_nil 'x' []) _, rfl, rfl, rfl⟩
  have hpasses : x.Passes := by
    rintro ⟨hauth, hnone⟩
    rw [hsubject] at hnone
    by_cases hkey : s.key = .Identity
    · rw [Selector.can_lack, hkey] at hcan
      exact absurd hauth (of_decide_eq_true hcan)
    · rw [if_neg hkey, hauth] at hnone
      cases hnone
  have hlacks : header_value s.key x.headers = .ok none ∧ x.own g crates s none = none := by
    unfold Request.own own_value
    unfold Selector.can_lack at hcan
    cases hkey : s.key with
    | Ip | Route =>
      rw [hkey] at hcan
      cases hcan
    | Identity =>
      rw [hsubject, if_pos hkey]
      exact ⟨rfl, rfl⟩
    | Header name =>
      refine ⟨?_, rfl⟩
      rw [hheaders, ← hkey]
      by_cases hsame : o.key = s.key
      · rw [if_pos hsame, hkey]
        rfl
      · rw [if_neg hsame, header_value_with_other (Ne.symm hsame), hkey]
        rfl
  refine ⟨x, hpasses, ?_, value_ok_iff.mpr ⟨none, hlacks.1, .inr ⟨hlacks.2, hpeer ▸ hstand⟩⟩⟩
  have hknown : x.peer ≠ none := by simp [hpeer]
  by_cases hsame : o.key = s.key
  · exact not_refused hknown (hsame ▸ hlacks.1) fun hreject => absurd hsame (ho hreject).1
  · have hvalue : header_value o.key x.headers = .ok (header_text o.key ['x']) := by
      rw [hheaders, if_neg hsame]
      exact header_value_with_header rfl (List.cons_ne_nil 'x' []) rfl
    refine not_refused hknown hvalue fun hreject => own_ne_none hknown (fun hkey => ?_) _
    have hkinds := (ho hreject).2
    rw [Selector.own_kinds, hkey] at hkinds
    have hverifies : auth.verifies = true := by simpa using hkinds
    rw [hsubject, if_neg (fun hs => hsame (hkey.trans hs.symm)), subject_on, if_pos hverifies]
    simp

/-- Every kind that a cap counts behind a limit is met by a request that the limit lets through. -/
theorem exists_behind {auth : AuthTier} {limit cap : Selector} {k : KeyKind}
    (hk : k ∈ limit.kinds_behind cap auth) {t : Str} (ht : (k.value t).Valid) :
    ∃ x : Request auth, x.Passes ∧ (∀ e, x.value g crates limit ≠ .error e)
      ∧ x.value g crates cap = .ok (some (k.value t)) := by
  have hall : (limit.missing = .Reject → limit.key ≠ cap.key ∧ limit.own_kinds auth ≠ []) →
      k ∈ cap.kinds auth → ∃ x : Request auth, x.Passes
        ∧ (∀ e, x.value g crates limit ≠ .error e)
        ∧ x.value g crates cap = .ok (some (k.value t)) := by
    intro hlimit hk
    obtain hown | hstand := List.mem_append.mp hk
    · exact exists_own hown ht fun hreject => (hlimit hreject).2
    · obtain ⟨hcan, hstand⟩ := List.mem_ite_nil_right.mp hstand
      exact exists_lacking hcan hstand ht hlimit
  unfold Selector.kinds_behind at hk
  by_cases hreject : limit.missing = .Reject
  · rw [if_pos hreject] at hk
    by_cases hnobody : limit.own_kinds auth = []
    · rw [if_pos hnobody] at hk
      cases hk
    · rw [if_neg hnobody] at hk
      by_cases hkey : limit.key = cap.key
      · rw [if_pos hkey] at hk
        exact exists_own hk ht fun _ => hnobody
      · rw [if_neg hkey] at hk
        exact hall (fun _ => ⟨hkey, hnobody⟩) hk
  · rw [if_neg hreject] at hk
    exact hall (fun h => absurd h hreject) hk

/-- **Every kind that a route counts is met**, with every text of the kind. -/
theorem exists_counted {r : RouteConfig} {k : KeyKind} (hk : k ∈ kinds r) {t : Str}
    (ht : (k.value t).Valid) : ∃ x : Request r.auth, k.value t ∈ counted_as g crates r x := by
  -- Alone, a selector is asked together with one that refuses nobody.
  have halone : ∀ {s : Selector}, k ∈ s.kinds r.auth → ∃ x : Request r.auth, x.Passes
      ∧ x.value g crates s = .ok (some (k.value t)) := by
    intro s hk
    obtain hown | hstand := List.mem_append.mp hk
    · obtain ⟨x, hpasses, -, hvalue⟩ := exists_own (o := ⟨.Route, .Skip, 0⟩) hown ht (by simp)
      exact ⟨x, hpasses, hvalue⟩
    · obtain ⟨hcan, hstand⟩ := List.mem_ite_nil_right.mp hstand
      obtain ⟨x, hpasses, -, hvalue⟩ :=
        exists_lacking (o := ⟨.Route, .Skip, 0⟩) hcan hstand ht (by simp)
      exact ⟨x, hpasses, hvalue⟩
  have hby_limit : ∀ cfg, limit_of r = some cfg → k ∈ (Selector.of_limit cfg).kinds r.auth →
      ∃ x : Request r.auth, k.value t ∈ counted_as g crates r x := by
    intro cfg hcfg hk
    obtain ⟨x, hpasses, hvalue⟩ := halone hk
    exact ⟨x, mem_counted_as.mpr (.inl ⟨cfg, hcfg, fun _ => hpasses, hvalue⟩)⟩
  unfold kinds at hk
  cases hcfg : limit_of r with
  | none =>
    cases hcap : r.concurrency with
    | none =>
      rw [hcfg, hcap] at hk
      cases hk
    | some cap =>
      rw [hcfg, hcap] at hk
      obtain ⟨x, hpasses, hvalue⟩ := halone hk
      exact ⟨x, mem_counted_as.mpr (.inr ⟨hpasses, by simp [hcfg], cap, hcap, hvalue⟩)⟩
  | some cfg =>
    cases hcap : r.concurrency with
    | none =>
      rw [hcfg, hcap] at hk
      exact hby_limit cfg hcfg hk
    | some cap =>
      rw [hcfg, hcap] at hk
      obtain hk | hk := List.mem_append.mp hk
      · exact hby_limit cfg hcfg hk
      · obtain ⟨x, hpasses, hlimit, hvalue⟩ := exists_behind hk ht
        refine ⟨x, mem_counted_as.mpr (.inr ⟨hpasses, ?_, cap, hcap, hvalue⟩)⟩
        intro cfg' hcfg'
        rw [hcfg, Option.mem_some] at hcfg'
        exact hcfg' ▸ hlimit

/-! ## Which tables keep keys apart -/

@[simp] theorem KeyKind.kind_value (k : KeyKind) (t : Str) : (k.value t).kind = k := by
  cases k <;> rfl

theorem KeyKind.text_value {k : KeyKind} (hk : k ≠ .Route) (t : Str) : (k.value t).text = t := by
  cases k with
  | Address | Subject | Header => rfl
  | Route => exact absurd rfl hk

theorem key_char_localhost : LOCALHOST.all key_char = true := by decide +kernel

/-- An address can be sent as a key of every kind. -/
theorem valid_localhost (k : KeyKind) : (k.value LOCALHOST).Valid := by
  have hne : LOCALHOST ≠ [] := ne_nil_of_is_ip_addr localhost_is_ip
  cases k with
  | Address => exact localhost_is_ip
  | Subject => exact hne
  | Header => exact ⟨hne, key_char_localhost⟩
  | Route => trivial

/-- A value may go on behind what its kind may begin with. -/
theorem valid_of_may_begin {k : KeyKind} {w u : Str} (hk : k.may_begin w = true)
    (hu : u.all key_char = true) : (k.value (w ++ '|' :: u)).Valid := by
  have hne : w ++ '|' :: u ≠ [] := by simp
  cases k with
  | Address | Route => cases hk
  | Subject => exact hne
  | Header =>
    refine ⟨hne, ?_⟩
    rw [List.all_append, List.all_cons, hu, show key_char '|' = true by decide]
    exact Bool.and_eq_true_iff.mpr ⟨hk, rfl⟩

theorem apart_of_keysSeparate {routes : List RouteConfig} (h : KeysSeparate g crates routes) :
    Apart routes := by
  rw [keysSeparate_iff_values] at h
  have hcounted : ∀ (r : RouteConfig) (k : KeyKind), k ∈ kinds r → ∀ {t : Str},
      (k.value t).Valid → ∃ x : Request r.auth, k.value t ∈ counted_as g crates r x :=
    fun _ _ hk _ ht => exists_counted hk ht
  refine ⟨?_, ?_⟩
  · intro r hr k hk k' hk' hroute hroute'
    obtain ⟨x, hx⟩ := hcounted _ _ hk (valid_localhost k)
    obtain ⟨y, hy⟩ := hcounted _ _ hk' (valid_localhost k')
    have hkey : (k.value LOCALHOST).key r.id = (k'.value LOCALHOST).key r.id := by
      rw [KeyValue.key, KeyValue.key, KeyKind.text_value hroute, KeyKind.text_value hroute']
    have hsame := congrArg KeyValue.kind (h r hr r hr x y _ hx _ hy hkey).2
    rwa [KeyKind.kind_value, KeyKind.kind_value] at hsame
  · intro a ha b hb hne w hid k hk
    obtain ⟨k', hk'⟩ := List.exists_mem_of_ne_nil _ hne
    have hchars : (k'.value LOCALHOST).text.all key_char = true := by
      cases k' with
      | Address | Subject | Header => exact key_char_localhost
      | Route => rfl
    by_contra hmay
    rw [Bool.not_eq_false] at hmay
    have hkind : k ≠ .Route := by
      rintro rfl
      cases hmay
    obtain ⟨x, hx⟩ := hcounted _ _ hk (valid_of_may_begin hmay hchars)
    obtain ⟨y, hy⟩ := hcounted _ _ hk' (valid_localhost k')
    have hkey : (k.value (w ++ '|' :: (k'.value LOCALHOST).text)).key a.id
        = (k'.value LOCALHOST).key b.id := by
      rw [KeyValue.key, KeyValue.key, KeyKind.text_value hkind, hid, List.append_assoc,
        List.cons_append]
    have hsame := congrArg List.length (hid.symm.trans (h a ha b hb x y _ hx _ hy hkey).1.symm)
    rw [List.length_append, List.length_cons] at hsame
    omega

/-- **Keys separate on the tables that keep them apart**, of those that pass validation. -/
theorem keys_separate_iff {cfg : Config.ResolvedConfig} {table : RouteTable}
    (h : cfg.validate_table table = .ok ()) :
    KeysSeparate g crates table.routes ↔ Apart table.routes :=
  ⟨apart_of_keysSeparate, keysSeparate_of_apart (validate_table_ok.mp h).2.ids_unique⟩

namespace TwoRoutes

/-- A route with a cap for each client, by what it calls itself. -/
def capped (id : Str) : RouteConfig := RouteConfig.of_input
  { id := id
    path_prefix := id
    upstream := "search".toList
    concurrency := some
      { max := 50, key := some (.Header "x-client".toList), missing_key := .Reject
        trusted_proxies := 0 } }

/-- A table with `search` and another route. -/
def table (id : Str) : RouteTable := RouteTable.build_with 0
  { internal := [], machine := [], optional := [], authenticated := []
    «public» := [capped "search".toList, capped id] }
  { rate_limit := none, retry := none, methods := none } false

def cfg : Config.ResolvedConfig where
  upstreams := ["search".toList]
  trusted_proxy_ips := []
  shared_limits := false
  shared_counters := none
  cache := false
  client_keys := false
  machine := false
  internal_listen := none

/-- `bob`, and `beta|bob`. -/
def clients : HeaderValue × HeaderValue :=
  (⟨[0x62, 0x6f, 0x62], rfl⟩, ⟨[0x62, 0x65, 0x74, 0x61, 0x7c, 0x62, 0x6f, 0x62], rfl⟩)

/-- A request of a client. -/
def request (auth : AuthTier) (client : HeaderValue) : Request auth where
  peer := some LOCALHOST
  headers := of_fields [("X-Client".toList, client)]
  subject := none
  peer_is_ip := by
    rintro _ ⟨⟩
    exact localhost_is_ip
  subject_verified := by simp

end TwoRoutes

open TwoRoutes in
/-- Keys of `search` and `beta` are told apart. -/
theorem keys_separate_two_routes :
    KeysSeparate plain_gateway plain_crates (table "beta".toList).routes :=
  (@keys_separate_iff _ _ cfg _ (by decide +kernel)).mpr
    { one_kind := by decide +kernel
      ids := by
        have hnone : ∀ a ∈ (table "beta".toList).routes, ∀ b ∈ (table "beta".toList).routes,
            ¬ (a.id ++ ['|']) <+: b.id := by decide +kernel
        intro a ha b hb _ w hid
        exact absurd ⟨w, by rw [hid, List.append_assoc, List.singleton_append]⟩ (hnone a ha b hb) }

open TwoRoutes in
/-- A client of `search` that calls itself `beta|bob` is `bob` of `search|beta`. -/
theorem client_counts_elsewhere :
    ¬ ∀ (g : Gateway) (crates : Crates) (cfg : Config.ResolvedConfig) (table : RouteTable),
      cfg.validate_table table = .ok () → KeysSeparate g crates table.routes := by
  intro h
  have hseparate :=
    h plain_gateway plain_crates cfg (table "search|beta".toList) (by decide +kernel)
  -- The longer prefix is sorted first.
  have hbeta := @List.getElem_mem _ (table "search|beta".toList).routes 0 (by decide +kernel)
  have hsearch := @List.getElem_mem _ (table "search|beta".toList).routes 1 (by decide +kernel)
  have hids := (hseparate _ hsearch _ hbeta (request _ clients.2) (request _ clients.1)
    ("search|beta|bob".toList, .Header "beta|bob".toList) (by decide +kernel)
    ("search|beta|bob".toList, .Header "bob".toList) (by decide +kernel) rfl).1
  revert hids
  decide +kernel

end Lagos.Admission
