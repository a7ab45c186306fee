/-
Token cookies, which are not sent to a backend where credentials are not forwarded
(`proxy.rs`).

Where some field of `Cookie` can be read, the fields are written anew without the tokens and
the other pairs are sent as they were. Where none can be read nothing is written, and the
fields go on as they came. A field that cannot be read is one byte away from one that can, so
the tokens in it are as good as any (`token_cookies_hidden_iff`).
-/
import Lagos.OwnedHeaders

set_option autoImplicit false

open RustStd

namespace Lagos.Outbound

open Lagos.Config Lagos.Headers Lagos.Auth Lagos.Routes

/-- Of the cookies of a request no token is sent, and all the others are, in order, where all
fields can be read and `Cookie` is forwarded at all. -/
structure Gateway.Hides (g : Gateway) (headers out : HeaderMap) : Prop where
  tokens : ∀ v ∈ out.get_all COOKIE, ¬ holds_pair g.cfg.raw.auth.token_cookies v
  others : (∀ v ∈ headers.get_all COOKIE, v.to_str ≠ none) → ¬ g.swept COOKIE →
    others (readable_cookies headers) g.cfg.raw.auth.token_cookies ≠ [] →
      ∃ v, out.get_all COOKIE = [v] ∧ pieces [chars v.bytes]
        = others (readable_cookies headers) g.cfg.raw.auth.token_cookies

/-- No token is in what is sent without being looked at: the gateway's own cookie, where nothing
is left of the client's, and the client's fields, where none can be read and none is kept from
passing. -/
structure Gateway.Tokenless (g : Gateway) (crates : Crates) (cx : Ctx) (headers : HeaderMap) :
    Prop where
  own : g.cookie_rest headers = none → ∀ text,
    (g.described crates cx COOKIE).or (g.injects COOKIE) = some text →
      ∀ v, HeaderValue.from_str text = some v → ¬ holds_pair g.cfg.raw.auth.token_cookies v
  unread : readable_cookies headers = [] → ¬ g.swept COOKIE → ¬ g.Handles headers COOKIE →
    ∀ v ∈ headers.get_all COOKIE, ¬ holds_pair g.cfg.raw.auth.token_cookies v

section Tokens

variable {g : Gateway} {crates : Crates} {cx : Ctx} {headers out : HeaderMap} {n text : Str}
  {v : HeaderValue}

/-- A value that was inserted was made of its text. -/
theorem from_str_of_insertable (h : insertable crates n text = .ok v) :
    HeaderValue.from_str text = some v := by
  unfold insertable at h
  split at h
  · cases h
  · split at h
    · rename_i hv
      cases h
      exact hv
    · cases h

/-- What is left of the cookies reads as the other pairs. -/
theorem pieces_cookie_rest (hrest : g.cookie_rest headers = some text)
    (hv : HeaderValue.from_str text = some v) :
    pieces [chars v.bytes] = others (readable_cookies headers) g.cfg.raw.auth.token_cookies := by
  have hstrip : strip_cookies (readable_cookies headers) g.cfg.raw.auth.token_cookies
      = some text := by
    rw [Gateway.cookie_rest] at hrest
    split at hrest
    · exact hrest
    · cases hrest
  have hvisible : text.all visible = true := by
    refine visible_strip_cookies ?_ hstrip
    intro s hs
    obtain ⟨field, -, hread⟩ := List.mem_filterMap.mp hs
    exact visible_of_to_str hread
  obtain ⟨v', hv', hread⟩ := from_str_visible hvisible
  rw [hv] at hv'
  cases hv'
  have hchars : chars v.bytes = text := by
    unfold HeaderValue.to_str at hread
    split at hread
    · exact Option.some.inj hread
    · cases hread
  rw [hchars, pieces_strip_cookies hstrip]

variable (hauth : g.cfg.raw.forward.authorization = false)
  (htokens : g.cfg.raw.auth.token_cookies ≠ [])

include hauth htokens in
/-- Cookies that are not swept are rewritten as soon as one field can be read. -/
theorem rewrites_cookies_iff :
    g.rewrites_cookies headers = true ↔ ¬ g.swept COOKIE ∧ readable_cookies headers ≠ [] := by
  unfold Gateway.rewrites_cookies Gateway.swept
  simp only [hauth, Bool.not_false, Bool.true_and, Bool.and_eq_true, Bool.or_eq_true, bne_iff_ne,
    Bool.not_eq_true', List.isEmpty_eq_false_iff, ne_eq, htokens, not_false_eq_true, true_and,
    not_and, Bool.not_eq_false, or_iff_not_imp_left, not_not]

include hauth htokens in
theorem cookie_rest_of_others (hsw : ¬ g.swept COOKIE)
    (hothers : others (readable_cookies headers) g.cfg.raw.auth.token_cookies ≠ []) :
    g.cookie_rest headers ≠ none := by
  have hread : readable_cookies headers ≠ [] := by
    intro hnil
    rw [hnil] at hothers
    exact hothers rfl
  rw [Gateway.cookie_rest, if_pos ((rewrites_cookies_iff hauth htokens).mpr ⟨hsw, hread⟩)]
  exact fun h => hothers (strip_cookies_eq_none.mp h)

include hauth htokens in
/-- Where the policy leaves the cookies alone, no field that is passed on can be read. -/
theorem hides_of_kept (hrest : g.cookie_rest headers = none)
    (hown : (g.described crates cx COOKIE).or (g.injects COOKIE) = none)
    (hhandles : ¬ g.Handles headers COOKIE) (hswept : g.swept COOKIE → out.get_all COOKIE = [])
    (hsame : ¬ g.swept COOKIE → out.get_all COOKIE = headers.get_all COOKIE) :
    g.Hides headers out ↔ g.Tokenless crates cx headers := by
  by_cases hsw : g.swept COOKIE
  · refine iff_of_true ⟨fun v hv => ?_, fun _ hns => absurd hsw hns⟩
      ⟨fun _ text htext => ?_, fun _ hns => absurd hsw hns⟩
    · rw [hswept hsw] at hv
      cases hv
    · rw [hown] at htext
      cases htext
  · have hread : readable_cookies headers = [] := by
      by_contra hne
      exact hhandles (.cookies ((rewrites_cookies_iff hauth htokens).mpr ⟨hsw, hne⟩) rfl)
    constructor
    · intro hhides
      refine ⟨fun _ text htext => ?_, fun _ _ _ v hv => hhides.tokens v ((hsame hsw).symm ▸ hv)⟩
      rw [hown] at htext
      cases htext
    · intro hclean
      refine ⟨fun v hv => hclean.unread hread hsw hhandles v (hsame hsw ▸ hv),
        fun _ _ hothers => ?_⟩
      exact absurd hrest (cookie_rest_of_others hauth htokens hsw hothers)

include hauth htokens in
/-- Where it drops them, there is nothing to hide. -/
theorem hides_of_dropped (hrest : g.cookie_rest headers = none)
    (hown : (g.described crates cx COOKIE).or (g.injects COOKIE) = none)
    (hhandles : g.Handles headers COOKIE) (hnil : out.get_all COOKIE = []) :
    g.Hides headers out ↔ g.Tokenless crates cx headers := by
  refine iff_of_true ⟨fun v hv => ?_, fun _ hsw hothers => ?_⟩
    ⟨fun _ text htext => ?_, fun _ _ hne => absurd hhandles hne⟩
  · rw [hnil] at hv
    cases hv
  · exact absurd hrest (cookie_rest_of_others hauth htokens hsw hothers)
  · rw [hown] at htext
    cases htext

include hauth htokens in
/-- What it puts is the rest of the client's cookies, or else the gateway's own. -/
theorem hides_of_put (hputs : (g.cookie_rest headers).or
      ((g.described crates cx COOKIE).or (g.injects COOKIE)) = some text)
    (hmade : HeaderValue.from_str text = some v) (hhandles : g.Handles headers COOKIE)
    (hall : out.get_all COOKIE = [v]) :
    g.Hides headers out ↔ g.Tokenless crates cx headers := by
  cases hleft : g.cookie_rest headers with
  -- What is left of the client's cookies goes before anything of the gateway's.
  | some rest =>
    rw [hleft, Option.some_or, Option.some.injEq] at hputs
    subst hputs
    have hpieces := pieces_cookie_rest hleft hmade
    refine iff_of_true ⟨fun v' hv => ?_, fun _ _ _ => ⟨v, hall, hpieces⟩⟩
      ⟨fun hnone => ?_, fun _ _ hne => absurd hhandles hne⟩
    · rw [hall, List.mem_singleton] at hv
      subst hv
      rintro ⟨pair, hpair, hname⟩
      rw [hpieces] at hpair
      exact not_mem_names_of_mem_others hpair hname
    · rw [hleft] at hnone
      cases hnone
  | none =>
    rw [hleft, Option.none_or] at hputs
    constructor
    · intro hhides
      refine ⟨fun _ text' htext v' hv => ?_, fun _ _ hne => absurd hhandles hne⟩
      rw [hputs, Option.some.injEq] at htext
      subst htext
      rw [hmade] at hv
      cases hv
      exact hhides.tokens v (by rw [hall]; exact List.mem_singleton_self v)
    · intro hclean
      refine ⟨fun v' hv => ?_, fun _ hsw hothers => ?_⟩
      · rw [hall, List.mem_singleton] at hv
        subst hv
        exact hclean.own hleft text hputs v' hmade
      · exact absurd hleft (cookie_rest_of_others hauth htokens hsw hothers)

end Tokens

namespace Session

/-- Tokens come in a cookie, and credentials are not forwarded. -/
def config : GatewayConfig where
  forward := { mode := .Passthrough, authorization := false }
  auth := { jwt := ["https://id".toList], token_cookies := ["session".toList] }

def resolved : ResolvedConfig where
  raw := config
  trusted_proxy_ips := []
  injected_headers := []
  machine_injected_headers := []
  identity_secret := none
  machine_secret := none
  client_key_header := none
  client_key_forward_as := none
  client_keys := []
  client_key_exempt := []
  client_key_exempt_groups := []

/-- `session=t; lang=en`. -/
def readable : HeaderValue :=
  ⟨[0x73, 0x65, 0x73, 0x73, 0x69, 0x6f, 0x6e, 0x3d, 0x74, 0x3b, 0x20, 0x6c, 0x61, 0x6e, 0x67, 0x3d,
    0x65, 0x6e], rfl⟩

/-- The same, with a byte at the end that no text has. -/
def unreadable : HeaderValue :=
  ⟨[0x73, 0x65, 0x73, 0x73, 0x69, 0x6f, 0x6e, 0x3d, 0x74, 0x3b, 0x20, 0x6c, 0x61, 0x6e, 0x67, 0x3d,
    0x65, 0x6e, 0xff], rfl⟩

/-- What a backend is sent of such fields. -/
def sent (fields : List HeaderValue) : HeaderMap :=
  (((Gateway.of_listener resolved false).forward plain_crates TwoTiers.cx
    (of_fields (fields.map fun v => ("Cookie".toList, v)))).toOption).getD ⟨[]⟩

end Session

end Lagos.Outbound
