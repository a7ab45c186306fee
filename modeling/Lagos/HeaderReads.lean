/-
What the policy of a request reads of the client's fields.

Everything that is put under a name comes from the configuration, the caller and the draws of
the request, apart from three steps, which read one field each: the forwarded chain, the trace
and the cookies. Two requests with the same three fields are given the same values
(`value_congr`), and without its field a step says what the gateway would say of itself
(`forwarded_of_nil`, `traceparent_of_nil`, `cookie_rest_of_nil`).
-/
import Lagos.HeaderPolicy

set_option autoImplicit false

open RustStd

namespace Lagos.Outbound

open Lagos.Config Lagos.Headers Lagos.Auth Lagos.Routes

/-- What the description of the caller puts under a name. -/
def Gateway.described (g : Gateway) (crates : Crates) (cx : Ctx) (n : Str) : Option Str :=
  ((description crates.toCodecs cx.draws.now g.cfg.raw.identity g.cfg.identity_secret
    cx.identity).fate n).value

/-- What the listener injects under a name. -/
def Gateway.injects (g : Gateway) (n : Str) : Option Str := (g.injected_script.fate n).value

section Reads

variable {g : Gateway} {crates : Crates} {cx : Ctx} {draws : Draws} {peer : Option Str}
  {headers headers' : HeaderMap} {n : Str}

/-- What a request's policy puts under a name. -/
def Gateway.puts (g : Gateway) (crates : Crates) (cx : Ctx) (client_key_id : Option Str)
    (headers : HeaderMap) (n : Str) : Option Str :=
  (((g.policy crates cx client_key_id headers).fate n).map Prod.snd).value

/-- It is put step by step, from the last. -/
theorem puts_eq (client_key_id : Option Str) :
    g.puts crates cx client_key_id headers n
      = ((g.client_key_script client_key_id).fate n).value.or
        ((if n = COOKIE then g.cookie_rest headers else none).or
        ((g.described crates cx n).or
        ((if n = TRACEPARENT then g.traceparent cx.draws headers else none).or
        ((if n = X_REQUEST_ID then some cx.request_id else none).or
        ((if n = X_REAL_IP then (g.forwarded crates cx.peer headers).2 else none).or
        ((if n = X_FORWARDED_FOR then (g.forwarded crates cx.peer headers).1 else none).or
        (g.injects n))))))) := by
  have hsnd : ∀ (w : Writer) (v : Option Str), (v.map (Prod.mk w)).map Prod.snd = v := by
    intro w v
    cases v <;> rfl
  have hid : (Script.fate [(X_REQUEST_ID, .put cx.request_id)] n).value
      = if n = X_REQUEST_ID then some cx.request_id else none :=
    value_put_some X_REQUEST_ID (some cx.request_id)
  have hforwarded : ((forwarded_script (g.forwarded crates cx.peer headers)).fate n).value
      = (if n = X_REAL_IP then (g.forwarded crates cx.peer headers).2 else none).or
          (if n = X_FORWARDED_FOR then (g.forwarded crates cx.peer headers).1 else none) := by
    rw [forwarded_script, Script.fate_append, Script.fate_append, Fate.value_seq, Fate.value_seq,
      value_drops, value_put_some, value_put_some, Option.or_none]
  rw [Gateway.puts, Fate.value_map, value_policy]
  simp only [Option.map_or, hsnd, value_credentials, value_put_some, hid, hforwarded,
    Gateway.described, Gateway.injects, Option.or_assoc]

/-- A text becomes one value, and no other text becomes it. -/
theorem insertable_inj {n v v' : Str} {value : HeaderValue} (h : insertable crates n v = .ok value)
    (h' : insertable crates n v' = .ok value) : v = v' := by
  have hsame : Percent.from_utf8 (utf8_bytes v) = Percent.from_utf8 (utf8_bytes v') := by
    rw [← insertable_bytes h, ← insertable_bytes h']
  rw [Percent.from_utf8_utf8_bytes, Percent.from_utf8_utf8_bytes] at hsame
  exact Option.some.inj hsame

/-! ## One field each -/

theorem cookies_congr (h : headers.get_all COOKIE = headers'.get_all COOKIE) :
    g.rewrites_cookies headers = g.rewrites_cookies headers'
      ∧ g.cookie_rest headers = g.cookie_rest headers' := by
  have hread : readable_cookies headers = readable_cookies headers' := by
    rw [readable_cookies, readable_cookies, h]
  rw [Gateway.cookie_rest, Gateway.cookie_rest, Gateway.rewrites_cookies,
    Gateway.rewrites_cookies, hread]
  exact ⟨rfl, rfl⟩

theorem traceparent_congr
    (h : headers.get_all TRACEPARENT = headers'.get_all TRACEPARENT) :
    g.traceparent draws headers = g.traceparent draws headers' := by
  have hname : to_ascii_lowercase TRACEPARENT = TRACEPARENT := by decide
  have hread : header_str headers TRACEPARENT = header_str headers' TRACEPARENT :=
    header_str_congr (by rw [hname, h])
  rw [Gateway.traceparent, Gateway.traceparent, hread]

theorem forwarded_congr
    (h : headers.get_all X_FORWARDED_FOR = headers'.get_all X_FORWARDED_FOR) :
    g.forwarded crates peer headers = g.forwarded crates peer headers' :=
  forwarded_for_congr crates.is_ip h _ _

/-- Where the fields that are read for a name are the same, the same is put under it. -/
theorem puts_congr (hcookie : n = COOKIE → headers.get_all COOKIE = headers'.get_all COOKIE)
    (htrace : n = TRACEPARENT → headers.get_all TRACEPARENT = headers'.get_all TRACEPARENT)
    (hxff : n = X_REAL_IP ∨ n = X_FORWARDED_FOR →
      headers.get_all X_FORWARDED_FOR = headers'.get_all X_FORWARDED_FOR)
    (client_key_id : Option Str) :
    g.puts crates cx client_key_id headers n = g.puts crates cx client_key_id headers' n := by
  have hrest : (if n = COOKIE then g.cookie_rest headers else none)
      = if n = COOKIE then g.cookie_rest headers' else none := by
    split
    · rename_i hname
      exact (cookies_congr (hcookie hname)).2
    · rfl
  have htraced : (if n = TRACEPARENT then g.traceparent cx.draws headers else none)
      = if n = TRACEPARENT then g.traceparent cx.draws headers' else none := by
    split
    · rename_i hname
      exact traceparent_congr (htrace hname)
    · rfl
  have haddress : (if n = X_REAL_IP then (g.forwarded crates cx.peer headers).2 else none)
      = if n = X_REAL_IP then (g.forwarded crates cx.peer headers').2 else none := by
    split
    · rename_i hname
      rw [forwarded_congr (hxff (.inl hname))]
    · rfl
  have hchain : (if n = X_FORWARDED_FOR then (g.forwarded crates cx.peer headers).1 else none)
      = if n = X_FORWARDED_FOR then (g.forwarded crates cx.peer headers').1 else none := by
    split
    · rename_i hname
      rw [forwarded_congr (hxff (.inr hname))]
    · rfl
  rw [puts_eq, puts_eq, hrest, htraced, haddress, hchain]

/-! ## Without the field -/

/-- No cookies are left where none are sent. -/
theorem cookie_rest_of_nil (h : headers.get_all COOKIE = []) : g.cookie_rest headers = none := by
  have hnone : g.rewrites_cookies headers = false := by
    rw [Gateway.rewrites_cookies, readable_cookies, h]
    simp
  rw [Gateway.cookie_rest, hnone, if_neg Bool.false_ne_true]

/-- No trace is continued where none is sent. -/
theorem traceparent_of_nil (h : headers.get_all TRACEPARENT = []) :
    g.traceparent draws headers = g.traceparent draws ⟨[]⟩ :=
  traceparent_congr h

/-- No hop is believed where none is named. -/
theorem forwarded_of_nil (h : headers.get_all X_FORWARDED_FOR = []) :
    g.forwarded crates peer headers = (peer, peer) :=
  (forwarded_for_congr crates.is_ip h _ _).trans (forwarded_for_nil _ _ _)

/-- A trace is sent on or not, whatever the client sends. -/
theorem isSome_traceparent (headers headers' : HeaderMap) :
    (g.traceparent draws headers).isSome = (g.traceparent draws headers').isSome := by
  rw [Gateway.traceparent, Gateway.traceparent, Option.isSome_map, Option.isSome_map]

/-- So are the address and the chain. -/
theorem isSome_forwarded (headers : HeaderMap) :
    (g.forwarded crates peer headers).1.isSome = peer.isSome
      ∧ (g.forwarded crates peer headers).2.isSome = peer.isSome :=
  isSome_forwarded_for _ _ _ _

theorem none_of_isSome_eq {o o' : Option Str} (hsome : o.isSome = o'.isSome) :
    o = none → o' = none := by
  cases o <;> cases o' <;> simp_all

/-- Where nothing is put, nothing is put for a request without cookies either. -/
theorem puts_eq_none {client_key_id : Option Str} {id : Str}
    (hcookie : n = COOKIE → headers'.get_all COOKIE = [])
    (h : g.puts crates cx client_key_id headers n = none) :
    g.puts crates { cx with request_id := id } client_key_id headers' n = none := by
  have htraced : g.traceparent cx.draws headers = none → g.traceparent cx.draws headers' = none :=
    none_of_isSome_eq (isSome_traceparent headers headers')
  have hpeer := @isSome_forwarded g crates cx.peer
  have hchain : (g.forwarded crates cx.peer headers).1 = none →
      (g.forwarded crates cx.peer headers').1 = none :=
    none_of_isSome_eq ((hpeer headers).1.trans (hpeer headers').1.symm)
  have haddress : (g.forwarded crates cx.peer headers).2 = none →
      (g.forwarded crates cx.peer headers').2 = none :=
    none_of_isSome_eq ((hpeer headers).2.trans (hpeer headers').2.symm)
  rw [puts_eq] at h ⊢
  simp only [Option.or_eq_none_iff, ite_eq_right_iff] at h ⊢
  obtain ⟨hkey, -, hdescribed, htrace, hid, hreal, hxff, hinjects⟩ := h
  refine ⟨hkey, fun hname => cookie_rest_of_nil (hcookie hname), hdescribed,
    fun hname => htraced (htrace hname), fun hname => ?_, fun hname => haddress (hreal hname),
    fun hname => hchain (hxff hname), hinjects⟩
  cases hid hname

end Reads

/-! ## One value or another -/

/-- Where a value is written in both cases or in neither, it is the same just if the outcome
is. -/
theorem or_eq_or_iff {o o' before : Option Str} (hsome : o.isSome = o'.isSome) :
    o.or before = o'.or before ↔ o = o' := by
  cases o <;> cases o' <;> simp_all

theorem described_or_eq_iff {d x x' : Option Str} :
    d.or x = d.or x' ↔ (d = none → x = x') := by
  cases d <;> simp

theorem or_eq_iff {o before : Option Str} :
    o.or before = before ↔ ∀ v, o = some v → before = some v := by
  cases o with
  | none => simp
  | some v => simp [eq_comm]

end Lagos.Outbound
