/-
What the plan of a request does to each header, and which step of the policy did it.

The policy is written down once more as a script: the edits of every step in the order in
which the steps are taken, each marked with its step (`Writer`). The plan that the code
collects comes to the same for every name (`fate_header_plan`), and so what reaches the
backend can be read off the script (`get_all_forward`): one value where some step put one,
nothing where a header was only dropped, and what the client sent where no step named it and
the sweep let it pass.

Which names a step handles is known from the configuration (`Handles`). Only four names are
written from what the client sent: the two of the forwarded chain, the trace and the cookies.
-/
import Lagos.Gateway

set_option autoImplicit false

open RustStd

namespace Lagos.Outbound

open Lagos.Config Lagos.Headers Lagos.Auth Lagos.Routes

/-! ## The policy as a script -/

/-- The steps of the policy. -/
inductive Writer where
  | injected
  | forwarded
  | request_id
  | trace
  | identity
  | credentials
  | client_key
  deriving DecidableEq, Repr

/-- Edits, marked with their step. -/
def tag (w : Writer) (s : Script Str Str) : Script Str (Writer × Str) :=
  s.map fun e => (e.1, e.2.map (Prod.mk w))

/-- The edit that puts a value, if there is one. -/
def put_some (name : Str) (v : Option Str) : Script Str Str := v.toList.map fun v => (name, .put v)

/-- The edits of the hop, of the headers injected and of the machine names. -/
def Gateway.injected_script (g : Gateway) : Script Str Str :=
  Script.drops HOP_BY_HOP ++ Script.puts (lower_pairs g.injected)
    ++ Script.drops g.stripped_machine_names

/-- The `X-Forwarded-For` and the `X-Real-IP` of a request. -/
def Gateway.forwarded (g : Gateway) (crates : Crates) (peer : Option Str) (headers : HeaderMap) :
    Option Str × Option Str :=
  forwarded_for crates.is_ip headers peer
    (g.cfg.trusted_proxy_depth crates peer g.cfg.raw.forward.trusted_proxies)

def forwarded_script (forwarded : Option Str × Option Str) : Script Str Str :=
  Script.drops [X_FORWARDED_FOR, X_REAL_IP]
    ++ (put_some X_FORWARDED_FOR forwarded.1 ++ put_some X_REAL_IP forwarded.2)

/-- What is left of the cookies of a request, where some were taken out. -/
def Gateway.cookie_rest (g : Gateway) (headers : HeaderMap) : Option Str :=
  if g.rewrites_cookies headers then
    strip_cookies (readable_cookies headers) g.cfg.raw.auth.token_cookies
  else none

def Gateway.credentials_script (g : Gateway) (headers : HeaderMap) : Script Str Str :=
  Script.drops (if g.cfg.raw.forward.authorization then [] else [AUTHORIZATION])
    ++ (Script.drops (if g.rewrites_cookies headers then [COOKIE] else [])
    ++ put_some COOKIE (g.cookie_rest headers))

def Gateway.client_key_script (g : Gateway) (client_key_id : Option Str) : Script Str Str :=
  if g.serves_machine then []
  else
    Script.drops (g.cfg.client_key_header.toList.map to_ascii_lowercase)
      ++ (Script.drops (g.cfg.client_key_forward_as.toList.map to_ascii_lowercase)
      ++ g.cfg.client_key_forward_as.toList.flatMap fun forward_as =>
        put_some (to_ascii_lowercase forward_as) client_key_id)

/-- The edits of all steps, first to last. -/
def Gateway.policy (g : Gateway) (crates : Crates) (cx : Ctx) (client_key_id : Option Str)
    (headers : HeaderMap) : Script Str (Writer × Str) :=
  tag .injected g.injected_script
    ++ (tag .forwarded (forwarded_script (g.forwarded crates cx.peer headers))
    ++ (tag .request_id [(X_REQUEST_ID, .put cx.request_id)]
    ++ (tag .trace (put_some TRACEPARENT (g.traceparent cx.draws headers))
    ++ (tag .identity (description crates.toCodecs cx.draws.now g.cfg.raw.identity
      g.cfg.identity_secret cx.identity)
    ++ (tag .credentials (g.credentials_script headers)
    ++ tag .client_key (g.client_key_script client_key_id))))))

/-! ## The plan comes to the same -/

theorem fate_tag (w : Writer) (s : Script Str Str) (n : Str) :
    (tag w s).fate n = (s.fate n).map (Prod.mk w) := by
  induction s with
  | nil => rfl
  | cons e s ih =>
    rw [tag, List.map_cons, Script.fate_cons, ← tag, ih, Script.fate_cons]
    dsimp only
    split
    · rw [Fate.map_seq]
    · rfl

theorem untag (w : Writer) (f : Fate Str) : (f.map (Prod.mk w)).map Prod.snd = f := by
  cases f <;> rfl

theorem fate_put_some (name : Str) (v : Option Str) (n : Str) :
    (put_some name v).fate n
      = if name = n then (match v with | some v => .put v | none => .kept) else .kept := by
  cases v with
  | none => simp [put_some]
  | some v => exact Script.fate_singleton name n (.put v)

theorem fate_set_some {name : Str} (hname : to_ascii_lowercase name = name) (plan : HeaderPlan)
    (v : Option Str) (n : Str) :
    (set_some plan name v).fate n = (plan.fate n).seq ((put_some name v).fate n) := by
  cases v with
  | none => simp [set_some, put_some]
  | some v => rw [set_some, HeaderPlan.fate_set, fate_put_some, hname]

theorem fate_strip_some (plan : HeaderPlan) (name : Option Str) (n : Str) :
    (strip_some plan name).fate n
      = (plan.fate n).seq (Script.fate (Script.drops (name.toList.map to_ascii_lowercase)) n) := by
  cases name with
  | none => exact (Fate.seq_kept _).symm
  | some name => exact HeaderPlan.fate_foldl_strip [name] plan n

section Plans

variable {g : Gateway} {crates : Crates} {cx : Ctx} {headers : HeaderMap} {plan : HeaderPlan}

theorem lower_stripped_machine_names :
    g.stripped_machine_names.map to_ascii_lowercase = g.stripped_machine_names := by
  have hall : ∀ name ∈ machine_names, to_ascii_lowercase name = name := by decide
  rw [Gateway.stripped_machine_names]
  split
  · refine (List.map_congr_left fun name hname => ?_).trans (List.map_id _)
    exact hall name (List.mem_filter.mp hname).1
  · rfl

theorem fate_base_header_plan (peer : Option Str) (n : Str) :
    (g.base_header_plan crates headers peer).fate n
      = (g.injected_script.fate n).seq
          ((forwarded_script (g.forwarded crates peer headers)).fate n) := by
  have hhop : HOP_BY_HOP.map to_ascii_lowercase = HOP_BY_HOP := by decide
  have hxff : to_ascii_lowercase X_FORWARDED_FOR = X_FORWARDED_FOR := by decide
  have hreal : to_ascii_lowercase X_REAL_IP = X_REAL_IP := by decide
  have hstrip : ∀ plan : HeaderPlan, (plan.strip X_FORWARDED_FOR).strip X_REAL_IP
      = [X_FORWARDED_FOR, X_REAL_IP].foldl HeaderPlan.strip plan := fun _ => rfl
  have hboth : [X_FORWARDED_FOR, X_REAL_IP].map to_ascii_lowercase
      = [X_FORWARDED_FOR, X_REAL_IP] := by decide
  rw [Gateway.base_header_plan]
  simp only [fate_set_some hxff, fate_set_some hreal, hstrip, HeaderPlan.fate_foldl_strip,
    HeaderPlan.fate_foldl_set, HeaderPlan.fate_new, hhop, hboth, lower_stripped_machine_names,
    Gateway.injected_script, forwarded_script, Script.fate_append, Fate.kept_seq, Fate.seq_assoc,
    Gateway.forwarded, lower_pairs]

theorem fate_strip_credentials (plan : HeaderPlan) (n : Str) :
    (g.strip_credentials headers plan).fate n
      = (plan.fate n).seq ((g.credentials_script headers).fate n) := by
  have hcookie : to_ascii_lowercase COOKIE = COOKIE := by decide
  have hfirst : ∀ plan : HeaderPlan,
      (if g.cfg.raw.forward.authorization then plan else plan.strip AUTHORIZATION).fate n
        = (plan.fate n).seq (Script.fate (Script.drops
            (if g.cfg.raw.forward.authorization then [] else [AUTHORIZATION])) n) := by
    intro plan
    split
    · exact (Fate.seq_kept _).symm
    · exact fate_strip_some plan (some AUTHORIZATION) n
  rw [Gateway.strip_credentials, Gateway.credentials_script, Script.fate_append,
    Script.fate_append, ← Fate.seq_assoc, ← hfirst, Gateway.cookie_rest]
  split
  · generalize (if g.cfg.raw.forward.authorization then plan else plan.strip AUTHORIZATION) = p
    rw [Script.fate_drops_cons]
    cases strip_cookies (readable_cookies headers) g.cfg.raw.auth.token_cookies with
    | none => exact fate_strip_some p (some COOKIE) n
    | some rest =>
      rw [HeaderPlan.fate_set, hcookie, fate_put_some]
      by_cases hn : COOKIE = n <;> simp [hn, Script.drops]
  · simp [put_some, Script.drops]

theorem fate_client_key_headers (client_key_id : Option Str) (plan : HeaderPlan) (n : Str) :
    (g.client_key_headers client_key_id plan).fate n
      = (plan.fate n).seq ((g.client_key_script client_key_id).fate n) := by
  rw [Gateway.client_key_headers, Gateway.client_key_script]
  split
  · simp
  · rw [Script.fate_append, Script.fate_append, ← Fate.seq_assoc, ← fate_strip_some]
    generalize strip_some plan g.cfg.client_key_header = p
    cases g.cfg.client_key_forward_as with
    | none => exact (Fate.seq_kept _).symm
    | some forward_as =>
      rw [Option.toList_some, List.map_singleton, List.flatMap_singleton, Script.fate_drops_cons]
      cases client_key_id with
      | none => exact fate_strip_some p (some forward_as) n
      | some id =>
        rw [HeaderPlan.fate_set, fate_put_some]
        by_cases hn : to_ascii_lowercase forward_as = n <;> simp [hn, Script.drops]

/-- **The plan of a request is its policy.** -/
theorem fate_header_plan (h : g.header_plan crates cx headers = .ok plan) :
    ∃ client_key_id, g.client_key_id crates cx headers = .ok client_key_id
      ∧ ∀ n, plan.fate n = ((g.policy crates cx client_key_id headers).fate n).map Prod.snd := by
  have hid : to_ascii_lowercase X_REQUEST_ID = X_REQUEST_ID := by decide
  have htrace : to_ascii_lowercase TRACEPARENT = TRACEPARENT := by decide
  obtain ⟨client_key_id, hkey, h⟩ := bind_eq_ok.mp h
  obtain ⟨described, hdescribed, h⟩ := bind_eq_ok.mp h
  refine ⟨client_key_id, hkey, fun n => ?_⟩
  cases h
  cases hd : describe crates.toCodecs cx.draws.now
      (g.undescribed_plan crates cx headers) g.cfg.raw.identity g.cfg.identity_secret
      cx.identity with
  | error e =>
    rw [hd] at hdescribed
    cases hdescribed
  | ok p =>
    rw [hd] at hdescribed
    cases hdescribed
    rw [fate_client_key_headers, fate_strip_credentials, fate_describe hd,
      Gateway.undescribed_plan, fate_set_some htrace, HeaderPlan.fate_set, fate_base_header_plan,
      Gateway.policy, hid]
    simp only [Script.fate_append, Fate.map_seq, fate_tag, untag, Fate.seq_assoc,
      Script.fate_singleton]

end Plans

/-! ## The names it handles -/

/-- A name that a step of the policy puts or drops. -/
inductive Gateway.Handles (g : Gateway) (headers : HeaderMap) (n : Str) : Prop where
  | hop (h : n ∈ HOP_BY_HOP)
  | injected (h : n ∈ (lower_pairs g.injected).map Prod.fst)
  | machine (hs : g.serves_machine = true) (h : n ∈ machine_names)
  | forwarded (h : n ∈ [X_FORWARDED_FOR, X_REAL_IP])
  | request_id (h : n = X_REQUEST_ID)
  | trace (hs : g.sample_ratio ≠ none) (h : n = TRACEPARENT)
  | identity (h : n ∈ g.cfg.raw.identity.headers)
  | authorization (hs : g.cfg.raw.forward.authorization = false) (h : n = AUTHORIZATION)
  | cookies (hs : g.rewrites_cookies headers = true) (h : n = COOKIE)
  | client_key (hs : g.serves_machine = false)
      (h : n ∈ (g.cfg.client_key_header.toList ++ g.cfg.client_key_forward_as.toList).map
        to_ascii_lowercase)

section Names

variable {g : Gateway} {crates : Crates} {cx : Ctx} {headers : HeaderMap} {n : Str}

theorem fate_drops_eq_kept {l : List Str} :
    Script.fate (Script.drops l : Script Str Str) n = .kept ↔ n ∉ l := by
  rw [Script.fate_drops]
  split <;> simp_all

theorem fate_puts_eq_kept {l : List (Str × Str)} :
    Script.fate (Script.puts l) n = .kept ↔ n ∉ l.map Prod.fst := by
  obtain ⟨hn, hf⟩ | ⟨v, hv, hf⟩ := Script.fate_puts l n
  · rw [hf]
    exact iff_of_true rfl hn
  · rw [hf]
    exact iff_of_false nofun (not_not_intro (List.mem_map.mpr ⟨_, hv, rfl⟩))

theorem fate_put_some_eq_kept {name : Str} {v : Option Str} :
    (put_some name v).fate n = .kept ↔ (v ≠ none → n ≠ name) := by
  rw [fate_put_some]
  cases v with
  | none => simp
  | some v =>
    by_cases hn : n = name
    · simp [hn]
    · simp [hn, Ne.symm hn]

theorem injected_kept :
    g.injected_script.fate n = .kept ↔ n ∉ HOP_BY_HOP ∧ n ∉ (lower_pairs g.injected).map Prod.fst
      ∧ (g.serves_machine = true → n ∉ machine_names) := by
  rw [Gateway.injected_script, Script.fate_append, Script.fate_append, Fate.seq_eq_kept,
    Fate.seq_eq_kept, fate_drops_eq_kept, fate_puts_eq_kept, fate_drops_eq_kept, and_assoc]
  refine and_congr_right fun _ => and_congr_right fun hinjected => ?_
  rw [Gateway.stripped_machine_names]
  split
  · rename_i hs
    rw [List.mem_filter, not_and]
    refine ⟨fun h _ hn => h hn ?_, fun h hn _ => h hs hn⟩
    -- A machine name that is injected would be one of the injected names in lowercase too.
    have hlower : ∀ name ∈ machine_names, to_ascii_lowercase name = name := by decide
    rw [Bool.not_eq_true', List.any_eq_false]
    intro p hp heq
    rw [beq_iff_eq] at heq
    refine hinjected ?_
    rw [lower_pairs, List.map_map, List.mem_map]
    exact ⟨p, hp, by rw [Function.comp_apply, heq]; exact hlower n hn⟩
  · rename_i hs
    exact iff_of_true List.not_mem_nil fun h => absurd h hs

theorem credentials_kept :
    (g.credentials_script headers).fate n = .kept
      ↔ (g.cfg.raw.forward.authorization = false → n ≠ AUTHORIZATION)
        ∧ (g.rewrites_cookies headers = true → n ≠ COOKIE) := by
  rw [Gateway.credentials_script, Script.fate_append, Script.fate_append, Fate.seq_eq_kept,
    Fate.seq_eq_kept, fate_drops_eq_kept, fate_drops_eq_kept, fate_put_some_eq_kept,
    Gateway.cookie_rest]
  refine and_congr ?_ ?_
  · cases g.cfg.raw.forward.authorization <;> simp
  · cases g.rewrites_cookies headers with
    | false => simp
    | true =>
      simp only [if_true, List.mem_singleton, forall_const]
      exact ⟨fun h => h.1, fun h => ⟨h, fun _ => h⟩⟩

theorem client_key_kept {client_key_id : Option Str} :
    (g.client_key_script client_key_id).fate n = .kept
      ↔ (g.serves_machine = false → n ∉ (g.cfg.client_key_header.toList
          ++ g.cfg.client_key_forward_as.toList).map to_ascii_lowercase) := by
  rw [Gateway.client_key_script]
  cases g.serves_machine with
  | true => simp
  | false =>
    rw [if_neg Bool.false_ne_true, Script.fate_append, Script.fate_append, Fate.seq_eq_kept,
      Fate.seq_eq_kept, fate_drops_eq_kept, fate_drops_eq_kept, List.map_append, List.mem_append,
      not_or]
    refine ⟨fun h _ => ⟨h.1, h.2.1⟩, fun h => ⟨(h rfl).1, (h rfl).2, ?_⟩⟩
    cases hf : g.cfg.client_key_forward_as with
    | none => rfl
    | some forward_as =>
      rw [hf, Option.toList_some, List.map_singleton, List.mem_singleton] at h
      rw [Option.toList_some, List.flatMap_singleton, fate_put_some_eq_kept]
      exact fun _ => (h rfl).2

/-- The policy leaves alone the names that it does not handle, and no others. -/
theorem fate_policy_eq_kept {client_key_id : Option Str} :
    (g.policy crates cx client_key_id headers).fate n = .kept ↔ ¬ g.Handles headers n := by
  have hforwarded : (forwarded_script (g.forwarded crates cx.peer headers)).fate n = .kept
      ↔ n ∉ [X_FORWARDED_FOR, X_REAL_IP] := by
    rw [forwarded_script, Script.fate_append, Script.fate_append, Fate.seq_eq_kept,
      Fate.seq_eq_kept, fate_drops_eq_kept, fate_put_some_eq_kept, fate_put_some_eq_kept]
    simp only [List.mem_cons, List.not_mem_nil, or_false, not_or]
    exact ⟨fun h => h.1, fun h => ⟨h, fun _ => h.1, fun _ => h.2⟩⟩
  have htrace : (put_some TRACEPARENT (g.traceparent cx.draws headers)).fate n = .kept
      ↔ (g.sample_ratio ≠ none → n ≠ TRACEPARENT) := by
    rw [fate_put_some_eq_kept, Gateway.traceparent, ne_eq, Option.map_eq_none_iff]
  have hid : Script.fate [(X_REQUEST_ID, .put cx.request_id)] n = .kept ↔ n ≠ X_REQUEST_ID := by
    rw [Script.fate_singleton]
    by_cases hn : n = X_REQUEST_ID
    · simp [hn]
    · simp [hn, Ne.symm hn]
  rw [Gateway.policy]
  simp only [Script.fate_append, Fate.seq_eq_kept, fate_tag, Fate.map_eq_kept, injected_kept,
    hforwarded, hid, htrace, fate_description, credentials_kept, client_key_kept]
  constructor
  · rintro ⟨⟨hhop, hinj, hmach⟩, hfwd, hrid, htr, hident, ⟨hauth, hcookie⟩, hkey⟩ handled
    cases handled with
    | hop h => exact hhop h
    | injected h => exact hinj h
    | machine hs h => exact hmach hs h
    | forwarded h => exact hfwd h
    | request_id h => exact hrid h
    | trace hs h => exact htr hs h
    | identity h => exact hident h
    | authorization hs h => exact hauth hs h
    | cookies hs h => exact hcookie hs h
    | client_key hs h => exact hkey hs h
  · intro hn
    exact ⟨⟨fun h => hn (.hop h), fun h => hn (.injected h), fun hs h => hn (.machine hs h)⟩,
      fun h => hn (.forwarded h), fun h => hn (.request_id h), fun hs h => hn (.trace hs h),
      fun h => hn (.identity h), ⟨fun hs h => hn (.authorization hs h),
      fun hs h => hn (.cookies hs h)⟩, fun hs h => hn (.client_key hs h)⟩

/-- Nor does forgetting which step it is of change it. -/
theorem fate_eq_kept {client_key_id : Option Str} :
    ((g.policy crates cx client_key_id headers).fate n).map Prod.snd = .kept
      ↔ ¬ g.Handles headers n := by
  rw [Fate.map_eq_kept, fate_policy_eq_kept]

theorem handles_of_ne_kept {client_key_id : Option Str}
    (h : ((g.policy crates cx client_key_id headers).fate n).map Prod.snd ≠ .kept) :
    g.Handles headers n :=
  not_not.mp fun hn => h (fate_eq_kept.mpr hn)

/-- What is put under a name is put by the last step that puts something. -/
theorem value_policy {client_key_id : Option Str} :
    ((g.policy crates cx client_key_id headers).fate n).value
      = (((g.client_key_script client_key_id).fate n).value.map (Prod.mk .client_key)).or
        ((((g.credentials_script headers).fate n).value.map (Prod.mk .credentials)).or
        ((((description crates.toCodecs cx.draws.now g.cfg.raw.identity g.cfg.identity_secret
          cx.identity).fate n).value.map (Prod.mk .identity)).or
        ((((put_some TRACEPARENT (g.traceparent cx.draws headers)).fate n).value.map
          (Prod.mk .trace)).or
        (((Script.fate [(X_REQUEST_ID, .put cx.request_id)] n).value.map (Prod.mk .request_id)).or
        ((((forwarded_script (g.forwarded crates cx.peer headers)).fate n).value.map
          (Prod.mk .forwarded)).or
        (((g.injected_script.fate n).value.map (Prod.mk .injected)))))))) := by
  rw [Gateway.policy]
  simp only [Script.fate_append, Fate.value_seq, fate_tag, Fate.value_map, Option.or_assoc]

theorem value_put_some (name : Str) (v : Option Str) :
    ((put_some name v).fate n).value = if n = name then v else none := by
  rw [fate_put_some]
  by_cases hn : n = name
  · rw [if_pos hn.symm, if_pos hn]
    cases v <;> rfl
  · rw [if_neg (Ne.symm hn), if_neg hn, Fate.value_kept]

theorem value_drops (l : List Str) :
    (Script.fate (Script.drops l : Script Str Str) n).value = none := by
  rw [Script.fate_drops]
  split <;> rfl

theorem value_credentials :
    ((g.credentials_script headers).fate n).value
      = if n = COOKIE then g.cookie_rest headers else none := by
  rw [Gateway.credentials_script, Script.fate_append, Script.fate_append, Fate.value_seq,
    Fate.value_seq, value_drops, value_drops, value_put_some, Option.or_none, Option.or_none]

/-- A client key's id is put under the name configured for it, on the public listener. -/
theorem value_client_key {client_key_id : Option Str} {v : Str}
    (h : ((g.client_key_script client_key_id).fate n).value = some v) :
    g.serves_machine = false
      ∧ ∃ forward_as ∈ g.cfg.client_key_forward_as, n = to_ascii_lowercase forward_as := by
  rw [Gateway.client_key_script] at h
  split at h
  · cases h
  · rename_i hs
    refine ⟨by simpa using hs, ?_⟩
    rw [Script.fate_append, Script.fate_append, Fate.value_seq, Fate.value_seq, value_drops,
      value_drops, Option.or_none, Option.or_none] at h
    cases hf : g.cfg.client_key_forward_as with
    | none =>
      rw [hf] at h
      cases h
    | some forward_as =>
      rw [hf, Option.toList_some, List.flatMap_singleton, value_put_some] at h
      refine ⟨forward_as, rfl, ?_⟩
      by_contra hn
      rw [if_neg hn] at h
      cases h

end Names

/-! ## What reaches the backend -/

/-- The allowlist lets the name go. -/
def Gateway.swept (g : Gateway) (n : Str) : Prop :=
  g.cfg.raw.forward.mode = .Allowlist ∧ g.is_forwardable n = false

/-- The name is `Host`, and the backend is sent its own. -/
def Gateway.replaces_host (g : Gateway) (n : Str) : Prop :=
  n = HOST ∧ g.cfg.raw.forward.preserve_host = false

/-- What a name has upstream, given the fate the plan has for it. -/
structure Carried (g : Gateway) (crates : Crates) (target : Str) (headers out : HeaderMap)
    (fate : Fate Str) (n : Str) : Prop where
  put : ∀ v, fate = .put v → ∃ value, insertable crates n v = .ok value ∧ out.get_all n = [value]
  dropped : fate = .dropped → out.get_all n = []
  swept : fate = .kept → g.swept n → out.get_all n = []
  host : fate = .kept → ¬ g.swept n → g.replaces_host n →
    ∃ value, insertable crates HOST target = .ok value ∧ out.get_all n = [value]
  kept : fate = .kept → ¬ g.swept n → ¬ g.replaces_host n → out.get_all n = headers.get_all n

section Sent

variable {g : Gateway} {crates : Crates} {cx : Ctx} {headers out : HeaderMap}

/-- A value that is put consists of the bytes of its text. -/
theorem insertable_bytes {n v : Str} {value : HeaderValue}
    (h : insertable crates n v = .ok value) : value.bytes = utf8_bytes v := by
  unfold insertable HeaderValue.from_str at h
  split at h
  · cases h
  · split at h
    · rename_i hv
      cases h
      split at hv
      · cases hv
        rfl
      · cases hv
    · cases h

theorem carried_of_filter {target : Str} {plan : HeaderPlan}
    (h : g.upstream_request_filter crates target plan headers = .ok out) (n : Str) :
    Carried g crates target headers out (plan.fate n) n := by
  obtain ⟨hosted, hhost, h⟩ := bind_eq_ok.mp h
  rw [Gateway.insert_host] at hhost
  obtain ⟨hput, hdropped, hkept⟩ := HeaderPlan.get_all_carried_out (fun _ => Iff.rfl) h n
  -- The sweep takes every name away that is not forwardable, whether it was there or not.
  have hswept : (if g.cfg.raw.forward.mode = .Allowlist then
        hosted.remove_all (hosted.keys.filter fun name => !g.is_forwardable name)
      else hosted).get_all n
      = if g.cfg.raw.forward.mode = .Allowlist ∧ g.is_forwardable n = false then []
        else hosted.get_all n := by
    by_cases hmode : g.cfg.raw.forward.mode = .Allowlist
    · rw [if_pos hmode, MultiMap.get_all_remove_all]
      by_cases hn : n ∈ hosted.keys
      · simp [hn, hmode]
      · simp [hn, hmode, MultiMap.get_all_eq_nil_of_not_mem hn]
    · simp [hmode]
  have hhosted : ¬ g.replaces_host n → hosted.get_all n = headers.get_all n := by
    intro hn
    by_cases hpreserve : g.cfg.raw.forward.preserve_host = true
    · rw [if_pos hpreserve] at hhost
      cases hhost
      rfl
    · rw [if_neg hpreserve] at hhost
      refine (MultiMap.get_all_insert_each (by simp) hhost n).2 fun hmem => hn ⟨?_, ?_⟩
      · simpa using hmem
      · simpa using hpreserve
  have hreplaced : g.replaces_host n →
      ∃ value, insertable crates HOST target = .ok value ∧ hosted.get_all n = [value] := by
    rintro ⟨rfl, hpreserve⟩
    rw [if_neg (by simp [hpreserve])] at hhost
    exact (MultiMap.get_all_insert_each (by simp) hhost HOST).1 target List.mem_cons_self
  rw [hswept] at hkept
  refine ⟨hput, hdropped, fun hf hs => ?_, fun hf hs hn => ?_, fun hf hs hn => ?_⟩
  · exact (hkept hf).trans (if_pos hs)
  · obtain ⟨value, hvalue, hall⟩ := hreplaced hn
    exact ⟨value, hvalue, ((hkept hf).trans (if_neg hs)).trans hall⟩
  · exact ((hkept hf).trans (if_neg hs)).trans (hhosted hn)

/-- **What reaches the backend is what the policy comes to.** -/
theorem carried_of_forward (h : g.forward crates cx headers = .ok out) :
    ∃ client_key_id, g.client_key_id crates cx headers = .ok client_key_id
      ∧ ∀ n, Carried g crates cx.target headers out
          (((g.policy crates cx client_key_id headers).fate n).map Prod.snd) n := by
  obtain ⟨plan, hplan, h⟩ := bind_eq_ok.mp h
  obtain ⟨client_key_id, hkey, hfate⟩ := fate_header_plan hplan
  exact ⟨client_key_id, hkey, fun n => hfate n ▸ carried_of_filter h n⟩

end Sent

end Lagos.Outbound
