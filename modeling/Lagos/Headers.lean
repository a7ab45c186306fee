/-
Header fields, and the plan of what is done to them before a request goes upstream
(`headers.rs`).

A header map is a multimap from lowercased names to values. A value is a string of the bytes
that a field may carry; only those made of visible ASCII can be read as text
(`HeaderValue::to_str`), and what cannot be read is still forwarded byte for byte.

Every name a plan sets is also one it removes, and it sets no name twice. Both are fields of
`HeaderPlan`, so what a plan does to one name is a `Fate`, and `set` and `strip` are read as
the fates they add (`fate_set`, `fate_strip`): a plan is the sum of its stages.
-/
import Lagos.Lib.MultiMap
import Lagos.Lib.Percent

set_option autoImplicit false

open RustStd

namespace Lagos.Headers

/-! ## Values -/

/-- The bytes an `http::HeaderValue` may be made of. -/
def is_valid (b : UInt8) : Bool := (32 ≤ b && b != 127) || b == 9

/-- The bytes `HeaderValue::to_str` takes. -/
def is_visible_ascii (b : UInt8) : Bool := (32 ≤ b && b < 127) || b == 9

/-- `http::HeaderValue`. -/
structure HeaderValue where
  bytes : List UInt8
  valid : bytes.all is_valid = true
  deriving DecidableEq, Repr

/-- Each byte as the character of its number. -/
def chars (bytes : List UInt8) : Str := bytes.map fun b => Char.ofNat b.toNat

/-- `HeaderValue::to_str`. -/
def HeaderValue.to_str (v : HeaderValue) : Option Str :=
  if v.bytes.all is_visible_ascii then some (chars v.bytes) else none

/-- `HeaderValue::from_str`. -/
def HeaderValue.from_str (s : Str) : Option HeaderValue :=
  if h : (utf8_bytes s).all is_valid = true then some ⟨utf8_bytes s, h⟩ else none

/-- A character that a readable value may contain. -/
def visible (c : Char) : Bool := c == '\t' || (' ' ≤ c && c ≤ '~')

theorem visible_of_to_str {v : HeaderValue} {s : Str} (h : v.to_str = some s) :
    s.all visible = true := by
  unfold HeaderValue.to_str at h
  split at h
  · rename_i hall
    rw [Option.some.injEq] at h
    subst h
    rw [chars, List.all_map, List.all_eq_true]
    intro b hb
    have hv := List.all_eq_true.mp hall b hb
    revert hv
    -- One byte at a time.
    refine Percent.byte_induction (P := fun b => is_visible_ascii b = true →
      (visible ∘ fun b : UInt8 => Char.ofNat b.toNat) b = true) ?_ b
    decide +kernel
  · cases h

theorem utf8_bytes_visible {c : Char} (h : visible c = true) :
    utf8_bytes [c] = [UInt8.ofNat c.toNat] ∧ is_visible_ascii (UInt8.ofNat c.toNat) = true
      ∧ Char.ofNat (UInt8.ofNat c.toNat).toNat = c := by
  have hlt : c.toNat < 127 := by
    simp only [visible, Bool.or_eq_true, beq_iff_eq, Bool.and_eq_true, decide_eq_true_eq] at h
    obtain rfl | ⟨-, h⟩ := h
    · decide
    · exact Nat.lt_of_le_of_lt (UInt32.le_iff_toNat_le.mp (Char.le_def.mp h)) (by decide)
  have hc : c = Char.ofNat c.toNat := (Char.ofNat_toNat c).symm
  generalize c.toNat = n at hlt hc
  subst hc
  revert h
  revert n
  decide +kernel

/-- A readable text becomes a value that reads as the same text. -/
theorem from_str_visible {s : Str} (h : s.all visible = true) :
    ∃ v, HeaderValue.from_str s = some v ∧ v.to_str = some s := by
  have hall : (utf8_bytes s).all is_visible_ascii = true ∧ chars (utf8_bytes s) = s := by
    induction s with
    | nil => exact ⟨rfl, rfl⟩
    | cons c s ih =>
      rw [List.all_cons, Bool.and_eq_true] at h
      obtain ⟨hbytes, hvis, hchar⟩ := utf8_bytes_visible h.1
      obtain ⟨hrest, hchars⟩ := ih h.2
      rw [Percent.utf8_bytes_cons, hbytes, List.all_append, chars, List.map_append, ← chars,
        ← chars, hchars, hrest]
      refine ⟨?_, ?_⟩
      · simp [hvis]
      · rw [chars, List.map_cons, List.map_nil, hchar]
        rfl
  have hvalid : (utf8_bytes s).all is_valid = true := by
    rw [List.all_eq_true]
    intro b hb
    have hv := List.all_eq_true.mp hall.1 b hb
    revert hv
    refine Percent.byte_induction (P := fun b => is_visible_ascii b = true →
      is_valid b = true) ?_ b
    decide +kernel
  refine ⟨⟨utf8_bytes s, hvalid⟩, ?_, ?_⟩
  · rw [HeaderValue.from_str, dif_pos hvalid]
  · rw [HeaderValue.to_str, if_pos hall.1, hall.2]

/-- `http::HeaderMap`. Its names are lowercase, and a lookup lowercases the name it is given. -/
abbrev HeaderMap := MultiMap Str HeaderValue

/-- The headers of a request whose fields are these, as they were written. -/
def of_fields (fields : List (Str × HeaderValue)) : HeaderMap :=
  ⟨fields.map fun f => (to_ascii_lowercase f.1, f.2)⟩

/-- `headers.get(name)`. -/
def header (headers : HeaderMap) (name : Str) : Option HeaderValue :=
  headers.get (to_ascii_lowercase name)

/-- `headers.get(name).and_then(|v| v.to_str().ok())`. -/
def header_str (headers : HeaderMap) (name : Str) : Option Str :=
  (header headers name).bind HeaderValue.to_str

theorem header_str_congr {headers headers' : HeaderMap} {name : Str}
    (h : headers.get_all (to_ascii_lowercase name) = headers'.get_all (to_ascii_lowercase name)) :
    header_str headers name = header_str headers' name := by
  rw [header_str, header_str, header, header, MultiMap.get, MultiMap.get, h]

/-! ## Names that the gateway writes or reads itself -/

def AUTHORIZATION : Str := "authorization".toList
def COOKIE : Str := "cookie".toList
def HOST : Str := "host".toList
def TRACEPARENT : Str := "traceparent".toList
def X_FORWARDED_FOR : Str := "x-forwarded-for".toList
def X_REAL_IP : Str := "x-real-ip".toList
def X_REQUEST_ID : Str := "x-request-id".toList

/-! ## The plan -/

/-- Headers that are meaningful for a single hop only. -/
def HOP_BY_HOP : List Str :=
  ["connection".toList, "keep-alive".toList, "proxy-authenticate".toList,
    "proxy-authorization".toList, "te".toList, "trailer".toList, "transfer-encoding".toList,
    "upgrade".toList]

/-- `HeaderPlan`: the field `set` is `additions` and the field `remove` is `removals`, as the
accessors are called. -/
structure HeaderPlan where
  additions : List (Str × Str)
  removals : List Str
  once : (additions.map Prod.fst).Nodup
  removed : ∀ p ∈ additions, p.1 ∈ removals

namespace HeaderPlan

/-- `HeaderPlan::new`. -/
def new : HeaderPlan := ⟨[], [], List.nodup_nil, nofun⟩

/-- `HeaderPlan::set`. -/
def set (plan : HeaderPlan) (name value : Str) : HeaderPlan where
  additions := plan.additions.filter (fun p => p.1 ≠ to_ascii_lowercase name)
    ++ [(to_ascii_lowercase name, value)]
  removals := plan.removals.insert (to_ascii_lowercase name)
  once := by
    rw [List.map_append, List.nodup_append]
    refine ⟨(plan.once.sublist (List.filter_sublist.map Prod.fst)),
      List.nodup_cons.mpr (by simp), ?_⟩
    intro a ha b hb
    obtain ⟨p, hp, rfl⟩ := List.mem_map.mp ha
    rw [List.map_singleton, List.mem_singleton] at hb
    rw [hb]
    simpa using (List.mem_filter.mp hp).2
  removed := by
    intro p hp
    rw [List.mem_insert_iff]
    obtain hp | hp := List.mem_append.mp hp
    · exact .inr (plan.removed p (List.mem_filter.mp hp).1)
    · rw [List.mem_singleton] at hp
      exact .inl (by rw [hp])

/-- `HeaderPlan::strip`. -/
def strip (plan : HeaderPlan) (name : Str) : HeaderPlan where
  additions := plan.additions
  removals := plan.removals.insert (to_ascii_lowercase name)
  once := plan.once
  removed := fun p hp => List.mem_insert_of_mem (plan.removed p hp)

/-- What the plan comes to for one name. -/
def fate (plan : HeaderPlan) (n : Str) : Fate Str :=
  match plan.additions.lookup n with
  | some v => .put v
  | none => if n ∈ plan.removals then .dropped else .kept

@[simp] theorem fate_new (n : Str) : new.fate n = .kept := rfl

section Reading

variable {plan : HeaderPlan} {n v : Str}

/-- What a plan adds under a name is what it comes to, -/
theorem value_fate (plan : HeaderPlan) (n : Str) :
    (plan.fate n).value = plan.additions.lookup n := by
  rw [fate]
  cases plan.additions.lookup n with
  | some v => rfl
  | none =>
    dsimp only
    split
    · rfl
    · rfl

/-- and it takes a name away unless it leaves it alone. -/
theorem mem_removals_iff : n ∈ plan.removals ↔ plan.fate n ≠ .kept := by
  rw [fate]
  cases hlookup : plan.additions.lookup n with
  | some v =>
    obtain ⟨before, after, hsplit, -⟩ := List.lookup_eq_some_iff.mp hlookup
    exact iff_of_true (plan.removed (n, v) (by rw [hsplit]; simp)) (by simp)
  | none => simp

theorem mem_additions_iff : (n, v) ∈ plan.additions ↔ (plan.fate n).value = some v := by
  rw [value_fate, List.lookup_eq_some_iff]
  constructor
  · intro h
    obtain ⟨before, after, hsplit⟩ := List.append_of_mem h
    refine ⟨before, after, hsplit, fun p hp => ?_⟩
    have honce := plan.once
    rw [hsplit, List.map_append, List.nodup_append] at honce
    exact bne_iff_ne.mpr (Ne.symm (honce.2.2 p.1 (List.mem_map_of_mem hp) n (by simp)))
  · rintro ⟨before, after, hsplit, -⟩
    rw [hsplit]
    simp

theorem not_mem_additions_iff :
    n ∉ plan.additions.map Prod.fst ↔ (plan.fate n).value = none := by
  rw [Option.eq_none_iff_forall_ne_some, List.mem_map]
  constructor
  · exact fun h v hv => h ⟨(n, v), mem_additions_iff.mpr hv, rfl⟩
  · rintro h ⟨p, hp, rfl⟩
    exact h p.2 (mem_additions_iff.mp hp)

/-- **What a name has once a plan is carried out**, in whatever order the names are removed. -/
theorem get_all_carried_out {V ε : Type} {make : Str → Str → Except ε V} {order : List Str}
    {m out : MultiMap Str V} (horder : ∀ k, k ∈ order ↔ k ∈ plan.removals)
    (h : MultiMap.insert_each make plan.additions (m.remove_all order) = .ok out) (n : Str) :
    (∀ v, plan.fate n = .put v → ∃ x, make n v = .ok x ∧ out.get_all n = [x])
      ∧ (plan.fate n = .dropped → out.get_all n = [])
      ∧ (plan.fate n = .kept → out.get_all n = m.get_all n) := by
  obtain ⟨hput, hkeep⟩ := MultiMap.get_all_insert_each plan.once h n
  have hremoved : n ∈ order ↔ plan.fate n ≠ .kept := (horder n).trans mem_removals_iff
  rw [not_mem_additions_iff, MultiMap.get_all_remove_all] at hkeep
  refine ⟨fun v hf => hput v (mem_additions_iff.mpr (Fate.eq_put_iff.mp hf)), fun hf => ?_,
    fun hf => ?_⟩
  · rw [hkeep (by rw [hf, Fate.value_dropped]), if_pos (hremoved.mpr (by simp [hf]))]
  · rw [hkeep (by rw [hf, Fate.value_kept]), if_neg (fun hn => hremoved.mp hn hf)]

end Reading

/-- The entries of a name taken out, and one put at the end. -/
theorem lookup_reset (l : List (Str × Str)) (m value n : Str) :
    (l.filter (fun p => p.1 ≠ m) ++ [(m, value)]).lookup n
      = if m = n then some value else l.lookup n := by
  rw [List.lookup_append]
  by_cases h : m = n
  · subst h
    have hnone : (l.filter fun p => p.1 ≠ m).lookup m = none := by
      rw [List.lookup_eq_none_iff]
      intro p hp
      rw [bne_iff_ne]
      exact Ne.symm (by simpa using (List.mem_filter.mp hp).2)
    rw [hnone, Option.none_or, List.lookup_cons, beq_self_eq_true, if_pos rfl]
  · have hne : (n == m) = false := beq_eq_false_iff_ne.mpr (Ne.symm h)
    have hsame : (l.filter fun p => p.1 ≠ m).lookup n = l.lookup n := by
      induction l with
      | nil => rfl
      | cons p l ih =>
        by_cases hp : p.1 = m
        · rw [List.filter_cons_of_neg (by simpa using hp), ih, List.lookup_cons, hp, hne]
        · rw [List.filter_cons_of_pos (by simpa using hp), List.lookup_cons, List.lookup_cons, ih]
    rw [hsame, List.lookup_cons, hne, if_neg h, List.lookup_nil, Option.or_none]

theorem fate_set (plan : HeaderPlan) (name value n : Str) :
    (plan.set name value).fate n
      = (plan.fate n).seq (if to_ascii_lowercase name = n then .put value else .kept) := by
  simp only [fate, set]
  rw [lookup_reset]
  by_cases h : to_ascii_lowercase name = n
  · simp only [if_pos h, Fate.seq_put]
  · simp only [if_neg h, Fate.seq_kept, List.mem_insert_iff, Ne.symm h, false_or]

theorem fate_strip (plan : HeaderPlan) (name n : Str) :
    (plan.strip name).fate n
      = (plan.fate n).seq (if to_ascii_lowercase name = n then .dropped else .kept) := by
  simp only [fate, strip, List.mem_insert_iff]
  by_cases h : to_ascii_lowercase name = n
  · rw [if_pos h]
    cases plan.additions.lookup n with
    | some v => rfl
    | none =>
      simp only [h, true_or, if_true]
      split <;> rfl
  · simp only [if_neg h, Fate.seq_kept, Ne.symm h, false_or]

/-- Several names set, one after the other. -/
theorem fate_foldl_set (pairs : List (Str × Str)) (plan : HeaderPlan) (n : Str) :
    (pairs.foldl (fun plan p => plan.set p.1 p.2) plan).fate n
      = (plan.fate n).seq
          (Script.fate (Script.puts (pairs.map fun p => (to_ascii_lowercase p.1, p.2))) n) := by
  induction pairs generalizing plan with
  | nil => simp [Script.puts]
  | cons p pairs ih =>
    rw [List.foldl_cons, ih, fate_set, Fate.seq_assoc, List.map_cons, Script.fate_puts_cons]
    split <;> simp

/-- Several names stripped, one after the other. -/
theorem fate_foldl_strip (names : List Str) (plan : HeaderPlan) (n : Str) :
    (names.foldl strip plan).fate n
      = (plan.fate n).seq (Script.fate (Script.drops (names.map to_ascii_lowercase)) n) := by
  induction names generalizing plan with
  | nil => simp [Script.drops]
  | cons name names ih =>
    rw [List.foldl_cons, ih, fate_strip, Fate.seq_assoc, List.map_cons, Script.fate_drops_cons]
    split <;> simp

end HeaderPlan

/-! ## The client's address -/

/-- `trusted_suffix`. Whether a text is an IP address is `is_ip`. -/
def trusted_suffix (is_ip : Str → Bool) (forwarded_for : Option Str) (peer : Option Str)
    (trusted_proxies : ℕ) : List Str :=
  match peer with
  | none => []
  | some peer =>
    let entries := match forwarded_for with
      | some value => (split ',' value).map trim
      | none => []
    if trusted_proxies = 0 ∨ entries.length < trusted_proxies then [peer]
    else
      let suffix := entries.drop (entries.length - trusted_proxies)
      if suffix.all is_ip then suffix ++ [peer] else [peer]

/-- `forwarded_for_chain`. -/
def forwarded_for_chain (headers : HeaderMap) : Option Str :=
  match (headers.get_all X_FORWARDED_FOR).mapM HeaderValue.to_str with
  | none => none
  | some values => if values.isEmpty then none else some (", ".toList.intercalate values)

/-- `forwarded_for`: the `X-Forwarded-For` and the `X-Real-IP` to send. -/
def forwarded_for (is_ip : Str → Bool) (client_headers : HeaderMap) (peer : Option Str)
    (trusted_proxies : ℕ) : Option Str × Option Str :=
  let prior := if trusted_proxies > 0 then forwarded_for_chain client_headers else none
  let chain := trusted_suffix is_ip prior peer trusted_proxies
  (if chain.isEmpty then none else some (", ".toList.intercalate chain), chain.head?)

/-- An edge gateway reads nothing of what the client says about itself. -/
theorem forwarded_for_zero (is_ip : Str → Bool) (headers : HeaderMap) (peer : Option Str) :
    forwarded_for is_ip headers peer 0 = (peer, peer) := by
  cases peer with
  | none => rfl
  | some peer => simp [forwarded_for, trusted_suffix]

/-- There is an address just if the peer is known. -/
theorem isSome_forwarded_for (is_ip : Str → Bool) (headers : HeaderMap) (peer : Option Str)
    (trusted_proxies : ℕ) :
    (forwarded_for is_ip headers peer trusted_proxies).1.isSome = peer.isSome
      ∧ (forwarded_for is_ip headers peer trusted_proxies).2.isSome = peer.isSome := by
  cases peer with
  | none => exact ⟨rfl, rfl⟩
  | some peer =>
    have hne : ∀ prior, trusted_suffix is_ip prior (some peer) trusted_proxies ≠ [] := by
      intro prior
      unfold trusted_suffix
      dsimp only
      split_ifs <;> simp
    rw [forwarded_for]
    dsimp only
    generalize (if trusted_proxies > 0 then forwarded_for_chain headers else none) = prior
    cases hc : trusted_suffix is_ip prior (some peer) trusted_proxies with
    | nil => exact absurd hc (hne prior)
    | cons a l => exact ⟨rfl, rfl⟩

/-- Where the client says nothing there is nothing to read. -/
theorem forwarded_for_nil (is_ip : Str → Bool) (peer : Option Str) (trusted_proxies : ℕ) :
    forwarded_for is_ip ⟨[]⟩ peer trusted_proxies = (peer, peer) := by
  have hprior : (if trusted_proxies > 0 then forwarded_for_chain ⟨[]⟩ else none) = none :=
    ite_self none
  rw [forwarded_for, hprior]
  cases peer with
  | none => rfl
  | some peer =>
    have hshort : trusted_proxies = 0 ∨ ([] : List Str).length < trusted_proxies :=
      Nat.eq_zero_or_pos trusted_proxies
    have hsuffix : trusted_suffix is_ip none (some peer) trusted_proxies = [peer] := if_pos hshort
    rw [hsuffix]
    simp

/-- Otherwise it reads one field. -/
theorem forwarded_for_congr (is_ip : Str → Bool) {headers headers' : HeaderMap}
    (h : headers.get_all X_FORWARDED_FOR = headers'.get_all X_FORWARDED_FOR)
    (peer : Option Str) (trusted_proxies : ℕ) :
    forwarded_for is_ip headers peer trusted_proxies
      = forwarded_for is_ip headers' peer trusted_proxies := by
  have hchain : forwarded_for_chain headers = forwarded_for_chain headers' := by
    rw [forwarded_for_chain, forwarded_for_chain, h]
  rw [forwarded_for, forwarded_for, hchain]

end Lagos.Headers
