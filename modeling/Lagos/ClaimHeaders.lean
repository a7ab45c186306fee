/-
Claims as headers (`apply_claim_headers` and `claim_at`).

A claim that a token does not have, one that is `null` and one with a value are three things, and
a backend must see which of them it is. `Leads` is the walk along a dotted path, and `States` says
when a mapping has a text for its header. A mapping that has one sets it, a mapping that has none
leaves the header out, and one that cannot be written fails the request (`Unwritable`). Whichever
it is, the client's own header does not get through (`claim_headers_apart`).

A mapping under an empty name is turned off: it sets nothing, and it does not fail either.
-/
import Lagos.HeaderPolicy

set_option autoImplicit false

open RustStd

namespace Lagos.Auth

open Lagos.Headers Lagos.Outbound

/-! ## The walk -/

/-- A path leads from a value to another: each of its segments to the field of that name, or else
to the field of its other spelling. -/
inductive Leads : Value → List Str → Value → Prop
  | here (v : Value) : Leads v [] v
  | exact {fields : List (Str × Value)} {segment : Str} {segments : List Str} {v w : Value}
      (h : fields.lookup segment = some v) (rest : Leads v segments w) :
      Leads (.Object fields) (segment :: segments) w
  | respelled {fields : List (Str × Value)} {segment : Str} {segments : List Str} {v w : Value}
      (hnone : fields.lookup segment = none) (h : fields.lookup (to_snake_case segment) = some v)
      (rest : Leads v segments w) : Leads (.Object fields) (segment :: segments) w

/-- A mapped claim is there, with this value. -/
def Resolves (identity : Identity) (mapping : ClaimMapping) (v : Value) : Prop :=
  Leads (.Object identity.claims) (split '.' mapping.claim) v

/-! ## The three states -/

/-- A value has this text: a scalar its own, and `null` the one that is configured. -/
inductive Spells (when_null : Option Str) : Value → Str → Prop
  | string (s : Str) : Spells when_null (.String s) s
  | number (n : Str) : Spells when_null (.Number n) n
  | yes : Spells when_null (.Bool true) "true".toList
  | no : Spells when_null (.Bool false) "false".toList
  | null {w : Str} (h : when_null = some w) : Spells when_null .Null w

/-- An array or an object. -/
inductive Structured : Value → Prop
  | array (items : List Value) : Structured (.Array items)
  | object (fields : List (Str × Value)) : Structured (.Object fields)

/-- Tabs and printable ASCII. -/
def Plain (w : Str) : Prop := ∀ c ∈ w, c = '\t' ∨ ' ' ≤ c ∧ c ≤ '~'

/-- A mapping has this text for its header. -/
def States (identity : Identity) (mapping : ClaimMapping) (w : Str) : Prop :=
  ∃ v, Resolves identity mapping v ∧ Spells mapping.when_null v w

/-- A mapped claim cannot be written. -/
def Unwritable (identity : Identity) (mapping : ClaimMapping) : Prop :=
  (∃ v, Resolves identity mapping v ∧ Structured v) ∨ ∃ w, States identity mapping w ∧ ¬ Plain w

section Mapping

variable {identity : Identity} {header : Str} {mapping : ClaimMapping}

theorem field_eq_some {fields : List (Str × Value)} {name : Str} {v : Value} :
    field fields name = some v ↔ fields.lookup name = some v
      ∨ fields.lookup name = none ∧ fields.lookup (to_snake_case name) = some v := by
  rw [field]
  cases fields.lookup name with
  | some u => simp
  | none => simp

/-- `descend` is the walk. -/
theorem descend_eq_some {current w : Value} {segments : List Str} :
    descend current segments = some w ↔ Leads current segments w := by
  constructor
  · intro h
    induction segments generalizing current with
    | nil =>
      cases h
      exact .here w
    | cons segment segments ih =>
      unfold descend at h
      split at h
      · obtain ⟨v, hv, hrest⟩ := Option.bind_eq_some_iff.mp h
        obtain hexact | ⟨hnone, hother⟩ := field_eq_some.mp hv
        · exact .exact hexact (ih hrest)
        · exact .respelled hnone hother (ih hrest)
      · cases h
  · intro h
    induction h with
    | here v => rfl
    | exact h _ ih =>
      rw [descend, field_eq_some.mpr (.inl h)]
      exact ih
    | respelled hnone h _ ih =>
      rw [descend, field_eq_some.mpr (.inr ⟨hnone, h⟩)]
      exact ih

/-- **`claim_at` finds what the path leads to.** -/
theorem claim_at_eq_some {v : Value} :
    identity.claim_at mapping.claim = some v ↔ Resolves identity mapping v := by
  rw [Resolves, ← descend_eq_some, Identity.claim_at]
  obtain ⟨first, segments, hsplit⟩ := List.exists_cons_of_ne_nil (split_ne_nil '.' mapping.claim)
  rw [hsplit]
  rfl

theorem is_header_safe_iff {w : Str} : is_header_safe w = true ↔ Plain w := by
  simp [is_header_safe, Plain, visible]

/-- What a value is written as is its text, -/
theorem spelled_eq_some {v : Value} {w : Str} :
    spelled header mapping v = .ok (some w) ↔ Spells mapping.when_null v w := by
  constructor
  · intro h
    cases v with
    | String s =>
      cases h
      exact .string w
    | Number n =>
      cases h
      exact .number w
    | Bool b =>
      cases h
      cases b
      · exact .no
      · exact .yes
    | Null => exact .null (Except.ok.inj h)
    | Array items => cases h
    | Object fields => cases h
  · intro h
    cases h with
    | string => rfl
    | number => rfl
    | yes => rfl
    | no => rfl
    | null h => exact congrArg Except.ok h

/-- and only a structure cannot be written. -/
theorem spelled_error {v : Value} :
    (∃ e, spelled header mapping v = .error e) ↔ Structured v := by
  constructor
  · rintro ⟨e, h⟩
    cases v with
    | Array items => exact .array items
    | Object fields => exact .object fields
    | String s => cases h
    | Number n => cases h
    | Bool b => cases h
    | Null => cases h
  · intro h
    cases h with
    | array items => exact ⟨_, rfl⟩
    | object fields => exact ⟨_, rfl⟩

/-- A path leads to one value at most. -/
theorem resolves_unique {v v' : Value} (h : Resolves identity mapping v)
    (h' : Resolves identity mapping v') : v = v' :=
  Option.some.inj ((claim_at_eq_some.mpr h).symm.trans (claim_at_eq_some.mpr h'))

/-- What is rendered is the text of the mapping, where a header can have it. -/
theorem rendered_eq_some {w : Str} :
    rendered identity header mapping = .ok (some w) ↔ States identity mapping w ∧ Plain w := by
  unfold rendered
  cases hat : identity.claim_at mapping.claim with
  | none =>
    refine iff_of_false nofun ?_
    rintro ⟨⟨v, hv, -⟩, -⟩
    rw [claim_at_eq_some.mpr hv] at hat
    cases hat
  | some v =>
    have hv := claim_at_eq_some.mp hat
    have hstates : States identity mapping w ↔ spelled header mapping v = .ok (some w) := by
      rw [spelled_eq_some]
      refine ⟨fun ⟨v', hv', hspells⟩ => ?_, fun h => ⟨v, hv, h⟩⟩
      rw [resolves_unique hv hv']
      exact hspells
    rw [hstates]
    dsimp only
    cases spelled header mapping v with
    | error e => exact iff_of_false nofun fun h => nomatch h.1
    | ok value =>
      cases value with
      | none => exact iff_of_false nofun fun h => nomatch h.1
      | some u =>
        rw [← is_header_safe_iff]
        dsimp only
        by_cases hsafe : is_header_safe u = true
        · rw [if_pos hsafe]
          constructor
          · intro h
            cases h
            exact ⟨rfl, hsafe⟩
          · exact fun h => h.1
        · rw [if_neg hsafe]
          refine iff_of_false nofun ?_
          rintro ⟨h, hplain⟩
          cases h
          exact hsafe hplain

/-- And a claim that cannot be written is refused. -/
theorem rendered_error :
    (∃ e, rendered identity header mapping = .error e) ↔ Unwritable identity mapping := by
  unfold rendered
  cases hat : identity.claim_at mapping.claim with
  | none =>
    refine iff_of_false (fun ⟨_, h⟩ => nomatch h) ?_
    rintro (⟨v, hv, -⟩ | ⟨w, ⟨v, hv, -⟩, -⟩)
    · rw [claim_at_eq_some.mpr hv] at hat
      cases hat
    · rw [claim_at_eq_some.mpr hv] at hat
      cases hat
  | some v =>
    have hv := claim_at_eq_some.mp hat
    have hunwritable : Unwritable identity mapping
        ↔ (∃ e, spelled header mapping v = .error e)
          ∨ ∃ w, spelled header mapping v = .ok (some w) ∧ ¬ Plain w := by
      -- The claim resolves to the one value that was found.
      simp only [spelled_error, spelled_eq_some]
      constructor
      · rintro (⟨v', hv', hstructured⟩ | ⟨w, ⟨v', hv', hspells⟩, hplain⟩)
        · rw [resolves_unique hv hv']
          exact .inl hstructured
        · rw [resolves_unique hv hv']
          exact .inr ⟨w, hspells, hplain⟩
      · rintro (hstructured | ⟨w, hspells, hplain⟩)
        · exact .inl ⟨v, hv, hstructured⟩
        · exact .inr ⟨w, ⟨v, hv, hspells⟩, hplain⟩
    rw [hunwritable]
    dsimp only
    cases spelled header mapping v with
    | error e => exact iff_of_true ⟨e, rfl⟩ (.inl ⟨e, rfl⟩)
    | ok value =>
      cases value with
      | none => simp
      | some u =>
        dsimp only
        by_cases hsafe : is_header_safe u = true
        · rw [if_pos hsafe]
          simpa using is_header_safe_iff.mp hsafe
        · rw [if_neg hsafe]
          refine iff_of_true ⟨_, rfl⟩ (.inr ⟨u, rfl, ?_⟩)
          rwa [← is_header_safe_iff]

end Mapping

/-! ## The headers -/

section Apply

variable {identity : Identity} {claims : List (Str × ClaimMapping)} {plan plan' : HeaderPlan}
  {entry : Str × ClaimMapping} {n : Str}

/-- **One claim that cannot be written fails the request**, wherever it stands. -/
theorem apply_claim_headers_error :
    (∃ e, apply_claim_headers identity claims plan = .error e)
      ↔ ∃ entry ∈ claims, entry.1 ≠ [] ∧ Unwritable identity entry.2 := by
  induction claims generalizing plan with
  | nil => simp [apply_claim_headers]
  | cons entry claims ih =>
    obtain ⟨header, mapping⟩ := entry
    rw [apply_claim_headers, List.exists_mem_cons_iff]
    by_cases hempty : header.isEmpty = true
    -- A mapping without a name is passed over, whatever its claim is.
    · rw [if_pos hempty, ih, or_iff_right fun h => h.1 (List.isEmpty_iff.mp hempty)]
    · rw [if_neg hempty, and_iff_right (fun h => hempty (List.isEmpty_iff.mpr h)),
        ← @rendered_error identity header mapping]
      cases hr : rendered identity header mapping with
      | error e => exact iff_of_true ⟨e, rfl⟩ (.inl ⟨e, rfl⟩)
      | ok value =>
        have hno : ¬ ∃ e, (Except.ok value : Except IdentityError (Option Str)) = .error e := by
          simp
        rw [or_iff_right hno]
        cases value with
        | none => exact ih
        | some v => exact ih

/-- A mapping says something about its own header only. -/
theorem fate_claim_script_of_ne (h : entry.1 ≠ [] → to_ascii_lowercase entry.1 ≠ n) :
    (claim_script identity entry).fate n = .kept := by
  rw [claim_script]
  split
  · rfl
  · rename_i hname
    have hne := h fun hnil => hname (List.isEmpty_iff.mpr hnil)
    rw [Script.fate_cons, if_neg hne]
    split
    · rw [Script.fate_singleton, if_neg hne]
    · rfl

/-- What it says of that one. -/
theorem fate_claim_script (hname : entry.1 ≠ []) {value : Option Str}
    (h : rendered identity entry.1 entry.2 = .ok value) :
    (claim_script identity entry).fate (to_ascii_lowercase entry.1)
      = value.elim .dropped Fate.put := by
  rw [claim_script, if_neg (fun h => hname (List.isEmpty_iff.mp h)), Script.fate_cons, if_pos rfl,
    h]
  cases value with
  | none => rfl
  | some v => rw [Script.fate_singleton, if_pos rfl, Fate.seq_put, Option.elim_some]

/-- Where no two mappings have the same header, each has the last word on its own. -/
theorem fate_claims (hdistinct : (claims.map fun entry => to_ascii_lowercase entry.1).Nodup)
    (hmem : entry ∈ claims) :
    Script.fate (claims.flatMap (claim_script identity)) (to_ascii_lowercase entry.1)
      = (claim_script identity entry).fate (to_ascii_lowercase entry.1) := by
  induction claims with
  | nil => cases hmem
  | cons first claims ih =>
    obtain ⟨hfirst, hrest⟩ := List.nodup_cons.mp hdistinct
    rw [List.flatMap_cons, Script.fate_append]
    obtain rfl | hmem := List.mem_cons.mp hmem
    · have hothers : Script.fate (claims.flatMap (claim_script identity))
          (to_ascii_lowercase entry.1) = .kept := by
        rw [Script.fate_eq_kept]
        intro e he hname
        obtain ⟨other, hother, he⟩ := List.mem_flatMap.mp he
        have hne : to_ascii_lowercase other.1 ≠ to_ascii_lowercase entry.1 :=
          fun heq => hfirst (List.mem_map.mpr ⟨other, hother, heq⟩)
        exact Script.fate_eq_kept.mp (fate_claim_script_of_ne fun _ => hne) e he hname
      rw [hothers, Fate.seq_kept]
    · have hne : to_ascii_lowercase first.1 ≠ to_ascii_lowercase entry.1 :=
        fun heq => hfirst (List.mem_map.mpr ⟨entry, hmem, heq.symm⟩)
      rw [fate_claim_script_of_ne fun _ => hne, Fate.kept_seq, ih hrest hmem]

/-- Where the loop comes through, every mapping is rendered. -/
theorem rendered_of_apply (h : apply_claim_headers identity claims plan = .ok plan')
    (hmem : entry ∈ claims) (hname : entry.1 ≠ []) :
    ∃ value, rendered identity entry.1 entry.2 = .ok value := by
  cases hr : rendered identity entry.1 entry.2 with
  | ok value => exact ⟨value, rfl⟩
  | error e =>
    obtain ⟨e', he'⟩ := (@apply_claim_headers_error identity claims plan).mpr
      ⟨entry, hmem, hname, rendered_error.mp ⟨e, hr⟩⟩
    rw [he'] at h
    cases h

/-- **A mapped header comes to the text of its claim**, or is taken out. -/
theorem fate_mapped (hdistinct : (claims.map fun entry => to_ascii_lowercase entry.1).Nodup)
    (hunset : ∀ entry ∈ claims, plan.additions.lookup (to_ascii_lowercase entry.1) = none)
    (h : apply_claim_headers identity claims plan = .ok plan') (hmem : entry ∈ claims)
    (hname : entry.1 ≠ []) :
    ∃ value : Option Str, plan'.fate (to_ascii_lowercase entry.1) = value.elim .dropped Fate.put
      ∧ ∀ w, value = some w ↔ States identity entry.2 w := by
  obtain ⟨value, hvalue⟩ := rendered_of_apply h hmem hname
  refine ⟨value, ?_, fun w => ?_⟩
  · have hbefore : (plan.fate (to_ascii_lowercase entry.1)).value = none :=
      (HeaderPlan.value_fate ..).trans (hunset entry hmem)
    rw [fate_apply_claim_headers h, fate_claims hdistinct hmem, fate_claim_script hname hvalue]
    revert hbefore
    cases plan.fate (to_ascii_lowercase entry.1) <;> cases value <;> simp [Fate.seq]
  -- A text that no header can have would have failed the request.
  · have hplain : States identity entry.2 w → Plain w := by
      intro hstates
      by_contra hplain
      obtain ⟨e, he⟩ := (@rendered_error identity entry.1 entry.2).mpr (.inr ⟨w, hstates, hplain⟩)
      rw [hvalue] at he
      cases he
    have hrendered := @rendered_eq_some identity entry.1 entry.2 w
    rw [hvalue, Except.ok.injEq] at hrendered
    exact hrendered.trans (and_iff_left_of_imp hplain)

end Apply

/-- **A claim that is absent, one that is null and one with a value are told apart**, or the
request fails, and in no case does the client's own header get through. -/
theorem claim_headers_apart (identity : Identity) {claims : List (Str × ClaimMapping)}
    {plan : HeaderPlan}
    (hdistinct : (claims.map fun entry => to_ascii_lowercase entry.1).Nodup)
    (hunset : ∀ entry ∈ claims, plan.additions.lookup (to_ascii_lowercase entry.1) = none) :
    ((∃ e, apply_claim_headers identity claims plan = .error e)
        ↔ ∃ entry ∈ claims, entry.1 ≠ [] ∧ Unwritable identity entry.2)
      ∧ ∀ plan', apply_claim_headers identity claims plan = .ok plan' →
        (∀ entry ∈ claims, entry.1 ≠ [] →
          to_ascii_lowercase entry.1 ∈ plan'.removals
            ∧ (∀ w, plan'.additions.lookup (to_ascii_lowercase entry.1) = some w
              ↔ States identity entry.2 w)
            ∧ ∀ (g : Gateway) (crates : Crates) (target : Str) (headers out : HeaderMap),
              g.upstream_request_filter crates target plan' headers = .ok out →
                ∀ v ∈ out.get_all (to_ascii_lowercase entry.1),
                  ∃ w, States identity entry.2 w ∧ v.bytes = utf8_bytes w)
          ∧ ∀ n, (∀ entry ∈ claims, entry.1 ≠ [] → to_ascii_lowercase entry.1 ≠ n) →
            plan'.fate n = plan.fate n := by
  refine ⟨apply_claim_headers_error, fun plan' h => ⟨fun entry hmem hname => ?_, fun n hn => ?_⟩⟩
  · obtain ⟨value, hfate, hstates⟩ := fate_mapped hdistinct hunset h hmem hname
    refine ⟨?_, fun w => ?_, ?_⟩
    · rw [HeaderPlan.mem_removals_iff, hfate]
      cases value with
      | none => nofun
      | some v => nofun
    · rw [← HeaderPlan.value_fate, hfate, ← hstates]
      cases value with
      | none => exact iff_of_false nofun nofun
      | some v => rfl
    · intro g crates target headers out hout v hv
      have hcarried := carried_of_filter hout (to_ascii_lowercase entry.1)
      cases value with
      | none =>
        rw [hcarried.dropped hfate] at hv
        cases hv
      | some w =>
        obtain ⟨put, hput, hall⟩ := hcarried.put w hfate
        rw [hall, List.mem_singleton] at hv
        exact ⟨w, (hstates w).mp rfl, hv ▸ insertable_bytes hput⟩
  · rw [fate_apply_claim_headers h]
    have hkept : Script.fate (claims.flatMap (claim_script identity)) n = .kept := by
      rw [Script.fate_eq_kept]
      intro e he hname
      obtain ⟨other, hother, he⟩ := List.mem_flatMap.mp he
      exact Script.fate_eq_kept.mp (fate_claim_script_of_ne (hn other hother)) e he hname
    rw [hkept, Fate.seq_kept]

/-! ## Somebody without an employer -/

namespace Employee

/-- The one claim is spelled otherwise, and null; the other is in an object. -/
def identity : Identity where
  subject := "u1".toList
  issuer := "https://id".toList
  audience := "app".toList
  claims := [("company".toList, .Object [("id".toList, .Number "11".toList)]),
    ("employer_id".toList, .Null), ("groups".toList, .Array [])]

def claims : List (Str × ClaimMapping) :=
  [("X-Company".toList, ⟨"company.id".toList, none⟩),
    ("X-Employer".toList, ⟨"employerId".toList, some "none".toList⟩)]

end Employee

open Employee in
/-- A null is said to be one. -/
theorem claim_headers_apart_null :
    ∃ plan, apply_claim_headers Employee.identity Employee.claims .new = .ok plan
      ∧ plan.additions.lookup "x-employer".toList = some "none".toList := by
  obtain ⟨plan, h⟩ : ∃ plan, apply_claim_headers Employee.identity Employee.claims .new
      = .ok plan := ⟨_, rfl⟩
  have hall := @claim_headers_apart Employee.identity Employee.claims .new (by decide) (by decide)
  have hmem : ("X-Employer".toList, ⟨"employerId".toList, some "none".toList⟩) ∈ Employee.claims :=
    List.mem_cons_of_mem _ List.mem_cons_self
  obtain ⟨-, hset, -⟩ := (hall.2 plan h).1 _ hmem (by decide)
  exact ⟨plan, h, (hset _).mpr ⟨.Null, claim_at_eq_some.mp rfl, .null rfl⟩⟩

/-- A mapping without a name does not fail, whatever its claim is. -/
theorem unnamed_mapping_skipped :
    ¬ ∀ (identity : Identity) (claims : List (Str × ClaimMapping)) (plan : HeaderPlan),
      (claims.map fun entry => to_ascii_lowercase entry.1).Nodup →
      (∀ entry ∈ claims, plan.additions.lookup (to_ascii_lowercase entry.1) = none) →
      ((∃ e, apply_claim_headers identity claims plan = .error e)
        ↔ ∃ entry ∈ claims, Unwritable identity entry.2) := by
  intro hall
  have hfails := (hall Employee.identity [([], ⟨"groups".toList, none⟩)] .new (by decide)
    (by decide)).mpr
  obtain ⟨e, he⟩ := hfails ⟨_, List.mem_singleton_self _,
    .inl ⟨.Array [], claim_at_eq_some.mp rfl, .array []⟩⟩
  cases he

end Lagos.Auth
