/-
What `set` and `strip` are called for, and what a plan makes of it (`headers.rs`, `proxy.rs`).

A plan keeps two collections: the pairs that were set, and the names that are taken away. One
method changes both and the other only the second; much later they are applied in two passes,
the removals in the order of a hash set. Of the calls themselves two things can be said of a
name: whether one names it, in any letter case, and what it was set to last. Nothing else counts.
In particular a name that is stripped after it was set keeps its value.

A plan that calls made is what a `Chain` leaves that has put a new plan in place of the old one,
so the fates of its names are those of `fate_run`.
-/
import Lagos.BodyFraming

set_option autoImplicit false

open RustStd

namespace Lagos.Outbound

open Lagos.Headers

/-! ## Calls -/

/-- The plan that calls leave, the first to the last. -/
def plan_of (calls : List PlanEdit) : HeaderPlan := calls.foldl PlanEdit.apply .new

/-- What a call names, as a plan keeps it. -/
def PlanEdit.name : PlanEdit → Str
  | .set name _ => to_ascii_lowercase name
  | .strip name => to_ascii_lowercase name

/-- What a call sets this name to, if it does. -/
def PlanEdit.value_for (n : Str) : PlanEdit → Option Str
  | .set name value => if to_ascii_lowercase name = n then some value else none
  | .strip _ => none

/-- What the name was set to by the last call that set it. -/
def last_set (calls : List PlanEdit) (n : Str) : Option Str :=
  (calls.filterMap (PlanEdit.value_for n)).getLast?

/-- What the calls asked for was done: a name has the value that it was set to last, and if it was
only stripped it has none. All other names have what they had. -/
structure Done {V ε : Type} (make : Str → Str → Except ε V) (calls : List PlanEdit)
    (m out : MultiMap Str V) : Prop where
  set : ∀ n value, last_set calls n = some value →
    ∃ v, make n value = .ok v ∧ out.get_all n = [v]
  stripped : ∀ n ∈ calls.map PlanEdit.name, last_set calls n = none → out.get_all n = []
  others : ∀ n ∉ calls.map PlanEdit.name, out.get_all n = m.get_all n

/-! ## What the plan comes to -/

section Fates

variable (calls : List PlanEdit) (n : Str)

theorem fate_plan_of :
    (plan_of calls).fate n = Script.fate (calls.map PlanEdit.edit) n := by
  have hrun := fate_run ⟨true, calls⟩ .new n
  rwa [if_pos rfl, Fate.kept_seq] at hrun

theorem value_plan_of : ((plan_of calls).fate n).value = last_set calls n := by
  rw [fate_plan_of, Script.value_fate_eq_last, List.filterMap_map, last_set]
  congr 1
  refine List.filterMap_congr fun call _ => ?_
  cases call with
  | set name value => rfl
  | strip name => exact ite_self none

theorem plan_of_eq_kept : (plan_of calls).fate n = .kept ↔ n ∉ calls.map PlanEdit.name := by
  have hname : Prod.fst ∘ PlanEdit.edit = PlanEdit.name := by
    funext call
    cases call <;> rfl
  rw [fate_plan_of, fate_edits_eq_kept, List.map_map, hname]

theorem name_lowercase (call : PlanEdit) : to_ascii_lowercase call.name = call.name := by
  cases call with
  | set name value => exact lowercase_lowercase name
  | strip name => exact lowercase_lowercase name

/-- A plan takes away the names of the calls. -/
theorem mem_removals_plan_of : n ∈ (plan_of calls).removals ↔ n ∈ calls.map PlanEdit.name := by
  rw [HeaderPlan.mem_removals_iff, Ne, plan_of_eq_kept, not_not]

end Fates

/-! ## Carrying it out -/

section Applied

variable {V ε : Type} {make : Str → Str → Except ε V} {calls : List PlanEdit}
  {order : List Str} {m out : MultiMap Str V}

/-- It goes through just if every value that counts can be made. -/
theorem insert_plan_of_isOk :
    (∃ out, MultiMap.insert_each make (plan_of calls).additions m = .ok out)
      ↔ ∀ n value, last_set calls n = some value → ∃ v, make n value = .ok v := by
  simp only [MultiMap.insert_each_eq, MultiMap.add_each_isOk, ← value_plan_of,
    ← HeaderPlan.mem_additions_iff, Prod.forall]

theorem done_of_insert (horder : ∀ n, n ∈ order ↔ n ∈ (plan_of calls).removals)
    (h : MultiMap.insert_each make (plan_of calls).additions (m.remove_all order) = .ok out) :
    Done make calls m out where
  set n value hvalue := by
    refine (HeaderPlan.get_all_carried_out horder h n).1 value (Fate.eq_put_iff.mpr ?_)
    rw [value_plan_of, hvalue]
  stripped n hn hvalue := by
    refine (HeaderPlan.get_all_carried_out horder h n).2.1 ?_
    rw [← value_plan_of] at hvalue
    have hne := (plan_of_eq_kept calls n).not.mpr (not_not_intro hn)
    cases hf : (plan_of calls).fate n with
    | kept => exact absurd hf hne
    | dropped => rfl
    | put v =>
      rw [hf] at hvalue
      cases hvalue
  others n hn := (HeaderPlan.get_all_carried_out horder h n).2.2 ((plan_of_eq_kept calls n).mpr hn)

end Applied

/-- A plan is carried out after everything else that the filter does. -/
theorem filter_eq_ok {g : Gateway} {crates : Crates} {target : Str} {plan : HeaderPlan}
    {headers out : HeaderMap} :
    g.upstream_request_filter crates target plan headers = .ok out ↔
      ∃ unplanned, g.upstream_request_filter crates target .new headers = .ok unplanned ∧
        MultiMap.insert_each (insertable crates) plan.additions
          (unplanned.remove_all plan.removals) = .ok out := by
  simp only [Gateway.upstream_request_filter, bind_eq_ok]
  constructor
  · rintro ⟨hosted, hhost, h⟩
    exact ⟨_, ⟨hosted, hhost, rfl⟩, h⟩
  · rintro ⟨unplanned, ⟨hosted, hhost, heq⟩, h⟩
    cases heq
    exact ⟨hosted, hhost, h⟩

/-- **A plan is what the calls asked for**, whichever they were: every name in it is lower case and
set at most once, no name is set that is not taken away, and carried out in any order of the
removals it does for each name what the calls said of it, and nothing else. The backend is sent
the headers that it would get with no plan, after that. -/
theorem plan_calls_done (calls : List PlanEdit) :
    (∀ n ∈ (plan_of calls).removals ++ (plan_of calls).additions.map Prod.fst,
      to_ascii_lowercase n = n) ∧
    ((plan_of calls).additions.map Prod.fst).Nodup ∧
    (∀ n ∈ (plan_of calls).additions.map Prod.fst, n ∈ (plan_of calls).removals) ∧
    (∀ n, n ∈ (plan_of calls).removals ↔ n ∈ calls.map PlanEdit.name) ∧
    (∀ {V ε : Type} (make : Str → Str → Except ε V) (order : List Str) (m : MultiMap Str V),
      order.Perm (plan_of calls).removals →
      ((∃ out, MultiMap.insert_each make (plan_of calls).additions (m.remove_all order) = .ok out)
        ↔ ∀ n value, last_set calls n = some value → ∃ v, make n value = .ok v) ∧
      ∀ out, MultiMap.insert_each make (plan_of calls).additions (m.remove_all order) = .ok out →
        Done make calls m out) ∧
    ∀ (g : Gateway) (crates : Crates) (target : Str) (headers out : HeaderMap),
      g.upstream_request_filter crates target (plan_of calls) headers = .ok out →
      (∃ unplanned, g.upstream_request_filter crates target .new headers = .ok unplanned ∧
        Done (insertable crates) calls unplanned out) ∧
      ∀ n ∈ calls.map PlanEdit.name, (out.get_all n).map HeaderValue.bytes
        = ((last_set calls n).map utf8_bytes).toList := by
  have hremoved : ∀ n ∈ (plan_of calls).additions.map Prod.fst, n ∈ (plan_of calls).removals := by
    intro n hn
    obtain ⟨p, hp, rfl⟩ := List.mem_map.mp hn
    exact (plan_of calls).removed p hp
  have hlower : ∀ n ∈ (plan_of calls).removals, to_ascii_lowercase n = n := by
    intro n hn
    obtain ⟨call, -, rfl⟩ := List.mem_map.mp ((mem_removals_plan_of calls n).mp hn)
    exact name_lowercase call
  refine ⟨fun n hn => (List.mem_append.mp hn).elim (hlower n) fun hn => hlower n (hremoved n hn),
    (plan_of calls).once, hremoved, mem_removals_plan_of calls,
    fun make order m horder => ⟨insert_plan_of_isOk, fun out h => ?_⟩,
    fun g crates target headers out h => ?_⟩
  · exact done_of_insert (fun n => horder.mem_iff) h
  · obtain ⟨unplanned, hunplanned, hinsert⟩ := filter_eq_ok.mp h
    have hdone := done_of_insert (fun _ => Iff.rfl) hinsert
    refine ⟨⟨unplanned, hunplanned, hdone⟩, fun n hn => ?_⟩
    cases hlast : last_set calls n with
    | none => rw [hdone.stripped n hn hlast, List.map_nil, Option.map_none, Option.toList_none]
    | some value =>
      obtain ⟨v, hv, hall⟩ := hdone.set n value hlast
      rw [hall, List.map_singleton, insertable_bytes hv, Option.map_some, Option.toList_some]

/-- A name keeps the value it was set to when it is stripped afterwards. -/
theorem plan_calls_done_strip_last :
    Done (fun _ value => (.ok value : Except Unit Str))
      [.set "X-User".toList "b".toList, .set "x-user".toList "a".toList, .strip "X-USER".toList]
      ⟨[("x-user".toList, "c".toList), ("accept".toList, [])]⟩
      ⟨[("accept".toList, []), ("x-user".toList, "a".toList)]⟩ :=
  ((plan_calls_done _).2.2.2.2.1 _ ["x-user".toList] _ (by decide +kernel)).2 _ rfl

end Lagos.Outbound
