/-
Multimaps, and plans to edit them.

A multimap is the list of its entries: a key may stand in it several times, and its values
are read in order. Programs that rewrite one often do it in two stages. First a plan is
collected, in which a key is put or dropped; then the plan is carried out, all the removals
before all the insertions.

For one key a plan comes to one of three things: its values stay, they go, or one value
takes their place. That is a `Fate`. Fates are combined in the order in which the plan was
written (`Fate.seq`): the last put wins, and a drop does not undo a put, because the
insertions are carried out last. A `Script` is a plan as it was written, and the fate it
gives a key is read off it part by part (`Script.fate_append`).
-/
import Mathlib.Data.List.Basic
import Mathlib.Tactic.Common

set_option autoImplicit false

/-! ## Multimaps -/

/-- A multimap, as the list of its entries. -/
structure MultiMap (K V : Type) where
  entries : List (K × V)
  deriving DecidableEq, Repr

namespace MultiMap

variable {K V : Type} [DecidableEq K]

/-- The values of a key, in order. -/
def get_all (m : MultiMap K V) (k : K) : List V :=
  m.entries.filterMap fun e => if e.1 = k then some e.2 else none

/-- The first value of a key. -/
def get (m : MultiMap K V) (k : K) : Option V := (m.get_all k).head?

/-- The keys that have a value. -/
def keys (m : MultiMap K V) : List K := m.entries.map Prod.fst

/-- Without the values of one key. -/
def remove (m : MultiMap K V) (k : K) : MultiMap K V := ⟨m.entries.filter fun e => e.1 ≠ k⟩

/-- One value takes the place of all that a key had. -/
def insert (m : MultiMap K V) (k : K) (v : V) : MultiMap K V :=
  ⟨(m.remove k).entries ++ [(k, v)]⟩

/-- Two multimaps hold the same: the order of the values of one key counts, the order of
different keys does not. -/
def Same (m m' : MultiMap K V) : Prop := ∀ k, m.get_all k = m'.get_all k

theorem get_all_remove (m : MultiMap K V) (k k' : K) :
    (m.remove k).get_all k' = if k' = k then [] else m.get_all k' := by
  rw [get_all, remove, List.filterMap_filter]
  split
  · rename_i h
    rw [List.filterMap_eq_nil_iff]
    intro e _
    simp only [h, decide_not, Bool.not_eq_true', decide_eq_false_iff_not, ite_not]
    split <;> rfl
  · rename_i h
    refine List.filterMap_congr fun e _ => ?_
    by_cases hk : e.1 = k'
    · simp [hk, h]
    · simp [hk]

theorem get_all_insert (m : MultiMap K V) (k k' : K) (v : V) :
    (m.insert k v).get_all k' = if k' = k then [v] else m.get_all k' := by
  have happ : (m.insert k v).get_all k'
      = (m.remove k).get_all k' ++ if k = k' then [v] else [] := by
    rw [get_all, insert, List.filterMap_append, get_all]
    congr 1
    by_cases h : k = k' <;> simp [h]
  rw [happ, get_all_remove]
  by_cases h : k' = k
  · simp [h]
  · simp [h, Ne.symm h]

theorem mem_entries_of_get_all {m : MultiMap K V} {k : K} {v : V} (h : v ∈ m.get_all k) :
    (k, v) ∈ m.entries := by
  obtain ⟨e, he, hv⟩ := List.mem_filterMap.mp h
  split at hv
  · rename_i hk
    cases hv
    exact hk ▸ he
  · cases hv

theorem mem_keys {m : MultiMap K V} {k : K} : k ∈ m.keys ↔ m.get_all k ≠ [] := by
  rw [keys, List.mem_map, ne_eq, get_all, List.filterMap_eq_nil_iff]
  push Not
  refine exists_congr fun e => and_congr_right fun _ => ?_
  by_cases h : e.1 = k <;> simp [h]

theorem get_all_eq_nil_of_not_mem {m : MultiMap K V} {k : K} (h : k ∉ m.keys) :
    m.get_all k = [] :=
  not_not.mp fun hne => h (mem_keys.mpr hne)

/-- Several keys removed, one after the other. -/
def remove_all (m : MultiMap K V) (ks : List K) : MultiMap K V := ks.foldl remove m

theorem get_all_remove_all (m : MultiMap K V) (ks : List K) (k : K) :
    (m.remove_all ks).get_all k = if k ∈ ks then [] else m.get_all k := by
  induction ks generalizing m with
  | nil => simp [remove_all]
  | cons k' ks ih =>
    rw [remove_all, List.foldl_cons, ← remove_all, ih, get_all_remove]
    by_cases h : k ∈ ks
    · simp [h]
    · by_cases hk : k = k' <;> simp [h, hk]

/-- Without the values of the keys that satisfy `p`. -/
def without (m : MultiMap K V) (p : K → Prop) [DecidablePred p] : MultiMap K V :=
  ⟨m.entries.filter fun e => ¬ p e.1⟩

theorem get_all_without (m : MultiMap K V) (p : K → Prop) [DecidablePred p] (k : K) :
    (m.without p).get_all k = if p k then [] else m.get_all k := by
  rw [get_all, without, List.filterMap_filter]
  split
  · rename_i h
    rw [List.filterMap_eq_nil_iff]
    intro e _
    by_cases hk : e.1 = k <;> simp [hk, h]
  · rename_i h
    refine List.filterMap_congr fun e _ => ?_
    by_cases hk : e.1 = k <;> simp [hk, h]

/-- Several values inserted, one after the other, each made from what was planned for it.
One that cannot be made stops it. -/
def insert_each {W ε : Type} (make : K → W → Except ε V) :
    List (K × W) → MultiMap K V → Except ε (MultiMap K V)
  | [], m => .ok m
  | (k, w) :: kws, m =>
    match make k w with
    | .error e => .error e
    | .ok v => insert_each make kws (m.insert k v)

/-- After the insertions a key has the value planned for it, or what it had. -/
theorem get_all_insert_each {W ε : Type} {make : K → W → Except ε V} {kws : List (K × W)}
    {m out : MultiMap K V} (hnodup : (kws.map Prod.fst).Nodup)
    (h : insert_each make kws m = .ok out) (k : K) :
    (∀ w, (k, w) ∈ kws → ∃ v, make k w = .ok v ∧ out.get_all k = [v])
      ∧ (k ∉ kws.map Prod.fst → out.get_all k = m.get_all k) := by
  induction kws generalizing m with
  | nil =>
    rw [insert_each, Except.ok.injEq] at h
    exact ⟨nofun, fun _ => by rw [h]⟩
  | cons p kws ih =>
    obtain ⟨k', w'⟩ := p
    rw [List.map_cons, List.nodup_cons] at hnodup
    rw [insert_each] at h
    cases hv : make k' w' with
    | error e =>
      rw [hv] at h
      cases h
    | ok v =>
      rw [hv] at h
      obtain ⟨hput, hkeep⟩ := ih hnodup.2 h
      rw [List.map_cons, List.mem_cons, not_or]
      refine ⟨fun w hw => ?_, fun hn => ?_⟩
      · obtain heq | hw := List.mem_cons.mp hw
        · -- No later entry is for this key, so the value just inserted stays.
          cases heq
          exact ⟨v, hv, by rw [hkeep hnodup.1, get_all_insert, if_pos rfl]⟩
        · exact hput w hw
      · rw [hkeep hn.2, get_all_insert, if_neg hn.1]

/-- One more value after those that a key has. -/
def append (m : MultiMap K V) (k : K) (v : V) : MultiMap K V := ⟨m.entries ++ [(k, v)]⟩

theorem get_all_append (m : MultiMap K V) (k k' : K) (v : V) :
    (m.append k v).get_all k' = if k' = k then m.get_all k' ++ [v] else m.get_all k' := by
  have happ : (m.append k v).get_all k' = m.get_all k' ++ if k = k' then [v] else [] := by
    rw [get_all, append, List.filterMap_append, get_all]
    congr 1
    by_cases h : k = k' <;> simp [h]
  rw [happ]
  by_cases h : k' = k
  · simp [h]
  · simp [h, Ne.symm h]

/-- Several values added, one after the other: next to those that a key has where `more` says
so, and in their place where it does not. -/
def add_each {W ε : Type} (make : K → W → Except ε V) (more : K → Bool) :
    List (K × W) → MultiMap K V → Except ε (MultiMap K V)
  | [], m => .ok m
  | (k, w) :: kws, m =>
    match make k w with
    | .error e => .error e
    | .ok v => add_each make more kws (if more k then m.append k v else m.insert k v)

/-- Insertions are additions that leave nothing of what was there. -/
theorem insert_each_eq {W ε : Type} (make : K → W → Except ε V) (kws : List (K × W))
    (m : MultiMap K V) : insert_each make kws m = add_each make (fun _ => false) kws m := by
  induction kws generalizing m with
  | nil => rfl
  | cons p kws ih =>
    rw [insert_each, add_each]
    cases make p.1 p.2 with
    | error e => rfl
    | ok v => exact ih _

/-- Additions go through exactly if each of the values can be made. -/
theorem add_each_isOk {W ε : Type} {make : K → W → Except ε V} {more : K → Bool}
    {kws : List (K × W)} {m : MultiMap K V} :
    (∃ out, add_each make more kws m = .ok out) ↔ ∀ p ∈ kws, ∃ v, make p.1 p.2 = .ok v := by
  induction kws generalizing m with
  | nil => exact iff_of_true ⟨m, rfl⟩ (List.forall_mem_nil _)
  | cons p kws ih =>
    rw [List.forall_mem_cons, add_each]
    cases hv : make p.1 p.2 with
    | error e => simp
    | ok v => exact ih.trans (and_iff_right ⟨v, rfl⟩).symm

/-- After the additions a key has the value planned for it, alone or last. -/
theorem get_all_add_each {W ε : Type} {make : K → W → Except ε V} {more : K → Bool}
    {kws : List (K × W)} {m out : MultiMap K V} (hnodup : (kws.map Prod.fst).Nodup)
    (h : add_each make more kws m = .ok out) (k : K) :
    (∀ w, (k, w) ∈ kws → ∃ v, make k w = .ok v
        ∧ out.get_all k = (if more k then m.get_all k else []) ++ [v])
      ∧ (k ∉ kws.map Prod.fst → out.get_all k = m.get_all k) := by
  induction kws generalizing m with
  | nil =>
    rw [add_each, Except.ok.injEq] at h
    exact ⟨nofun, fun _ => by rw [h]⟩
  | cons p kws ih =>
    obtain ⟨k', w'⟩ := p
    rw [List.map_cons, List.nodup_cons] at hnodup
    rw [add_each] at h
    cases hv : make k' w' with
    | error e =>
      rw [hv] at h
      cases h
    | ok v =>
      rw [hv] at h
      obtain ⟨hput, hkeep⟩ := ih hnodup.2 h
      -- The other keys have what they had before this one.
      have hother : k ≠ k' →
          (if more k' then m.append k' v else m.insert k' v).get_all k = m.get_all k := by
        intro hne
        split
        · rw [get_all_append, if_neg hne]
        · rw [get_all_insert, if_neg hne]
      rw [List.map_cons, List.mem_cons, not_or]
      refine ⟨fun w hw => ?_, fun hn => ?_⟩
      · obtain heq | hrest := List.mem_cons.mp hw
        · cases heq
          refine ⟨v, hv, ?_⟩
          rw [hkeep hnodup.1]
          split
          · rw [get_all_append, if_pos rfl]
          · rw [get_all_insert, if_pos rfl, List.nil_append]
        · have hne : k ≠ k' := by
            rintro rfl
            exact hnodup.1 (List.mem_map.mpr ⟨_, hrest, rfl⟩)
          rw [← hother hne]
          exact hput w hrest
      · rw [hkeep hn.2, hother hn.1]

end MultiMap

/-! ## What a plan comes to for one key -/

/-- Its values stay, they go, or one value takes their place. -/
inductive Fate (V : Type) where
  | kept
  | dropped
  | put (v : V)
  deriving DecidableEq, Repr

namespace Fate

variable {V W : Type}

/-- First the one, then the other. -/
def seq : Fate V → Fate V → Fate V
  | f, .kept => f
  | .put v, .dropped => .put v
  | _, .dropped => .dropped
  | _, .put v => .put v

/-- The value put, if one is. -/
def value : Fate V → Option V
  | .put v => some v
  | _ => none

/-- Forget something about the value. -/
def map (f : V → W) : Fate V → Fate W
  | .kept => .kept
  | .dropped => .dropped
  | .put v => .put (f v)

@[simp] theorem seq_kept (f : Fate V) : f.seq .kept = f := by cases f <;> rfl

@[simp] theorem kept_seq (f : Fate V) : seq .kept f = f := by cases f <;> rfl

@[simp] theorem seq_put (f : Fate V) (v : V) : f.seq (.put v) = .put v := by cases f <;> rfl

@[simp] theorem dropped_seq_dropped : seq (.dropped : Fate V) .dropped = .dropped := rfl

theorem seq_assoc (f g h : Fate V) : (f.seq g).seq h = f.seq (g.seq h) := by
  cases f <;> cases g <;> cases h <;> rfl

theorem seq_eq_kept {f g : Fate V} : f.seq g = .kept ↔ f = .kept ∧ g = .kept := by
  cases f <;> cases g <;> simp [seq]

/-- The last put wins. -/
theorem value_seq (f g : Fate V) : (f.seq g).value = g.value.or f.value := by
  cases f <;> cases g <;> rfl

@[simp] theorem value_kept : (kept : Fate V).value = none := rfl

@[simp] theorem value_dropped : (dropped : Fate V).value = none := rfl

@[simp] theorem value_put (v : V) : (put v).value = some v := rfl

theorem eq_put_iff {f : Fate V} {v : V} : f = .put v ↔ f.value = some v := by
  cases f <;> simp

/-- A fate is known by whether it keeps, and by what it puts. -/
theorem ext_iff {f g : Fate V} : f = g ↔ (f = .kept ↔ g = .kept) ∧ f.value = g.value := by
  cases f <;> cases g <;> simp

theorem map_seq (h : V → W) (f g : Fate V) : (f.seq g).map h = (f.map h).seq (g.map h) := by
  cases f <;> cases g <;> rfl

theorem value_map (h : V → W) (f : Fate V) : (f.map h).value = f.value.map h := by
  cases f <;> rfl

theorem map_eq_kept {h : V → W} {f : Fate V} : f.map h = .kept ↔ f = .kept := by
  cases f <;> simp [map]

end Fate

/-! ## Plans as they were written -/

/-- The edits of a plan, first to last. -/
abbrev Script (K V : Type) := List (K × Fate V)

namespace Script

variable {K V W : Type} [DecidableEq K]

/-- What a script comes to for one key. -/
def fate (s : Script K V) (k : K) : Fate V :=
  s.foldr (fun e f => if e.1 = k then e.2.seq f else f) .kept

/-- The script that puts the values of a list. -/
def puts (l : List (K × V)) : Script K V := l.map fun p => (p.1, .put p.2)

/-- The script that drops the keys of a list. -/
def drops (l : List K) : Script K V := l.map fun k => (k, .dropped)

@[simp] theorem fate_nil (k : K) : fate ([] : Script K V) k = .kept := rfl

theorem fate_cons (e : K × Fate V) (s : Script K V) (k : K) :
    fate (e :: s) k = if e.1 = k then e.2.seq (fate s k) else fate s k := rfl

theorem fate_append (s t : Script K V) (k : K) : fate (s ++ t) k = (fate s k).seq (fate t k) := by
  induction s with
  | nil => simp
  | cons e s ih =>
    rw [List.cons_append, fate_cons, fate_cons, ih]
    split
    · rw [Fate.seq_assoc]
    · rfl

theorem fate_singleton (k k' : K) (f : Fate V) :
    fate [(k, f)] k' = if k = k' then f else .kept := by
  rw [fate_cons, fate_nil, Fate.seq_kept]

/-- A key is left alone by the scripts that do not name it, and by no others that put or drop. -/
theorem fate_eq_kept {s : Script K V} {k : K} :
    fate s k = .kept ↔ ∀ e ∈ s, e.1 = k → e.2 = .kept := by
  induction s with
  | nil => simp
  | cons e s ih =>
    rw [fate_cons, List.forall_mem_cons, ← ih]
    by_cases h : e.1 = k
    · simp [h, Fate.seq_eq_kept]
    · simp [h]

/-- Where every edit puts or drops, only the keys not named are left alone. -/
theorem fate_eq_kept_iff {s : Script K V} (hs : ∀ e ∈ s, e.2 ≠ .kept) {k : K} :
    fate s k = .kept ↔ k ∉ s.map Prod.fst := by
  rw [fate_eq_kept, List.mem_map]
  refine ⟨?_, fun h e he hk => absurd ⟨e, he, hk⟩ h⟩
  rintro h ⟨e, he, hk⟩
  exact hs e he (h e he hk)

/-- The value that is put last. -/
theorem value_fate_eq_last (s : Script K V) (k : K) :
    (fate s k).value = (s.filterMap fun e => if e.1 = k then e.2.value else none).getLast? := by
  induction s with
  | nil => rfl
  | cons e s ih =>
    rw [fate_cons, List.filterMap_cons]
    by_cases h : e.1 = k
    · rw [if_pos h, if_pos h, Fate.value_seq, ih]
      cases e.2.value with
      | none => exact Option.or_none
      | some v =>
        rw [List.getLast?_cons]
        cases (s.filterMap fun e => if e.1 = k then e.2.value else none).getLast? <;> rfl
    · rw [if_neg h, if_neg h, ih]

theorem fate_drops_cons (k' : K) (l : List K) (k : K) :
    fate (drops (k' :: l) : Script K V) k
      = if k' = k then Fate.seq .dropped (fate (drops l) k) else fate (drops l) k := rfl

theorem fate_drops (l : List K) (k : K) :
    fate (drops l : Script K V) k = if k ∈ l then .dropped else .kept := by
  induction l with
  | nil => rfl
  | cons k' l ih =>
    rw [fate_drops_cons, ih]
    by_cases hk : k' = k
    · subst hk
      by_cases hl : k' ∈ l <;> simp [hl]
    · by_cases hl : k ∈ l <;> simp [hk, hl, Ne.symm hk]

theorem fate_puts_cons (p : K × V) (l : List (K × V)) (k : K) :
    fate (puts (p :: l)) k
      = if p.1 = k then Fate.seq (.put p.2) (fate (puts l) k) else fate (puts l) k := rfl

/-- A key that a list of values is put for gets one of them. -/
theorem fate_puts (l : List (K × V)) (k : K) :
    (k ∉ l.map Prod.fst ∧ fate (puts l) k = .kept)
      ∨ ∃ v, (k, v) ∈ l ∧ fate (puts l) k = .put v := by
  induction l with
  | nil => exact .inl ⟨by simp, rfl⟩
  | cons p l ih =>
    rw [fate_puts_cons]
    obtain ⟨hn, hf⟩ | ⟨v, hv, hf⟩ := ih
    · by_cases hk : p.1 = k
      · rw [if_pos hk, hf]
        exact .inr ⟨p.2, by rw [← hk]; exact List.mem_cons_self, rfl⟩
      · rw [if_neg hk]
        refine .inl ⟨?_, hf⟩
        rw [List.map_cons, List.mem_cons, not_or]
        exact ⟨Ne.symm hk, hn⟩
    · refine .inr ⟨v, List.mem_cons_of_mem _ hv, ?_⟩
      rw [hf]
      split <;> simp

end Script
