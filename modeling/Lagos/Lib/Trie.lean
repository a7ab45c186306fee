/-
A trie kept in a growing array: nodes refer to their children by index, and a node
holds the values inserted under its label, in order.

Insertion follows the label from node 0 and appends a node wherever a child is missing.
What is proved of it is what a reader of the trie relies on: whatever was inserted, the
values under a label are exactly those inserted with that label, in that order
(`values_at_build`), and following a label visits the nodes of its prefixes
(`mem_visited`).

The one invariant is that no two labels reach the same node. It is what confines an
insertion to its own label.
-/
import Mathlib.Data.List.Induction
import Mathlib.Data.List.Infix
import Mathlib.Logic.Function.Basic

set_option autoImplicit false

namespace Trie

variable {κ ν : Type*}

/-! ## Nodes -/

structure Node (κ ν : Type*) where
  children : κ → Option ℕ
  /-- The values inserted under this node's label. -/
  values : List ν

def Node.empty : Node κ ν := ⟨fun _ => none, []⟩

abbrev Arena (κ ν : Type*) := List (Node κ ν)

/-- The child of node `n` under `s`. -/
def child (a : Arena κ ν) (n : ℕ) (s : κ) : Option ℕ := a[n]?.bind fun node => node.children s

/-- The node a label leads to. -/
def reach (a : Arena κ ν) : ℕ → List κ → Option ℕ
  | n, [] => some n
  | n, s :: label => (child a n s).bind fun m => reach a m label

/-- The values of node `n`. -/
def values_of (a : Arena κ ν) (n : ℕ) : List ν := (a[n]?).elim [] Node.values

/-- The values of the node a label leads to, if there is one. -/
def values_at (a : Arena κ ν) (label : List κ) : List ν := (reach a 0 label).elim [] (values_of a)

/-- The nodes passed on the way along a label, the first one left out, as far as it goes. -/
def visited (a : Arena κ ν) : ℕ → List κ → List ℕ
  | _, [] => []
  | n, s :: label =>
    match child a n s with
    | none => []
    | some m => m :: visited a m label

/-- Add a value to node `n`. -/
def push (a : Arena κ ν) (n : ℕ) (v : ν) : Arena κ ν :=
  a.modify n fun node => { node with values := node.values ++ [v] }

section Insert

variable [DecidableEq κ]

/-- The child of the current node under `s`, a new one if there is none. -/
def child_or_new (cursor : Arena κ ν × ℕ) (s : κ) : Arena κ ν × ℕ :=
  match child cursor.1 cursor.2 s with
  | some m => (cursor.1, m)
  | none =>
    ((cursor.1 ++ [Node.empty]).modify cursor.2 fun node =>
        { node with children := Function.update node.children s (some cursor.1.length) },
      cursor.1.length)

def insert (a : Arena κ ν) (label : List κ) (v : ν) : Arena κ ν :=
  let cursor := label.foldl child_or_new (a, 0)
  push cursor.1 cursor.2 v

/-- The trie of a list of labelled values. -/
def build (entries : List (List κ × ν)) : Arena κ ν :=
  entries.foldl (fun a e => insert a e.1 e.2) [Node.empty]

end Insert

/-! ## Following a label -/

theorem reach_append (a : Arena κ ν) (n : ℕ) (l l' : List κ) :
    reach a n (l ++ l') = (reach a n l).bind fun m => reach a m l' := by
  induction l generalizing n with
  | nil => rfl
  | cons s l ih => simp only [List.cons_append, reach, ih, Option.bind_assoc]

theorem reach_concat {a : Arena κ ν} {n m : ℕ} {l : List κ} {s : κ} :
    reach a n (l ++ [s]) = some m ↔ ∃ k, reach a n l = some k ∧ child a k s = some m := by
  rw [reach_append]
  simp [reach, Option.bind_eq_some_iff]

theorem mem_visited {a : Arena κ ν} {n m : ℕ} {label : List κ} :
    m ∈ visited a n label ↔ ∃ l, l ≠ [] ∧ l <+: label ∧ reach a n l = some m := by
  -- The walk stops where a child is missing, and no longer prefix leads anywhere then.
  induction label generalizing n with
  | nil =>
    simp only [visited, List.not_mem_nil, List.prefix_nil, false_iff, not_exists, not_and]
    exact fun l hne hl => absurd hl hne
  | cons s label ih =>
    simp only [visited]
    cases hc : child a n s with
    | none =>
      simp only [List.not_mem_nil, false_iff, not_exists, not_and]
      rintro (_ | ⟨t, l⟩) hne hl
      · exact absurd rfl hne
      · obtain rfl := (List.cons_prefix_cons.mp hl).1
        simp [reach, hc]
    | some k =>
      simp only [List.mem_cons, ih]
      constructor
      · rintro (rfl | ⟨l, hne, hl, hr⟩)
        · exact ⟨[s], by simp, by simp, by simp [reach, hc]⟩
        · exact ⟨s :: l, by simp, List.cons_prefix_cons.mpr ⟨rfl, hl⟩, by simp [reach, hc, hr]⟩
      · rintro ⟨_ | ⟨t, l⟩, hne, hl, hr⟩
        · exact absurd rfl hne
        · obtain ⟨rfl, hl'⟩ := List.cons_prefix_cons.mp hl
          simp only [reach, hc, Option.bind_some] at hr
          rcases eq_or_ne l [] with rfl | hne'
          · exact .inl (Option.some.inj hr).symm
          · exact .inr ⟨l, hne', hl', hr⟩

/-! ## The invariant -/

/-- Children are nodes, and no two labels reach the same one. -/
structure WellFormed (a : Arena κ ν) : Prop where
  root : 0 < a.length
  bounded : ∀ n s m, child a n s = some m → m < a.length
  unique : ∀ l l' n, reach a 0 l = some n → reach a 0 l' = some n → l = l'

theorem child_empty (n : ℕ) (s : κ) : child ([Node.empty] : Arena κ ν) n s = none := by
  cases n <;> simp [child, Node.empty]

theorem wellFormed_empty : WellFormed ([Node.empty] : Arena κ ν) where
  root := Nat.one_pos
  bounded n s m h := by
    rw [child_empty] at h
    cases h
  unique l l' n hl hl' := by
    have hnil : ∀ l : List κ, reach ([Node.empty] : Arena κ ν) 0 l = some n → l = [] := by
      rintro (_ | ⟨s, l⟩) h
      · rfl
      · simp [reach, child_empty] at h
    rw [hnil l hl, hnil l' hl']

theorem reach_lt {a : Arena κ ν} (ha : WellFormed a) {l : List κ} {n : ℕ}
    (h : reach a 0 l = some n) : n < a.length := by
  induction l using List.reverseRecOn with
  | nil =>
    obtain rfl := Option.some.inj h
    exact ha.root
  | append_singleton l s ih =>
    obtain ⟨k, -, hk⟩ := reach_concat.mp h
    exact ha.bounded k s n hk

/-! ## One insertion -/

theorem child_push (a : Arena κ ν) (n : ℕ) (v : ν) (m : ℕ) (t : κ) :
    child (push a n v) m t = child a m t := by
  simp only [child, push, List.getElem?_modify]
  split <;> cases a[m]? <;> rfl

theorem reach_push (a : Arena κ ν) (n : ℕ) (v : ν) (m : ℕ) (l : List κ) :
    reach (push a n v) m l = reach a m l := by
  induction l generalizing m with
  | nil => rfl
  | cons s l ih => simp only [reach, child_push, ih]

theorem wellFormed_push {a : Arena κ ν} (ha : WellFormed a) (n : ℕ) (v : ν) :
    WellFormed (push a n v) where
  root := by simpa [push] using ha.root
  bounded m t k h := by
    rw [child_push] at h
    simpa [push] using ha.bounded m t k h
  unique l l' m h h' := by
    rw [reach_push] at h h'
    exact ha.unique l l' m h h'


section Insert

variable [DecidableEq κ] {a : Arena κ ν} {l : List κ} {n : ℕ} {s : κ}

/-- The arena after a new child of `n` under `s`. -/
def grown (a : Arena κ ν) (n : ℕ) (s : κ) : Arena κ ν :=
  (a ++ [Node.empty]).modify n fun node =>
    { node with children := Function.update node.children s (some a.length) }

theorem child_grown (hn : n < a.length) (m : ℕ) (t : κ) :
    child (grown a n s) m t = if m = n ∧ t = s then some a.length else child a m t := by
  simp only [child, grown, List.getElem?_modify]
  -- An old node, the new one, or none.
  rcases Nat.lt_trichotomy m a.length with hm | rfl | hm
  · rw [List.getElem?_append_left hm]
    by_cases hmn : m = n
    · subst hmn
      simp [List.getElem?_eq_getElem hm, Function.update_apply]
    · simp [hmn, Ne.symm hmn]
  · have hne : a.length ≠ n := Nat.ne_of_gt hn
    simp [hne, Ne.symm hne, Node.empty]
  · have hne : m ≠ n := by omega
    rw [List.getElem?_eq_none (by simp; omega), List.getElem?_eq_none (Nat.le_of_lt hm)]
    simp [hne]

/-- A new child adds its own label to those that lead anywhere, and no other. -/
theorem reach_grown (ha : WellFormed a) (hl : reach a 0 l = some n) (hs : child a n s = none)
    {l' : List κ} {m : ℕ} :
    reach (grown a n s) 0 l' = some m ↔
      reach a 0 l' = some m ∨ (l' = l ++ [s] ∧ m = a.length) := by
  have hn := reach_lt ha hl
  induction l' using List.reverseRecOn generalizing m with
  | nil => simp [reach]
  | append_singleton l' t ih =>
    rw [reach_concat, reach_concat]
    constructor
    · rintro ⟨k, hk, hc⟩
      rw [child_grown hn] at hc
      rcases ih.mp hk with hold | ⟨-, rfl⟩
      · split at hc
        · -- the last step goes to the new node: by uniqueness it comes from `l`
          rename_i h
          obtain ⟨rfl, rfl⟩ := h
          exact .inr ⟨by rw [ha.unique l' l k hold hl], (Option.some.inj hc).symm⟩
        · exact .inl ⟨k, hold, hc⟩
      · -- the new node has no child, so nothing leads through it
        rw [if_neg (fun h => Nat.ne_of_gt hn h.1)] at hc
        exact absurd (ha.bounded _ _ _ hc) (by simp [child] at hc)
    · rintro (⟨k, hk, hc⟩ | ⟨heq, rfl⟩)
      · refine ⟨k, ih.mpr (.inl hk), ?_⟩
        rw [child_grown hn, if_neg, hc]
        rintro ⟨rfl, rfl⟩
        rw [hs] at hc
        cases hc
      · obtain ⟨rfl, ht⟩ := List.append_inj' heq rfl
        obtain rfl := (List.cons.inj ht).1
        exact ⟨n, ih.mpr (.inl hl), by rw [child_grown hn, if_pos ⟨rfl, rfl⟩]⟩

theorem wellFormed_grown (ha : WellFormed a) (hl : reach a 0 l = some n)
    (hs : child a n s = none) : WellFormed (grown a n s) where
  root := by simp [grown]
  bounded m t k h := by
    rw [child_grown (reach_lt ha hl)] at h
    have hlen : (grown a n s).length = a.length + 1 := by simp [grown]
    rw [hlen]
    split at h
    · obtain rfl := Option.some.inj h
      exact Nat.lt_succ_self _
    · exact Nat.lt_succ_of_lt (ha.bounded m t k h)
  unique l₁ l₂ m h₁ h₂ := by
    rcases (reach_grown ha hl hs).mp h₁ with h₁ | ⟨rfl, rfl⟩ <;>
      rcases (reach_grown ha hl hs).mp h₂ with h₂ | ⟨rfl, hm⟩
    · exact ha.unique l₁ l₂ m h₁ h₂
    · exact absurd (reach_lt ha h₁) (by omega)
    · exact absurd (reach_lt ha h₂) (Nat.lt_irrefl _)
    · rfl

/-- A new child has no value, and the others keep theirs. -/
theorem values_at_grown (ha : WellFormed a) (hl : reach a 0 l = some n) (hs : child a n s = none)
    (l' : List κ) : values_at (grown a n s) l' = values_at a l' := by
  have hn := reach_lt ha hl
  have hvalues : ∀ m, values_of (grown a n s) m = values_of a m := by
    intro m
    simp only [values_of, grown, List.getElem?_modify]
    rcases Nat.lt_trichotomy m a.length with hm | rfl | hm
    · rw [List.getElem?_append_left hm, List.getElem?_eq_getElem hm]
      split <;> rfl
    · simp [Node.empty, Nat.ne_of_lt hn]
    · rw [List.getElem?_eq_none (by simp; omega), List.getElem?_eq_none (Nat.le_of_lt hm)]
      simp
  simp only [values_at]
  -- A label that leads nowhere leads nowhere still, or to the new node, which is empty.
  cases hr : reach a 0 l' with
  | some m =>
    rw [(reach_grown ha hl hs).mpr (.inl hr)]
    exact hvalues m
  | none =>
    cases hr' : reach (grown a n s) 0 l' with
    | none => rfl
    | some m =>
      rcases (reach_grown ha hl hs).mp hr' with h | ⟨-, rfl⟩
      · rw [hr] at h
        cases h
      · rw [Option.elim_some, hvalues, values_of, List.getElem?_eq_none (Nat.le_refl _)]
        rfl

/-- One step along a label: the invariant and every value are kept, and the node reached is
that of the longer label. -/
theorem child_or_new_spec (ha : WellFormed a) (hl : reach a 0 l = some n) (s : κ) :
    WellFormed (child_or_new (a, n) s).1
      ∧ reach (child_or_new (a, n) s).1 0 (l ++ [s]) = some (child_or_new (a, n) s).2
      ∧ ∀ l', values_at (child_or_new (a, n) s).1 l' = values_at a l' := by
  cases hs : child a n s with
  | some m =>
    have h : child_or_new (a, n) s = (a, m) := by simp only [child_or_new, hs]
    rw [h]
    exact ⟨ha, reach_concat.mpr ⟨n, hl, hs⟩, fun _ => rfl⟩
  | none =>
    have h : child_or_new (a, n) s = (grown a n s, a.length) := by
      simp only [child_or_new, hs, grown]
    rw [h]
    exact ⟨wellFormed_grown ha hl hs, (reach_grown ha hl hs).mpr (.inr ⟨rfl, rfl⟩),
      values_at_grown ha hl hs⟩

/-- All the steps along a label. -/
theorem foldl_child_or_new (label : List κ) (ha : WellFormed a) (hl : reach a 0 l = some n) :
    WellFormed (label.foldl child_or_new (a, n)).1
      ∧ reach (label.foldl child_or_new (a, n)).1 0 (l ++ label)
          = some (label.foldl child_or_new (a, n)).2
      ∧ ∀ l', values_at (label.foldl child_or_new (a, n)).1 l' = values_at a l' := by
  induction label generalizing a l n with
  | nil =>
    rw [List.append_nil]
    exact ⟨ha, hl, fun _ => rfl⟩
  | cons s label ih =>
    obtain ⟨ha', hl', hvalues⟩ := child_or_new_spec ha hl s
    obtain ⟨hwf, hreach, hrest⟩ := ih ha' hl'
    rw [List.append_assoc, List.singleton_append] at hreach
    exact ⟨hwf, hreach, fun l' => (hrest l').trans (hvalues l')⟩

theorem values_at_push (ha : WellFormed a) (hl : reach a 0 l = some n) (v : ν) (l' : List κ) :
    values_at (push a n v) l' = values_at a l' ++ if l' = l then [v] else [] := by
  simp only [values_at, reach_push]
  cases hr : reach a 0 l' with
  | none =>
    rw [if_neg]
    · rfl
    · rintro rfl
      rw [hl] at hr
      cases hr
  | some m =>
    have hm := reach_lt ha hr
    simp only [Option.elim_some, values_of, push, List.getElem?_modify,
      List.getElem?_eq_getElem hm]
    -- Another label leads to another node.
    by_cases hmn : n = m
    · subst hmn
      obtain rfl := ha.unique l' l n hr hl
      simp
    · have hne : l' ≠ l := by
        rintro rfl
        exact hmn (Option.some.inj (hl.symm.trans hr))
      simp [hmn, hne]

theorem insert_spec (ha : WellFormed a) (label : List κ) (v : ν) :
    WellFormed (insert a label v)
      ∧ ∀ l', values_at (insert a label v) l'
          = values_at a l' ++ if l' = label then [v] else [] := by
  obtain ⟨hwf, hreach, hvalues⟩ := foldl_child_or_new label ha (l := []) (n := 0) rfl
  refine ⟨wellFormed_push hwf _ v, ?_⟩
  intro l'
  rw [List.nil_append] at hreach
  rw [insert, values_at_push hwf hreach, hvalues]

/-- **The trie holds what was put in.** -/
theorem values_at_build (entries : List (List κ × ν)) (label : List κ) :
    values_at (build entries) label
      = (entries.filter fun e => e.1 = label).map Prod.snd := by
  suffices h : WellFormed (build entries) ∧
      values_at (build entries) label = (entries.filter fun e => e.1 = label).map Prod.snd from h.2
  -- The entries are taken off the end, where `insert` appends.
  induction entries using List.reverseRecOn with
  | nil =>
    refine ⟨wellFormed_empty, ?_⟩
    cases label with
    | nil => rfl
    | cons s label =>
      show values_at [Node.empty] (s :: label) = []
      simp only [values_at, reach, child_empty, Option.bind_none, Option.elim_none]
  | append_singleton entries e ih =>
    have hbuild : build (entries ++ [e]) = insert (build entries) e.1 e.2 := by
      simp [build, List.foldl_append]
    obtain ⟨hwf, hvalues⟩ := insert_spec ih.1 e.1 e.2
    rw [hbuild]
    refine ⟨hwf, ?_⟩
    rw [hvalues, ih.2, List.filter_append, List.map_append]
    by_cases h : e.1 = label
    · simp [h]
    · simp [h, Ne.symm h]

end Insert

end Trie
