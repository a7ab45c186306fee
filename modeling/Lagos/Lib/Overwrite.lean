/-
One writer over cells it alone writes, through a queue of operations that are carried out
in the order they were sent, some time later or not at all.

The writer counts something that only grows, and every write carries the whole count of
its cell at the moment it was sent. So a write never lowers its cell, whatever was lost
before it, and a read sent behind a write finds that write's value unless the cell was
dropped in between. `Coherent` is that, as an invariant of the queue: it is kept by
carrying out the next operation, by giving up on an answer, by losing what is left of the
queue, by counting, by dropping a cell, and by sending another batch.
-/
import Mathlib.Order.Basic
import Mathlib.Logic.Function.Basic
import Mathlib.Tactic.Common

set_option autoImplicit false

namespace Overwrite

variable {K : Type*} [DecidableEq K]

/-- An operation on a cell. -/
inductive Op (K : Type*) where
  | write (k : K) (v : ℕ)
  | read (k : K)
  deriving DecidableEq

/-- The cell an operation leaves behind. -/
def Op.exec (cells : K → ℕ) : Op K → K → ℕ
  | .write k v => Function.update cells k v
  | .read _ => cells

/-- The cells after a list of operations. -/
def replay (cells : K → ℕ) : List (Op K) → K → ℕ
  | [] => cells
  | op :: ops => replay (op.exec cells) ops

/-- Every write is at least what its cell holds by then, and every read finds a value that
`ok` allows. -/
def Follows (ok : K → ℕ → Prop) (cells : K → ℕ) : List (Op K) → Prop
  | [] => True
  | .write k v :: ops => cells k ≤ v ∧ Follows ok (Function.update cells k v) ops
  | .read k :: ops => ok k (cells k) ∧ Follows ok cells ops

/-- What a read may find of a cell whose writer had counted `sent`: no more than that, and
exactly that in a cell that is `live`. -/
def Reads (live : K → Prop) (sent : K → ℕ) (k : K) (v : ℕ) : Prop :=
  v ≤ sent k ∧ (live k → v = sent k)

/-- The queue of a writer with `counts`: operations whose answers nobody waits for, then
those of a batch sent when the counts were `sent`. -/
structure Coherent (live : K → Prop) (cells : K → ℕ) (stale awaited : List (Op K))
    (sent counts : K → ℕ) : Prop where
  stale_follows : Follows (fun _ _ => True) cells stale
  awaited_follows : Follows (Reads live sent) (replay cells stale) awaited
  settles : ∀ k, replay cells (stale ++ awaited) k ≤ counts k

/-! ## Lists of operations -/

@[simp] theorem replay_nil (cells : K → ℕ) : replay cells [] = cells := rfl

@[simp] theorem replay_cons (cells : K → ℕ) (op : Op K) (ops : List (Op K)) :
    replay cells (op :: ops) = replay (op.exec cells) ops := rfl

theorem replay_append (cells : K → ℕ) (ops ops' : List (Op K)) :
    replay cells (ops ++ ops') = replay (replay cells ops) ops' := by
  induction ops generalizing cells with
  | nil => rfl
  | cons op ops ih => exact ih _

theorem follows_append {ok : K → ℕ → Prop} {cells : K → ℕ} {ops ops' : List (Op K)} :
    Follows ok cells (ops ++ ops')
      ↔ Follows ok cells ops ∧ Follows ok (replay cells ops) ops' := by
  induction ops generalizing cells with
  | nil => simp [Follows]
  | cons op ops ih => cases op <;> simp [Follows, Op.exec, ih, and_assoc]

/-- What is asked of the reads may be weakened. -/
theorem Follows.mono {ok ok' : K → ℕ → Prop} {cells : K → ℕ} {ops : List (Op K)}
    (h : Follows ok cells ops) (hok : ∀ k v, ok k v → ok' k v) : Follows ok' cells ops := by
  induction ops generalizing cells with
  | nil => trivial
  | cons op ops ih =>
    cases op with
    | write k v => exact ⟨h.1, ih h.2⟩
    | read k => exact ⟨hok _ _ h.1, ih h.2⟩

/-- No operation lowers a cell. -/
theorem Follows.le_replay {ok : K → ℕ → Prop} {cells : K → ℕ} {ops : List (Op K)}
    (h : Follows ok cells ops) (k : K) : cells k ≤ replay cells ops k := by
  induction ops generalizing cells with
  | nil => exact Nat.le_refl _
  | cons op ops ih =>
    cases op with
    | read j => exact ih h.2
    | write j v =>
      refine Nat.le_trans ?_ (ih h.2)
      simp only [Op.exec]
      by_cases hk : k = j
      · rw [hk, Function.update_self]
        exact h.1
      · exact Nat.le_of_eq (Function.update_of_ne hk _ _).symm

theorem replay_mono {cells cells' : K → ℕ} (hle : ∀ k, cells' k ≤ cells k) (ops : List (Op K))
    (k : K) : replay cells' ops k ≤ replay cells ops k := by
  induction ops generalizing cells cells' with
  | nil => exact hle k
  | cons op ops ih =>
    refine ih fun j => ?_
    cases op with
    | read i => exact hle j
    | write i v =>
      simp only [Op.exec]
      by_cases hj : j = i
      · exact Nat.le_of_eq (by rw [hj, Function.update_self, Function.update_self])
      · rw [Function.update_of_ne hj, Function.update_of_ne hj]
        exact hle j

/-- The live cells still agree after the same operations. -/
theorem replay_eq_of_live {live : K → Prop} {cells cells' : K → ℕ}
    (hlive : ∀ k, live k → cells' k = cells k) (ops : List (Op K)) (k : K) (hk : live k) :
    replay cells' ops k = replay cells ops k := by
  induction ops generalizing cells cells' with
  | nil => exact hlive k hk
  | cons op ops ih =>
    refine ih fun j hj => ?_
    cases op with
    | read i => exact hlive j hj
    | write i v =>
      simp only [Op.exec]
      by_cases hji : j = i
      · rw [hji, Function.update_self, Function.update_self]
      · rw [Function.update_of_ne hji, Function.update_of_ne hji]
        exact hlive j hj

/-- Lower cells follow as well, where the reads allow lower values. -/
theorem Follows.of_le {ok : K → ℕ → Prop} {live : K → Prop} {cells cells' : K → ℕ}
    {ops : List (Op K)} (h : Follows ok cells ops) (hle : ∀ k, cells' k ≤ cells k)
    (hlive : ∀ k, live k → cells' k = cells k)
    (hok : ∀ k v v', v' ≤ v → (live k → v' = v) → ok k v → ok k v') :
    Follows ok cells' ops := by
  induction ops generalizing cells cells' with
  | nil => trivial
  | cons op ops ih =>
    cases op with
    | read k => exact ⟨hok k _ _ (hle k) (hlive k) h.1, ih h.2 hle hlive⟩
    | write k v =>
      refine ⟨Nat.le_trans (hle k) h.1, ih h.2 ?_ ?_⟩
      · exact replay_mono hle [.write k v]
      · exact replay_eq_of_live hlive [.write k v]

/-! ## Batches -/

/-- A batch that carries whole counts: over cells that hold no more than was counted, its reads
find exactly the counts, and its writes leave no cell above them. -/
def Fits (counts : K → ℕ) (batch : List (Op K)) : Prop :=
  ∀ cells : K → ℕ, (∀ k, cells k ≤ counts k) →
    Follows (fun k v => v = counts k) cells batch ∧ ∀ k, replay cells batch k ≤ counts k

theorem fits_nil (counts : K → ℕ) : Fits counts [] := fun _ h => ⟨trivial, h⟩

theorem Fits.append {counts : K → ℕ} {batch batch' : List (Op K)} (h : Fits counts batch)
    (h' : Fits counts batch') : Fits counts (batch ++ batch') := by
  intro cells hle
  have hb := h cells hle
  have hb' := h' _ hb.2
  refine ⟨follows_append.mpr ⟨hb.1, hb'.1⟩, ?_⟩
  rw [replay_append]
  exact hb'.2

theorem Fits.flatMap {α : Type*} {counts : K → ℕ} {f : α → List (Op K)} {l : List α}
    (h : ∀ x ∈ l, Fits counts (f x)) : Fits counts (l.flatMap f) := by
  induction l with
  | nil => exact fits_nil counts
  | cons x l ih =>
    rw [List.flatMap_cons]
    refine (h x List.mem_cons_self).append (ih ?_)
    intro y hy
    exact h y (List.mem_cons_of_mem x hy)

/-- Reading a cell that already holds its count. -/
theorem follows_reads {counts cells : K → ℕ} {k : K} (hk : cells k = counts k) (n : ℕ) :
    Follows (fun k v => v = counts k) cells (List.replicate n (.read k)) ∧
      replay cells (List.replicate n (Op.read k)) = cells := by
  induction n with
  | zero => exact ⟨trivial, rfl⟩
  | succ n ih => exact ⟨⟨hk, ih.1⟩, ih.2⟩

/-- A count is written, unless there is nothing to write, and read back. -/
theorem fits_write_reads (counts : K → ℕ) (k : K) (n : ℕ) :
    Fits counts ((if counts k = 0 then [] else [.write k (counts k)])
      ++ List.replicate n (.read k)) := by
  intro cells hle
  by_cases h0 : counts k = 0
  · have hk : cells k = counts k := by
      have := hle k
      omega
    rw [if_pos h0, List.nil_append]
    refine ⟨(follows_reads hk n).1, ?_⟩
    rw [(follows_reads hk n).2]
    exact hle
  · have hk : Function.update cells k (counts k) k = counts k := Function.update_self ..
    rw [if_neg h0, List.singleton_append]
    refine ⟨⟨hle k, (follows_reads hk n).1⟩, ?_⟩
    intro j
    rw [replay_cons, Op.exec, (follows_reads hk n).2]
    by_cases hj : j = k
    · exact Nat.le_of_eq (by rw [hj, hk])
    · rw [Function.update_of_ne hj]
      exact hle j

/-! ## The queue -/

namespace Coherent

variable {live live' : K → Prop} {cells cells' : K → ℕ} {stale awaited : List (Op K)}
  {sent counts counts' : K → ℕ}

/-- An empty queue asks only that nothing beyond the counts was written. -/
theorem of_nil (h : ∀ k, cells k ≤ counts k) : Coherent live cells [] [] sent counts :=
  ⟨trivial, trivial, h⟩

/-- What a cell holds has been counted. -/
theorem cells_le (h : Coherent live cells stale awaited sent counts) (k : K) :
    cells k ≤ counts k := by
  have hs := h.stale_follows.le_replay k
  have ha := h.awaited_follows.le_replay k
  rw [← replay_append] at ha
  exact Nat.le_trans hs (Nat.le_trans ha (h.settles k))

/-- Counting on, while fewer cells count as live. -/
theorem mono (h : Coherent live cells stale awaited sent counts)
    (hlive : ∀ k, live' k → live k) (hcounts : ∀ k, counts k ≤ counts' k) :
    Coherent live' cells stale awaited sent counts' where
  stale_follows := h.stale_follows
  awaited_follows :=
    h.awaited_follows.mono fun k _ hv => ⟨hv.1, fun hl => hv.2 (hlive k hl)⟩
  settles k := Nat.le_trans (h.settles k) (hcounts k)

/-- The next operation that nobody waits for is carried out. -/
theorem exec_stale {op : Op K} (h : Coherent live cells (op :: stale) awaited sent counts) :
    Coherent live (op.exec cells) stale awaited sent counts where
  stale_follows := by
    cases op with
    | write k v => exact h.stale_follows.2
    | read k => exact h.stale_follows.2
  awaited_follows := h.awaited_follows
  settles := h.settles

/-- The next operation of the batch is carried out. -/
theorem exec_awaited {op : Op K} (h : Coherent live cells [] (op :: awaited) sent counts) :
    Coherent live (op.exec cells) [] awaited sent counts where
  stale_follows := trivial
  awaited_follows := by
    cases op with
    | write k v => exact h.awaited_follows.2
    | read k => exact h.awaited_follows.2
  settles := h.settles

/-- A late write does not lower its cell. -/
theorem write_stale {k : K} {v : ℕ}
    (h : Coherent live cells (.write k v :: stale) awaited sent counts) : cells k ≤ v :=
  h.stale_follows.1

/-- A write of the batch does not lower its cell. -/
theorem write_awaited {k : K} {v : ℕ}
    (h : Coherent live cells [] (.write k v :: awaited) sent counts) : cells k ≤ v :=
  h.awaited_follows.1

/-- What a read of the batch finds. -/
theorem read_awaited {k : K} (h : Coherent live cells [] (.read k :: awaited) sent counts) :
    Reads live sent k (cells k) := h.awaited_follows.1

/-- A batch is sent, behind whatever is still on its way. -/
theorem send {batch : List (Op K)} (h : Coherent live cells stale [] sent counts)
    (hbatch : Fits counts batch) : Coherent live cells stale batch counts counts := by
  have hle : ∀ k, replay cells stale k ≤ counts k := by
    intro k
    have := h.settles k
    rwa [List.append_nil] at this
  refine ⟨h.stale_follows, (hbatch _ hle).1.mono ?_, ?_⟩
  · rintro k v rfl
    exact ⟨Nat.le_refl _, fun _ => rfl⟩
  · intro k
    rw [replay_append]
    exact (hbatch _ hle).2 k

/-- Nobody waits for the batch any more. -/
theorem give_up (h : Coherent live cells stale awaited sent counts) (sent' : K → ℕ) :
    Coherent live cells (stale ++ awaited) [] sent' counts where
  stale_follows :=
    follows_append.mpr ⟨h.stale_follows, h.awaited_follows.mono fun _ _ _ => trivial⟩
  awaited_follows := trivial
  settles k := by
    rw [List.append_nil]
    exact h.settles k

/-- What is left of the queue is lost. -/
theorem lose (h : Coherent live cells stale awaited sent counts) :
    Coherent live cells [] [] sent counts := of_nil h.cells_le

/-- Cells are dropped, none of them live. -/
theorem drop (h : Coherent live cells stale awaited sent counts)
    (hle : ∀ k, cells' k ≤ cells k) (hlive : ∀ k, live k → cells' k = cells k) :
    Coherent live cells' stale awaited sent counts where
  stale_follows := h.stale_follows.of_le hle hlive fun _ _ _ _ _ _ => trivial
  awaited_follows := by
    refine h.awaited_follows.of_le (replay_mono hle stale) (replay_eq_of_live hlive stale) ?_
    intro k v v' hv heq hr
    refine ⟨Nat.le_trans hv hr.1, ?_⟩
    intro hl
    rw [heq hl]
    exact hr.2 hl
  settles k := Nat.le_trans (replay_mono hle _ k) (h.settles k)

end Coherent

end Overwrite
