/-
The bytes of a cached body (`cache/storage.rs`): from the chunks a miss handler is given, over
the entry it publishes, to the chunks a hit handler gives back.

A hit handler keeps two positions in one buffer. `seek` sets both of them, clamped to the
buffer, and `read_body` takes a piece of at most `READ_CHUNK` bytes from the first towards the
second. The slice is where the code would panic, so it has a result of its own here.
-/
import Lagos.CacheStorage

set_option autoImplicit false

open RustStd

namespace Lagos.Cache

/-! ## Filling -/

section Fill

variable {Key CacheMeta NotModified : Type}

/-- A handler after its writes. Other handlers work on the same storage between them, so each
write finds a storage of its own. -/
def Miss.fill (m : Miss Key) (writes : List (MemoryStorage Key × Bytes)) : Miss Key :=
  writes.foldl (fun m w => (write_body w.1 m w.2).2) m

@[simp] theorem Miss.fill_nil (m : Miss Key) : m.fill [] = m := rfl

@[simp] theorem Miss.fill_cons (m : Miss Key) (w : MemoryStorage Key × Bytes)
    (writes : List (MemoryStorage Key × Bytes)) :
    m.fill (w :: writes) = (write_body w.1 m w.2).2.fill writes := rfl

/-- A fill keeps the key. -/
theorem Miss.fill_key (m : Miss Key) (writes : List (MemoryStorage Key × Bytes)) :
    (m.fill writes).key = m.key := by
  induction writes generalizing m with
  | nil => rfl
  | cons w writes ih => rw [fill_cons, ih, (write_body_keeps w.1 m w.2).2.1]

/-- A fill that is not abandoned has every byte it was given, in order. -/
theorem Miss.fill_body {m : Miss Key} {writes : List (MemoryStorage Key × Bytes)}
    (h : (m.fill writes).too_large = false) :
    (m.fill writes).body = m.body ++ (writes.map Prod.snd).flatten := by
  induction writes generalizing m with
  | nil => simp
  | cons w writes ih =>
    rw [fill_cons] at h ⊢
    -- What is abandoned stays so: the handler after the first write was not.
    have hopen : (write_body w.1 m w.2).2.too_large = false := by
      clear ih
      generalize (write_body w.1 m w.2).2 = m' at h
      induction writes generalizing m' with
      | nil => exact h
      | cons v writes ih => exact (write_body_body v.1 m' (ih _ h)).1
    have hbody := (write_body_body w.1 m hopen).2
    rw [ih h, hbody, List.map_cons, List.flatten_cons, List.append_assoc]

/-- What a finish reports is what it did. -/
theorem finish_ok_iff [DecidableEq Key] (s : MemoryStorage Key) (m : Miss Key) :
    (∃ size, (finish s m).1 = .ok size) ↔ m.too_large = false := by
  unfold finish
  cases m.too_large with
  | true => simp
  | false => simp

end Fill

/-! ## Reading -/

/-- How much body to hand back at a time. -/
def READ_CHUNK : ℕ := 32 * 1024

/-- The bytes from one position to another. -/
def range (body : Bytes) (start stop : ℕ) : Bytes := (body.drop start).take (stop - start)

/-- `Bytes::slice(start..stop)`; `none` where it panics. -/
def slice (body : Bytes) (start stop : ℕ) : Option Bytes :=
  if start ≤ stop ∧ stop ≤ body.length then some (range body start stop) else none

/-- `Hit::read_body`; `none` where the slice panics. -/
def Hit.read_body (hit : Hit) : Option (Option Bytes × Hit) :=
  if hit.read ≥ hit.stop then some (none, hit)
  else
    let stop := min hit.stop (usize_saturating_add hit.read READ_CHUNK)
    match slice hit.body hit.read stop with
    | none => none
    | some chunk => some (some chunk, { hit with read := stop })

/-- `Hit::seek`. -/
def Hit.seek (hit : Hit) (start : ℕ) (stop : Option ℕ) : Hit :=
  let len := hit.body.length
  let read := min start len
  { hit with read := read, stop := max (min (stop.getD len) len) read }

/-- `read_body` until there is nothing left: the chunks, and the handler after them. `none`
where a slice panics, or where `fuel` calls are not enough. -/
def Hit.read_until_none : ℕ → Hit → Option (List Bytes × Hit)
  | 0, _ => none
  | fuel + 1, hit =>
    match hit.read_body with
    | none => none
    | some (none, hit) => some ([], hit)
    | some (some chunk, hit) =>
      match read_until_none fuel hit with
      | none => none
      | some (chunks, hit) => some (chunk :: chunks, hit)

/-- One range after the other: a `seek`, and `read_body` until there is nothing left. -/
def Hit.read_ranges (fuel : ℕ) : Hit → List (ℕ × Option ℕ) → Option (List (List Bytes))
  | _, [] => some []
  | hit, (start, stop) :: ranges =>
    match (hit.seek start stop).read_until_none fuel with
    | none => none
    | some (chunks, hit) => (read_ranges fuel hit ranges).map (chunks :: ·)

/-! ## What one call returns -/

/-- Where a handler may be: its positions in order, and inside a buffer that can be. -/
structure Hit.Ok (hit : Hit) : Prop where
  read_le : hit.read ≤ hit.stop
  stop_le : hit.stop ≤ hit.body.length
  body_le : hit.body.length ≤ USIZE_MAX

theorem slice_of_le {body : Bytes} {start stop : ℕ} (hle : start ≤ stop)
    (hstop : stop ≤ body.length) : slice body start stop = some (range body start stop) :=
  if_pos ⟨hle, hstop⟩

/-- The bytes a handler still has to give. -/
def Hit.rest (hit : Hit) : Bytes := range hit.body hit.read hit.stop

/-- Whatever is asked for, a `seek` leaves the positions in order. -/
theorem Hit.seek_ok (hit : Hit) (start : ℕ) (stop : Option ℕ)
    (h : hit.body.length ≤ USIZE_MAX) : (hit.seek start stop).Ok where
  read_le := Nat.le_max_right _ _
  stop_le := by
    simp only [seek]
    omega
  body_le := h

/-- A call on a handler with nothing left says so, and any other returns the next bytes. -/
theorem Hit.read_body_cases {hit : Hit} (h : hit.Ok) :
    (hit.rest = [] ∧ hit.read_body = some (none, hit)) ∨
    ∃ chunk hit', hit.read_body = some (some chunk, hit') ∧ hit'.Ok ∧ hit'.body = hit.body
      ∧ hit'.stop = hit.stop ∧ hit.read < hit'.read ∧ chunk ≠ [] ∧ chunk.length ≤ READ_CHUNK
      ∧ hit.rest = chunk ++ hit'.rest := by
  obtain ⟨hread, hstop, hbody⟩ := h
  unfold read_body
  by_cases hend : hit.read ≥ hit.stop
  · rw [if_pos hend]
    refine .inl ⟨?_, rfl⟩
    rw [rest, range, Nat.sub_eq_zero_of_le hend, List.take_zero]
  · rw [if_neg hend]
    -- The sum does not saturate below `stop`, which a `usize` holds.
    have hnext : min hit.stop (usize_saturating_add hit.read READ_CHUNK)
        = min hit.stop (hit.read + READ_CHUNK) := by
      unfold usize_saturating_add
      omega
    have hchunk : 0 < READ_CHUNK := by decide
    have hbounds : hit.read ≤ min hit.stop (hit.read + READ_CHUNK)
        ∧ min hit.stop (hit.read + READ_CHUNK) ≤ hit.body.length := by omega
    have hslice := slice_of_le hbounds.1 hbounds.2
    right
    simp only [hnext, hslice]
    refine ⟨_, _, rfl, ⟨Nat.min_le_left _ _, hstop, hbody⟩, rfl, rfl, by simp only; omega, ?_, ?_,
      ?_⟩
    · apply List.ne_nil_of_length_pos
      rw [range, List.length_take, List.length_drop]
      omega
    · rw [range, List.length_take]
      omega
    · simp only [rest, range]
      have hsplit : hit.stop - hit.read = (min hit.stop (hit.read + READ_CHUNK) - hit.read)
          + (hit.stop - min hit.stop (hit.read + READ_CHUNK)) := by omega
      have hdrop : hit.read + (min hit.stop (hit.read + READ_CHUNK) - hit.read)
          = min hit.stop (hit.read + READ_CHUNK) := by omega
      rw [hsplit, List.take_add, List.drop_drop, hdrop]

/-! ## What the loop returns -/

/-- **The read loop ends, and returns what is left.** Every call but the last moves the first
position towards the second. -/
theorem Hit.read_until_none_spec {hit : Hit} (h : hit.Ok) {fuel : ℕ}
    (hfuel : hit.stop - hit.read < fuel) :
    ∃ chunks hit', hit.read_until_none fuel = some (chunks, hit') ∧ hit'.body = hit.body
      ∧ chunks.flatten = hit.rest ∧ ∀ c ∈ chunks, c ≠ [] ∧ c.length ≤ READ_CHUNK := by
  induction fuel generalizing hit with
  | zero => omega
  | succ fuel ih =>
    obtain ⟨hrest, hread⟩ | ⟨chunk, next, hread, hok, hbody, hstop, hlt, hne, hlen, hrest⟩ :=
      hit.read_body_cases h
    · refine ⟨[], hit, ?_, rfl, hrest.symm, List.forall_mem_nil _⟩
      rw [read_until_none, hread]
    · have hless : next.stop - next.read < fuel := by
        have hle := hok.read_le
        omega
      obtain ⟨chunks, last, hloop, hsame, hflat, hall⟩ := ih hok hless
      refine ⟨chunk :: chunks, last, ?_, hsame.trans hbody, ?_, ?_⟩
      · rw [read_until_none, hread]
        simp only [hloop]
      · rw [List.flatten_cons, hflat, hrest]
      · exact List.forall_mem_cons.mpr ⟨⟨hne, hlen⟩, hall⟩

/-- What is left after a `seek` is the range it names, clamped. -/
theorem Hit.seek_rest (hit : Hit) (start : ℕ) (stop : Option ℕ) :
    (hit.seek start stop).rest = range hit.body (min start hit.body.length)
      (max (min (stop.getD hit.body.length) hit.body.length) (min start hit.body.length)) := rfl

/-- What a list of ranges is answered with, range by range. -/
theorem Hit.read_ranges_spec {hit : Hit} (h : hit.body.length ≤ USIZE_MAX) {fuel : ℕ}
    (hfuel : hit.body.length < fuel) (ranges : List (ℕ × Option ℕ)) :
    ∃ answers, hit.read_ranges fuel ranges = some answers ∧ List.Forall₂ (fun r chunks =>
        chunks.flatten = range hit.body (min r.1 hit.body.length)
          (max (min (r.2.getD hit.body.length) hit.body.length) (min r.1 hit.body.length))
        ∧ ∀ c ∈ chunks, c ≠ [] ∧ c.length ≤ READ_CHUNK) ranges answers := by
  induction ranges generalizing hit with
  | nil => exact ⟨[], rfl, .nil⟩
  | cons r ranges ih =>
    obtain ⟨start, stop⟩ := r
    have hok := hit.seek_ok start stop h
    have hless : (hit.seek start stop).stop - (hit.seek start stop).read < fuel := by
      have hle : (hit.seek start stop).stop ≤ hit.body.length := hok.stop_le
      omega
    obtain ⟨chunks, last, hloop, hsame, hflat, hall⟩ := read_until_none_spec hok hless
    have hbody : last.body = hit.body := hsame
    obtain ⟨answers, hrun, hanswers⟩ := ih (hbody ▸ h) (hbody ▸ hfuel)
    rw [hbody] at hanswers
    refine ⟨chunks :: answers, ?_, .cons ⟨hflat.trans (hit.seek_rest start stop), hall⟩ hanswers⟩
    simp only [read_ranges, hloop, hrun, Option.map_some]

/-! ## There and back -/

/-- **A cached body is what was written, and any range of it can be read back.** Nothing is
stored before a finish that succeeds, which stores all of the chunks. Whatever ranges are then
asked of a reader, wherever it was, each answer is the bytes of the range, cut up. -/
theorem cached_body {Key CacheMeta NotModified : Type} [DecidableEq Key]
    (ops : MetaOps CacheMeta NotModified) (key : Key) (cacheMeta : CacheMeta) (m : Miss Key)
    (hnew : get_miss_handler ops key cacheMeta = .ok m)
    (writes : List (MemoryStorage Key × Bytes)) :
    (∀ s data, (write_body s (m.fill writes) data).1.entries = s.entries) ∧
    (∀ s, (drop s (m.fill writes)).entries = s.entries) ∧
    (∀ s, (∀ e, (finish s (m.fill writes)).1 = .error e →
        (finish s (m.fill writes)).2.1.entries = s.entries) ∧
      ∀ size, (finish s (m.fill writes)).1 = .ok size →
        ∃ entry, (finish s (m.fill writes)).2.1.entries = Function.update s.entries key (some entry)
          ∧ entry.body = (writes.map Prod.snd).flatten) ∧
    ∀ hit : Hit, hit.body.length ≤ USIZE_MAX → ∀ ranges : List (ℕ × Option ℕ),
      ∀ fuel > hit.body.length, ∃ answers, hit.read_ranges fuel ranges = some answers
        ∧ List.Forall₂ (fun r chunks =>
            chunks.flatten = range hit.body (min r.1 hit.body.length)
              (max (min (r.2.getD hit.body.length) hit.body.length) (min r.1 hit.body.length))
            ∧ ∀ c ∈ chunks, c ≠ [] ∧ c.length ≤ READ_CHUNK) ranges answers := by
  obtain ⟨-, hkey, hempty, -⟩ := get_miss_handler_ok ops key m hnew
  refine ⟨fun s data => (write_body_keeps s _ data).1, fun s => drop_entries s _, fun s => ?_,
    fun hit hlen ranges fuel hfuel => hit.read_ranges_spec hlen hfuel ranges⟩
  refine ⟨fun e herr => ?_, fun size hok => ?_⟩
  · obtain ⟨-, hsame⟩ | ⟨hopen, -⟩ := finish_cases s (m.fill writes)
    · rw [hsame]
    · obtain ⟨size, hok⟩ := (finish_ok_iff s (m.fill writes)).mpr hopen
      rw [hok] at herr
      cases herr
  · have hopen := (finish_ok_iff s (m.fill writes)).mp ⟨size, hok⟩
    obtain ⟨hlost, -⟩ | ⟨-, hstored⟩ := finish_cases s (m.fill writes)
    · rw [hopen] at hlost
      cases hlost
    · rw [Miss.fill_key, hkey] at hstored
      refine ⟨_, hstored, ?_⟩
      rw [Miss.fill_body hopen, hempty, List.nil_append]

/-- A meta that is its own serialization. -/
def verbatim : MetaOps Bytes Unit := ⟨fun c => .ok (c, []), fun c _ => .ok c, fun c _ => c⟩

/-- An empty storage for objects of eight bytes. -/
def storage8 : MemoryStorage ℕ := ⟨fun _ => none, 8, 0, 8⟩

theorem cached_body_two_chunks :
    (∃ entry, (finish storage8 (Miss.fill (⟨7, [0], [], [], false⟩ : Miss ℕ)
        [(storage8, [1, 2]), (storage8, [3])])).2.1.entries
          = Function.update storage8.entries 7 (some entry) ∧ entry.body = [1, 2, 3]) ∧
    ∃ answers, Hit.read_ranges 4 ⟨[1, 2, 3], 0, 3⟩ [(1, none), (2, some 0)] = some answers
      ∧ List.Forall₂ (fun (r : ℕ × Option ℕ) chunks =>
          chunks.flatten = range [1, 2, 3] (min r.1 3) (max (min (r.2.getD 3) 3) (min r.1 3))
          ∧ ∀ c ∈ chunks, c ≠ [] ∧ c.length ≤ READ_CHUNK) [(1, none), (2, some 0)] answers := by
  have h := cached_body verbatim 7 [0] ⟨7, [0], [], [], false⟩ rfl
    [(storage8, [1, 2]), (storage8, [3])]
  exact ⟨(h.2.2.1 storage8).2 100 (by decide),
    h.2.2.2 ⟨[1, 2, 3], 0, 3⟩ (by decide) _ 4 (by decide)⟩

end Lagos.Cache
