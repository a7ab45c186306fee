/-
The in-memory cache of `cache/storage.rs`: what is stored under a key, how a fill
becomes an entry, and what a revalidation puts back.

`pingora-cache` decides when each operation is called; the storage only sees
`CacheMeta` values and bytes. `CacheMeta` is therefore a parameter here, with the
three things done to it: it is serialized into the two halves an entry keeps,
read back from them, and refreshed by a 304.

The operations are functions of the storage. `moka` is a map from which an entry
may also vanish at any time; that is an event of `CacheRevalidation`, where the
operations of many requests interleave, and not a function of this file.
-/
import Lagos.Lib.RustStd
import Mathlib.Logic.Function.Basic

set_option autoImplicit false

open RustStd

namespace Lagos.Cache

/-- `Vec<u8>`, `Bytes` and `BytesMut`. -/
abbrev Bytes := List UInt8

/-! ## What is stored -/

/-- `pingora_cache::CacheMeta`, as far as this storage meets it. -/
structure MetaOps (CacheMeta NotModified : Type) where
  serialize : CacheMeta → Except String (Bytes × Bytes)
  deserialize : Bytes → Bytes → Except String CacheMeta
  /-- The meta a revalidating request stores after the upstream answered 304. -/
  refresh : CacheMeta → NotModified → CacheMeta

/-- One stored response. -/
structure Entry where
  /-- `CacheMeta`'s two serialized halves. -/
  internal : Bytes
  header : Bytes
  body : Bytes
  deriving DecidableEq, Repr

/-- `usize::MAX`, 2 ^ 64 - 1. -/
def USIZE_MAX : ℕ := 18446744073709551615

/-- `usize::saturating_add`. -/
def usize_saturating_add (a b : ℕ) : ℕ := min (a + b) USIZE_MAX

/-- `size_of::<HashBinary>()` and `size_of::<Entry>()`: sixteen bytes of hash, and two
`Vec`s and a `Bytes` of three, three and four words. -/
def KEY_SIZE : ℕ := 16
def ENTRY_SIZE : ℕ := 80

/-- `Entry::weight`: what this entry costs the cache. -/
def Entry.weight (e : Entry) : ℕ :=
  let total := usize_saturating_add (usize_saturating_add (usize_saturating_add
    (usize_saturating_add e.body.length e.internal.length) e.header.length) KEY_SIZE) ENTRY_SIZE
  if total ≤ U32_MAX then total else U32_MAX

/-- `MemoryStorage`, over any type of keys. -/
structure MemoryStorage (Key : Type) where
  entries : Key → Option Entry
  max_object_bytes : ℕ
  /-- Body bytes currently buffered by unfinished fills. -/
  filling : ℕ
  max_fill_bytes : ℕ

/-- A reader over one complete body. -/
structure Hit where
  body : Bytes
  read : ℕ
  stop : ℕ
  deriving DecidableEq, Repr

/-- Accumulates a body, and publishes it only if the whole thing arrives and fits. -/
structure Miss (Key : Type) where
  key : Key
  internal : Bytes
  header : Bytes
  body : Bytes
  /-- Set once the fill is abandoned. -/
  too_large : Bool
  deriving DecidableEq, Repr

/-- `pingora_cache::storage::PurgeOutcome`, without the evicted keys this storage never
has. -/
inductive PurgeOutcome where
  | Purged
  | NotFound
  deriving DecidableEq, Repr

variable {Key CacheMeta NotModified : Type} (ops : MetaOps CacheMeta NotModified)

/-! ## The fill budget -/

/-- `MemoryStorage::reserve`. -/
def reserve (s : MemoryStorage Key) (bytes : ℕ) : Bool × MemoryStorage Key :=
  if s.filling + bytes ≤ USIZE_MAX ∧ s.filling + bytes ≤ s.max_fill_bytes then
    (true, { s with filling := s.filling + bytes })
  else (false, s)

/-- `MemoryStorage::release`; `fetch_sub` wraps. -/
def release (s : MemoryStorage Key) (bytes : ℕ) : MemoryStorage Key :=
  if bytes > 0 then
    { s with filling := (s.filling + (USIZE_MAX + 1) - bytes % (USIZE_MAX + 1)) % (USIZE_MAX + 1) }
  else s

/-! ## The storage -/

/-- `entries.insert`. -/
def insert [DecidableEq Key] (s : MemoryStorage Key) (key : Key) (e : Entry) : MemoryStorage Key :=
  { s with entries := Function.update s.entries key (some e) }

/-- `entries.remove`. -/
def remove [DecidableEq Key] (s : MemoryStorage Key) (key : Key) : MemoryStorage Key :=
  { s with entries := Function.update s.entries key none }

/-- `MemoryStorage::lookup`. -/
def lookup (s : MemoryStorage Key) (key : Key) : Except String (Option (CacheMeta × Hit)) :=
  match s.entries key with
  | none => .ok none
  | some entry => do
    let cached ← ops.deserialize entry.internal entry.header
    return some (cached, ⟨entry.body, 0, entry.body.length⟩)

/-- `MemoryStorage::get_miss_handler`. -/
def get_miss_handler (key : Key) (cacheMeta : CacheMeta) : Except String (Miss Key) := do
  let (internal, header) ← ops.serialize cacheMeta
  return ⟨key, internal, header, [], false⟩

/-- `MemoryStorage::purge`. -/
def purge [DecidableEq Key] (s : MemoryStorage Key) (key : Key) :
    PurgeOutcome × MemoryStorage Key :=
  match s.entries key with
  | some _ => (.Purged, remove s key)
  | none => (.NotFound, s)

/-- `MemoryStorage::update_meta`: the new halves, with whatever body is there now. -/
def update_meta [DecidableEq Key] (s : MemoryStorage Key) (key : Key)
    (cacheMeta : CacheMeta) : Except String Bool × MemoryStorage Key :=
  match s.entries key with
  | none => (.ok false, s)
  | some existing =>
    match ops.serialize cacheMeta with
    | .error e => (.error e, s)
    -- nothing says that `existing` is still what the request looked up
    | .ok (internal, header) => (.ok true, insert s key ⟨internal, header, existing.body⟩)

/-! ## A fill -/

/-- `Miss::abandon`: stop accumulating now, and give the buffered bytes back. -/
def abandon (s : MemoryStorage Key) (m : Miss Key) : MemoryStorage Key × Miss Key :=
  (release s m.body.length, { m with too_large := true, body := [] })

/-- `Miss::drop`. -/
def drop (s : MemoryStorage Key) (m : Miss Key) : MemoryStorage Key := release s m.body.length

/-- `Miss::write_body`. -/
def write_body (s : MemoryStorage Key) (m : Miss Key) (data : Bytes) :
    MemoryStorage Key × Miss Key :=
  if m.too_large then (s, m)
  else if usize_saturating_add m.body.length data.length > s.max_object_bytes then abandon s m
  else
    match reserve s data.length with
    | (false, s) => abandon s m
    | (true, s) => (s, { m with body := m.body ++ data })

/-- `Miss::finish`: the weight of the entry it published, and the handler with what it
held taken out of it. -/
def finish [DecidableEq Key] (s : MemoryStorage Key) (m : Miss Key) :
    Except String ℕ × MemoryStorage Key × Miss Key :=
  if m.too_large then
    (.error "cache fill exceeded max_object_size or max_inflight_fill", s, m)
  else
    let entry : Entry := ⟨m.internal, m.header, m.body⟩
    (.ok entry.weight, insert (release s m.body.length) m.key entry,
      { m with internal := [], header := [], body := [] })

/-! ## What each operation does to the entries -/

section Specs

variable (s : MemoryStorage Key) (key : Key) (m : Miss Key)

@[simp] theorem release_entries (bytes : ℕ) : (release s bytes).entries = s.entries := by
  unfold release
  split <;> rfl

@[simp] theorem reserve_entries (bytes : ℕ) : (reserve s bytes).2.entries = s.entries := by
  unfold reserve
  split <;> rfl

@[simp] theorem drop_entries : (drop s m).entries = s.entries := release_entries s _

/-- A write never touches an entry, nor what the handler will publish beside the body. -/
theorem write_body_keeps (data : Bytes) :
    (write_body s m data).1.entries = s.entries ∧ (write_body s m data).2.key = m.key
      ∧ (write_body s m data).2.internal = m.internal
      ∧ (write_body s m data).2.header = m.header := by
  unfold write_body
  split
  · exact ⟨rfl, rfl, rfl, rfl⟩
  · split
    · exact ⟨release_entries s _, rfl, rfl, rfl⟩
    · rcases hr : reserve s data.length with ⟨ok, s'⟩
      have hs' : s'.entries = s.entries := by rw [← reserve_entries s data.length, hr]
      cases ok with
      | false => exact ⟨(release_entries s' _).trans hs', rfl, rfl, rfl⟩
      | true => exact ⟨hs', rfl, rfl, rfl⟩

/-- A handler that is not abandoned by a write was not before it, and has every byte. -/
theorem write_body_body {data : Bytes} (h : (write_body s m data).2.too_large = false) :
    m.too_large = false ∧ (write_body s m data).2.body = m.body ++ data := by
  unfold write_body at h ⊢
  cases hm : m.too_large with
  | true => simp [hm] at h
  | false =>
    simp only [hm, Bool.false_eq_true, if_false] at h ⊢
    -- Both ways to abandon a fill leave `too_large` set.
    split at h
    · cases h
    · rename_i hfits
      rw [if_neg hfits]
      rcases hr : reserve s data.length with ⟨ok, s'⟩
      cases ok with
      | false => simp [hr, abandon] at h
      | true => exact ⟨trivial, rfl⟩

/-- What a lookup returns is what the entry says. -/
theorem lookup_hit {cached : CacheMeta} {hit : Hit}
    (h : lookup ops s key = .ok (some (cached, hit))) :
    ∃ e, s.entries key = some e ∧ ops.deserialize e.internal e.header = .ok cached
      ∧ hit.body = e.body := by
  unfold lookup at h
  cases he : s.entries key with
  | none => simp [he] at h
  | some e =>
    simp only [he] at h
    cases hd : ops.deserialize e.internal e.header with
    | error err => simp [hd, bind, Except.bind] at h
    | ok m =>
      simp only [hd, bind, Except.bind, pure, Except.pure, Except.ok.injEq, Option.some.injEq,
        Prod.mk.injEq] at h
      obtain ⟨rfl, rfl⟩ := h
      exact ⟨e, rfl, hd, rfl⟩

theorem get_miss_handler_ok {cacheMeta : CacheMeta}
    (h : get_miss_handler ops key cacheMeta = .ok m) :
    ops.serialize cacheMeta = .ok (m.internal, m.header) ∧ m.key = key ∧ m.body = []
      ∧ m.too_large = false := by
  unfold get_miss_handler at h
  rcases hser : ops.serialize cacheMeta with err | ⟨internal, header⟩
  · simp [hser, bind, Except.bind] at h
  · simp only [hser, bind, Except.bind, pure, Except.pure, Except.ok.injEq] at h
    subst h
    exact ⟨rfl, rfl, rfl, rfl⟩

variable [DecidableEq Key]

@[simp] theorem insert_entries (e : Entry) :
    (insert s key e).entries = Function.update s.entries key (some e) := rfl

/-- A finish stores the complete entry, or reports an error and stores nothing. -/
theorem finish_cases :
    (m.too_large = true ∧ (finish s m).2.1 = s) ∨
    (m.too_large = false ∧ (finish s m).2.1.entries
      = Function.update s.entries m.key (some ⟨m.internal, m.header, m.body⟩)) := by
  unfold finish
  split
  · rename_i h
    exact .inl ⟨h, rfl⟩
  · rename_i h
    exact .inr ⟨Bool.eq_false_iff.mpr h, by simp⟩

/-- An update that finds no entry, or whose meta does not serialize, changes nothing;
any other pairs its own halves with the body it finds. -/
theorem update_meta_cases (cacheMeta : CacheMeta) :
    (∃ r, update_meta ops s key cacheMeta = (r, s) ∧ r ≠ .ok true
      ∧ ∀ halves, ops.serialize cacheMeta = .ok halves → s.entries key = none) ∨
    ∃ e internal header, s.entries key = some e
      ∧ ops.serialize cacheMeta = .ok (internal, header)
      ∧ update_meta ops s key cacheMeta = (.ok true, insert s key ⟨internal, header, e.body⟩) := by
  unfold update_meta
  cases he : s.entries key with
  | none => exact .inl ⟨.ok false, rfl, by simp, fun _ _ => rfl⟩
  | some e =>
    rcases hser : ops.serialize cacheMeta with err | ⟨internal, header⟩
    · exact .inl ⟨.error err, rfl, by simp, fun _ h => (nomatch h)⟩
    · exact .inr ⟨e, internal, header, rfl, rfl, rfl⟩

end Specs

end Lagos.Cache
