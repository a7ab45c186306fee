/-
Any number of requests over one `MemoryStorage`: fills, lookups, revalidations and
purges, each operation atomic and in any order.

`update_meta` is called by a request whose own lookup found a stale entry and whose
upstream answered 304. It stores the refreshed meta with whatever body is under the
key by then. Between the lookup and the update another request may have filled the
key again, so the two halves of an entry can come from different responses.

To say so, every fill is given the response it carries: a number of its own, the meta
it began with and the bytes sent so far. `Origin` then names, for each key, the
response each half of its entry came from. It is kept beside the storage and no
operation reads it; `Faithful` is the theorem that it tells the truth about the bytes
(`step_faithful`), and everything else is about origins. The result is exact
(`consistent_iff_finds_its_body`): the halves agree after every step of a run if and only
if every update of the run found the body of the response its request had looked up.
-/
import Lagos.Lib.Run
import Lagos.CacheStorage
import Mathlib.Data.List.Basic

set_option autoImplicit false

open StepRun

namespace Lagos.Cache

variable {Key CacheMeta NotModified : Type}

/-! ## Requests and their responses -/

/-- An upstream response that is being stored. -/
structure Response (CacheMeta : Type) where
  id : ℕ
  /-- The meta its miss handler was opened with. -/
  cacheMeta : CacheMeta
  /-- Every byte written to the handler so far. -/
  body : Bytes
  deriving DecidableEq, Repr

/-- A miss handler and the response it is filled from. -/
structure Fill (Key CacheMeta : Type) where
  response : Response CacheMeta
  miss : Miss Key
  deriving DecidableEq, Repr

/-- A request whose lookup hit: what it was given, and the response that meta is from. -/
structure Revalidation (Key CacheMeta : Type) where
  key : Key
  cached : CacheMeta
  response : Response CacheMeta
  deriving DecidableEq, Repr

/-- Where the two parts of an entry come from. -/
structure Origin (CacheMeta : Type) where
  meta_from : Response CacheMeta
  body_from : Response CacheMeta
  deriving DecidableEq, Repr

structure World (Key CacheMeta : Type) where
  storage : MemoryStorage Key
  /-- The responses behind the entry under each key. -/
  origin : Key → Option (Origin CacheMeta)
  /-- Responses so far; the next one's number. -/
  responses : ℕ
  fills : List (Fill Key CacheMeta)
  requests : List (Revalidation Key CacheMeta)
  /-- The responses whose entry was purged. -/
  purged : List ℕ

/-- What can happen next. -/
inductive Event (Key CacheMeta NotModified : Type) where
  | lookup (key : Key)
  /-- A response to be stored under `key` arrives. -/
  | get_miss_handler (key : Key) (cacheMeta : CacheMeta)
  | write_body (f : Fill Key CacheMeta) (data : Bytes)
  | finish (f : Fill Key CacheMeta)
  /-- The client of a fill goes away, or its upstream fails. -/
  | drop (f : Fill Key CacheMeta)
  /-- The upstream answers a revalidating request with a 304. -/
  | update_meta (q : Revalidation Key CacheMeta) (answer : NotModified)
  | purge (key : Key)
  /-- `moka` drops an entry, to stay within its bound. -/
  | evict (key : Key)
  deriving DecidableEq, Repr

section System

variable [DecidableEq Key] [DecidableEq CacheMeta] (ops : MetaOps CacheMeta NotModified)

/-- The world after `m`, the handler of `f`, took `data` or was abandoned. -/
def World.wrote (w : World Key CacheMeta) (f : Fill Key CacheMeta) (data : Bytes) :
    World Key CacheMeta :=
  let r := write_body w.storage f.miss data
  { w with
    storage := r.1
    fills := ⟨{ f.response with body := f.response.body ++ data }, r.2⟩ :: w.fills.erase f }

/-- The world after `f` finished: an entry that is all its own, unless it was abandoned. -/
def World.finished (w : World Key CacheMeta) (f : Fill Key CacheMeta) : World Key CacheMeta :=
  let r := Cache.finish w.storage f.miss
  { w with
    storage := Cache.drop r.2.1 r.2.2
    origin :=
      if f.miss.too_large then w.origin
      else Function.update w.origin f.miss.key (some ⟨f.response, f.response⟩)
    fills := w.fills.erase f }

/-- The world after the request `q` stored the meta it refreshed. -/
def World.updated (w : World Key CacheMeta) (q : Revalidation Key CacheMeta)
    (answer : NotModified) : World Key CacheMeta :=
  let fresh := ops.refresh q.cached answer
  let r := Cache.update_meta ops w.storage q.key fresh
  { w with
    storage := r.2
    origin :=
      match r.1 with
      | .ok true =>
        -- only the meta is the request's own
        Function.update w.origin q.key
          ((w.origin q.key).map fun o => { o with meta_from := q.response })
      | _ => w.origin
    requests := w.requests.erase q }

/-- The world after a purge of `key`: both responses its entry had are purged. -/
def World.purge (w : World Key CacheMeta) (key : Key) : World Key CacheMeta :=
  { w with
    storage := (Cache.purge w.storage key).2
    origin := Function.update w.origin key none
    purged := ((w.origin key).map fun o => [o.meta_from.id, o.body_from.id]).getD [] ++ w.purged }

/-- One step. -/
def step (w : World Key CacheMeta) :
    Event Key CacheMeta NotModified → Option (World Key CacheMeta)
  | .lookup key =>
    match Cache.lookup ops w.storage key, w.origin key with
    | .ok (some (cached, _)), some o =>
      some { w with requests := ⟨key, cached, o.meta_from⟩ :: w.requests }
    -- a miss, or halves that do not deserialize: the request goes upstream
    | _, _ => some w
  | .get_miss_handler key cacheMeta =>
    match Cache.get_miss_handler ops key cacheMeta with
    | .ok miss =>
      some { w with
        responses := w.responses + 1
        fills := ⟨⟨w.responses, cacheMeta, []⟩, miss⟩ :: w.fills }
    | .error _ => some w
  | .write_body f data => if f ∈ w.fills then some (w.wrote f data) else none
  | .finish f => if f ∈ w.fills then some (w.finished f) else none
  | .drop f =>
    if f ∈ w.fills then
      some { w with storage := Cache.drop w.storage f.miss, fills := w.fills.erase f }
    else none
  | .update_meta q answer => if q ∈ w.requests then some (w.updated ops q answer) else none
  | .purge key => some (w.purge key)
  | .evict key =>
    some { w with
      storage := remove w.storage key
      origin := Function.update w.origin key none }

/-- An empty storage and no request. -/
def empty (max_object_bytes max_fill_bytes : ℕ) : World Key CacheMeta where
  storage := ⟨fun _ => none, max_object_bytes, 0, max_fill_bytes⟩
  origin := fun _ => none
  responses := 0
  fills := []
  requests := []
  purged := []

end System

/-! ## The origins tell the truth -/

/-- A meta that came from `first` by any number of 304s, stores and lookups. -/
inductive Derived (ops : MetaOps CacheMeta NotModified) (first : CacheMeta) : CacheMeta → Prop
  | stored : Derived ops first first
  | read_back {m m' : CacheMeta} {internal header : Bytes} (h : Derived ops first m)
      (hser : ops.serialize m = .ok (internal, header))
      (hde : ops.deserialize internal header = .ok m') : Derived ops first m'
  | refreshed {m : CacheMeta} (answer : NotModified) (h : Derived ops first m) :
      Derived ops first (ops.refresh m answer)

/-- The entry under `key` is what its origin says: the body is the body response's, whole,
and the halves of the meta are the meta response's, refreshed any number of times. -/
structure TrueOrigin (ops : MetaOps CacheMeta NotModified) (e : Entry) (o : Origin CacheMeta) :
    Prop where
  body : e.body = o.body_from.body
  halves : ∃ m, Derived ops o.meta_from.cacheMeta m ∧ ops.serialize m = .ok (e.internal, e.header)

/-- What is kept beside the storage says what is in it. -/
structure Faithful (ops : MetaOps CacheMeta NotModified) (w : World Key CacheMeta) : Prop where
  known : ∀ key e, w.storage.entries key = some e →
    ∃ o, w.origin key = some o ∧ TrueOrigin ops e o
  absent : ∀ key, w.storage.entries key = none → w.origin key = none
  fills : ∀ f ∈ w.fills,
    ops.serialize f.response.cacheMeta = .ok (f.miss.internal, f.miss.header)
      ∧ (f.miss.too_large = false → f.miss.body = f.response.body)
  requests : ∀ q ∈ w.requests, Derived ops q.response.cacheMeta q.cached

section Truth

variable {ops : MetaOps CacheMeta NotModified}

theorem faithful_empty (max_object_bytes max_fill_bytes : ℕ) :
    Faithful ops (empty max_object_bytes max_fill_bytes : World Key CacheMeta) where
  known _ _ h := nomatch h
  absent _ _ := rfl
  fills _ h := nomatch h
  requests _ h := nomatch h

/-- Nothing but the entries, the origins, the fills and the requests matters. -/
theorem faithful_same {w : World Key CacheMeta} (hw : Faithful ops w) {w' : World Key CacheMeta}
    (hentries : w'.storage.entries = w.storage.entries) (horigin : w'.origin = w.origin)
    (hfills : ∀ f ∈ w'.fills,
      ops.serialize f.response.cacheMeta = .ok (f.miss.internal, f.miss.header)
        ∧ (f.miss.too_large = false → f.miss.body = f.response.body))
    (hrequests : ∀ q ∈ w'.requests, Derived ops q.response.cacheMeta q.cached) :
    Faithful ops w' where
  known := by
    rw [hentries, horigin]
    exact hw.known
  absent := by
    rw [hentries, horigin]
    exact hw.absent
  fills := hfills
  requests := hrequests

/-- A lookup that hits is given a meta of the response its origin names. -/
theorem lookup_derived {w : World Key CacheMeta} (hw : Faithful ops w) {key : Key}
    {cached : CacheMeta} {hit : Hit} {o : Origin CacheMeta}
    (hl : Cache.lookup ops w.storage key = .ok (some (cached, hit)))
    (ho : w.origin key = some o) :
    Derived ops o.meta_from.cacheMeta cached ∧ hit.body = o.body_from.body := by
  obtain ⟨e, he, hde, hbody⟩ := lookup_hit ops _ _ hl
  obtain ⟨o', ho', htrue⟩ := hw.known key e he
  obtain rfl : o = o' := Option.some.inj (ho.symm.trans ho')
  obtain ⟨m, hm, hser⟩ := htrue.halves
  exact ⟨.read_back hm hser hde, hbody.trans htrue.body⟩

variable [DecidableEq Key]

/-- Forgetting a key on both sides keeps the two in step. -/
theorem faithful_forget {w : World Key CacheMeta} (hw : Faithful ops w) (key : Key)
    {w' : World Key CacheMeta}
    (hentries : w'.storage.entries = Function.update w.storage.entries key none)
    (horigin : w'.origin = Function.update w.origin key none) (hfills : w'.fills = w.fills)
    (hrequests : w'.requests = w.requests) : Faithful ops w' where
  known := by
    intro other e he
    rw [hentries] at he
    rw [horigin]
    by_cases h : other = key
    · subst h
      simp at he
    · rw [Function.update_of_ne h] at he ⊢
      exact hw.known other e he
  absent := by
    intro other he
    rw [hentries] at he
    rw [horigin]
    by_cases h : other = key
    · subst h
      simp
    · rw [Function.update_of_ne h] at he ⊢
      exact hw.absent other he
  fills := by
    rw [hfills]
    exact hw.fills
  requests := by
    rw [hrequests]
    exact hw.requests

/-- Storing an entry and its origin together keeps the two in step. -/
theorem faithful_insert {w : World Key CacheMeta} (hw : Faithful ops w) (key : Key) {e : Entry}
    {o : Origin CacheMeta} (ho : TrueOrigin ops e o) {w' : World Key CacheMeta}
    (hentries : w'.storage.entries = Function.update w.storage.entries key (some e))
    (horigin : w'.origin = Function.update w.origin key (some o))
    (hfills : ∀ f ∈ w'.fills, f ∈ w.fills) (hrequests : ∀ q ∈ w'.requests, q ∈ w.requests) :
    Faithful ops w' where
  known := by
    intro other e' he
    rw [hentries] at he
    rw [horigin]
    by_cases h : other = key
    · subst h
      rw [Function.update_self] at he ⊢
      obtain rfl := Option.some.inj he
      exact ⟨o, rfl, ho⟩
    · rw [Function.update_of_ne h] at he ⊢
      exact hw.known other e' he
  absent := by
    intro other he
    rw [hentries] at he
    rw [horigin]
    by_cases h : other = key
    · subst h
      simp at he
    · rw [Function.update_of_ne h] at he ⊢
      exact hw.absent other he
  fills f hf := hw.fills f (hfills f hf)
  requests q hq := hw.requests q (hrequests q hq)

variable [DecidableEq CacheMeta]

theorem faithful_finished {w : World Key CacheMeta} (hw : Faithful ops w)
    {f : Fill Key CacheMeta} (hf : f ∈ w.fills) : Faithful ops (w.finished f) := by
  obtain ⟨hser, hbody⟩ := hw.fills f hf
  -- An abandoned fill stores nothing; any other has every byte it was sent.
  rcases finish_cases w.storage f.miss with ⟨hlarge, hs⟩ | ⟨hlarge, hs⟩
  · refine faithful_same hw ?_ ?_ (fun g hg => hw.fills g (List.mem_of_mem_erase hg)) hw.requests
    · simp [World.finished, hs]
    · simp [World.finished, hlarge]
  · refine faithful_insert hw f.miss.key (e := ⟨f.miss.internal, f.miss.header, f.miss.body⟩)
      (o := ⟨f.response, f.response⟩) ⟨hbody hlarge, _, .stored, hser⟩ ?_ ?_
      (fun g hg => List.mem_of_mem_erase hg) (fun _ hq => hq)
    · simp [World.finished, hs]
    · simp [World.finished, hlarge]

theorem faithful_updated {w : World Key CacheMeta} (hw : Faithful ops w)
    {q : Revalidation Key CacheMeta} (hq : q ∈ w.requests) (answer : NotModified) :
    Faithful ops (w.updated ops q answer) := by
  have hsub : ∀ r ∈ w.requests.erase q, r ∈ w.requests := fun r hr => List.mem_of_mem_erase hr
  rcases update_meta_cases ops w.storage q.key (ops.refresh q.cached answer) with
    ⟨r, hr, hne, -⟩ | ⟨e, internal, header, he, hser, hr⟩
  · refine faithful_same hw ?_ ?_ hw.fills fun r hr => hw.requests r (hsub r hr)
    · simp [World.updated, hr]
    · simp [World.updated, hr]
  · -- The body stays the one that was found, and keeps its origin.
    obtain ⟨o, ho, htrue⟩ := hw.known q.key e he
    refine faithful_insert hw q.key (e := ⟨internal, header, e.body⟩)
      (o := { o with meta_from := q.response })
      ⟨htrue.body, _, .refreshed answer (hw.requests q hq), hser⟩ ?_ ?_ (fun _ hf => hf) hsub
    · simp [World.updated, hr]
    · simp [World.updated, hr, ho]

theorem faithful_wrote {w : World Key CacheMeta} (hw : Faithful ops w)
    {f : Fill Key CacheMeta} (hf : f ∈ w.fills) (data : Bytes) : Faithful ops (w.wrote f data) := by
  obtain ⟨hser, hbody⟩ := hw.fills f hf
  obtain ⟨hentries, -, hinternal, hheader⟩ := write_body_keeps w.storage f.miss data
  refine faithful_same hw hentries rfl ?_ hw.requests
  intro g hg
  rcases List.mem_cons.mp hg with rfl | hg
  · refine ⟨?_, ?_⟩
    · rw [hinternal, hheader]
      exact hser
    · intro hlarge
      obtain ⟨hlarge', hbytes⟩ := write_body_body _ _ hlarge
      rw [hbytes, hbody hlarge']
  · exact hw.fills g (List.mem_of_mem_erase hg)

theorem step_faithful {w w' : World Key CacheMeta} {e : Event Key CacheMeta NotModified}
    (hw : Faithful ops w) (h : step ops w e = some w') : Faithful ops w' := by
  cases e with
  | lookup key =>
    simp only [step] at h
    split at h
    · rename_i hl ho
      obtain rfl := Option.some.inj h
      refine faithful_same hw rfl rfl hw.fills ?_
      intro q hq
      rcases List.mem_cons.mp hq with rfl | hq
      · exact (lookup_derived hw hl ho).1
      · exact hw.requests q hq
    · obtain rfl := Option.some.inj h
      exact hw
  | get_miss_handler key cacheMeta =>
    simp only [step] at h
    split at h
    · rename_i hm
      obtain rfl := Option.some.inj h
      refine faithful_same hw rfl rfl ?_ hw.requests
      intro f hf
      rcases List.mem_cons.mp hf with rfl | hf
      · obtain ⟨hser, -, hbody, -⟩ := get_miss_handler_ok ops _ _ hm
        exact ⟨hser, fun _ => hbody⟩
      · exact hw.fills f hf
    · obtain rfl := Option.some.inj h
      exact hw
  | write_body f data =>
    obtain ⟨hf, rfl⟩ := eq_of_guarded h
    exact faithful_wrote hw hf data
  | finish f =>
    obtain ⟨hf, rfl⟩ := eq_of_guarded h
    exact faithful_finished hw hf
  | drop f =>
    obtain ⟨-, rfl⟩ := eq_of_guarded h
    exact faithful_same hw (by simp) rfl (fun g hg => hw.fills g (List.mem_of_mem_erase hg))
      hw.requests
  | update_meta q answer =>
    obtain ⟨hq, rfl⟩ := eq_of_guarded h
    exact faithful_updated hw hq answer
  | purge key =>
    obtain rfl := Option.some.inj h
    refine faithful_forget hw key ?_ rfl rfl rfl
    -- A purge removes the entry, or there was none.
    show (Cache.purge w.storage key).2.entries = _
    unfold Cache.purge
    cases he : w.storage.entries key with
    | none => exact (Function.update_eq_self_iff.mpr he.symm).symm
    | some e => rfl
  | evict key =>
    obtain rfl := Option.some.inj h
    exact faithful_forget hw key rfl rfl rfl rfl

end Truth

/-! ## Which response is whose -/

/-- A response that is no longer arriving. -/
def World.published (w : World Key CacheMeta) (id : ℕ) : Prop :=
  id < w.responses ∧ ∀ f ∈ w.fills, f.response.id ≠ id

/-- Every response but those still arriving is published, each is being stored once, and
its body is under one key at most. -/
structure Distinct (w : World Key CacheMeta) : Prop where
  bounded : ∀ f ∈ w.fills, f.response.id < w.responses
  fills : w.fills.Pairwise fun f g => f.response.id ≠ g.response.id
  origins : ∀ key o, w.origin key = some o →
    w.published o.meta_from.id ∧ w.published o.body_from.id
  requests : ∀ q ∈ w.requests, w.published q.response.id
  purged : ∀ id ∈ w.purged, w.published id
  apart : ∀ key key' o o', w.origin key = some o → w.origin key' = some o' →
    o.body_from.id = o'.body_from.id → key = key'

/-- Under every key, the meta and the body are of one response, and that response was
never purged. -/
def Paired (w : World Key CacheMeta) : Prop :=
  ∀ key o, w.origin key = some o →
    o.meta_from = o.body_from ∧ o.meta_from.id ∉ w.purged ∧ o.body_from.id ∉ w.purged

/-- Every entry a lookup can see: its meta and its body are what one response brought,
and that response's entry was not purged. -/
def Consistent (ops : MetaOps CacheMeta NotModified) (w : World Key CacheMeta) : Prop :=
  ∀ key e, w.storage.entries key = some e →
    ∃ r : Response CacheMeta, w.origin key = some ⟨r, r⟩ ∧ TrueOrigin ops e ⟨r, r⟩
      ∧ r.id ∉ w.purged

/-- If the update of `q` replaces an entry at all, the body it finds is that of the response
its own lookup returned. -/
def finds_its_body (ops : MetaOps CacheMeta NotModified) (w : World Key CacheMeta) :
    Event Key CacheMeta NotModified → Prop
  | .update_meta q answer =>
    ∀ halves, ops.serialize (ops.refresh q.cached answer) = .ok halves →
      ∀ o ∈ w.origin q.key, o.body_from = q.response
  | _ => True

section Pairing

theorem distinct_empty (max_object_bytes max_fill_bytes : ℕ) :
    Distinct (empty max_object_bytes max_fill_bytes : World Key CacheMeta) where
  bounded _ h := nomatch h
  fills := .nil
  origins _ _ h := nomatch h
  requests _ h := nomatch h
  purged _ h := nomatch h
  apart _ _ _ _ h := nomatch h

theorem paired_empty (max_object_bytes max_fill_bytes : ℕ) :
    Paired (empty max_object_bytes max_fill_bytes : World Key CacheMeta) :=
  fun _ _ h => nomatch h

theorem consistent_iff_paired {ops : MetaOps CacheMeta NotModified}
    {w : World Key CacheMeta} (hf : Faithful ops w) :
    Consistent ops w ↔ Paired w := by
  constructor
  · intro hc key o ho
    cases he : w.storage.entries key with
    | none =>
      rw [hf.absent key he] at ho
      cases ho
    | some e =>
      obtain ⟨r, hr, -, hkept⟩ := hc key e he
      obtain rfl : o = ⟨r, r⟩ := Option.some.inj (ho.symm.trans hr)
      exact ⟨rfl, hkept, hkept⟩
  · intro hp key e he
    obtain ⟨⟨r, r'⟩, ho, htrue⟩ := hf.known key e he
    obtain ⟨heq, hkept, -⟩ := hp key _ ho
    obtain rfl : r = r' := heq
    exact ⟨r, ho, htrue, hkept⟩

/-- Fewer fills leave more responses published. -/
theorem published_mono {w w' : World Key CacheMeta}
    (hfills : ∀ f ∈ w'.fills, ∃ g ∈ w.fills, g.response.id = f.response.id)
    (hn : w'.responses = w.responses) {id : ℕ} (h : w.published id) : w'.published id := by
  refine ⟨hn.symm ▸ h.1, ?_⟩
  intro f hf heq
  obtain ⟨g, hg, hid⟩ := hfills f hf
  exact h.2 g hg (hid.trans heq)

/-- A step that publishes what was published, and moves no body, keeps responses apart. -/
theorem distinct_same {w w' : World Key CacheMeta} (hw : Distinct w)
    (hpub : ∀ id, w.published id → w'.published id)
    (hbounded : ∀ f ∈ w'.fills, f.response.id < w'.responses)
    (hfills : w'.fills.Pairwise fun f g => f.response.id ≠ g.response.id)
    (horigin : ∀ key o, w'.origin key = some o → w.published o.meta_from.id
      ∧ ∃ o₀, w.origin key = some o₀ ∧ o.body_from = o₀.body_from)
    (hrequests : ∀ q ∈ w'.requests, w.published q.response.id)
    (hpurged : ∀ id ∈ w'.purged, w.published id) : Distinct w' where
  bounded := hbounded
  fills := hfills
  origins := by
    intro key o ho
    obtain ⟨hmeta, o₀, ho₀, hbody⟩ := horigin key o ho
    exact ⟨hpub _ hmeta, hbody ▸ hpub _ (hw.origins key o₀ ho₀).2⟩
  requests q hq := hpub _ (hrequests q hq)
  purged id hid := hpub _ (hpurged id hid)
  apart := by
    intro key key' o o' ho ho' heq
    obtain ⟨-, p, hp, hbody⟩ := horigin key o ho
    obtain ⟨-, p', hp', hbody'⟩ := horigin key' o' ho'
    exact hw.apart key key' p p' hp hp' (by rw [← hbody, ← hbody', heq])

variable [DecidableEq Key]

/-- What is known after forgetting a key was known of another. -/
theorem origin_of_forget {w : World Key CacheMeta} {key : Key}
    {origin : Key → Option (Origin CacheMeta)}
    (horigin : origin = Function.update w.origin key none) {other : Key}
    {o : Origin CacheMeta} (ho : origin other = some o) :
    other ≠ key ∧ w.origin other = some o := by
  rw [horigin, Function.update_apply] at ho
  split at ho
  · cases ho
  · rename_i hne
    exact ⟨hne, ho⟩

/-- Forgetting a key keeps responses apart, whatever published ones are noted as purged. -/
theorem distinct_forget {w w' : World Key CacheMeta} (hw : Distinct w) (key : Key)
    (horigin : w'.origin = Function.update w.origin key none) (hfills : w'.fills = w.fills)
    (hn : w'.responses = w.responses) (hrequests : w'.requests = w.requests)
    (hpurged : ∀ id ∈ w'.purged, w.published id) : Distinct w' := by
  refine distinct_same hw ?_ ?_ ?_ ?_ ?_ hpurged
  · intro id h
    rw [World.published, hn, hfills]
    exact h
  · rw [hn, hfills]
    exact hw.bounded
  · rw [hfills]
    exact hw.fills
  · intro other o ho
    rw [horigin, Function.update_apply] at ho
    split at ho
    · cases ho
    · exact ⟨(hw.origins other o ho).1, o, ho, rfl⟩
  · rw [hrequests]
    exact hw.requests

theorem purge_purged {w : World Key CacheMeta} {key : Key} {id : ℕ} :
    id ∈ (w.purge key).purged ↔
      (∃ o, w.origin key = some o ∧ (id = o.meta_from.id ∨ id = o.body_from.id))
        ∨ id ∈ w.purged := by
  cases ho : w.origin key <;> simp [World.purge, ho, or_assoc]

variable [DecidableEq CacheMeta] {ops : MetaOps CacheMeta NotModified}

/-- A fill taken out of the list leaves no other fill of its response. -/
theorem fills_erase {w : World Key CacheMeta} (hw : Distinct w) {f : Fill Key CacheMeta}
    (hf : f ∈ w.fills) :
    (∀ g ∈ w.fills.erase f, f.response.id ≠ g.response.id)
      ∧ (w.fills.erase f).Pairwise fun f g => f.response.id ≠ g.response.id := by
  -- The list is a permutation of `f` and the rest, and the relation is symmetric.
  have h := ((List.perm_cons_erase hf).pairwise_iff fun h => h.symm).mp hw.fills
  exact List.pairwise_cons.mp h

theorem distinct_wrote {w : World Key CacheMeta} (hw : Distinct w) {f : Fill Key CacheMeta}
    (hf : f ∈ w.fills) (data : Bytes) : Distinct (w.wrote f data) := by
  obtain ⟨hne, hpair⟩ := fills_erase hw hf
  have hold : ∀ g ∈ (w.wrote f data).fills, ∃ g' ∈ w.fills, g'.response.id = g.response.id := by
    intro g hg
    rcases List.mem_cons.mp hg with rfl | hg
    · exact ⟨f, hf, rfl⟩
    · exact ⟨g, List.mem_of_mem_erase hg, rfl⟩
  refine distinct_same hw (fun id => published_mono hold rfl) (fun g hg => ?_)
    (List.pairwise_cons.mpr ⟨hne, hpair⟩)
    (fun key o ho => ⟨(hw.origins key o ho).1, o, ho, rfl⟩) hw.requests hw.purged
  obtain ⟨g', hg', hid⟩ := hold g hg
  exact hid ▸ hw.bounded g' hg'

theorem distinct_finished {w : World Key CacheMeta} (hw : Distinct w) {f : Fill Key CacheMeta}
    (hf : f ∈ w.fills) : Distinct (w.finished f) := by
  obtain ⟨hne, hpair⟩ := fills_erase hw hf
  have hold : ∀ g ∈ (w.finished f).fills, ∃ g' ∈ w.fills, g'.response.id = g.response.id :=
    fun g hg => ⟨g, List.mem_of_mem_erase hg, rfl⟩
  have hpub : ∀ id, w.published id → (w.finished f).published id :=
    fun id => published_mono hold rfl
  have hbounded : ∀ g ∈ (w.finished f).fills, g.response.id < (w.finished f).responses :=
    fun g hg => hw.bounded g (List.mem_of_mem_erase hg)
  cases hlarge : f.miss.too_large with
  | true =>
    have horigin : (w.finished f).origin = w.origin := by simp [World.finished, hlarge]
    refine distinct_same hw hpub hbounded hpair ?_ hw.requests hw.purged
    intro key o ho
    rw [horigin] at ho
    exact ⟨(hw.origins key o ho).1, o, ho, rfl⟩
  | false =>
    have horigin : (w.finished f).origin
        = Function.update w.origin f.miss.key (some ⟨f.response, f.response⟩) := by
      simp [World.finished, hlarge]
    -- The response is published now: its only fill is gone.
    have hself : (w.finished f).published f.response.id :=
      ⟨hw.bounded f hf, fun g hg => (hne g hg).symm⟩
    have hcases : ∀ key o, (w.finished f).origin key = some o →
        (key = f.miss.key ∧ o = ⟨f.response, f.response⟩) ∨ w.origin key = some o := by
      intro key o ho
      rw [horigin, Function.update_apply] at ho
      split at ho
      · rename_i hkey
        exact .inl ⟨hkey, (Option.some.inj ho).symm⟩
      · exact .inr ho
    refine ⟨hbounded, hpair, fun key o ho => ?_, fun q hq => hpub _ (hw.requests q hq),
      fun id hid => hpub _ (hw.purged id hid), fun key key' o o' ho ho' heq => ?_⟩
    · rcases hcases key o ho with ⟨-, rfl⟩ | ho
      · exact ⟨hself, hself⟩
      · exact ⟨hpub _ (hw.origins key o ho).1, hpub _ (hw.origins key o ho).2⟩
    · -- the new body's response was still arriving, so no other key has it
      rcases hcases key o ho with ⟨hk, rfl⟩ | ho <;> rcases hcases key' o' ho' with ⟨hk', rfl⟩ | ho'
      · rw [hk, hk']
      · exact absurd heq ((hw.origins key' o' ho').2.2 f hf)
      · exact absurd heq.symm ((hw.origins key o ho).2.2 f hf)
      · exact hw.apart key key' o o' ho ho' heq

/-- What an update leaves: the origins as they were, or the one under its key with its
meta's response replaced by the request's. -/
theorem updated_origin {w : World Key CacheMeta} (hw : Faithful ops w)
    (q : Revalidation Key CacheMeta) (answer : NotModified) :
    ((w.updated ops q answer).origin = w.origin
      ∧ ∀ halves, ops.serialize (ops.refresh q.cached answer) = .ok halves →
        w.origin q.key = none) ∨
    ∃ o halves, w.origin q.key = some o
      ∧ ops.serialize (ops.refresh q.cached answer) = .ok halves
      ∧ (w.updated ops q answer).origin
          = Function.update w.origin q.key (some { o with meta_from := q.response }) := by
  rcases update_meta_cases ops w.storage q.key (ops.refresh q.cached answer) with
    ⟨r, hr, hne, hnone⟩ | ⟨e, internal, header, he, hser, hr⟩
  · refine .inl ⟨?_, fun halves h => hw.absent _ (hnone halves h)⟩
    simp [World.updated, hr]
  · obtain ⟨o, ho, -⟩ := hw.known q.key e he
    refine .inr ⟨o, (internal, header), ho, hser, ?_⟩
    simp [World.updated, hr, ho]

theorem distinct_updated {w : World Key CacheMeta} (hf : Faithful ops w) (hw : Distinct w)
    {q : Revalidation Key CacheMeta} (hq : q ∈ w.requests) (answer : NotModified) :
    Distinct (w.updated ops q answer) := by
  refine distinct_same hw (fun _ h => h) hw.bounded hw.fills (fun key o ho => ?_)
    (fun r hr => hw.requests r (List.mem_of_mem_erase hr)) hw.purged
  rcases updated_origin hf q answer with ⟨hsame, -⟩ | ⟨o₀, halves, ho₀, -, hupd⟩
  · rw [hsame] at ho
    exact ⟨(hw.origins key o ho).1, o, ho, rfl⟩
  · rw [hupd, Function.update_apply] at ho
    split at ho
    · rename_i hkey
      obtain rfl := Option.some.inj ho
      exact ⟨hw.requests q hq, o₀, hkey ▸ ho₀, rfl⟩
    · exact ⟨(hw.origins key o ho).1, o, ho, rfl⟩

theorem step_distinct {w w' : World Key CacheMeta} {e : Event Key CacheMeta NotModified}
    (hf : Faithful ops w) (hw : Distinct w) (h : step ops w e = some w') : Distinct w' := by
  cases e with
  | lookup key =>
    simp only [step] at h
    split at h
    · rename_i ho
      obtain rfl := Option.some.inj h
      refine distinct_same hw (fun _ h => h) hw.bounded hw.fills
        (fun key o ho => ⟨(hw.origins key o ho).1, o, ho, rfl⟩) (fun q hq => ?_) hw.purged
      rcases List.mem_cons.mp hq with rfl | hq
      · exact (hw.origins _ _ ho).1
      · exact hw.requests q hq
    · obtain rfl := Option.some.inj h
      exact hw
  | get_miss_handler key cacheMeta =>
    simp only [step] at h
    split at h
    · obtain rfl := Option.some.inj h
      refine distinct_same hw (fun id h => ⟨Nat.lt_succ_of_lt h.1, fun f hf => ?_⟩)
        (fun f hf => ?_) (List.pairwise_cons.mpr ⟨fun f hf => ?_, hw.fills⟩)
        (fun key o ho => ⟨(hw.origins key o ho).1, o, ho, rfl⟩) hw.requests hw.purged
      · rcases List.mem_cons.mp hf with rfl | hf
        · exact Nat.ne_of_gt h.1
        · exact h.2 f hf
      · rcases List.mem_cons.mp hf with rfl | hf
        · exact Nat.lt_succ_self _
        · exact Nat.lt_succ_of_lt (hw.bounded f hf)
      · exact Nat.ne_of_gt (hw.bounded f hf)
    · obtain rfl := Option.some.inj h
      exact hw
  | write_body f data =>
    obtain ⟨hmem, rfl⟩ := eq_of_guarded h
    exact distinct_wrote hw hmem data
  | finish f =>
    obtain ⟨hmem, rfl⟩ := eq_of_guarded h
    exact distinct_finished hw hmem
  | drop f =>
    obtain ⟨hmem, rfl⟩ := eq_of_guarded h
    refine distinct_same hw (fun id h => ⟨h.1, fun g hg => h.2 g (List.mem_of_mem_erase hg)⟩)
      (fun g hg => hw.bounded g (List.mem_of_mem_erase hg)) (fills_erase hw hmem).2
      (fun key o ho => ⟨(hw.origins key o ho).1, o, ho, rfl⟩) hw.requests hw.purged
  | update_meta q answer =>
    obtain ⟨hq, rfl⟩ := eq_of_guarded h
    exact distinct_updated hf hw hq answer
  | purge key =>
    obtain rfl := Option.some.inj h
    refine distinct_forget hw key rfl rfl rfl rfl ?_
    intro id hid
    rcases purge_purged.mp hid with ⟨o, ho, rfl | rfl⟩ | hid
    · exact (hw.origins key o ho).1
    · exact (hw.origins key o ho).2
    · exact hw.purged id hid
  | evict key =>
    obtain rfl := Option.some.inj h
    exact distinct_forget hw key rfl rfl rfl rfl hw.purged

/-! ## The halves stay paired -/

/-- A published response is the whole of its entry. -/
theorem paired_finished {w : World Key CacheMeta} (hd : Distinct w) (hw : Paired w)
    {f : Fill Key CacheMeta} (hmem : f ∈ w.fills) : Paired (w.finished f) := by
  intro key o ho
  simp only [World.finished] at ho
  split at ho
  · exact hw key o ho
  · rw [Function.update_apply] at ho
    split at ho
    · obtain rfl := Option.some.inj ho
      -- Only published responses are purged, and this one was still arriving.
      have hnew : f.response.id ∉ w.purged := fun hid => (hd.purged _ hid).2 f hmem rfl
      exact ⟨rfl, hnew, hnew⟩
    · exact hw key o ho

omit [DecidableEq CacheMeta] in
theorem paired_purge {w : World Key CacheMeta} (hd : Distinct w) (hw : Paired w) (key : Key) :
    Paired (w.purge key) := by
  intro other o ho
  obtain ⟨hne, ho⟩ := origin_of_forget rfl ho
  obtain ⟨heq, hmeta, hbody⟩ := hw other o ho
  -- No response has a body under two keys, so this one was not purged with that entry.
  have hkept : o.body_from.id ∉ (w.purge key).purged := by
    intro hid
    rcases purge_purged.mp hid with ⟨o', ho', hid⟩ | hid
    · rw [(hw key o' ho').1, or_self] at hid
      exact hne (hd.apart _ _ _ _ ho ho' hid)
    · exact hbody hid
  exact ⟨heq, heq ▸ hkept, hkept⟩

/-- An update pairs the entry with the body that is there. -/
theorem paired_updated {w : World Key CacheMeta} (hf : Faithful ops w) (hw : Paired w)
    {q : Revalidation Key CacheMeta} {answer : NotModified} :
    Paired (w.updated ops q answer) ↔ finds_its_body ops w (.update_meta q answer) := by
  rcases updated_origin hf q answer with ⟨hsame, hnone⟩ | ⟨o, halves, ho, hser, hupd⟩
  · apply iff_of_true (fun key o ho => hw key o (hsame ▸ ho))
    intro halves h o ho
    rw [hnone halves h] at ho
    cases ho
  · constructor
    · intro hpaired halves' _ o' ho'
      -- The meta is the request's own now, so the body has to be too.
      obtain rfl : o = o' := Option.some.inj (ho.symm.trans ho')
      have h := hpaired q.key { o with meta_from := q.response } (by
        rw [hupd, Function.update_self])
      exact h.1.symm
    · intro hfinds key o' ho'
      rw [hupd, Function.update_apply] at ho'
      split at ho'
      · obtain rfl := Option.some.inj ho'
        have hbody : o.body_from = q.response := hfinds halves hser o ho
        have hkept := (hw q.key o ho).2.2
        exact ⟨hbody.symm, hbody ▸ hkept, hkept⟩
      · exact hw key o' ho'

/-- A step keeps every entry paired exactly when an update finds its own body. -/
theorem step_paired {w w' : World Key CacheMeta} {e : Event Key CacheMeta NotModified}
    (hf : Faithful ops w) (hd : Distinct w) (hw : Paired w) (h : step ops w e = some w') :
    Paired w' ↔ finds_its_body ops w e := by
  cases e with
  | lookup key =>
    refine iff_of_true ?_ trivial
    simp only [step] at h
    split at h <;> (obtain rfl := Option.some.inj h; exact hw)
  | get_miss_handler key cacheMeta =>
    refine iff_of_true ?_ trivial
    simp only [step] at h
    split at h <;> (obtain rfl := Option.some.inj h; exact hw)
  | write_body f data =>
    refine iff_of_true ?_ trivial
    obtain ⟨-, rfl⟩ := eq_of_guarded h
    exact hw
  | drop f =>
    refine iff_of_true ?_ trivial
    obtain ⟨-, rfl⟩ := eq_of_guarded h
    exact hw
  | finish f =>
    refine iff_of_true ?_ trivial
    obtain ⟨hmem, rfl⟩ := eq_of_guarded h
    exact paired_finished hd hw hmem
  | purge key =>
    refine iff_of_true ?_ trivial
    obtain rfl := Option.some.inj h
    exact paired_purge hd hw key
  | evict key =>
    refine iff_of_true ?_ trivial
    intro other o ho
    obtain rfl := Option.some.inj h
    exact hw other o (origin_of_forget rfl ho).2
  | update_meta q answer =>
    obtain ⟨-, rfl⟩ := eq_of_guarded h
    exact paired_updated hf hw

/-- **Metadata and body stay paired.** After every step of a run every visible entry is
one response's, and not a purged one's, if and only if every update of the run that
replaces an entry finds the body of the response its own request had looked up. -/
theorem consistent_iff_finds_its_body (ops : MetaOps CacheMeta NotModified)
    (max_object_bytes max_fill_bytes : ℕ) (es : List (Event Key CacheMeta NotModified))
    (w : World Key CacheMeta)
    (hrun : run (step ops) (empty max_object_bytes max_fill_bytes) es = some w) :
    Along (step ops) (fun v e => ∀ v' ∈ step ops v e, Consistent ops v')
        (empty max_object_bytes max_fill_bytes) es
      ↔ Along (step ops) (finds_its_body ops) (empty max_object_bytes max_fill_bytes) es := by
  -- Faithfulness turns entries into origins; pairing is then an invariant kept exactly by
  -- the updates that find their body.
  refine (along_congr (I := fun w => Faithful ops w ∧ Distinct w ∧ Paired w)
    ⟨faithful_empty _ _, distinct_empty _ _, paired_empty _ _⟩ ?_ ?_ hrun).symm
  · rintro v e v' ⟨hf, hd, hp⟩ hok hstep
    exact ⟨step_faithful hf hstep, step_distinct hf hd hstep, (step_paired hf hd hp hstep).mpr hok⟩
  · rintro v e v' ⟨hf, hd, hp⟩ hstep
    rw [← step_paired hf hd hp hstep, ← consistent_iff_paired (step_faithful hf hstep), hstep]
    simp

end Pairing

/-- A meta that is its own header, to which a 304 appends its own. -/
def plain : MetaOps Bytes Bytes where
  serialize m := .ok ([], m)
  deserialize _ header := .ok header
  refresh m answer := m ++ answer

/-- A response with header `h` and body `b`, number `id`, fills key 0. -/
def filled (id : ℕ) (h b : UInt8) : List (Event ℕ Bytes Bytes) :=
  [.get_miss_handler 0 [h],
    .write_body ⟨⟨id, [h], []⟩, ⟨0, [], [h], [], false⟩⟩ [b],
    .finish ⟨⟨id, [h], [b]⟩, ⟨0, [], [h], [b], false⟩⟩]

/-- A stale hit is revalidated while nothing else happens. -/
def revalidated_run : List (Event ℕ Bytes Bytes) :=
  filled 0 1 1 ++ [.lookup 0, .update_meta ⟨0, [1], ⟨0, [1], [1]⟩⟩ [3]]

theorem consistent_iff_finds_its_body_revalidated :
    Along (step plain) (fun v e => ∀ v' ∈ step plain v e, Consistent plain v') (empty 100 100)
        revalidated_run
      ↔ Along (step plain) (finds_its_body plain) (empty 100 100) revalidated_run := by
  obtain ⟨w, hw⟩ : ∃ w, run (step plain) (empty 100 100) revalidated_run = some w :=
    Option.isSome_iff_exists.mp (by decide)
  exact consistent_iff_finds_its_body plain 100 100 revalidated_run w hw

/-- A stale hit is revalidated, but a second request fills the key before its 304 is
stored. -/
def overtaken_run : List (Event ℕ Bytes Bytes) :=
  filled 0 1 1 ++ [.lookup 0] ++ filled 1 2 2 ++ [.update_meta ⟨0, [1], ⟨0, [1], [1]⟩⟩ [3]]

/-- The first response's refreshed header ends up on the second one's body. -/
theorem consistent_overtaken :
    ¬ ∀ (ops : MetaOps Bytes Bytes) (max_object_bytes max_fill_bytes : ℕ)
      (es : List (Event ℕ Bytes Bytes)) (w : World ℕ Bytes),
      run (step ops) (empty max_object_bytes max_fill_bytes) es = some w →
        Consistent ops w := by
  intro hall
  have hfacts : (run (step plain) (empty 100 100) overtaken_run).map
      (fun w => (w.storage.entries 0, w.origin 0))
      = some (some ⟨[], [1, 3], [2]⟩, some ⟨⟨0, [1], [1]⟩, ⟨1, [2], [2]⟩⟩) := by decide
  obtain ⟨w, hw, heq⟩ := Option.map_eq_some_iff.mp hfacts
  rw [Prod.mk.injEq] at heq
  -- One response would have to be both the first and the second.
  obtain ⟨r, hr, -⟩ := hall plain 100 100 overtaken_run w hw 0 _ heq.1
  rw [heq.2, Option.some.injEq, Origin.mk.injEq] at hr
  exact absurd (hr.1.trans hr.2.symm) (by decide)

end Lagos.Cache
