/-
Token-signing keys, fetched and cached (`auth/jwks.rs`).

Any number of tasks call `key_for` on one cache. A step is what a task does up to the next
point where others can get in between: where it is suspended, waiting for a lock, for the
endpoint or for a message, and where it takes or leaves the mutex of the slot. A reader lets go
of the lock before it is suspended again, so the lock is free between two steps, and waiting
for it is waiting for one's turn. Between the mutex and the next suspension a task cannot be
dropped.

The fields of a task that say since when it runs and what it has checked, and the log of the
cache, are no fields of the code: they are there to speak about what happened during a call.
-/
import Lagos.Lib.RustStd
import Lagos.Lib.Run
import Mathlib.Logic.Function.Basic

set_option autoImplicit false

open RustStd

namespace Lagos.Jwks

/-! ## Errors -/

/-- `AuthError`. -/
inductive AuthError where
  | Invalid (message : String)
  | UnknownIssuer (issuer : Str)
  | Unavailable (message : String)
  deriving DecidableEq, Repr

/-- How an `AuthError` reads. -/
def AuthError.to_string : AuthError → String
  | .Invalid message => s!"invalid token: {message}"
  | .UnknownIssuer issuer => s!"unknown issuer: {text issuer}"
  | .Unavailable message => s!"verifier unavailable: {message}"

/-- `UNTRUSTED_QUOTE_CHARS`. -/
def UNTRUSTED_QUOTE_CHARS : ℕ := 64

/-- `untrusted`, where a character is written as `char::escape_debug` has it. -/
def untrusted (escape_debug : Char → Str) (value : Str) : String :=
  text ((value.take UNTRUSTED_QUOTE_CHARS).flatMap escape_debug)
    ++ if UNTRUSTED_QUOTE_CHARS < value.length then "..." else ""

/-! ## Key sets -/

/-- `MAX_KEY_SET_BYTES`. -/
def MAX_KEY_SET_BYTES : ℕ := 1024 * 1024

/-- `MAX_KEY_TTL`. -/
def MAX_KEY_TTL : Duration := 24 * 60 * 60 * NANOS_PER_SEC

/-- `key_set_ttl`. -/
def key_set_ttl (max_age : Option Duration) (min_ttl : Duration) : Duration :=
  max (min (max_age.getD min_ttl) (max MAX_KEY_TTL min_ttl)) min_ttl

/-- `Cached`. -/
structure Cached (Key : Type) where
  keys : List (Str × Key)
  expires_at : Instant
  deriving DecidableEq, Repr

/-- `Cached::is_fresh`. -/
def Cached.is_fresh {Key : Type} (cached : Cached Key) (now : Instant) : Bool :=
  cached.expires_at > now

/-- The key of an id. -/
def Cached.get {Key : Type} (cached : Cached Key) (kid : Str) : Option Key :=
  cached.keys.lookup kid

/-- An answer of the endpoint, of which only the fields that are read. -/
structure KeyResponse where
  status : ℕ
  /-- How the status reads. -/
  status_line : String
  content_length : Option ℕ
  /-- `Cache-Control`, if it is text. -/
  cache_control : Option Str
  /-- The body, as it arrives. -/
  chunks : List (Except String (List UInt8))

/-- `CertCache`, without what changes. -/
structure CertCache (Key : Type) where
  min_ttl : Duration
  stale_if_error : Duration
  /-- `parse_x509_map` or `parse_jwks`, by the format of the endpoint. -/
  parse : List UInt8 → Except AuthError (List (Str × Key))
  /-- `char::escape_debug`. -/
  escape_debug : Char → Str
  /-- The last instant that there is. -/
  last_instant : Instant

section Fetch

variable {Key : Type} (self : CertCache Key)

/-- `Instant::checked_add`. -/
def CertCache.checked_add (at_ : Instant) (d : Duration) : Option Instant :=
  if at_ + d ≤ self.last_instant then some (at_ + d) else none

/-- `Cached::key`. -/
def CertCache.key (cached : Cached Key) (kid : Str) : Except AuthError Key :=
  match cached.get kid with
  | some key => .ok key
  | none => .error (.Invalid s!"unknown signing key `{untrusted self.escape_debug kid}`")

/-- `max_age`. -/
def max_age (cache_control : Option Str) : Option Duration :=
  cache_control.bind fun cc =>
    (((split ',' cc).filterMap fun part =>
      RustStd.strip_prefix (trim part) "max-age=".toList).findSome? fun v =>
        parse_u64 (trim v)).map fun secs => secs * NANOS_PER_SEC

/-- The loop over the chunks of a body. -/
def read_chunks (raw : List UInt8) :
    List (Except String (List UInt8)) → Except AuthError (List UInt8)
  | [] => .ok raw
  | .error e :: _ => .error (.Unavailable s!"key set could not be read: {e}")
  | .ok chunk :: chunks =>
    if raw.length + chunk.length > MAX_KEY_SET_BYTES then
      .error (.Unavailable s!"key set exceeded the {MAX_KEY_SET_BYTES} byte cap")
    else read_chunks (raw ++ chunk) chunks

/-- `CertCache::fetch`, given what the endpoint answers. -/
def CertCache.fetch : Except String KeyResponse →
    Except AuthError (List (Str × Key) × Duration)
  | .error e => .error (.Unavailable s!"certificate fetch failed: {e}")
  | .ok resp =>
    if resp.status < 200 ∨ 300 ≤ resp.status then
      .error (.Unavailable s!"certificate endpoint returned {resp.status_line}")
    else
      match resp.content_length.filter fun len => MAX_KEY_SET_BYTES < len with
      | some len =>
        .error (.Unavailable (s!"key set declares {len} bytes, over the {MAX_KEY_SET_BYTES} "
          ++ "byte cap"))
      | none => do
        let raw ← read_chunks [] resp.chunks
        let keys ← self.parse raw
        if keys.isEmpty then .error (.Unavailable "no usable signing certificates")
        else .ok (keys, key_set_ttl (max_age resp.cache_control) self.min_ttl)

end Fetch

/-! ## Tasks -/

/-- Where a task is. -/
inductive Phase (Key : Type) where
  /-- It calls nothing, or was dropped. -/
  | idle
  /-- `key_for` has returned. -/
  | returned (result : Except AuthError Key)
  /-- At the first look at the set, in `key_for`. -/
  | looking
  /-- At the second one, in `refresh`. -/
  | checking
  /-- Before the mutex of the slot, having found this, which was not fresh. -/
  | electing (found : Option (Cached Key))
  /-- At `recv` of a receiver that has read this many messages of a channel. -/
  | waiting (chan position : ℕ)
  /-- The leader, at the endpoint. -/
  | fetching
  /-- The leader, before the set is written. -/
  | installing (set : Cached Key)
  /-- The leader, before the mutex of the slot. -/
  | publishing (outcome : Except AuthError Unit)
  /-- No leader any more, with the sender that it took out of the slot. -/
  | sending (notify : Option ℕ) (outcome : Except AuthError Unit)
  /-- At the set again, in `key_for`, after `refresh` has failed. -/
  | falling_back (error : AuthError)
  /-- At the set again, in `key_for`, after `refresh` has not. -/
  | rereading
  deriving DecidableEq

/-- A task, and its call of `key_for`. -/
structure Task (Key : Type) where
  kid : Str := []
  phase : Phase Key := .idle
  /-- How long the log was when it called. -/
  since : ℕ := 0
  /-- The sets that the call has checked, and when. -/
  checks : List (Cached Key × Instant) := []
  deriving DecidableEq

/-- A broadcast channel: what was sent on it, and whether its sender is gone. -/
structure Channel where
  messages : List (Except String Unit) := []
  closed : Bool := false
  deriving DecidableEq

/-- What the log remembers: the sets that were stored, and how refreshes ended. -/
inductive Entry (Key : Type) where
  | stored (set : Cached Key)
  | ended (outcome : Except AuthError Unit)
  deriving DecidableEq

/-- The cache and its tasks. -/
structure State (Key : Type) where
  now : Instant
  inner : Option (Cached Key)
  /-- The channel whose sender is in the slot. -/
  inflight : Option ℕ
  channels : List Channel
  tasks : ℕ → Task Key
  log : List (Entry Key)

/-- `CertCache::with_format`. -/
def State.new (Key : Type) (now : Instant) : State Key :=
  ⟨now, none, none, [], fun _ => {}, []⟩

section Steps

variable {Key : Type} (self : CertCache Key) (s : State Key) (t : ℕ)

/-- A task goes on to another phase. -/
def State.go (phase : Phase Key) : State Key :=
  { s with tasks := Function.update s.tasks t { s.tasks t with phase := phase } }

/-- A task checks whether the set is fresh. -/
def State.note_check : State Key :=
  { s with tasks := Function.update s.tasks t { s.tasks t with
      checks := (s.tasks t).checks ++ s.inner.toList.map fun cached => (cached, s.now) } }

/-- The set, if it is fresh. -/
def State.fresh : Option (Cached Key) := s.inner.filter fun cached => cached.is_fresh s.now

/-- The first look at the set, in `key_for`. -/
def CertCache.look : State Key :=
  match s.fresh with
  | some cached => (s.note_check t).go t (.returned (self.key cached (s.tasks t).kid))
  | none => (s.note_check t).go t .checking

/-- The second one, in `refresh`. -/
def State.check : State Key :=
  match s.fresh with
  | some _ => (s.note_check t).go t .rereading
  | none => (s.note_check t).go t (.electing s.inner)

/-- The messages of a channel. -/
def State.messages (chan : ℕ) : List (Except String Unit) :=
  (s.channels[chan]?.map Channel.messages).getD []

/-- The mutex of the slot, in `refresh`: a sender that is in it is subscribed to, and an empty
slot gets one. -/
def State.elect : State Key :=
  match s.inflight with
  | some chan => s.go t (.waiting chan (s.messages chan).length)
  | none =>
    let led : State Key :=
      { s with inflight := some s.channels.length, channels := s.channels ++ [⟨[], false⟩] }
    led.go t .fetching

/-- What is left of `key_for` when `refresh` has failed. -/
def CertCache.failed (error : AuthError) : Phase Key :=
  if self.stale_if_error = 0 then .returned (.error error) else .falling_back error

/-- `recv`. A receiver that was left behind by more than one message is told so instead, and like
one whose leader vanished it tries to become the next one. -/
def CertCache.receive (chan position : ℕ) : Option (State Key) :=
  s.channels[chan]?.bind fun channel =>
    match channel.messages.drop position with
    | [] => if channel.closed then some (s.go t .checking) else none
    | [.ok ()] => some (s.go t .rereading)
    | [.error message] => some (s.go t (self.failed (.Unavailable message)))
    | _ => some (s.go t .checking)

/-- The end of `fetch`, and the instant at which its set expires, which is settled before the set
is written. -/
def CertCache.fetched (answer : Except String KeyResponse) : State Key :=
  match self.fetch answer with
  | .ok (keys, ttl) => s.go t (.installing ⟨keys, (self.checked_add s.now ttl).getD s.now⟩)
  | .error e => s.go t (.publishing (.error e))

/-- The set is written. -/
def State.install (set : Cached Key) : State Key :=
  let stored : State Key := { s with inner := some set, log := s.log ++ [.stored set] }
  stored.go t (.publishing (.ok ()))

/-- The sender is taken out of the slot. -/
def State.publish (outcome : Except AuthError Unit) : State Key :=
  let empty : State Key := { s with inflight := none }
  empty.go t (.sending s.inflight outcome)

/-- A message is sent, and the sender is gone. -/
def State.tell (notify : Option ℕ) (message : Except String Unit) : State Key :=
  { s with channels := notify.elim s.channels fun chan => s.channels.modify chan fun channel =>
      ⟨channel.messages ++ [message], true⟩ }

/-- A refresh has ended. -/
def State.ended (outcome : Except AuthError Unit) : State Key :=
  { s with log := s.log ++ [.ended outcome] }

/-- What is left of `key_for` when `refresh` has ended. -/
def CertCache.after (outcome : Except AuthError Unit) : Phase Key :=
  match outcome with
  | .ok () => .rereading
  | .error e => self.failed e

/-- The outcome is sent. -/
def CertCache.send (notify : Option ℕ) (outcome : Except AuthError Unit) : State Key :=
  ((s.tell notify (outcome.mapError AuthError.to_string)).ended outcome).go t (self.after outcome)

/-- The set again, in `key_for`, after `refresh` has failed. -/
def CertCache.fall_back (error : AuthError) : State Key :=
  s.go t <| .returned <| match s.inner with
    | none => .error error
    | some cached =>
      match cached.get (s.tasks t).kid with
      -- Unknown ids are never resolved with stale material.
      | none => self.key cached (s.tasks t).kid
      | some key =>
        if (self.checked_add cached.expires_at self.stale_if_error).any fun until_ =>
          s.now < until_ then .ok key
        else .error error

/-- The set again, in `key_for`, after `refresh` has not. -/
def CertCache.reread : State Key :=
  s.go t <| .returned <| match s.inner with
    | none => .error (.Unavailable "certificate cache empty after refresh")
    | some cached => self.key cached (s.tasks t).kid

/-- The error of a refresh whose leader is dropped. -/
def interrupted : AuthError := .Unavailable "certificate refresh interrupted"

/-- `RefreshLeader::drop`, and the end of its task. -/
def State.interrupt : State Key :=
  let empty : State Key := { s with inflight := none }
  ((empty.tell s.inflight (.error "certificate refresh interrupted")).ended
    (.error interrupted)).go t .idle

/-- A task is dropped, where it can be. -/
def State.drop : Option (State Key) :=
  match (s.tasks t).phase with
  | .looking | .checking | .waiting .. | .falling_back _ | .rereading => some (s.go t .idle)
  | .fetching | .installing _ => some (s.interrupt t)
  | .idle | .returned _ | .electing _ | .publishing _ | .sending .. => none

/-- A new call of `key_for`. -/
def State.enter (kid : Str) : State Key :=
  { s with tasks := Function.update s.tasks t ⟨kid, .looking, s.log.length, []⟩ }

/-- A task calls `key_for`, if it calls nothing. -/
def State.call (kid : Str) : Option (State Key) :=
  match (s.tasks t).phase with
  | .idle | .returned _ => some (s.enter t kid)
  | _ => none

/-- A task takes its next step, if it has one. -/
def CertCache.poll : Option (State Key) :=
  match (s.tasks t).phase with
  | .looking => some (self.look s t)
  | .checking => some (s.check t)
  | .electing _ => some (s.elect t)
  | .waiting chan position => self.receive s t chan position
  | .installing set => some (s.install t set)
  | .publishing outcome => some (s.publish t outcome)
  | .sending notify outcome => some (self.send s t notify outcome)
  | .falling_back error => some (self.fall_back s t error)
  | .rereading => some (self.reread s t)
  | .idle | .returned _ | .fetching => none

end Steps

/-- What can happen. -/
inductive Event where
  /-- Time passes. -/
  | tick (d : Duration)
  | call (t : ℕ) (kid : Str)
  | poll (t : ℕ)
  /-- The endpoint answers the leader, or cannot be reached. -/
  | fetched (t : ℕ) (answer : Except String KeyResponse)
  | drop (t : ℕ)

/-- The task whose event it is. -/
def Event.actor : Event → Option ℕ
  | .tick _ => none
  | .call t _ | .poll t | .fetched t _ | .drop t => some t

/-- The state after an event, or `none` if it cannot happen. -/
def CertCache.step {Key : Type} (self : CertCache Key) (s : State Key) : Event → Option (State Key)
  | .tick d => some { s with now := s.now + d }
  | .call t kid => s.call t kid
  | .poll t => self.poll s t
  | .fetched t answer =>
    match (s.tasks t).phase with
    | .fetching => some (self.fetched s t answer)
    | _ => none
  | .drop t => s.drop t

end Lagos.Jwks
