/-
How old the key can be that a key cache answers with.

The log remembers every set that was stored and how every refresh ended, and a call remembers
how long the log was when it began. What a call returns is a key of the set that was stored
last; and it has found this set fresh, or a refresh succeeded since it began, or one failed and
the set has not yet been expired for longer than `stale_if_error` (`key_for_bounded`). A failed
refresh stores nothing, so it changes neither the set nor its expiry.

A refresh that succeeds says so twice in the log, when it stores its set and when it ends.
-/
import Lagos.JwksRun

set_option autoImplicit false

open RustStd StepRun

namespace Lagos.Jwks

variable {Key : Type} {self : CertCache Key}

/-! ## The log -/

/-- The set that an entry says was stored. -/
def Entry.set : Entry Key → Option (Cached Key)
  | .stored set => some set
  | .ended _ => none

/-- The set that was stored last. -/
def latest (log : List (Entry Key)) : Option (Cached Key) := (log.filterMap Entry.set).getLast?

/-- A refresh has stored its set, or has ended with it stored. -/
def Entry.Succeeded : Entry Key → Prop
  | .stored _ | .ended (.ok ()) => True
  | .ended (.error _) => False

/-- A refresh has failed. -/
def Entry.Failed : Entry Key → Prop
  | .ended (.error _) => True
  | .stored _ | .ended (.ok ()) => False

theorem latest_concat_stored (log : List (Entry Key)) (set : Cached Key) :
    latest (log ++ [.stored set]) = some set := by
  rw [latest, List.filterMap_append]
  exact List.getLast?_concat

theorem latest_concat_ended (log : List (Entry Key)) (outcome : Except AuthError Unit) :
    latest (log ++ [.ended outcome]) = latest log := by
  rw [latest, List.filterMap_append]
  exact congrArg List.getLast? (List.append_nil _)

/-- What the log says since it had some length. -/
def State.Since (s : State Key) (since : ℕ) (p : Entry Key → Prop) : Prop :=
  ∃ entry ∈ s.log.drop since, p entry

section Since

variable {s s' : State Key} {since : ℕ} {p : Entry Key → Prop}

/-- The log only grows. -/
theorem State.Since.mono (h : s.Since since p) {entries : List (Entry Key)}
    (hlog : s'.log = s.log ++ entries) : s'.Since since p := by
  obtain ⟨entry, hentry, hp⟩ := h
  refine ⟨entry, ?_, hp⟩
  rw [hlog, List.drop_append]
  exact List.mem_append_left _ hentry

/-- A new entry is one since then. -/
theorem since_concat {entry : Entry Key} (hle : since ≤ s.log.length)
    (hlog : s'.log = s.log ++ [entry]) (hp : p entry) : s'.Since since p := by
  refine ⟨entry, ?_, hp⟩
  rw [hlog, List.drop_append_of_le_length hle]
  exact List.mem_append_right _ List.mem_cons_self

end Since

/-! ## What a call knows -/

/-- A set was fresh when a call checked it. -/
def Task.FoundFresh (task : Task Key) (set : Cached Key) : Prop :=
  ∃ at_, (set, at_) ∈ task.checks ∧ set.is_fresh at_ = true

/-- The set in the cache is the one that a call has found fresh, or a refresh succeeded since it
began. -/
def State.Current (s : State Key) (task : Task Key) : Prop :=
  (∃ set, s.inner = some set ∧ task.FoundFresh set) ∨ s.Since task.since Entry.Succeeded

/-- Whether something is to be known of a call at a phase. -/
def Phase.knowing {Key : Type} : Phase Key → Bool
  | .waiting _ _ | .rereading | .falling_back _ => true
  | _ => false

/-- What a call knows where it is. -/
structure CallOk (cache : CertCache Key) (s : State Key) (task : Task Key) : Prop where
  since_le : task.since ≤ s.log.length
  /-- What it has still to read was said since it began. -/
  waiting : ∀ chan position, task.phase = .waiting chan position →
    ∀ message ∈ (s.messages chan).drop position,
      s.Since task.since fun entry =>
        ∃ outcome, entry = .ended outcome ∧ (message = .ok () ↔ outcome = .ok ())
  rereading : task.phase = .rereading → s.Current task
  falling_back : ∀ error, task.phase = .falling_back error →
    cache.stale_if_error ≠ 0 ∧ s.Since task.since Entry.Failed

/-- The set is the one that was stored last, and every call knows what it should. -/
structure History (cache : CertCache Key) (s : State Key) : Prop where
  latest_eq : latest s.log = s.inner
  calls : ∀ t, CallOk cache s (s.tasks t)

section Calls

variable {s s' : State Key} {task : Task Key} {t : ℕ}

/-- A call that does nothing meanwhile knows what it knew. -/
theorem CallOk.mono (h : CallOk self s task) {entries : List (Entry Key)}
    (hlog : s'.log = s.log ++ entries)
    (hinner : s'.inner = s.inner ∨ ∃ set, entries = [.stored set])
    (hmessages : ∀ chan position, task.phase = .waiting chan position →
      ∀ message ∈ (s'.messages chan).drop position,
        message ∈ (s.messages chan).drop position
          ∨ ∃ outcome, entries = [.ended outcome] ∧ (message = .ok () ↔ outcome = .ok ())) :
    CallOk self s' task where
  since_le := by
    rw [hlog, List.length_append]
    exact Nat.le_add_right_of_le h.since_le
  waiting chan position hphase message hmessage := by
    obtain hold | ⟨outcome, hentries, hiff⟩ := hmessages chan position hphase message hmessage
    · exact (h.waiting chan position hphase message hold).mono hlog
    · exact since_concat h.since_le (hentries ▸ hlog) ⟨outcome, rfl, hiff⟩
  rereading hphase := by
    obtain hfound | hsince := h.rereading hphase
    · obtain hsame | ⟨set, hentries⟩ := hinner
      · exact .inl (hsame ▸ hfound)
      · have hstored : Entry.Succeeded (.stored set) := trivial
        exact .inr (since_concat h.since_le (hentries ▸ hlog) hstored)
    · exact .inr (hsince.mono hlog)
  falling_back error hphase := by
    obtain ⟨hstale, hsince⟩ := h.falling_back error hphase
    exact ⟨hstale, hsince.mono hlog⟩

/-- Where nothing is to be known. -/
theorem callOk_plain (hle : task.since ≤ s.log.length) (hplain : task.phase.knowing = false) :
    CallOk self s task where
  since_le := hle
  waiting chan position h := by
    rw [h] at hplain
    cases hplain
  rereading h := by
    rw [h] at hplain
    cases hplain
  falling_back error h := by
    rw [h] at hplain
    cases hplain

/-- A call goes on as its refresh has ended. -/
theorem callOk_after {outcome : Except AuthError Unit} (hle : task.since ≤ s.log.length)
    (hok : outcome = .ok () → s.Since task.since Entry.Succeeded)
    (herror : ∀ error, outcome = .error error → s.Since task.since Entry.Failed) :
    CallOk self s { task with phase := self.after outcome } where
  since_le := hle
  waiting chan position h := absurd h (after_ne_waiting outcome chan position)
  rereading h := by
    cases outcome with
    | ok u => exact .inr (hok rfl)
    | error e =>
      have hphase : self.failed e = .rereading := h
      unfold CertCache.failed at hphase
      split at hphase <;> cases hphase
  falling_back error h := by
    cases outcome with
    | ok u => cases h
    | error e =>
      have hphase : self.failed e = .falling_back error := h
      unfold CertCache.failed at hphase
      split at hphase
      · cases hphase
      · rename_i hstale
        exact ⟨hstale, herror e rfl⟩

/-- A call that reads what was said of a refresh goes on as that has ended. -/
theorem callOk_told (hcall : CallOk self s task) {chan position : ℕ} {message : Except String Unit}
    (h : task.phase = .waiting chan position) (hmem : message ∈ (s.messages chan).drop position) :
    CallOk self s { task with phase := self.after (message.mapError .Unavailable) } := by
  obtain ⟨entry, hentry, outcome, rfl, hiff⟩ := hcall.waiting chan position h message hmem
  refine callOk_after hcall.since_le (fun hok => ?_) (fun error herror => ?_)
  · refine ⟨_, hentry, ?_⟩
    cases message with
    | ok u => rw [hiff.mp rfl]; trivial
    | error m => cases hok
  · refine ⟨_, hentry, ?_⟩
    cases message with
    | ok u => cases herror
    | error m =>
      cases outcome with
      | ok u => cases hiff.mpr rfl
      | error e => trivial

/-- A message that is read is an old one, or the one that was sent. -/
theorem mem_messages_tell {notify : Option ℕ} {told message : Except String Unit} {c position : ℕ}
    (h : message ∈ ((s.tell notify told).messages c).drop position) :
    message ∈ (s.messages c).drop position ∨ message = told := by
  cases notify with
  | none => exact .inl h
  | some chan =>
    rw [State.messages, tell_getElem] at h
    split at h
    · cases hc : s.channels[c]? with
      | none =>
        rw [hc] at h
        cases List.mem_of_mem_drop h
      | some channel =>
        rw [hc] at h
        have h : message ∈ (channel.messages ++ [told]).drop position := h
        rw [List.drop_append] at h
        obtain hold | hnew := List.mem_append.mp h
        · refine .inl ?_
          rw [State.messages, hc]
          exact hold
        · exact .inr (List.mem_singleton.mp (List.mem_of_mem_drop hnew))
    · exact .inl h

/-- A new channel has no messages, like one that does not exist. -/
theorem messages_elect (c : ℕ) : (s.elect t).messages c = s.messages c := by
  unfold State.elect
  split
  · rfl
  · rw [State.messages, State.messages, go_channels]
    obtain hlt | heq | hgt := lt_trichotomy c s.channels.length
    · rw [List.getElem?_append_left hlt]
    · rw [heq, List.getElem?_concat_length, List.getElem?_eq_none (Nat.le_refl _)]
      rfl
    · rw [List.getElem?_eq_none (by simp; omega), List.getElem?_eq_none (by omega)]

/-- A step of one task: what it does to the log, the set and the messages is nothing to the calls
of the others. -/
theorem History.move (hs : History self s) {entries : List (Entry Key)}
    (hlog : s'.log = s.log ++ entries) (hlatest : latest s'.log = s'.inner)
    (hinner : s'.inner = s.inner ∨ ∃ set, entries = [.stored set])
    (hmessages : ∀ chan position, ∀ message ∈ (s'.messages chan).drop position,
      message ∈ (s.messages chan).drop position
        ∨ ∃ outcome, entries = [.ended outcome] ∧ (message = .ok () ↔ outcome = .ok ()))
    (hother : ∀ u, u ≠ t → s'.tasks u = s.tasks u) (ht : CallOk self s' (s'.tasks t)) :
    History self s' where
  latest_eq := hlatest
  calls u := by
    by_cases hu : u = t
    · exact hu ▸ ht
    · rw [hother u hu]
      exact (hs.calls u).mono hlog hinner fun chan position _ => hmessages chan position

/-- A step that only goes on. -/
theorem History.aside (hs : History self s) (hlog : s'.log = s.log) (hinner : s'.inner = s.inner)
    (hmessages : ∀ chan, s'.messages chan = s.messages chan)
    (hother : ∀ u, u ≠ t → s'.tasks u = s.tasks u) (ht : CallOk self s' (s'.tasks t)) :
    History self s' :=
  hs.move (hlog.trans (List.append_nil _).symm) (by rw [hlog, hinner, hs.latest_eq]) (.inl hinner)
    (fun chan position _ h => .inl (hmessages chan ▸ h)) hother ht

/-- A task that goes on to where nothing is to be known. -/
theorem History.go (hs : History self s) {phase : Phase Key}
    (hplain : phase.knowing = false) : History self (s.go t phase) := by
  refine hs.aside rfl rfl (fun _ => rfl) (fun _ hu => go_other hu) ?_
  rw [go_self]
  exact callOk_plain (hs.calls t).since_le hplain

theorem History.checked_go (hs : History self s) {phase : Phase Key}
    (hplain : phase.knowing = false) : History self ((s.note_check t).go t phase) := by
  refine hs.aside rfl rfl (fun _ => rfl) (fun _ hu => by rw [go_other hu, note_other hu]) ?_
  rw [go_self, note_self]
  exact callOk_plain (hs.calls t).since_le hplain

/-- A task that says how its refresh has ended. -/
theorem History.tell (hs : History self s) (inflight : Option ℕ) {notify : Option ℕ}
    {told : Except String Unit} {outcome : Except AuthError Unit} {phase : Phase Key}
    (hsame : told = .ok () ↔ outcome = .ok ())
    (hs' : s' = ((({ s with inflight := inflight } : State Key).tell notify told).ended outcome).go
      t phase)
    (ht : CallOk self s' (s'.tasks t)) : History self s' := by
  subst hs'
  refine hs.move rfl ((latest_concat_ended s.log outcome).trans hs.latest_eq) (.inl rfl) ?_
    (fun _ hu => go_other hu) ht
  intro chan position message hmessage
  refine (mem_messages_tell hmessage).imp_right fun hnew => ⟨outcome, rfl, ?_⟩
  rw [hnew]
  exact hsame

/-- **Every step keeps the history.** -/
theorem step_history {e : Event} (hs : History self s) (h : self.Steps s e s') :
    History self s' := by
  cases h with
  | tick d =>
    exact ⟨hs.latest_eq, fun u => (hs.calls u).mono (List.append_nil _).symm (.inl rfl)
      fun _ _ _ _ => .inl⟩
  | @call t kid h =>
    refine hs.aside rfl rfl (fun _ => rfl) (fun _ hu => enter_other kid hu) ?_
    rw [enter_self]
    exact callOk_plain (Nat.le_refl _) rfl
  | look_fresh h hfresh => exact hs.checked_go rfl
  | look_stale h hstale => exact hs.checked_go rfl
  | @check_fresh t cached h hfresh =>
    -- The set that was found fresh is the one that is there now.
    obtain ⟨hinner, hcached⟩ := fresh_eq_some.mp hfresh
    refine hs.aside rfl rfl (fun _ => rfl) (fun _ hu => by rw [go_other hu, note_other hu]) ?_
    rw [go_self, note_self]
    refine ⟨(hs.calls t).since_le, by simp, fun _ => .inl ⟨cached, hinner, s.now, ?_, hcached⟩,
      by simp⟩
    refine List.mem_append_right _ ?_
    rw [hinner]
    exact List.mem_cons_self
  | check_stale h hstale => exact hs.checked_go rfl
  | @subscribe t chan found h hslot =>
    refine hs.aside rfl rfl (fun _ => rfl) (fun _ hu => go_other hu) ?_
    rw [go_self]
    refine ⟨(hs.calls t).since_le, ?_, by simp, by simp⟩
    rintro _ _ ⟨⟩ message hmessage
    -- Nothing was said on the channel since the task began to listen.
    have hnone : (s.messages chan).drop (s.messages chan).length = [] := List.drop_length
    have hmessage : message ∈ (s.messages chan).drop (s.messages chan).length := hmessage
    rw [hnone] at hmessage
    cases hmessage
  | @lead t found h hslot =>
    have helect : s.elect t = State.go { s with
        inflight := some s.channels.length, channels := s.channels ++ [⟨[], false⟩] } t
          .fetching := by
      rw [State.elect, hslot]
    refine hs.aside (by rw [helect, go_log]) (by rw [helect, go_inner]) messages_elect
      (fun _ hu => by rw [helect, go_other hu]) (t := t) ?_
    rw [helect, go_self]
    exact callOk_plain (hs.calls t).since_le rfl
  | @told t chan position channel message h hchan hmessage =>
    have hmem : message ∈ (s.messages chan).drop position := by
      rw [State.messages, hchan, Option.map_some, Option.getD_some, hmessage]
      exact List.mem_cons_self
    refine hs.aside rfl rfl (fun _ => rfl) (fun _ hu => go_other hu) ?_
    rw [go_self]
    exact (callOk_told (hs.calls t) h hmem).mono (List.append_nil _).symm (.inl rfl)
      fun _ _ _ _ => .inl
  | lost h hchan hlost => exact hs.go rfl
  | fetched_ok h hfetch => exact hs.go rfl
  | fetched_error h hfetch => exact hs.go rfl
  | @install t set h =>
    refine hs.move rfl (latest_concat_stored s.log set) (.inr ⟨set, rfl⟩)
      (fun _ _ _ => .inl) (fun _ hu => go_other hu) ?_
    rw [State.install, go_self]
    refine callOk_plain (Nat.le_trans (hs.calls t).since_le ?_) rfl
    exact (List.prefix_append ..).length_le
  | publish h =>
    refine hs.aside rfl rfl (fun _ => rfl) (fun _ hu => go_other hu) ?_
    rw [State.publish, go_self]
    exact callOk_plain (hs.calls _).since_le rfl
  | @send t notify outcome h =>
    refine hs.tell s.inflight ?_ rfl ?_
    · cases outcome with
      | ok u => exact iff_of_true rfl rfl
      | error e => exact iff_of_false (by simp [Except.mapError]) (by simp)
    · rw [CertCache.send, go_self]
      have hle := (hs.calls t).since_le
      refine callOk_after (Nat.le_trans hle (List.prefix_append ..).length_le) ?_ ?_
      · rintro rfl
        exact since_concat hle rfl trivial
      · rintro error rfl
        exact since_concat hle rfl trivial
  | fall_back h => exact hs.go rfl
  | reread h => exact hs.go rfl
  | drop h => exact hs.go rfl
  | @interrupt t h =>
    -- A task that is dropped while it leads says that the refresh failed.
    refine hs.tell none (iff_of_false (by simp) (by simp)) rfl ?_
    rw [State.interrupt, go_self]
    refine callOk_plain (Nat.le_trans (hs.calls t).since_le ?_) rfl
    exact (List.prefix_append ..).length_le

end Calls

/-! ## What is answered -/

/-- What stands behind a key that a call has returned: the set that was stored last has it, and
either the call has found this set fresh, or a refresh succeeded since it began, or one failed
and the set may still be used. -/
def State.Answer (self : CertCache Key) (s : State Key) (task : Task Key) (key : Key) : Prop :=
  ∃ set, latest s.log = some set ∧ set.get task.kid = some key
    ∧ (task.FoundFresh set
      ∨ s.Since task.since Entry.Succeeded
      ∨ (0 < self.stale_if_error ∧ s.Since task.since Entry.Failed
        ∧ ∃ until_, self.checked_add set.expires_at self.stale_if_error = some until_
          ∧ s.now < until_))

section Answer

variable {s s' : State Key} {t : ℕ} {key : Key} {e : Event}

theorem key_eq_ok {set : Cached Key} {kid : Str} (h : self.key set kid = .ok key) :
    set.get kid = some key := by
  unfold CertCache.key at h
  split at h
  · rename_i hget
    cases h
    exact hget
  · cases h

theorem answer_fresh {cached : Cached Key} (hs : History self s) (hfresh : s.fresh = some cached)
    (hkey : self.key cached (s.tasks t).kid = .ok key) :
    ((s.note_check t).go t (.returned (.ok key))).Answer self
      (((s.note_check t).go t (.returned (.ok key))).tasks t) key := by
  obtain ⟨hinner, hcached⟩ := fresh_eq_some.mp hfresh
  rw [go_self, note_self]
  refine ⟨cached, hs.latest_eq.trans hinner, key_eq_ok hkey, .inl ⟨s.now, ?_, hcached⟩⟩
  refine List.mem_append_right _ ?_
  rw [hinner]
  exact List.mem_cons_self

theorem answer_current (hs : History self s) (h : (s.tasks t).phase = .rereading)
    (hret : ((self.reread s t).tasks t).phase = .returned (.ok key)) :
    (self.reread s t).Answer self ((self.reread s t).tasks t) key := by
  rw [CertCache.reread] at hret ⊢
  rw [go_self] at hret ⊢
  cases hinner : s.inner with
  | none =>
    rw [hinner] at hret
    cases hret
  | some set =>
    rw [hinner] at hret
    have hkey : self.key set (s.tasks t).kid = .ok key := by
      injection hret
    refine ⟨set, hs.latest_eq.trans hinner, key_eq_ok hkey, ?_⟩
    obtain ⟨found, hfound, hfresh⟩ | hsince := (hs.calls t).rereading h
    · obtain rfl : set = found := Option.some.inj (hinner.symm.trans hfound)
      exact .inl hfresh
    · exact .inr (.inl hsince)

theorem answer_stale {error : AuthError} (hs : History self s)
    (h : (s.tasks t).phase = .falling_back error)
    (hret : ((self.fall_back s t error).tasks t).phase = .returned (.ok key)) :
    (self.fall_back s t error).Answer self ((self.fall_back s t error).tasks t) key := by
  rw [CertCache.fall_back] at hret ⊢
  rw [go_self] at hret ⊢
  have hret := Phase.returned.inj hret
  split at hret
  · cases hret
  · rename_i set hinner
    split at hret
    · rename_i hnone
      rw [key_eq_ok hret] at hnone
      cases hnone
    · rename_i key' hget
      split at hret
      · rename_i huntil
        cases hret
        obtain ⟨hstale, hsince⟩ := (hs.calls t).falling_back error h
        refine ⟨set, hs.latest_eq.trans hinner, hget, .inr (.inr ⟨?_, hsince, ?_⟩)⟩
        · exact Nat.pos_of_ne_zero hstale
        · obtain ⟨until_, hadd, hbefore⟩ := (Option.any_eq_true _ _).mp huntil
          exact ⟨until_, hadd, of_decide_eq_true hbefore⟩
      · cases hret

/-- A key is returned at one of three places. -/
theorem step_answer (hs : History self s) (h : self.Steps s e s')
    (hret : (s'.tasks t).phase = .returned (.ok key))
    (hnew : (s.tasks t).phase ≠ .returned (.ok key)) : s'.Answer self (s'.tasks t) key := by
  by_cases ht : e.actor = some t
  · obtain hplain | ⟨helecting, -⟩ | ⟨cached, hfresh, rfl⟩ | ⟨error, hphase, rfl⟩ | ⟨hphase, rfl⟩ :=
      steps_own h ht
    · rw [hret] at hplain
      cases hplain
    · rw [hret] at helecting
      cases helecting
    · rw [go_self] at hret
      have hkey : self.key cached (s.tasks t).kid = .ok key := by injection hret
      rw [hkey]
      exact answer_fresh hs hfresh hkey
    · exact answer_stale hs hphase hret
    · exact answer_current hs hphase hret
  · exact absurd (steps_other h ht ▸ hret) hnew

/-- Only a store changes the set. -/
theorem step_inner (h : self.Steps s e s') :
    s'.inner = s.inner ∨ ∃ set, s'.inner = some set ∧ s'.log = s.log ++ [.stored set] := by
  cases h with
  | @install t set h => exact .inr ⟨set, rfl, rfl⟩
  | lead h hslot =>
    rw [State.elect, hslot]
    exact .inl rfl
  | _ => exact .inl rfl

end Answer

theorem history_new (now : Instant) : History self (State.new Key now) where
  latest_eq := rfl
  calls _ := callOk_plain (Nat.le_refl _) rfl

/-- **The staleness bound.** Whenever a call returns a key, it is a key of the set that was stored
last, and the call has found this set fresh, or a refresh succeeded since it began, or one failed
and the set may still be used; and only a store changes the set or its expiry. -/
theorem key_for_bounded {now : Instant} {es : List Event} {s s' : State Key} {e : Event}
    (hrun : run self.step (State.new Key now) es = some s) (hstep : self.step s e = some s') :
    (∀ t key, (s'.tasks t).phase = .returned (.ok key) →
      (s.tasks t).phase ≠ .returned (.ok key) → s'.Answer self (s'.tasks t) key)
      ∧ (s'.inner = s.inner ∨ ∃ set, s'.inner = some set ∧ s'.log = s.log ++ [.stored set]) := by
  have hhistory : History self s :=
    run_invariant_always (history_new now)
      (fun _ _ _ hs h => step_history hs (steps_of_step h)) hrun
  exact ⟨fun t key hret hnew => step_answer hhistory (steps_of_step hstep) hret hnew,
    step_inner (steps_of_step hstep)⟩

/-! ## An outage -/

namespace Outage

/-- The cache of two callers, which may use its keys for 100 longer. -/
def cache : CertCache ℕ := { TwoCallers.cache with stale_if_error := 100 }

/-- An answer of the endpoint. -/
def answer : KeyResponse := ⟨200, "200 OK", none, none, []⟩

/-- A set is fetched, and expires; the next call cannot fetch another one. -/
def events : List Event :=
  [.call 0 "k".toList, .poll 0, .poll 0, .poll 0, .fetched 0 (.ok answer), .poll 0, .poll 0,
    .poll 0, .poll 0, .tick 350, .call 0 "k".toList, .poll 0, .poll 0, .poll 0,
    .fetched 0 (.error "timed out"), .poll 0, .poll 0]

/-- Before the call falls back on what there is. -/
def before : State ℕ := (run cache.step (State.new ℕ 0) events).get (by decide +kernel)

/-- After it has. -/
def after : State ℕ := (cache.step Outage.before (.poll 0)).get (by decide +kernel)

end Outage

open Outage in
/-- It returns the key of the expired set. -/
theorem key_for_bounded_outage : Outage.after.Answer Outage.cache (Outage.after.tasks 0) 7 := by
  have hrun : run Outage.cache.step (State.new ℕ 0) Outage.events = some Outage.before :=
    (Option.some_get _).symm
  have hstep : Outage.cache.step Outage.before (.poll 0) = some Outage.after :=
    (Option.some_get _).symm
  refine (key_for_bounded hrun hstep).1 0 7 ?_ ?_
  · decide +kernel
  · decide +kernel

end Lagos.Jwks

