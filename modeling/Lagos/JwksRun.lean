/-
Whatever the tasks of a key cache do, one of them fetches.

`CertCache.Steps` says once what each step can be; every invariant is a case analysis over it.
`Flight` is the invariant of the slot: the sender in it is the leader's, and a sender that was
taken out is still held by the task that will use it next. So a channel that somebody waits on
is answered or has somebody who owes an answer (`Flight.waiter`), and each step of that task
brings the answer closer (`owes_step`).
-/
import Lagos.Jwks

set_option autoImplicit false

open RustStd StepRun

namespace Lagos.Jwks

variable {Key : Type} {self : CertCache Key}

/-! ## Going on -/

section Go

variable {s : State Key} {t u : ℕ} {phase : Phase Key}

@[simp] theorem go_now : (s.go t phase).now = s.now := rfl
@[simp] theorem go_inner : (s.go t phase).inner = s.inner := rfl
@[simp] theorem go_inflight : (s.go t phase).inflight = s.inflight := rfl
@[simp] theorem go_channels : (s.go t phase).channels = s.channels := rfl
@[simp] theorem go_log : (s.go t phase).log = s.log := rfl

@[simp] theorem go_self : (s.go t phase).tasks t = { s.tasks t with phase := phase } :=
  Function.update_self ..

theorem go_other (h : u ≠ t) : (s.go t phase).tasks u = s.tasks u := Function.update_of_ne h ..

@[simp] theorem note_now : (s.note_check t).now = s.now := rfl
@[simp] theorem note_inner : (s.note_check t).inner = s.inner := rfl
@[simp] theorem note_inflight : (s.note_check t).inflight = s.inflight := rfl
@[simp] theorem note_channels : (s.note_check t).channels = s.channels := rfl
@[simp] theorem note_log : (s.note_check t).log = s.log := rfl

@[simp] theorem note_self : (s.note_check t).tasks t = { s.tasks t with
    checks := (s.tasks t).checks ++ s.inner.toList.map fun cached => (cached, s.now) } :=
  Function.update_self ..

theorem note_other (h : u ≠ t) : (s.note_check t).tasks u = s.tasks u := Function.update_of_ne h ..

@[simp] theorem enter_self (kid : Str) :
    (s.enter t kid).tasks t = ⟨kid, .looking, s.log.length, []⟩ := Function.update_self ..

theorem enter_other (kid : Str) (h : u ≠ t) : (s.enter t kid).tasks u = s.tasks u :=
  Function.update_of_ne h ..

theorem fresh_eq_some {cached : Cached Key} :
    s.fresh = some cached ↔ s.inner = some cached ∧ cached.is_fresh s.now = true :=
  Option.filter_eq_some_iff

end Go

/-! ## What a step is -/

/-- The phases of the leader: its sender is in the slot. -/
def Phase.leads : Phase Key → Bool
  | .fetching | .installing _ | .publishing _ => true
  | _ => false

/-- The channel whose sender a task holds. -/
def Phase.sender : Phase Key → Option ℕ
  | .sending notify _ => notify
  | _ => none

/-- The phases of a task that is suspended and leads nothing. -/
def Phase.awaits : Phase Key → Bool
  | .looking | .checking | .waiting .. | .falling_back _ | .rereading => true
  | _ => false

/-- The phases of a task that calls nothing. -/
def Phase.rests : Phase Key → Bool
  | .idle | .returned _ => true
  | _ => false

/-- Everything that can happen, and what comes of it. -/
inductive CertCache.Steps (self : CertCache Key) (s : State Key) : Event → State Key → Prop
  | tick (d : Duration) : Steps self s (.tick d) { s with now := s.now + d }
  | call {t : ℕ} (kid : Str) (h : (s.tasks t).phase.rests = true) :
      Steps self s (.call t kid) (s.enter t kid)
  | look_fresh {t : ℕ} {cached : Cached Key} (h : (s.tasks t).phase = .looking)
      (hfresh : s.fresh = some cached) :
      Steps self s (.poll t)
        ((s.note_check t).go t (.returned (self.key cached (s.tasks t).kid)))
  | look_stale {t : ℕ} (h : (s.tasks t).phase = .looking) (hstale : s.fresh = none) :
      Steps self s (.poll t) ((s.note_check t).go t .checking)
  | check_fresh {t : ℕ} {cached : Cached Key} (h : (s.tasks t).phase = .checking)
      (hfresh : s.fresh = some cached) : Steps self s (.poll t) ((s.note_check t).go t .rereading)
  | check_stale {t : ℕ} (h : (s.tasks t).phase = .checking) (hstale : s.fresh = none) :
      Steps self s (.poll t) ((s.note_check t).go t (.electing s.inner))
  | subscribe {t chan : ℕ} {found : Option (Cached Key)} (h : (s.tasks t).phase = .electing found)
      (hslot : s.inflight = some chan) :
      Steps self s (.poll t) (s.go t (.waiting chan (s.messages chan).length))
  | lead {t : ℕ} {found : Option (Cached Key)} (h : (s.tasks t).phase = .electing found)
      (hslot : s.inflight = none) : Steps self s (.poll t) (s.elect t)
  | told {t chan position : ℕ} {channel : Channel} {message : Except String Unit}
      (h : (s.tasks t).phase = .waiting chan position) (hchan : s.channels[chan]? = some channel)
      (hmessage : channel.messages.drop position = [message]) :
      Steps self s (.poll t) (s.go t (self.after (message.mapError .Unavailable)))
  | lost {t chan position : ℕ} {channel : Channel} (h : (s.tasks t).phase = .waiting chan position)
      (hchan : s.channels[chan]? = some channel)
      (hlost : (channel.messages.drop position = [] ∧ channel.closed = true)
        ∨ 2 ≤ (channel.messages.drop position).length) :
      Steps self s (.poll t) (s.go t .checking)
  | fetched_ok {t : ℕ} {answer : Except String KeyResponse} {keys : List (Str × Key)}
      {ttl : Duration} (h : (s.tasks t).phase = .fetching)
      (hfetch : self.fetch answer = .ok (keys, ttl)) :
      Steps self s (.fetched t answer)
        (s.go t (.installing ⟨keys, (self.checked_add s.now ttl).getD s.now⟩))
  | fetched_error {t : ℕ} {answer : Except String KeyResponse} {error : AuthError}
      (h : (s.tasks t).phase = .fetching) (hfetch : self.fetch answer = .error error) :
      Steps self s (.fetched t answer) (s.go t (.publishing (.error error)))
  | install {t : ℕ} {set : Cached Key} (h : (s.tasks t).phase = .installing set) :
      Steps self s (.poll t) (s.install t set)
  | publish {t : ℕ} {outcome : Except AuthError Unit} (h : (s.tasks t).phase = .publishing outcome) :
      Steps self s (.poll t) (s.publish t outcome)
  | send {t : ℕ} {notify : Option ℕ} {outcome : Except AuthError Unit}
      (h : (s.tasks t).phase = .sending notify outcome) :
      Steps self s (.poll t) (self.send s t notify outcome)
  | fall_back {t : ℕ} {error : AuthError} (h : (s.tasks t).phase = .falling_back error) :
      Steps self s (.poll t) (self.fall_back s t error)
  | reread {t : ℕ} (h : (s.tasks t).phase = .rereading) :
      Steps self s (.poll t) (self.reread s t)
  | drop {t : ℕ} (h : (s.tasks t).phase.awaits = true) : Steps self s (.drop t) (s.go t .idle)
  | interrupt {t : ℕ} (h : (s.tasks t).phase.leads = true) :
      Steps self s (.drop t) (s.interrupt t)

section Inversion

variable {s s' : State Key} {t : ℕ}

theorem steps_receive {chan position : ℕ} (h : (s.tasks t).phase = .waiting chan position)
    (hstep : self.receive s t chan position = some s') : self.Steps s (.poll t) s' := by
  obtain ⟨channel, hchan, hstep⟩ := Option.bind_eq_some_iff.mp hstep
  split at hstep
  · rename_i hnone
    obtain ⟨hclosed, rfl⟩ := eq_of_guarded hstep
    exact .lost h hchan (.inl ⟨hnone, hclosed⟩)
  · rename_i hmessage
    cases hstep
    exact .told h hchan hmessage
  · rename_i hmessage
    cases hstep
    exact .told h hchan hmessage
  · rename_i hnone hok herror
    cases hstep
    refine .lost h hchan (.inr ?_)
    cases hmessages : channel.messages.drop position with
    | nil => exact absurd hmessages hnone
    | cons message rest =>
      cases rest with
      | nil =>
        cases message with
        | ok u => exact absurd hmessages hok
        | error message => exact absurd hmessages (herror message)
      | cons next rest => exact Nat.le_add_left 2 _

theorem steps_poll (hstep : self.poll s t = some s') : self.Steps s (.poll t) s' := by
  unfold CertCache.poll at hstep
  split at hstep
  case h_1 h =>
    cases hstep
    unfold CertCache.look
    split
    · exact .look_fresh h ‹_›
    · exact .look_stale h ‹_›
  case h_2 h =>
    cases hstep
    unfold State.check
    split
    · exact .check_fresh h ‹_›
    · exact .check_stale h ‹_›
  case h_3 h =>
    cases hstep
    cases hslot : s.inflight with
    | none => exact .lead h hslot
    | some chan =>
      have helect : s.elect t = s.go t (.waiting chan (s.messages chan).length) := by
        rw [State.elect, hslot]
      exact helect ▸ .subscribe h hslot
  case h_4 h => exact steps_receive h hstep
  case h_5 h =>
    cases hstep
    exact .install h
  case h_6 h =>
    cases hstep
    exact .publish h
  case h_7 h =>
    cases hstep
    exact .send h
  case h_8 h =>
    cases hstep
    exact .fall_back h
  case h_9 h =>
    cases hstep
    exact .reread h
  all_goals cases hstep

/-- **Every step is one of them.** -/
theorem steps_of_step {e : Event} (hstep : self.step s e = some s') : self.Steps s e s' := by
  cases e with
  | tick d =>
    cases hstep
    exact .tick d
  | call t kid =>
    rw [CertCache.step, State.call] at hstep
    split at hstep
    case h_1 h | h_2 h =>
      cases hstep
      exact .call kid (by rw [h]; rfl)
    case h_3 => cases hstep
  | poll t => exact steps_poll hstep
  | fetched t answer =>
    rw [CertCache.step] at hstep
    split at hstep
    · rename_i h
      cases hstep
      unfold CertCache.fetched
      split
      · exact .fetched_ok h ‹_›
      · exact .fetched_error h ‹_›
    · cases hstep
  | drop t =>
    rw [CertCache.step, State.drop] at hstep
    split at hstep
    all_goals first
      | cases hstep; exact .drop (by simp [*, Phase.awaits])
      | cases hstep; exact .interrupt (by simp [*, Phase.leads])
      | cases hstep

end Inversion

/-! ## The slot and its channels -/

/-- A channel on which nothing was sent yet. -/
def State.Pending (s : State Key) (chan : ℕ) : Prop := s.channels[chan]? = some ⟨[], false⟩

/-- A task will answer on a channel: it leads while the sender is in the slot, or has taken it out
to send. -/
def State.Owes (s : State Key) (t chan : ℕ) : Prop :=
  ((s.tasks t).phase.leads = true ∧ s.inflight = some chan)
    ∨ (s.tasks t).phase.sender = some chan

/-- A task owes one answer. -/
theorem State.Owes.unique {s : State Key} {t c d : ℕ} (hc : s.Owes t c) (hd : s.Owes t d) :
    c = d := by
  have hapart : ∀ phase : Phase Key, ∀ c, phase.leads = true → phase.sender ≠ some c := by
    intro phase c hleads hsender
    cases phase with
    | sending => cases hleads
    | _ => cases hsender
  obtain ⟨hleads, hslot⟩ | hsender := hc
  · obtain ⟨-, hslot'⟩ | hsender' := hd
    · exact Option.some.inj (hslot.symm.trans hslot')
    · exact absurd hsender' (hapart _ d hleads)
  · obtain ⟨hleads, -⟩ | hsender' := hd
    · exact absurd hsender (hapart _ c hleads)
    · exact Option.some.inj (hsender.symm.trans hsender')

/-- A receiver that has read this many messages of a channel has one to read. -/
def State.Answered (s : State Key) (chan position : ℕ) : Prop :=
  ∃ channel message, s.channels[chan]? = some channel
    ∧ channel.messages.drop position = [message]

/-- The slot holds the sender of the leader, and whoever waits is waiting for somebody. -/
structure Flight (s : State Key) : Prop where
  leads_slot : ∀ t, (s.tasks t).phase.leads = true → ∃ chan, s.inflight = some chan
  slot_leads : ∀ chan, s.inflight = some chan → ∃ t, (s.tasks t).phase.leads = true
  /-- Nobody else leads, and nobody else holds the same sender. -/
  one : ∀ t u chan, s.Owes t chan → s.Owes u chan → t = u
  pending : ∀ t chan, s.Owes t chan → s.Pending chan
  waiter : ∀ t chan position, (s.tasks t).phase = .waiting chan position →
    position = 0 ∧ (s.Answered chan 0 ∨ ∃ u, s.Owes u chan)

theorem Flight.one_leader {s : State Key} (h : Flight s) {t u : ℕ}
    (ht : (s.tasks t).phase.leads = true) (hu : (s.tasks u).phase.leads = true) : t = u := by
  obtain ⟨chan, hchan⟩ := h.leads_slot t ht
  exact h.one t u chan (.inl ⟨ht, hchan⟩) (.inl ⟨hu, hchan⟩)

/-- A step that is nothing to the slot: no task begins or ends leading, none takes or sends a
sender, and none begins to wait. -/
structure Aside (s s' : State Key) : Prop where
  inflight : s'.inflight = s.inflight
  channels : s'.channels = s.channels
  leads : ∀ t, (s'.tasks t).phase.leads = (s.tasks t).phase.leads
  sender : ∀ t, (s'.tasks t).phase.sender = (s.tasks t).phase.sender
  waits : ∀ t chan position, (s'.tasks t).phase = .waiting chan position →
    (s.tasks t).phase = .waiting chan position

section Aside

variable {s s' : State Key} {t : ℕ}

theorem Aside.owes (h : Aside s s') (u chan : ℕ) : s'.Owes u chan ↔ s.Owes u chan := by
  rw [State.Owes, State.Owes, h.leads, h.sender, h.inflight]

theorem Flight.aside (hs : Flight s) (h : Aside s s') : Flight s' where
  leads_slot u hu := by
    rw [h.inflight]
    exact hs.leads_slot u (h.leads u ▸ hu)
  slot_leads chan hchan := by
    obtain ⟨u, hu⟩ := hs.slot_leads chan (h.inflight ▸ hchan)
    exact ⟨u, (h.leads u).trans hu⟩
  one u v chan hu hv := hs.one u v chan ((h.owes u chan).mp hu) ((h.owes v chan).mp hv)
  pending u chan hu := by
    rw [State.Pending, h.channels]
    exact hs.pending u chan ((h.owes u chan).mp hu)
  waiter u chan position hu := by
    obtain ⟨hposition, hwait⟩ := hs.waiter u chan position (h.waits u chan position hu)
    refine ⟨hposition, hwait.imp ?_ ?_⟩
    · rw [State.Answered, State.Answered, h.channels]
      exact id
    · rintro ⟨v, hv⟩
      exact ⟨v, (h.owes v chan).mpr hv⟩

/-- A task that goes on by itself. -/
theorem aside_of_task (hinflight : s'.inflight = s.inflight) (hchannels : s'.channels = s.channels)
    (hother : ∀ u, u ≠ t → s'.tasks u = s.tasks u)
    (hleads : (s'.tasks t).phase.leads = (s.tasks t).phase.leads)
    (hsender : (s'.tasks t).phase.sender = (s.tasks t).phase.sender)
    (hwaits : ∀ chan position, (s'.tasks t).phase ≠ .waiting chan position) : Aside s s' := by
  refine ⟨hinflight, hchannels, fun u => ?_, fun u => ?_, fun u chan position hu => ?_⟩
  · by_cases h : u = t
    · rw [h, hleads]
    · rw [hother u h]
  · by_cases h : u = t
    · rw [h, hsender]
    · rw [hother u h]
  · by_cases h : u = t
    · exact absurd (h ▸ hu) (hwaits chan position)
    · rwa [hother u h] at hu

theorem aside_go {phase : Phase Key} (hleads : phase.leads = (s.tasks t).phase.leads)
    (hsender : phase.sender = (s.tasks t).phase.sender)
    (hwaits : ∀ chan position, phase ≠ .waiting chan position) : Aside s (s.go t phase) :=
  aside_of_task rfl rfl (fun _ h => go_other h) (by rw [go_self]; exact hleads)
    (by rw [go_self]; exact hsender) (by rw [go_self]; exact hwaits)

theorem aside_checked {phase : Phase Key} (hleads : phase.leads = (s.tasks t).phase.leads)
    (hsender : phase.sender = (s.tasks t).phase.sender)
    (hwaits : ∀ chan position, phase ≠ .waiting chan position) :
    Aside s ((s.note_check t).go t phase) :=
  aside_of_task rfl rfl (fun _ h => by rw [go_other h, note_other h])
    (by rw [go_self]; exact hleads) (by rw [go_self]; exact hsender) (by rw [go_self]; exact hwaits)

end Aside

/-! ## The steps that change it -/

section Change

variable {s s' : State Key} {t chan : ℕ}

theorem apart_of_rests {phase : Phase Key} (h : phase.rests = true) :
    phase.leads = false ∧ phase.sender = none := by
  cases phase with
  | idle | returned => exact ⟨rfl, rfl⟩
  | _ => cases h

theorem apart_of_awaits {phase : Phase Key} (h : phase.awaits = true) :
    phase.leads = false ∧ phase.sender = none := by
  cases phase with
  | looking | checking | waiting | falling_back | rereading => exact ⟨rfl, rfl⟩
  | _ => cases h

/-- A task that was told the outcome reads the set again, or returns an error. -/
theorem after_cases (outcome : Except AuthError Unit) :
    self.after outcome = .rereading
      ∨ ∃ e, self.after outcome = .falling_back e ∨ self.after outcome = .returned (.error e) := by
  cases outcome with
  | ok u => exact .inl rfl
  | error e =>
    refine .inr ⟨e, ?_⟩
    rw [CertCache.after, CertCache.failed]
    split
    · exact .inr rfl
    · exact .inl rfl

@[simp] theorem after_leads (outcome : Except AuthError Unit) :
    (self.after outcome).leads = false := by
  obtain h | ⟨e, h | h⟩ := @after_cases _ self outcome <;> rw [h] <;> rfl

@[simp] theorem after_sender (outcome : Except AuthError Unit) :
    (self.after outcome).sender = none := by
  obtain h | ⟨e, h | h⟩ := @after_cases _ self outcome <;> rw [h] <;> rfl

theorem after_ne_waiting (outcome : Except AuthError Unit) (chan position : ℕ) :
    self.after outcome ≠ .waiting chan position := by
  obtain h | ⟨e, h | h⟩ := @after_cases _ self outcome <;> simp [h]

theorem messages_of_pending (h : s.Pending chan) : s.messages chan = [] := by
  rw [State.messages, h]
  rfl

/-- What is told is told on one channel. -/
theorem tell_getElem (message : Except String Unit) (c : ℕ) :
    (s.tell (some chan) message).channels[c]? = if chan = c then
      s.channels[c]?.map fun channel => ⟨channel.messages ++ [message], true⟩
    else s.channels[c]? := by
  have hmodify := List.getElem?_modify
    (fun channel : Channel => ⟨channel.messages ++ [message], true⟩) chan s.channels c
  refine hmodify.trans ?_
  split
  · rfl
  · cases s.channels[c]? <;> rfl

/-- A new subscriber has read nothing, and there is nothing to read yet. -/
theorem flight_subscribe {found : Option (Cached Key)} (hs : Flight s)
    (h : (s.tasks t).phase = .electing found) (hslot : s.inflight = some chan) :
    Flight (s.go t (.waiting chan (s.messages chan).length)) := by
  obtain ⟨leader, hleader⟩ := hs.slot_leads chan hslot
  have hpending := hs.pending leader chan (.inl ⟨hleader, hslot⟩)
  rw [messages_of_pending hpending, List.length_nil]
  have hphase : ∀ u, ((s.go t (.waiting chan 0)).tasks u).phase.leads = (s.tasks u).phase.leads
      ∧ ((s.go t (.waiting chan 0)).tasks u).phase.sender = (s.tasks u).phase.sender := by
    intro u
    by_cases hu : u = t
    · rw [hu, go_self, h]
      exact ⟨rfl, rfl⟩
    · rw [go_other hu]
      exact ⟨rfl, rfl⟩
  have howes : ∀ u c, (s.go t (.waiting chan 0)).Owes u c ↔ s.Owes u c := by
    intro u c
    rw [State.Owes, State.Owes, (hphase u).1, (hphase u).2, go_inflight]
  constructor
  case leads_slot => exact fun u hu => hs.leads_slot u ((hphase u).1 ▸ hu)
  case slot_leads =>
    intro c hc
    obtain ⟨u, hu⟩ := hs.slot_leads c hc
    exact ⟨u, (hphase u).1.trans hu⟩
  case one => exact fun u v c hu hv => hs.one u v c ((howes u c).mp hu) ((howes v c).mp hv)
  case pending => exact fun u c hu => hs.pending u c ((howes u c).mp hu)
  case waiter =>
    intro u c position hu
    by_cases hut : u = t
    · rw [hut, go_self] at hu
      cases hu
      exact ⟨rfl, .inr ⟨leader, (howes leader chan).mpr (.inl ⟨hleader, hslot⟩)⟩⟩
    · rw [go_other hut] at hu
      obtain ⟨hposition, hwait⟩ := hs.waiter u c position hu
      exact ⟨hposition, hwait.imp_right (.imp fun v hv => (howes v c).mpr hv)⟩

/-- A task that finds the slot empty leads, with a channel of its own. -/
theorem flight_lead {found : Option (Cached Key)} (hs : Flight s)
    (h : (s.tasks t).phase = .electing found) (hslot : s.inflight = none) : Flight (s.elect t) := by
  have hnone : ∀ u, (s.tasks u).phase.leads = false := by
    intro u
    cases hu : (s.tasks u).phase.leads with
    | false => rfl
    | true =>
      obtain ⟨c, hc⟩ := hs.leads_slot u hu
      cases hslot.symm.trans hc
  -- What a task owed before, it owed by a sender, and on a channel that is older.
  have hold : ∀ u c, s.Owes u c → (s.tasks u).phase.sender = some c ∧ c < s.channels.length := by
    intro u c hu
    have hpending := hs.pending u c hu
    obtain ⟨hleads, -⟩ | hsender := hu
    · cases (hnone u).symm.trans hleads
    · exact ⟨hsender, (List.getElem?_eq_some_iff.mp hpending).1⟩
  have helect : s.elect t = State.go { s with
      inflight := some s.channels.length, channels := s.channels ++ [⟨[], false⟩] } t .fetching := by
    rw [State.elect, hslot]
  have hself : ((s.elect t).tasks t).phase = .fetching := by rw [helect, go_self]
  have hother : ∀ u, u ≠ t → (s.elect t).tasks u = s.tasks u := fun u hu => by
    rw [helect, go_other hu]
  have hinflight : (s.elect t).inflight = some s.channels.length := by rw [helect, go_inflight]
  have hchannels : (s.elect t).channels = s.channels ++ [⟨[], false⟩] := by rw [helect, go_channels]
  have howes : ∀ u c, (s.elect t).Owes u c
      ↔ (u = t ∧ c = s.channels.length) ∨ (u ≠ t ∧ s.Owes u c) := by
    intro u c
    by_cases hu : u = t
    · rw [hu, State.Owes, hself, hinflight]
      simp [Phase.leads, Phase.sender, eq_comm]
    · rw [State.Owes, State.Owes, hother u hu, hnone u]
      simp [hu]
  have hgrown : ∀ (c : ℕ) (channel : Channel), s.channels[c]? = some channel →
      (s.elect t).channels[c]? = some channel := by
    intro c channel hc
    rw [hchannels, List.getElem?_append_left (List.getElem?_eq_some_iff.mp hc).1, hc]
  constructor
  case leads_slot => exact fun _ _ => ⟨_, hinflight⟩
  case slot_leads => exact fun _ _ => ⟨t, by rw [hself]; rfl⟩
  case one =>
    intro u v c hu hv
    obtain ⟨hut, hc⟩ | ⟨-, hu⟩ := (howes u c).mp hu
    · obtain ⟨hvt, -⟩ | ⟨-, hv⟩ := (howes v c).mp hv
      · rw [hut, hvt]
      · exact absurd (hc ▸ (hold v c hv).2) (Nat.lt_irrefl _)
    · obtain ⟨-, hc⟩ | ⟨-, hv⟩ := (howes v c).mp hv
      · exact absurd (hc ▸ (hold u c hu).2) (Nat.lt_irrefl _)
      · exact hs.one u v c hu hv
  case pending =>
    intro u c hu
    obtain ⟨rfl, rfl⟩ | ⟨-, hu⟩ := (howes u c).mp hu
    · rw [State.Pending, hchannels, List.getElem?_concat_length]
    · exact hgrown c _ (hs.pending u c hu)
  case waiter =>
    intro u c position hu
    by_cases hut : u = t
    · rw [hut, hself] at hu
      cases hu
    · rw [hother u hut] at hu
      obtain ⟨hposition, ⟨channel, message, hc, hmessage⟩ | ⟨v, hv⟩⟩ := hs.waiter u c position hu
      · exact ⟨hposition, .inl ⟨channel, message, hgrown c _ hc, hmessage⟩⟩
      · refine ⟨hposition, .inr ⟨v, (howes v c).mpr (.inr ⟨fun hvt => ?_, hv⟩)⟩⟩
        rw [hvt, State.Owes, h] at hv
        simp [Phase.leads, Phase.sender] at hv

/-- The leader takes its sender out of the slot, and owes the same answer. -/
theorem flight_publish {outcome : Except AuthError Unit} (hs : Flight s)
    (h : (s.tasks t).phase = .publishing outcome) : Flight (s.publish t outcome) := by
  have hleads : (s.tasks t).phase.leads = true := by rw [h]; rfl
  obtain ⟨chan, hslot⟩ := hs.leads_slot t hleads
  have hself : ((s.publish t outcome).tasks t).phase = .sending (some chan) outcome := by
    rw [State.publish, go_self, hslot]
  have hother : ∀ u, u ≠ t → (s.publish t outcome).tasks u = s.tasks u := fun u hu => go_other hu
  have hnone : ∀ u, ((s.publish t outcome).tasks u).phase.leads = false := by
    intro u
    by_cases hu : u = t
    · rw [hu, hself]
      rfl
    · rw [hother u hu]
      exact Bool.eq_false_iff.mpr fun hleads' => hu (hs.one_leader hleads' hleads)
  have howes : ∀ u c, (s.publish t outcome).Owes u c ↔ s.Owes u c := by
    intro u c
    by_cases hu : u = t
    · rw [hu, State.Owes, State.Owes, hself, h, hslot]
      simp [Phase.leads, Phase.sender]
    · have hfollows := hnone u
      rw [hother u hu] at hfollows
      rw [State.Owes, State.Owes, hother u hu, hfollows]
      simp
  constructor
  case leads_slot => exact fun u hu => absurd hu (by rw [hnone u]; exact Bool.false_ne_true)
  case slot_leads => exact fun _ hc => by cases hc
  case one => exact fun u v c hu hv => hs.one u v c ((howes u c).mp hu) ((howes v c).mp hv)
  case pending => exact fun u c hu => hs.pending u c ((howes u c).mp hu)
  case waiter =>
    intro u c position hu
    by_cases hut : u = t
    · rw [hut, hself] at hu
      cases hu
    · rw [hother u hut] at hu
      obtain ⟨hposition, hwait⟩ := hs.waiter u c position hu
      exact ⟨hposition, hwait.imp_right (.imp fun v hv => (howes v c).mpr hv)⟩

/-- A task that answers owes nothing afterwards, and its channel has one message. -/
theorem flight_answer {message : Except String Unit} (hs : Flight s) (ht : s.Owes t chan)
    (hchannels : s'.channels = (s.tell (some chan) message).channels)
    (howes : ∀ u c, s'.Owes u c ↔ u ≠ t ∧ s.Owes u c)
    (hwaits : ∀ u c position, (s'.tasks u).phase = .waiting c position →
      (s.tasks u).phase = .waiting c position)
    (hleads : ∀ u, (s'.tasks u).phase.leads = true → ∃ c, s'.inflight = some c)
    (hslot : ∀ c, s'.inflight = some c → ∃ u, (s'.tasks u).phase.leads = true) : Flight s' where
  leads_slot := hleads
  slot_leads := hslot
  one u v c hu hv := hs.one u v c ((howes u c).mp hu).2 ((howes v c).mp hv).2
  pending u c hu := by
    obtain ⟨hut, hu⟩ := (howes u c).mp hu
    have hc : chan ≠ c := fun hc => hut (hs.one u t c hu (hc ▸ ht))
    rw [State.Pending, hchannels, tell_getElem, if_neg hc]
    exact hs.pending u c hu
  waiter u c position hu := by
    obtain ⟨hposition, hwait⟩ := hs.waiter u c position (hwaits u c position hu)
    refine ⟨hposition, ?_⟩
    by_cases hc : chan = c
    · refine .inl ⟨⟨[message], true⟩, message, ?_, rfl⟩
      rw [hchannels, tell_getElem, if_pos hc, ← hc, hs.pending t chan ht]
      rfl
    · refine hwait.imp ?_ ?_
      · rw [State.Answered, State.Answered, hchannels, tell_getElem, if_neg hc]
        exact id
      · rintro ⟨v, hv⟩
        exact ⟨v, (howes v c).mpr ⟨fun hvt => hc (ht.unique (hvt ▸ hv)), hv⟩⟩

/-- What was taken out of the slot is sent. -/
theorem flight_send {notify : Option ℕ} {outcome : Except AuthError Unit} (hs : Flight s)
    (h : (s.tasks t).phase = .sending notify outcome) : Flight (self.send s t notify outcome) := by
  have hself : ((self.send s t notify outcome).tasks t).phase = self.after outcome := by
    rw [CertCache.send, go_self]
  have hother : ∀ u, u ≠ t → (self.send s t notify outcome).tasks u = s.tasks u :=
    fun u hu => go_other hu
  have hleads : ∀ u, ((self.send s t notify outcome).tasks u).phase.leads
      = (s.tasks u).phase.leads := by
    intro u
    by_cases hu : u = t
    · rw [hu, hself, h, after_leads]
      rfl
    · rw [hother u hu]
  have howes : ∀ u c, (self.send s t notify outcome).Owes u c ↔ u ≠ t ∧ s.Owes u c := by
    intro u c
    by_cases hu : u = t
    · rw [hu, State.Owes, hself]
      simp
    · rw [State.Owes, State.Owes, hother u hu]
      simp only [ne_eq, hu, not_false_eq_true, true_and]
      exact Iff.rfl
  have hwaits : ∀ u c position, ((self.send s t notify outcome).tasks u).phase
      = .waiting c position → (s.tasks u).phase = .waiting c position := by
    intro u c position hu
    by_cases hut : u = t
    · rw [hut, hself] at hu
      exact absurd hu (after_ne_waiting outcome c position)
    · rwa [hother u hut] at hu
  cases notify with
  | none =>
    have haside : Aside s (self.send s t none outcome) := by
      refine ⟨rfl, rfl, hleads, fun u => ?_, hwaits⟩
      by_cases hu : u = t
      · rw [hu, hself, h, after_sender]
        rfl
      · rw [hother u hu]
    exact hs.aside haside
  | some chan =>
    have ht : s.Owes t chan := .inr (by rw [h]; rfl)
    refine flight_answer hs ht rfl howes hwaits ?_ ?_
    · exact fun u hu => hs.leads_slot u (hleads u ▸ hu)
    · intro c hc
      obtain ⟨u, hu⟩ := hs.slot_leads c hc
      exact ⟨u, (hleads u).trans hu⟩

/-- A leader that is dropped leaves the slot empty, and says that it has gone. -/
theorem flight_interrupt (hs : Flight s) (h : (s.tasks t).phase.leads = true) :
    Flight (s.interrupt t) := by
  obtain ⟨chan, hslot⟩ := hs.leads_slot t h
  have hself : ((s.interrupt t).tasks t).phase = .idle := by rw [State.interrupt, go_self]
  have hother : ∀ u, u ≠ t → (s.interrupt t).tasks u = s.tasks u := fun u hu => go_other hu
  have hnone : ∀ u, ((s.interrupt t).tasks u).phase.leads = false := by
    intro u
    by_cases hu : u = t
    · rw [hu, hself]
      rfl
    · rw [hother u hu]
      exact Bool.eq_false_iff.mpr fun hleads => hu (hs.one_leader hleads h)
  refine flight_answer hs (.inl ⟨h, hslot⟩) (by rw [State.interrupt, hslot]; rfl) ?_ ?_ ?_ ?_
  · intro u c
    by_cases hu : u = t
    · rw [hu, State.Owes, hself]
      simp [Phase.leads, Phase.sender]
    · have hfollows := hnone u
      rw [hother u hu] at hfollows
      rw [State.Owes, State.Owes, hother u hu, hfollows]
      simp [hu]
  · intro u c position hu
    by_cases hut : u = t
    · rw [hut, hself] at hu
      cases hu
    · rwa [hother u hut] at hu
  · exact fun u hu => absurd hu (by rw [hnone u]; exact Bool.false_ne_true)
  · exact fun c hc => by cases hc

/-- **Every step keeps the slot in order.** -/
theorem step_flight {e : Event} (hs : Flight s) (h : self.Steps s e s') : Flight s' := by
  cases h with
  | tick d => exact hs.aside ⟨rfl, rfl, fun _ => rfl, fun _ => rfl, fun _ _ _ => id⟩
  | @call t kid h =>
    obtain ⟨hleads, hsender⟩ := apart_of_rests h
    refine hs.aside (aside_of_task rfl rfl (fun _ hu => enter_other kid hu) ?_ ?_ ?_)
    · rw [enter_self, hleads]
      rfl
    · rw [enter_self, hsender]
      rfl
    · rw [enter_self]
      simp
  | look_fresh h hfresh =>
    exact hs.aside (aside_checked (by rw [h]; rfl) (by rw [h]; rfl) (by simp))
  | look_stale h hstale =>
    exact hs.aside (aside_checked (by rw [h]; rfl) (by rw [h]; rfl) (by simp))
  | check_fresh h hfresh =>
    exact hs.aside (aside_checked (by rw [h]; rfl) (by rw [h]; rfl) (by simp))
  | check_stale h hstale =>
    exact hs.aside (aside_checked (by rw [h]; rfl) (by rw [h]; rfl) (by simp))
  | subscribe h hslot => exact flight_subscribe hs h hslot
  | lead h hslot => exact flight_lead hs h hslot
  | told h hchan hmessage =>
    refine hs.aside (aside_go ?_ ?_ (after_ne_waiting _))
    · rw [h, after_leads]
      rfl
    · rw [h, after_sender]
      rfl
  | lost h hchan hlost => exact hs.aside (aside_go (by rw [h]; rfl) (by rw [h]; rfl) (by simp))
  | fetched_ok h hfetch => exact hs.aside (aside_go (by rw [h]; rfl) (by rw [h]; rfl) (by simp))
  | fetched_error h hfetch => exact hs.aside (aside_go (by rw [h]; rfl) (by rw [h]; rfl) (by simp))
  | install h =>
    refine hs.aside (aside_of_task rfl rfl (fun _ hu => go_other hu) ?_ ?_ ?_)
    · rw [State.install, go_self, h]
      rfl
    · rw [State.install, go_self, h]
      rfl
    · rw [State.install, go_self]
      simp
  | publish h => exact flight_publish hs h
  | send h => exact flight_send hs h
  | fall_back h => exact hs.aside (aside_go (by rw [h]; rfl) (by rw [h]; rfl) (by simp))
  | reread h => exact hs.aside (aside_go (by rw [h]; rfl) (by rw [h]; rfl) (by simp))
  | drop h =>
    obtain ⟨hleads, hsender⟩ := apart_of_awaits h
    exact hs.aside (aside_go hleads.symm hsender.symm (by simp))
  | interrupt h => exact flight_interrupt hs h

end Change

/-! ## Answers -/

section Answers

variable {s s' : State Key} {u chan : ℕ} {e : Event}

/-- A task that does nothing is left as it is. -/
theorem steps_other (h : self.Steps s e s') (hu : e.actor ≠ some u) : s'.tasks u = s.tasks u := by
  have hother : ∀ {t : ℕ}, (some t : Option ℕ) ≠ some u → u ≠ t := fun h hut => h (hut ▸ rfl)
  cases h with
  | tick d => rfl
  | call kid _ => exact enter_other kid (hother hu)
  | look_fresh | look_stale | check_fresh | check_stale =>
    rw [go_other (hother hu), note_other (hother hu)]
  | lead _ hslot =>
    rw [State.elect, hslot]
    exact go_other (hother hu)
  | _ => exact go_other (hother hu)

/-- The phases in which a task neither is about to take the slot nor has a key. -/
def Phase.plain : Phase Key → Bool
  | .electing _ | .returned (.ok _) => false
  | _ => true

/-- A task that takes a step goes on to the slot having found the set as it is and not fresh, or
answers with what it finds at one of three places, or does neither. -/
theorem steps_own (h : self.Steps s e s') (hu : e.actor = some u) :
    (s'.tasks u).phase.plain = true
      ∨ (s'.tasks u).phase = .electing s.inner ∧ s.fresh = none
      ∨ (∃ cached, s.fresh = some cached
        ∧ s' = (s.note_check u).go u (.returned (self.key cached (s.tasks u).kid)))
      ∨ (∃ error, (s.tasks u).phase = .falling_back error ∧ s' = self.fall_back s u error)
      ∨ (s.tasks u).phase = .rereading ∧ s' = self.reread s u := by
  have hafter : ∀ outcome, (self.after outcome).plain = true := by
    intro outcome
    obtain h | ⟨e, h | h⟩ := @after_cases _ self outcome <;> rw [h] <;> rfl
  cases h with
  | tick => cases hu
  | call kid h =>
    cases hu
    left
    rw [enter_self]
    rfl
  | @look_fresh _ cached h hfresh =>
    cases hu
    exact .inr (.inr (.inl ⟨cached, hfresh, rfl⟩))
  | check_stale h hstale =>
    cases hu
    exact .inr (.inl ⟨by rw [go_self], hstale⟩)
  | fall_back h =>
    cases hu
    exact .inr (.inr (.inr (.inl ⟨_, h, rfl⟩)))
  | reread h =>
    cases hu
    exact .inr (.inr (.inr (.inr ⟨h, rfl⟩)))
  | told | send =>
    cases hu
    left
    first | rw [go_self] | rw [CertCache.send, go_self]
    exact hafter _
  | lead h hslot =>
    cases hu
    left
    rw [State.elect, hslot]
    dsimp only
    rw [go_self]
    rfl
  | install | publish | interrupt =>
    cases hu
    left
    first | rw [State.install, go_self] | rw [State.publish, go_self] | rw [State.interrupt, go_self]
    rfl
  | _ =>
    cases hu
    left
    rw [go_self]
    rfl

/-- What a leader has in the slot, nobody else takes out. -/
theorem steps_slot (hs : Flight s) (h : self.Steps s e s') (hleads : (s.tasks u).phase.leads = true)
    (hu : e.actor ≠ some u) : s'.inflight = s.inflight := by
  have halone : ∀ {t : ℕ}, (some t : Option ℕ) ≠ some u → (s.tasks t).phase.leads ≠ true :=
    fun hne ht => hne (congrArg some (hs.one_leader ht hleads))
  cases h with
  | lead _ hslot =>
    obtain ⟨c, hc⟩ := hs.leads_slot u hleads
    cases hslot.symm.trans hc
  | publish h => exact absurd (by rw [h]; rfl) (halone hu)
  | interrupt h => exact absurd h (halone hu)
  | _ => rfl

/-- How far a task is from its answer. -/
def Phase.rank : Phase Key → ℕ
  | .fetching => 3
  | .installing _ => 2
  | .publishing _ => 1
  | _ => 0

/-- An answer on a channel on which nothing was sent. -/
theorem answered_of_tell {message : Except String Unit} (hpending : s.Pending chan)
    (hchannels : s'.channels = (s.tell (some chan) message).channels) : s'.Answered chan 0 := by
  refine ⟨⟨[message], true⟩, message, ?_, rfl⟩
  rw [hchannels, tell_getElem, if_pos rfl, hpending]
  rfl

/-- A step of the task that owes an answer is one step closer to it, or is the answer. -/
theorem owes_own_step (hs : Flight s) (h : self.Steps s e s') (howes : s.Owes u chan)
    (hu : e.actor = some u) :
    s'.Answered chan 0
      ∨ (s'.Owes u chan ∧ (s'.tasks u).phase.rank < (s.tasks u).phase.rank) := by
  have hpending := hs.pending u chan howes
  -- Only the phases in which something is owed are left.
  have hnot : ∀ {t : ℕ} {phase : Phase Key}, (some t : Option ℕ) = some u →
      (s.tasks t).phase = phase → phase.leads = false → phase.sender = none → False := by
    intro t phase hut hphase hleads hsender
    cases hut
    obtain ⟨h, -⟩ | h := howes
    · rw [hphase, hleads] at h
      cases h
    · rw [hphase, hsender] at h
      cases h
  have hslot : (s.tasks u).phase.sender = none → s.inflight = some chan := by
    intro hnone
    obtain ⟨-, hslot⟩ | hsender := howes
    · exact hslot
    · cases hnone.symm.trans hsender
  cases h with
  | tick => cases hu
  | call kid h =>
    obtain ⟨hleads, hsender⟩ := apart_of_rests h
    exact (hnot hu rfl hleads hsender).elim
  | drop h =>
    obtain ⟨hleads, hsender⟩ := apart_of_awaits h
    exact (hnot hu rfl hleads hsender).elim
  | fetched_ok h hfetch =>
    cases hu
    refine .inr ⟨.inl ⟨by rw [go_self]; rfl, hslot (by rw [h]; rfl)⟩, ?_⟩
    rw [go_self, h]
    exact Nat.lt_succ_self 2
  | fetched_error h hfetch =>
    cases hu
    refine .inr ⟨.inl ⟨by rw [go_self]; rfl, hslot (by rw [h]; rfl)⟩, ?_⟩
    rw [go_self, h]
    exact Nat.lt_succ_of_lt (Nat.lt_succ_self 1)
  | install h =>
    cases hu
    refine .inr ⟨.inl ⟨by rw [State.install, go_self]; rfl, hslot (by rw [h]; rfl)⟩, ?_⟩
    rw [State.install, go_self, h]
    exact Nat.lt_succ_self 1
  | publish h =>
    cases hu
    refine .inr ⟨.inr ?_, ?_⟩
    · rw [State.publish, go_self]
      exact hslot (by rw [h]; rfl)
    · rw [State.publish, go_self, h]
      exact Nat.lt_succ_self 0
  | @send _ notify _ h =>
    cases hu
    obtain ⟨hleads, -⟩ | hsender := howes
    · rw [h] at hleads
      cases hleads
    · rw [h] at hsender
      obtain rfl : notify = some chan := hsender
      exact .inl (answered_of_tell hpending rfl)
  | interrupt h =>
    cases hu
    obtain ⟨-, hslot⟩ | hsender := howes
    · exact .inl (answered_of_tell hpending (by rw [State.interrupt, hslot]; rfl))
    · obtain ⟨c, hc⟩ := hs.leads_slot u h
      exact .inl (answered_of_tell hpending (by
        rw [State.interrupt, hc, State.Owes.unique (.inl ⟨h, hc⟩) (.inr hsender)]; rfl))
  | _ h => exact (hnot hu h rfl rfl).elim

/-- **An answer that is owed is given, or still owed by the same task.** -/
theorem owes_step (hs : Flight s) (h : self.Steps s e s') (howes : s.Owes u chan) :
    s'.Answered chan 0
      ∨ (s'.Owes u chan ∧ (s'.tasks u).phase.rank ≤ (s.tasks u).phase.rank
        ∧ (e.actor = some u → (s'.tasks u).phase.rank < (s.tasks u).phase.rank)) := by
  by_cases hu : e.actor = some u
  · obtain hanswered | ⟨howes', hless⟩ := owes_own_step hs h howes hu
    · exact .inl hanswered
    · exact .inr ⟨howes', Nat.le_of_lt hless, fun _ => hless⟩
  · have hsame := steps_other h hu
    refine .inr ⟨?_, by rw [hsame], fun hactor => absurd hactor hu⟩
    obtain ⟨hleads, hslot⟩ | hsender := howes
    · exact .inl ⟨by rwa [hsame], (steps_slot hs h hleads hu).trans hslot⟩
    · exact .inr (by rwa [hsame])

/-- Whoever owes an answer can go on. -/
theorem owes_enabled (howes : s.Owes u chan) :
    ∃ e s', e.actor = some u ∧ self.step s e = some s' := by
  have hpoll : ∀ s', self.poll s u = some s' →
      ∃ e s', e.actor = some u ∧ self.step s e = some s' := fun s' h => ⟨.poll u, s', rfl, h⟩
  cases hphase : (s.tasks u).phase with
  | fetching =>
    refine ⟨.fetched u (.error "timed out"), self.fetched s u (.error "timed out"), rfl, ?_⟩
    rw [CertCache.step, hphase]
  | installing set => exact hpoll _ (by rw [CertCache.poll, hphase])
  | publishing outcome => exact hpoll _ (by rw [CertCache.poll, hphase])
  | sending notify outcome => exact hpoll _ (by rw [CertCache.poll, hphase])
  | _ =>
    rw [State.Owes, hphase] at howes
    obtain ⟨h, -⟩ | h := howes
    · cases h
    · cases h

end Answers

/-! ## Single flight -/

theorem flight_new (now : Instant) : Flight (State.new Key now) where
  leads_slot _ h := by cases h
  slot_leads _ h := by cases h
  one _ _ _ h := by obtain ⟨-, h⟩ | h := h <;> cases h
  pending _ _ h := by obtain ⟨-, h⟩ | h := h <;> cases h
  waiter _ _ _ h := by cases h

theorem flight_run {now : Instant} {es : List Event} {s : State Key}
    (hrun : run self.step (State.new Key now) es = some s) : Flight s :=
  run_invariant_always (flight_new now) (fun _ _ _ hs h => step_flight hs (steps_of_step h)) hrun

/-- In an execution, whoever owes an answer is scheduled at last: the endpoint answers or times
out, the lock is had, or the task is dropped. -/
def Scheduled (x : Execution self.step) : Prop :=
  ∀ n u chan, (x.state n).Owes u chan → ∃ m, n ≤ m ∧ (x.event m).actor = some u

/-- What is owed in an execution is answered. -/
theorem answered_of_owes (x : Execution self.step) (hflight : Flight (x.state 0))
    (hscheduled : Scheduled x) {u chan : ℕ} (howes : (x.state 0).Owes u chan) :
    ∃ n, (x.state n).Answered chan 0 := by
  by_contra hnever
  have hnot : ∀ n, ¬ (x.state n).Answered chan 0 := fun n h => hnever ⟨n, h⟩
  have hsteps : ∀ n, self.Steps (x.state n) (x.event n) (x.state (n + 1)) :=
    fun n => steps_of_step (x.next n)
  -- As it is not answered, it is owed by the same task for ever.
  have hkept : ∀ n, Flight (x.state n) ∧ (x.state n).Owes u chan := by
    intro n
    induction n with
    | zero => exact ⟨hflight, howes⟩
    | succ n ih =>
      obtain hanswered | ⟨howes', -⟩ := owes_step ih.1 (hsteps n) ih.2
      · exact absurd hanswered (hnot (n + 1))
      · exact ⟨step_flight ih.1 (hsteps n), howes'⟩
  have hcloser : ∀ n, ((x.state (n + 1)).tasks u).phase.rank ≤ ((x.state n).tasks u).phase.rank
      ∧ ((x.event n).actor = some u →
        ((x.state (n + 1)).tasks u).phase.rank < ((x.state n).tasks u).phase.rank) := by
    intro n
    obtain hanswered | ⟨-, hrank⟩ := owes_step (hkept n).1 (hsteps n) (hkept n).2
    · exact absurd hanswered (hnot (n + 1))
    · exact hrank
  obtain ⟨n, -, hanswered⟩ := @Execution.eventually _ _ _ x (fun s => s.Answered chan 0)
    (fun e => e.actor = some u) (fun s => (s.tasks u).phase.rank) (fun n _ _ => hcloser n)
    (fun n _ => hscheduled n u chan (hkept n).2) 0
  exact hnot n hanswered

/-- **Single flight.** At most one task fetches; the slot is occupied while, and only while, some
task leads; whoever waits has an answer to read, or waits for a task that can go on; and where the
tasks that owe answers are scheduled, the answer comes. -/
theorem single_flight {now : Instant} {es : List Event} {s : State Key}
    (hrun : run self.step (State.new Key now) es = some s) :
    (∀ t u, (s.tasks t).phase = .fetching → (s.tasks u).phase = .fetching → t = u)
      ∧ ((∃ chan, s.inflight = some chan) ↔ ∃ t, (s.tasks t).phase.leads = true)
      ∧ (∀ t chan position, (s.tasks t).phase = .waiting chan position →
        s.Answered chan position
          ∨ ∃ u, s.Owes u chan ∧ ∃ e s', e.actor = some u ∧ self.step s e = some s')
      ∧ ∀ x : Execution self.step, x.state 0 = s → Scheduled x →
        ∀ t chan position, (s.tasks t).phase = .waiting chan position →
          ∃ n, (x.state n).Answered chan position := by
  have hflight := flight_run hrun
  refine ⟨fun t u ht hu => ?_, ⟨?_, ?_⟩, fun t chan position ht => ?_, ?_⟩
  · exact hflight.one_leader (by rw [ht]; rfl) (by rw [hu]; rfl)
  · rintro ⟨chan, hchan⟩
    exact hflight.slot_leads chan hchan
  · rintro ⟨t, ht⟩
    exact hflight.leads_slot t ht
  · obtain ⟨rfl, hwait⟩ := hflight.waiter t chan position ht
    exact hwait.imp_right (.imp fun u hu => ⟨hu, owes_enabled hu⟩)
  · intro x hx hscheduled t chan position ht
    obtain ⟨rfl, hanswered | ⟨u, hu⟩⟩ := hflight.waiter t chan position ht
    · exact ⟨0, hx.symm ▸ hanswered⟩
    · exact answered_of_owes x (hx.symm ▸ hflight) hscheduled (hx.symm ▸ hu)

/-! ## Two callers -/

namespace TwoCallers

/-- A cache of keys that are numbers, from an endpoint that has one key under `k`. -/
def cache : CertCache ℕ where
  min_ttl := 300
  stale_if_error := 0
  parse := fun _ => .ok [("k".toList, 7)]
  escape_debug := fun c => [c]
  last_instant := 1000000

/-- Two tasks miss the cache, and the first to reach the slot leads. -/
def events : List Event :=
  [.call 0 "k".toList, .call 1 "k".toList, .poll 0, .poll 1, .poll 0, .poll 1, .poll 0, .poll 1]

/-- What that comes to. -/
def state : State ℕ := (run cache.step (State.new ℕ 0) events).get (by decide +kernel)

end TwoCallers

open TwoCallers in
/-- The second one waits for the first. -/
theorem single_flight_two :
    (TwoCallers.state.tasks 1).phase = .waiting 0 0
      ∧ (TwoCallers.state.Answered 0 0 ∨ ∃ u, TwoCallers.state.Owes u 0
        ∧ ∃ e s', e.actor = some u ∧ cache.step TwoCallers.state e = some s') := by
  have hrun : run cache.step (State.new ℕ 0) events = some TwoCallers.state :=
    (Option.some_get _).symm
  have hwaiting : (TwoCallers.state.tasks 1).phase = .waiting 0 0 := by decide +kernel
  exact ⟨hwaiting, (single_flight hrun).2.2.1 1 0 0 hwaiting⟩

end Lagos.Jwks
