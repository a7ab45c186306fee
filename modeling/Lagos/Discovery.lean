/-
Refreshing the members of a pool (`member_set`, `DnsDiscovery` and `build_pool` in `upstream.rs`).

What a pool is made of is kept twice: the balancer has the members in service, and the discovery
has the target that each of their addresses belongs to. A refresh resolves every target and either
replaces both or neither (`refresh_cases`). The balancer keeps its old members when the new ones
are the same to it, which they are when addresses and weights are; that is why an address may not
go from one target to another while it is in service, and why the two still fit
(`discovery_consistent`).

An address is of any type here. What is asked of the balancer, which is not part of the
repository, are the two lines of `Balancer`.
-/
import Lagos.Config
import Lagos.Lib.Run
import Mathlib.Logic.Function.Basic

set_option autoImplicit false

open RustStd StepRun

namespace Lagos.Upstream

open Lagos.Config

/-! ## Member sets -/

/-- The field of `UpstreamTarget` that is resolved. -/
structure UpstreamTarget where
  /-- `host:port`. -/
  addr : Str
  deriving DecidableEq, Repr

/-- `pingora::lb::Backend`, with its `TargetIndex`. -/
structure Backend (Addr : Type) where
  addr : Addr
  weight : ℕ
  index : ℕ
  deriving DecidableEq, Repr

/-- One target's DNS answer. -/
structure Answer (Addr : Type) where
  index : ℕ
  weight : ℕ
  addrs : List Addr
  deriving DecidableEq, Repr

variable {Addr : Type}

/-- What two members are compared by. -/
def Backend.key (b : Backend Addr) : Addr × ℕ := (b.addr, b.weight)

/-- An address-to-target map. -/
abbrev Owners (Addr : Type) := Addr → Option ℕ

section MemberSet

variable [DecidableEq Addr] (display : Addr → Str)

/-- `BTreeSet::insert`: an equal member stays as it is. -/
def insert (members : List (Backend Addr)) (b : Backend Addr) : List (Backend Addr) :=
  if members.any fun m => m.key = b.key then members else members ++ [b]

/-- The loop over the addresses of one answer, in `member_set`. -/
def add_addrs (owners : Option (Owners Addr)) (index weight : ℕ) :
    List Addr → List (Backend Addr) × Owners Addr →
      Except String (List (Backend Addr) × Owners Addr)
  | [], st => .ok st
  | addr :: addrs, (members, owner) =>
    match owner addr with
    | some previous =>
      -- The same name listed an address twice.
      if previous = index then add_addrs owners index weight addrs (members, owner)
      else .error (s!"multiple targets resolve to backend `{text (display addr)}`; "
        ++ "each pool member must have a distinct address and port")
    | none =>
      if (owners.bind fun o => o addr).any fun previous => previous ≠ index then
        .error (s!"backend `{text (display addr)}` moved from one target to another; "
          ++ "restart to apply a change of target ownership")
      else
        add_addrs owners index weight addrs
          (insert members ⟨addr, weight, index⟩, Function.update owner addr (some index))

/-- The loop over the answers, in `member_set`. -/
def add_answers (targets : List UpstreamTarget) (owners : Option (Owners Addr)) :
    List (Answer Addr) → List (Backend Addr) × Owners Addr →
      Except String (List (Backend Addr) × Owners Addr)
  | [], st => .ok st
  | answer :: answers, st =>
    let name := (targets[answer.index]?).elim "?" fun t => text t.addr
    if answer.addrs.isEmpty then .error s!"`{name}` resolved to no addresses"
    else
      match add_addrs display owners answer.index answer.weight answer.addrs st with
      | .error e => .error e
      | .ok st => add_answers targets owners answers st

/-- `member_set`. -/
def member_set (targets : List UpstreamTarget) (answers : List (Answer Addr)) (max_members : ℕ)
    (owners : Option (Owners Addr)) : Except String (List (Backend Addr) × Owners Addr) :=
  match add_answers display targets owners answers ([], fun _ => none) with
  | .error e => .error e
  | .ok (members, owner) =>
    if members.length > max_members then
      .error s!"resolved {members.length} members, more than the limit of {max_members}"
    else .ok (members, owner)

end MemberSet

/-! ## Discovery -/

/-- How the lookup of one target ends. -/
inductive Lookup (Addr : Type) where
  | Found (addrs : List Addr)
  | Failed (e : String)
  | TimedOut
  deriving DecidableEq, Repr

/-- What of `DnsDiscovery` does not change. -/
structure Setup where
  targets : List UpstreamTarget
  weights : List ℕ
  max_members : ℕ
  lookup_timeout : Duration
  /-- An upstream has at least one target after parsing. -/
  some_target : targets ≠ []

/-- What of `DnsDiscovery` changes. -/
structure DnsDiscovery (Addr : Type) where
  /-- The startup set, for the first call. -/
  primed : Option (List (Backend Addr))
  /-- Address owners of the set in service. -/
  owners : Owners Addr

/-- The load balancer: it replaces its members unless the new ones are equal to them. -/
structure Balancer (Addr : Type) where
  /-- `Backends::update`, with what a discovery returns. -/
  update : List (Backend Addr) → List (Backend Addr) → List (Backend Addr)
  /-- Members are compared by address and weight only. -/
  update_eq : ∀ old new, update old new = new
    ∨ (update old new = old ∧ ∀ k, k ∈ old.map Backend.key ↔ k ∈ new.map Backend.key)

section Discover

variable [DecidableEq Addr] (display : Addr → Str) (setup : Setup)

/-- The weight of a target. -/
def Setup.weight (i : ℕ) : ℕ := (setup.weights[i]?).getD 1

/-- The loop over the targets in `discover`, of targets `i`, `i + 1`, …: the first lookup that
does not answer ends it. -/
def resolve (lookups : ℕ → Lookup Addr) :
    ℕ → List UpstreamTarget → Except String (List (Answer Addr))
  | _, [] => .ok []
  | i, target :: targets =>
    match lookups i with
    | .Failed e => .error s!"cannot resolve `{text target.addr}`: {e}"
    | .TimedOut =>
      .error s!"`{text target.addr}` did not resolve within {debug_duration setup.lookup_timeout}"
    | .Found addrs =>
      match resolve lookups (i + 1) targets with
      | .error e => .error e
      | .ok answers => .ok (⟨i, setup.weight i, addrs⟩ :: answers)

/-- `DnsDiscovery::discover`. -/
def DnsDiscovery.discover (self : DnsDiscovery Addr) (lookups : ℕ → Lookup Addr) :
    Except String (List (Backend Addr)) × DnsDiscovery Addr :=
  match self.primed with
  | some first => (.ok first, { self with primed := none })
  | none =>
    match resolve setup lookups 0 setup.targets with
    | .error e => (.error e, self)
    | .ok answers =>
      match member_set display setup.targets answers setup.max_members (some self.owners) with
      | .error e => (.error e, self)
      | .ok (members, owners) => (.ok members, { self with owners := owners })

/-- A pool: its discovery, and the members that the balancer has in service. -/
structure Pool (Addr : Type) where
  discovery : DnsDiscovery Addr
  in_service : List (Backend Addr)

variable (balancer : Balancer Addr)

/-- `LoadBalancer::update`: an error leaves the members in place. -/
def Pool.refresh (s : Pool Addr) (lookups : ℕ → Lookup Addr) : Except String Unit × Pool Addr :=
  match s.discovery.discover display setup lookups with
  | (.ok new, discovery) => (.ok (), ⟨discovery, balancer.update s.in_service new⟩)
  | (.error e, discovery) => (.error e, ⟨discovery, s.in_service⟩)

/-- The answers at start-up, of every target. -/
def Setup.startup_answers (addrs : ℕ → List Addr) : List (Answer Addr) :=
  setup.targets.zipIdx.map fun p => ⟨p.2, setup.weight p.2, addrs p.2⟩

/-- `build_pool`, of a pool with `discovery`: the first call of `discover` primes the balancer,
and looks nothing up. -/
def build_pool (addrs : ℕ → List Addr) : Except String (Pool Addr) :=
  match member_set display setup.targets (setup.startup_answers addrs) setup.max_members none with
  | .error e => .error e
  | .ok (backends, owners) =>
    .ok (Pool.refresh display setup balancer ⟨⟨some backends, owners⟩, []⟩ fun _ => .TimedOut).2

/-- A refresh, as a step of a run. -/
def Pool.step (s : Pool Addr) (lookups : ℕ → Lookup Addr) : Option (Pool Addr) :=
  some (s.refresh display setup balancer lookups).2

end Discover

/-! ## What a member set is -/

/-- The two halves of a member set fit, and it has what the answers have. -/
structure Matched (members : List (Backend Addr)) (owner : Owners Addr) : Prop where
  distinct : (members.map Backend.addr).Nodup
  owner_iff : ∀ a i, owner a = some i ↔ ∃ b ∈ members, b.addr = a ∧ b.index = i

/-- No address of a set in service goes to another target. -/
def Unmoved (owners : Option (Owners Addr)) (owner : Owners Addr) : Prop :=
  ∀ o ∈ owners, ∀ a i j, o a = some i → owner a = some j → i = j

theorem matched_nil : Matched ([] : List (Backend Addr)) fun _ => none where
  distinct := List.nodup_nil
  owner_iff a i := by simp

section Spec

variable [DecidableEq Addr] {display : Addr → Str} {owners : Option (Owners Addr)}
  {members members' : List (Backend Addr)} {owner owner' : Owners Addr} {index weight : ℕ}

/-- A member with a new address. -/
theorem Matched.insert (h : Matched members owner) {addr : Addr} (hnew : owner addr = none) :
    Matched (insert members ⟨addr, weight, index⟩) (Function.update owner addr (some index))
      ∧ Upstream.insert members ⟨addr, weight, index⟩ = members ++ [⟨addr, weight, index⟩] := by
  have hfree : ∀ b ∈ members, b.addr ≠ addr := by
    rintro b hb rfl
    have howned := (h.owner_iff b.addr b.index).mpr ⟨b, hb, rfl, rfl⟩
    rw [hnew] at howned
    cases howned
  have hinsert : Upstream.insert members ⟨addr, weight, index⟩
      = members ++ [⟨addr, weight, index⟩] := by
    refine if_neg fun hany => ?_
    obtain ⟨b, hb, hkey⟩ := List.any_eq_true.mp hany
    exact hfree b hb (congrArg Prod.fst (of_decide_eq_true hkey))
  refine ⟨?_, hinsert⟩
  rw [hinsert]
  constructor
  · rw [List.map_append, List.map_singleton, List.nodup_append]
    refine ⟨h.distinct, List.nodup_cons.mpr ⟨List.not_mem_nil, List.nodup_nil⟩, ?_⟩
    intro a ha b hb
    obtain ⟨m, hm, rfl⟩ := List.mem_map.mp ha
    rw [List.mem_singleton.mp hb]
    exact hfree m hm
  · intro a i
    by_cases ha : a = addr
    · subst ha
      rw [Function.update_self, Option.some.injEq]
      constructor
      · rintro rfl
        exact ⟨_, List.mem_append_right _ (List.mem_singleton_self _), rfl, rfl⟩
      · rintro ⟨b, hb, hba, hbi⟩
        obtain hb | hb := List.mem_append.mp hb
        · exact absurd hba (hfree b hb)
        · rw [List.mem_singleton.mp hb] at hbi
          exact hbi
    · rw [Function.update_of_ne ha, h.owner_iff]
      constructor
      · rintro ⟨b, hb, hba⟩
        exact ⟨b, List.mem_append_left _ hb, hba⟩
      · rintro ⟨b, hb, hba⟩
        obtain hb | hb := List.mem_append.mp hb
        · exact ⟨b, hb, hba⟩
        · rw [List.mem_singleton.mp hb] at hba
          exact absurd hba.1.symm ha

/-- What the addresses of one answer add: each is its target's, and nothing else changes. -/
structure Added (owners : Option (Owners Addr)) (index : ℕ) (addrs : List Addr)
    (owner : Owners Addr) (members' : List (Backend Addr)) (owner' : Owners Addr) : Prop where
  matched : Matched members' owner'
  unmoved : Unmoved owners owner'
  kept : ∀ a i, owner a = some i → owner' a = some i
  owned : ∀ a ∈ addrs, owner' a = some index
  only : ∀ a i, owner' a = some i → owner a = some i ∨ i = index

theorem add_addrs_ok {addrs : List Addr} (h : Matched members owner)
    (hunmoved : Unmoved owners owner)
    (hadd : add_addrs display owners index weight addrs (members, owner) = .ok (members', owner')) :
    Added owners index addrs owner members' owner' := by
  induction addrs generalizing members owner with
  | nil =>
    cases hadd
    exact ⟨h, hunmoved, fun _ _ => id, List.forall_mem_nil _, fun _ _ => .inl⟩
  | cons addr addrs ih =>
    rw [add_addrs] at hadd
    split at hadd
    · rename_i previous hprevious
      split at hadd
      · rename_i hsame
        subst hsame
        have hrest := ih h hunmoved hadd
        exact { hrest with
          owned := List.forall_mem_cons.mpr ⟨hrest.kept addr previous hprevious, hrest.owned⟩ }
      · cases hadd
    · rename_i hnew
      split at hadd
      · cases hadd
      · rename_i hstays
        have hunmoved' : Unmoved owners (Function.update owner addr (some index)) := by
          intro o ho a i j hi hj
          by_cases ha : a = addr
          · subst ha
            rw [Function.update_self] at hj
            by_contra hne
            refine hstays ?_
            rw [Option.mem_def.mp ho, Option.bind_some, hi, Option.any_some, Option.some.inj hj]
            simpa using hne
          · rw [Function.update_of_ne ha] at hj
            exact hunmoved o ho a i j hi hj
        have hrest := ih (h.insert hnew).1 hunmoved' hadd
        refine ⟨hrest.matched, hrest.unmoved, ?_, ?_, ?_⟩
        · intro a i hi
          refine hrest.kept a i ?_
          rwa [Function.update_of_ne]
          rintro rfl
          rw [hnew] at hi
          cases hi
        · refine List.forall_mem_cons.mpr ⟨?_, hrest.owned⟩
          exact hrest.kept addr index (Function.update_self ..)
        · intro a i hi
          obtain hi | hi := hrest.only a i hi
          · by_cases ha : a = addr
            · subst ha
              rw [Function.update_self] at hi
              exact .inr (Option.some.inj hi).symm
            · rw [Function.update_of_ne ha] at hi
              exact .inl hi
          · exact .inr hi

/-- What the answers add. -/
structure AllAdded (owners : Option (Owners Addr)) (answers : List (Answer Addr))
    (owner : Owners Addr) (members' : List (Backend Addr)) (owner' : Owners Addr) : Prop where
  matched : Matched members' owner'
  unmoved : Unmoved owners owner'
  kept : ∀ a i, owner a = some i → owner' a = some i
  owned : ∀ answer ∈ answers, answer.addrs ≠ [] ∧ ∀ a ∈ answer.addrs, owner' a = some answer.index
  only : ∀ a i, owner' a = some i → owner a = some i ∨ ∃ answer ∈ answers, answer.index = i

theorem add_answers_ok {targets : List UpstreamTarget} {answers : List (Answer Addr)}
    (h : Matched members owner) (hunmoved : Unmoved owners owner)
    (hadd : add_answers display targets owners answers (members, owner) = .ok (members', owner')) :
    AllAdded owners answers owner members' owner' := by
  induction answers generalizing members owner with
  | nil =>
    cases hadd
    exact ⟨h, hunmoved, fun _ _ => id, List.forall_mem_nil _, fun _ _ => .inl⟩
  | cons answer answers ih =>
    rw [add_answers] at hadd
    split at hadd
    · cases hadd
    rename_i hsome
    split at hadd
    · cases hadd
    rename_i st hone
    obtain ⟨members₁, owner₁⟩ := st
    have hadded := add_addrs_ok h hunmoved hone
    have hrest := ih hadded.matched hadded.unmoved hadd
    refine ⟨hrest.matched, hrest.unmoved, ?_, ?_, ?_⟩
    · exact fun a i hi => hrest.kept a i (hadded.kept a i hi)
    · refine List.forall_mem_cons.mpr ⟨⟨by simpa using hsome, ?_⟩, hrest.owned⟩
      exact fun a ha => hrest.kept a _ (hadded.owned a ha)
    · intro a i hi
      obtain hi | ⟨later, hlater, rfl⟩ := hrest.only a i hi
      · exact (hadded.only a i hi).imp_right fun hi => ⟨answer, List.mem_cons_self, hi.symm⟩
      · exact .inr ⟨later, List.mem_cons_of_mem _ hlater, rfl⟩

/-- A member set that is not refused, made of these answers. -/
structure Accepted (answers : List (Answer Addr)) (max_members : ℕ) (owners : Option (Owners Addr))
    (members : List (Backend Addr)) (owner : Owners Addr) : Prop where
  matched : Matched members owner
  unmoved : Unmoved owners owner
  /-- Every answer is a member, and every member an answer's. -/
  index_iff : ∀ i, (∃ b ∈ members, b.index = i) ↔ ∃ answer ∈ answers, answer.index = i
  le_max : members.length ≤ max_members

theorem member_set_ok {targets : List UpstreamTarget} {answers : List (Answer Addr)}
    {max_members : ℕ}
    (h : member_set display targets answers max_members owners = .ok (members, owner)) :
    Accepted answers max_members owners members owner := by
  unfold member_set at h
  split at h
  · cases h
  rename_i members₁ owner₁ hadd
  split at h
  · cases h
  rename_i hmax
  cases h
  have hadded := add_answers_ok matched_nil (fun _ _ _ _ _ _ hj => by cases hj) hadd
  refine ⟨hadded.matched, hadded.unmoved, fun i => ⟨?_, ?_⟩, not_lt.mp hmax⟩
  · rintro ⟨b, hb, rfl⟩
    have howned := (hadded.matched.owner_iff b.addr b.index).mpr ⟨b, hb, rfl, rfl⟩
    obtain hnone | hanswer := hadded.only _ _ howned
    · cases hnone
    · exact hanswer
  · rintro ⟨answer, hanswer, rfl⟩
    obtain ⟨hsome, howned⟩ := hadded.owned answer hanswer
    obtain ⟨a, ha⟩ := List.exists_mem_of_ne_nil _ hsome
    obtain ⟨b, hb, -, hindex⟩ := (hadded.matched.owner_iff _ _).mp (howned a ha)
    exact ⟨b, hb, hindex⟩

/-! ## What a refresh does -/

variable {setup : Setup} {balancer : Balancer Addr} {lookups : ℕ → Lookup Addr}

omit [DecidableEq Addr] in
/-- The answers of a refresh are one for each target. -/
theorem resolve_ok {targets : List UpstreamTarget} {start : ℕ} {answers : List (Answer Addr)}
    (h : resolve setup lookups start targets = .ok answers) (i : ℕ) :
    (∃ answer ∈ answers, answer.index = i) ↔ start ≤ i ∧ i < start + targets.length := by
  induction targets generalizing start answers with
  | nil =>
    cases h
    simp
  | cons target targets ih =>
    rw [resolve] at h
    split at h
    · cases h
    · cases h
    · rename_i addrs _
      split at h
      · cases h
      · rename_i rest hrest
        cases h
        rw [List.exists_mem_cons_iff, ih hrest, List.length_cons]
        show start = i ∨ _ ↔ _
        omega

omit [DecidableEq Addr] in
theorem startup_answers_index (addrs : ℕ → List Addr) (i : ℕ) :
    (∃ answer ∈ setup.startup_answers addrs, answer.index = i) ↔ i < setup.targets.length := by
  constructor
  · rintro ⟨answer, hanswer, rfl⟩
    obtain ⟨p, hp, rfl⟩ := List.mem_map.mp hanswer
    exact (List.getElem?_eq_some_iff.mp (List.mem_zipIdx_iff_getElem?.mp hp)).1
  · intro hi
    refine ⟨⟨i, setup.weight i, addrs i⟩, List.mem_map.mpr ⟨(setup.targets[i], i), ?_, rfl⟩, rfl⟩
    exact List.mem_zipIdx_iff_getElem?.mpr (List.getElem?_eq_getElem hi)

/-- The pool is in order: each member in service is of the target that its address is owned by, and
each target has one. -/
structure Consistent (setup : Setup) (s : Pool Addr) : Prop where
  primed : s.discovery.primed = none
  matched : Matched s.in_service s.discovery.owners
  index_iff : ∀ i, (∃ b ∈ s.in_service, b.index = i) ↔ i < setup.targets.length
  some_member : 1 ≤ s.in_service.length
  le_max : s.in_service.length ≤ setup.max_members

/-- A refresh is refused and changes nothing, or it has a member set for all targets, which the
owners are taken from and the balancer is given. -/
theorem refresh_cases {s : Pool Addr} (h : s.discovery.primed = none) :
    (∃ e, s.refresh display setup balancer lookups = (.error e, s)) ∨
    ∃ answers members owner, (∀ i, (∃ answer ∈ answers, answer.index = i) ↔ i < setup.targets.length)
      ∧ Accepted answers setup.max_members (some s.discovery.owners) members owner
      ∧ s.refresh display setup balancer lookups
        = (.ok (), ⟨⟨none, owner⟩, balancer.update s.in_service members⟩) := by
  have hself : s.discovery = ⟨none, s.discovery.owners⟩ := by rw [← h]
  unfold Pool.refresh DnsDiscovery.discover
  rw [h]
  dsimp only
  cases hresolve : resolve setup lookups 0 setup.targets with
  | error e => exact .inl ⟨e, rfl⟩
  | ok answers =>
    dsimp only
    cases hset : member_set display setup.targets answers setup.max_members
        (some s.discovery.owners) with
    | error e => exact .inl ⟨e, rfl⟩
    | ok new =>
      obtain ⟨members, owner⟩ := new
      refine .inr ⟨answers, members, owner, fun i => ?_, member_set_ok hset, rfl⟩
      rw [resolve_ok hresolve, Nat.zero_add]
      exact and_iff_right (Nat.zero_le i)

omit [DecidableEq Addr] in
/-- The same members, as the balancer compares them: then they are of the same targets as well,
because none has moved. -/
theorem Matched.of_same_keys {old new : List (Backend Addr)} (h : Matched old owner)
    (h' : Matched new owner') (hunmoved : Unmoved (some owner) owner')
    (hkeys : ∀ k, k ∈ old.map Backend.key ↔ k ∈ new.map Backend.key) : Matched old owner' := by
  refine ⟨h.distinct, fun a i => ⟨fun hi => ?_, ?_⟩⟩
  · obtain ⟨b, hb, rfl, rfl⟩ := (h'.owner_iff a i).mp hi
    obtain ⟨m, hm, hkey⟩ := List.mem_map.mp ((hkeys b.key).mpr (List.mem_map_of_mem hb))
    have haddr : m.addr = b.addr := congrArg Prod.fst hkey
    have howned := (h.owner_iff b.addr m.index).mpr ⟨m, hm, haddr, rfl⟩
    exact ⟨m, hm, haddr, hunmoved owner rfl _ _ _ howned hi⟩
  · rintro ⟨b, hb, rfl, rfl⟩
    obtain ⟨m, hm, hkey⟩ := List.mem_map.mp ((hkeys b.key).mp (List.mem_map_of_mem hb))
    have haddr : m.addr = b.addr := congrArg Prod.fst hkey
    have howned := (h'.owner_iff b.addr m.index).mpr ⟨m, hm, haddr, rfl⟩
    have hsame := hunmoved owner rfl _ _ _ ((h.owner_iff _ _).mpr ⟨b, hb, rfl, rfl⟩) howned
    rw [howned, hsame]

omit [DecidableEq Addr] in
/-- Whatever the balancer makes of a member set, it fits the owners. -/
theorem Accepted.updated {answers : List (Answer Addr)} {old new : List (Backend Addr)}
    (h : Matched old owner)
    (hnew : Accepted answers setup.max_members (some owner) new owner') :
    Matched (balancer.update old new) owner'
      ∧ (balancer.update old new = new ∨ balancer.update old new = old
        ∧ ∀ k, k ∈ old.map Backend.key ↔ k ∈ new.map Backend.key) := by
  obtain hupdate | ⟨hupdate, hkeys⟩ := balancer.update_eq old new
  · refine ⟨?_, .inl hupdate⟩
    rw [hupdate]
    exact hnew.matched
  · refine ⟨?_, .inr ⟨hupdate, hkeys⟩⟩
    rw [hupdate]
    exact h.of_same_keys hnew.matched hnew.unmoved hkeys

omit [DecidableEq Addr] in
/-- A set with a member for each target is not empty. -/
theorem some_member_of_index {members : List (Backend Addr)}
    (h : ∀ i, (∃ b ∈ members, b.index = i) ↔ i < setup.targets.length) : 1 ≤ members.length := by
  obtain ⟨b, hb, -⟩ := (h 0).mpr (List.length_pos_of_ne_nil setup.some_target)
  exact List.length_pos_of_mem hb

theorem refresh_consistent {s : Pool Addr} (h : Consistent setup s) :
    Consistent setup (s.refresh display setup balancer lookups).2 := by
  obtain ⟨e, hrefresh⟩ | ⟨answers, members, owner, hindex, hset, hrefresh⟩ :=
    @refresh_cases _ _ display setup balancer lookups s h.primed
  · rw [hrefresh]
    exact h
  · rw [hrefresh]
    obtain ⟨hmatched, hupdate | ⟨hupdate, -⟩⟩ :=
      @Accepted.updated _ _ _ setup balancer _ _ _ h.matched hset
    · have hindex' : ∀ i, (∃ b ∈ members, b.index = i) ↔ i < setup.targets.length :=
        fun i => (hset.index_iff i).trans (hindex i)
      refine ⟨rfl, hmatched, ?_, ?_, ?_⟩ <;> dsimp only <;> rw [hupdate]
      · exact hindex'
      · exact some_member_of_index hindex'
      · exact hset.le_max
    · refine ⟨rfl, hmatched, ?_, ?_, ?_⟩ <;> dsimp only <;> rw [hupdate]
      · exact h.index_iff
      · exact h.some_member
      · exact h.le_max

/-- A pool starts in order. -/
theorem build_pool_consistent {addrs : ℕ → List Addr} {start : Pool Addr}
    (h : build_pool display setup balancer addrs = .ok start) : Consistent setup start := by
  unfold build_pool at h
  split at h
  · cases h
  rename_i backends owners hset
  cases h
  have hset := member_set_ok hset
  have hindex : ∀ i, (∃ b ∈ backends, b.index = i) ↔ i < setup.targets.length :=
    fun i => (hset.index_iff i).trans (startup_answers_index addrs i)
  have hupdate : balancer.update [] backends = backends := by
    obtain hupdate | ⟨-, hkeys⟩ := balancer.update_eq [] backends
    · exact hupdate
    · -- A set that is equal to none has no members.
      obtain ⟨b, hb, -⟩ := (hindex 0).mpr (List.length_pos_of_ne_nil setup.some_target)
      exact absurd ((hkeys b.key).mpr (List.mem_map_of_mem hb)) List.not_mem_nil
  refine ⟨rfl, ?_, ?_, ?_, ?_⟩ <;> simp only [Pool.refresh, DnsDiscovery.discover, hupdate]
  · exact hset.matched
  · exact hindex
  · exact some_member_of_index hindex
  · exact hset.le_max

/-- **Discovery keeps the pool in order.** In whatever state a run of refreshes leads to, with
whatever answers, failures and time-outs: the members in service are the addresses that have an
owner, each of its owner's target, none of them twice; there are some, and not too many; and each
target has one. A refresh that is refused changes nothing, and no address that stays in service
goes to another target. -/
theorem discovery_consistent {addrs : ℕ → List Addr} {start s : Pool Addr}
    {events : List (ℕ → Lookup Addr)}
    (hstart : build_pool display setup balancer addrs = .ok start)
    (hrun : run (Pool.step display setup balancer) start events = some s) :
    Consistent setup s
      ∧ ∀ lookups, (∀ e s', s.refresh display setup balancer lookups = (.error e, s') → s' = s)
        ∧ ∀ b ∈ s.in_service, ∀ b' ∈ (s.refresh display setup balancer lookups).2.in_service,
          b.addr = b'.addr → b.index = b'.index := by
  have hconsistent : Consistent setup s := by
    refine run_invariant_always (build_pool_consistent hstart) ?_ hrun
    rintro s lookups _ h ⟨⟩
    exact refresh_consistent h
  refine ⟨hconsistent, fun lookups => ?_⟩
  obtain ⟨e, hrefresh⟩ | ⟨answers, members, owner, hindex, hset, hrefresh⟩ :=
    @refresh_cases _ _ display setup balancer lookups s hconsistent.primed
  · rw [hrefresh]
    refine ⟨fun _ _ h => (Prod.mk.inj h).2.symm, fun b hb b' hb' haddr => ?_⟩
    have howned := (hconsistent.matched.owner_iff b.addr b.index).mpr ⟨b, hb, rfl, rfl⟩
    have howned' := (hconsistent.matched.owner_iff b.addr b'.index).mpr ⟨b', hb', haddr.symm, rfl⟩
    exact Option.some.inj (howned.symm.trans howned')
  · rw [hrefresh]
    refine ⟨fun e s' h => ?_, fun b hb b' hb' haddr => ?_⟩
    · cases (Prod.mk.inj h).1
    obtain ⟨hmatched, -⟩ := @Accepted.updated _ _ _ setup balancer _ _ _ hconsistent.matched hset
    have howned := (hconsistent.matched.owner_iff b.addr b.index).mpr ⟨b, hb, rfl, rfl⟩
    have howned' := (hmatched.owner_iff b.addr b'.index).mpr ⟨b', hb', haddr.symm, rfl⟩
    exact hset.unmoved _ rfl _ _ _ howned howned'

end Spec

namespace TwoTargets

/-- A pool of two targets. -/
def setup : Setup where
  targets := [⟨"a:80".toList⟩, ⟨"b:80".toList⟩]
  weights := [1, 1]
  max_members := 4
  lookup_timeout := 5000000000
  some_target := List.cons_ne_nil _ _

/-- `Backends::do_update`. -/
def balancer : Balancer ℕ where
  update old new :=
    if (∀ k ∈ old.map Backend.key, k ∈ new.map Backend.key)
        ∧ ∀ k ∈ new.map Backend.key, k ∈ old.map Backend.key
    then old else new
  update_eq old new := by
    split
    · rename_i hsame
      exact .inr ⟨rfl, fun k => ⟨hsame.1 k, hsame.2 k⟩⟩
    · exact .inl rfl

/-- The first target moves to another address; then the second one's lookup fails. -/
def events : List (ℕ → Lookup ℕ) :=
  [fun i => .Found [i + 10], fun i => if i = 0 then .Found [12] else .TimedOut]

end TwoTargets

/-- The pool after both refreshes has the members of the first. -/
theorem discovery_consistent_two :
    ∃ start s, build_pool (fun _ => []) TwoTargets.setup TwoTargets.balancer (fun i => [i])
        = .ok start
      ∧ run (Pool.step (fun _ => []) TwoTargets.setup TwoTargets.balancer) start TwoTargets.events
        = some s
      ∧ s.in_service = [⟨10, 1, 0⟩, ⟨11, 1, 1⟩]
      ∧ Consistent TwoTargets.setup s :=
  ⟨_, _, rfl, rfl, rfl,
    (@discovery_consistent _ _ (fun _ => []) TwoTargets.setup TwoTargets.balancer (fun i => [i]) _ _
      TwoTargets.events rfl rfl).1⟩

end Lagos.Upstream
