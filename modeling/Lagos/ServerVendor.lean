/-
Which server the shared counters are in (`vendor_from_info` and `RespBackend::probe` in
`ratelimit/resp.rs`), and which tables it can serve (`verify_shared_counters` in `runtime.rs`).

A server tells of itself in the lines of `INFO server`, in any order and among others. Recached is
the one that has a version of its own or goes by that name (`vendor_from_info_eq`), and only it can
decide exactly. So a table passes with any server, or none that answers, unless it has a shared
limit that is exact, and then with a server that says it is Recached (`exact_needs_recached_iff`).
-/
import Lagos.Reloader

set_option autoImplicit false

open RustStd

namespace Lagos.Reload

open Lagos.Config Lagos.Routes

/-! ## Who answers -/

/-- `Vendor`. -/
inductive Vendor where
  | Recached
  | Other (name : Str)
  deriving DecidableEq, Repr

/-- `Vendor::fmt`. -/
def Vendor.to_string : Vendor → String
  | .Recached => "Recached"
  | .Other name => if name.isEmpty then "an unidentified RESP server" else String.ofList name

/-- `str::lines`: each without its end, and nothing after the last of these. -/
def lines (s : Str) : List Str :=
  let pieces := split '\n' s
  let pieces := if pieces.getLast? = some [] then pieces.dropLast else pieces
  pieces.map fun line => (strip_suffix line ['\r']).getD line

/-- `str::eq_ignore_ascii_case`. -/
def eq_ignore_ascii_case (s t : Str) : Bool := to_ascii_lowercase s == to_ascii_lowercase t

/-- The loop of `vendor_from_info`. -/
def vendor_loop (name : Str) : List Str → Vendor
  | [] => .Other name
  | line :: lines =>
    match split_once ':' (trim line) with
    | none => vendor_loop name lines
    | some (field, value) =>
      if field = "recached_version".toList then .Recached
      else if field = "server_name".toList then
        if eq_ignore_ascii_case value "recached".toList then .Recached
        else vendor_loop value lines
      else vendor_loop name lines

/-- `vendor_from_info`. -/
def vendor_from_info (info : Str) : Vendor := vendor_loop [] (lines info)

/-- `RespBackend::probe`, of the answer to `INFO server` or the error. -/
def probe (answer : Except String Str) : Except String (String × Bool) := do
  let info ← answer
  let vendor := vendor_from_info info
  return (vendor.to_string, vendor = .Recached)

/-! ## Recached -/

/-- A line says that the server is Recached. -/
def SaysRecached (line : Str) : Prop :=
  (∃ version, trim line = "recached_version:".toList ++ version)
    ∨ ∃ name, trim line = "server_name:".toList ++ name
      ∧ to_ascii_lowercase name = "recached".toList

section Vendors

variable {line field value name : Str} {info : Str}

/-- What comes before the first colon is a field in one way. -/
theorem field_eq_iff {key rest : Str} (hfield : ':' ∉ field) (hkey : ':' ∉ key) :
    field ++ ':' :: value = key ++ ':' :: rest ↔ field = key ∧ value = rest := by
  constructor
  · intro h
    have hsplit := split_once_append hfield value
    rw [h, split_once_append hkey] at hsplit
    cases hsplit
    exact ⟨rfl, rfl⟩
  · rintro ⟨rfl, rfl⟩
    rfl

theorem says_recached_iff (h : trim line = field ++ ':' :: value) (hfield : ':' ∉ field) :
    SaysRecached line ↔ field = "recached_version".toList
      ∨ field = "server_name".toList ∧ eq_ignore_ascii_case value "recached".toList = true := by
  have hversion : ∀ rest, trim line = "recached_version:".toList ++ rest
      ↔ field = "recached_version".toList ∧ value = rest := by
    intro rest
    have hkey : ':' ∉ "recached_version".toList := by decide
    rw [h]
    exact field_eq_iff hfield hkey
  have hname : ∀ rest, trim line = "server_name:".toList ++ rest
      ↔ field = "server_name".toList ∧ value = rest := by
    intro rest
    have hkey : ':' ∉ "server_name".toList := by decide
    rw [h]
    exact field_eq_iff hfield hkey
  have hlower : to_ascii_lowercase "recached".toList = "recached".toList := by decide
  simp only [SaysRecached, hversion, hname, eq_ignore_ascii_case, hlower, beq_iff_eq]
  constructor
  · rintro (⟨_, hf, -⟩ | ⟨_, ⟨hf, rfl⟩, hv⟩)
    · exact .inl hf
    · exact .inr ⟨hf, hv⟩
  · rintro (hf | ⟨hf, hv⟩)
    · exact .inl ⟨value, hf, rfl⟩
    · exact .inr ⟨value, ⟨hf, rfl⟩, hv⟩

/-- A line without a colon says nothing. -/
theorem not_says_recached (h : ':' ∉ trim line) : ¬ SaysRecached line := by
  rintro (⟨_, heq⟩ | ⟨_, heq, -⟩)
  · exact h (heq ▸ by simp)
  · exact h (heq ▸ by simp)

/-- Whatever other lines there are, and whichever name was found before. -/
theorem vendor_loop_eq {ls : List Str} :
    vendor_loop name ls = .Recached ↔ ∃ line ∈ ls, SaysRecached line := by
  induction ls generalizing name with
  | nil => simp [vendor_loop]
  | cons line ls ih =>
    simp only [List.mem_cons, exists_eq_or_imp]
    rw [vendor_loop]
    by_cases hcolon : ':' ∈ trim line
    · obtain ⟨field, value, hline, hfield⟩ := List.eq_append_cons_of_mem hcolon
      rw [hline, split_once_append hfield, says_recached_iff hline hfield]
      dsimp only
      by_cases hversion : field = "recached_version".toList
      · rw [if_pos hversion]
        exact iff_of_true rfl (.inl (.inl hversion))
      · rw [if_neg hversion]
        by_cases hname : field = "server_name".toList
        · rw [if_pos hname]
          by_cases hvalue : eq_ignore_ascii_case value "recached".toList = true
          · rw [if_pos hvalue]
            exact iff_of_true rfl (.inl (.inr ⟨hname, hvalue⟩))
          · rw [if_neg hvalue, ih]
            exact (or_iff_right fun h => h.elim hversion fun h => hvalue h.2).symm
        · rw [if_neg hname, ih]
          exact (or_iff_right fun h => h.elim hversion fun h => hname h.1).symm
    · rw [split_once_eq_none hcolon]
      simpa [not_says_recached hcolon] using ih

/-- A server is taken for Recached if a line says that it is one. -/
theorem vendor_from_info_eq :
    vendor_from_info info = .Recached ↔ ∃ line ∈ lines info, SaysRecached line :=
  vendor_loop_eq

example : vendor_from_info "# Server\r\nredis_version:6.2.0\r\nserver_name:ReCached\r\n".toList
    = .Recached := by decide +kernel

end Vendors

/-! ## What it can serve -/

/-- A route asks for an exact limit in the backend. -/
def ExactShared (table : RouteTable) : Prop :=
  ∃ r ∈ table.routes, ∃ rl, r.rate_limit = some rl ∧ rl.counter = .Shared ∧ rl.mode = .Exact

theorem exact_shared_iff {table : RouteTable} :
    (table.routes.any fun r => r.rate_limit.any fun rl =>
      rl.counter = .Shared && rl.mode = .Exact) = true ↔ ExactShared table := by
  simp [ExactShared, Option.any_eq_true]

/-- A table that has one has a shared limit. -/
theorem shared_of_exact {table : RouteTable} (h : ExactShared table) :
    (table.routes.any fun r => r.rate_limit.any fun rl =>
      rl.counter = .Shared && true) = true := by
  obtain ⟨r, hr, rl, hlimit, hshared, -⟩ := h
  refine List.any_eq_true.mpr ⟨r, hr, ?_⟩
  rw [hlimit, Option.any_some, hshared]
  rfl

/-- **An exact limit is served by Recached only**, and by one that answers. All other tables are
served whoever answers, or if nobody does. -/
theorem exact_needs_recached_iff (table : RouteTable) (answer : Except String Str) :
    verify_shared_counters table (probe answer) = .ok ()
      ↔ (ExactShared table →
        ∃ info, answer = .ok info ∧ ∃ line ∈ lines info, SaysRecached line) := by
  unfold verify_shared_counters
  dsimp only
  by_cases hexact : ExactShared table
  · simp only [shared_of_exact hexact, exact_shared_iff.mpr hexact, Bool.not_true,
      Bool.false_eq_true, if_false, Bool.true_and, if_true]
    cases answer with
    | error e => simp [probe, hexact, bind, Except.bind]
    | ok info =>
      have hvendor : vendor_from_info info = .Recached ↔ _ := vendor_from_info_eq
      by_cases hrecached : vendor_from_info info = .Recached
      · simp [probe, bind, Except.bind, pure, Except.pure, hrecached, hvendor.mp hrecached]
      · simp [probe, bind, Except.bind, pure, Except.pure, hrecached, hexact,
          mt hvendor.mpr hrecached]
  · refine iff_of_true ?_ fun h => absurd h hexact
    have hnone := Bool.eq_false_iff.mpr (mt exact_shared_iff.mp hexact)
    simp only [hnone]
    split
    · rfl
    · cases probe answer with
      | error e => rfl
      | ok found => rfl

end Lagos.Reload
