/-
The parts of the configuration that a route carries or is checked against
(`config/mod.rs`, `retry.rs`, `binding.rs`), and the two helpers its error texts are
written with: the closest known name, and a duration as `{:?}` prints it.
-/
import Lagos.Lib.RustStd

set_option autoImplicit false

open RustStd

namespace Lagos.Config

/-! ## Policies of a route -/

/-- `RetryOn`. -/
inductive RetryOn where
  /-- The connection was never established. -/
  | ConnectionFailure
  /-- The connection broke after it was established. -/
  | TransportError
  deriving DecidableEq, Repr

/-- `RetryConfig`. -/
structure RetryConfig where
  attempts : UInt32
  on : List RetryOn
  non_idempotent : Bool
  deriving DecidableEq, Repr

/-- `retry::Policy`. -/
structure Policy where
  attempts : UInt32
  on_connect : Bool
  on_transport : Bool
  non_idempotent : Bool
  deriving DecidableEq, Repr

/-- `retry::Policy::from_config`. -/
def Policy.from_config (cfg : RetryConfig) : Policy where
  attempts := cfg.attempts
  on_connect := cfg.on.contains .ConnectionFailure
  on_transport := cfg.on.contains .TransportError
  non_idempotent := cfg.non_idempotent

/-- `RateLimitKey`. -/
inductive RateLimitKey where
  | Ip
  | Identity
  | Route
  | Header (name : Str)
  deriving DecidableEq, Repr

/-- `MissingKey`. -/
inductive MissingKey where
  | Reject
  | Route
  | Ip
  | Skip
  deriving DecidableEq, Repr

/-- `Counter`. -/
inductive Counter where
  | Exact
  | Sketch
  | Shared
  deriving DecidableEq, Repr

/-- `LimitMode`. -/
inductive LimitMode where
  | Approximate
  | Exact
  deriving DecidableEq, Repr

/-- `RateLimitConfig`. -/
structure RateLimitConfig where
  requests : ℕ
  interval : Duration
  key : RateLimitKey
  missing_key : MissingKey
  trusted_proxies : ℕ
  max_keys : ℕ
  counter : Counter
  mode : LimitMode
  deriving DecidableEq, Repr

/-- `ConcurrencyConfig`. -/
structure ConcurrencyConfig where
  max : ℕ
  key : Option RateLimitKey
  missing_key : MissingKey
  trusted_proxies : ℕ
  deriving DecidableEq, Repr

/-- `ConcurrencyConfig::key`. -/
def ConcurrencyConfig.effective_key (cap : ConcurrencyConfig) : RateLimitKey :=
  cap.key.getD .Route

/-- `RouteDefaults`: policies of routes that omit the field. -/
structure RouteDefaults where
  rate_limit : Option RateLimitConfig
  retry : Option RetryConfig
  methods : Option (List Str)
  deriving DecidableEq, Repr

/-- The field of `SharedCountersConfig` that a route's limit is checked against. -/
structure SharedCountersConfig where
  sync : Duration
  deriving DecidableEq, Repr

/-- `ConfigError::Invalid`. -/
structure ConfigError where
  message : String
  deriving DecidableEq, Repr

/-- `ConfigError::invalid`. -/
def invalid {α : Type} (message : String) : Except ConfigError α := .error ⟨message⟩

/-! ## Bindings -/

/-- `binding::Source`. -/
inductive Source where
  | Query (name : Str)
  | Header (name : Str)
  deriving DecidableEq, Repr

/-- `binding::Target`. -/
inductive Target where
  | Subject
  | Claim (path : Str)
  deriving DecidableEq, Repr

structure Binding where
  source : Source
  target : Target
  deriving DecidableEq, Repr

/-- The first half of `Binding::parse`. -/
def Source.parse (source : Str) : Except String Source :=
  let refused := .error (s!"`{text source}` is not a bindable source; expected `query.<name>` "
    ++ "or `header.<name>`")
  match split_once '.' source with
  | some (kind, name) =>
    if kind = "query".toList ∧ name ≠ [] then .ok (.Query name)
    else if kind = "header".toList ∧ name ≠ [] then .ok (.Header (to_ascii_lowercase name))
    else refused
  | none => refused

/-- The second half of `Binding::parse`. -/
def Target.parse (target : Str) : Except String Target :=
  if target = "identity.subject".toList ∨ target = "identity.sub".toList then .ok .Subject
  else
    let refused := .error (s!"`{text target}` is not a bindable target; expected "
      ++ "`identity.subject` or `identity.<claim>`")
    match strip_prefix target "identity.".toList with
    | some claim => if claim ≠ [] then .ok (.Claim claim) else refused
    | none => refused

/-- `Binding::parse`. -/
def Binding.parse (source target : Str) : Except String Binding := do
  let source ← Source.parse source
  let target ← Target.parse target
  return ⟨source, target⟩

/-! ## Error texts -/

/-- One row of the table `edit_distance` fills: `prev` is the row above from this column
on, and `left` the entry just written. -/
def edit_row (ca : Char) : Str → List ℕ → ℕ → List ℕ
  | cb :: b, substitute :: delete :: prev, left =>
    let cost := if ca ≠ cb then 1 else 0
    let here := min (min (substitute + cost) (delete + 1)) (left + 1)
    here :: edit_row ca b (delete :: prev) here
  | _, _, _ => []

/-- `edit_distance`. -/
def edit_distance (a b : Str) : ℕ :=
  let last := a.zipIdx.foldl
    (fun prev (ca, i) => (i + 1) :: edit_row ca b prev (i + 1)) (List.range (b.length + 1))
  last.getLast?.getD 0

/-- `did_you_mean`: the closest known name that is close enough to be a typo, the first of
several as close. -/
def did_you_mean (name : Str) (known : List Str) : Option Str :=
  if len name > 64 then none
  else
    (known.filter fun k => len k ≤ 64 ∧
      edit_distance name k ≤ min 3 (max (len k) (len name) / 2 + 1)).minOn? (edit_distance name)

/-- `suggestion`. -/
def suggestion (name : Str) (known : List Str) : String :=
  match did_you_mean name known with
  | some k => s!". Did you mean `{text k}`?"
  | none => ""

/-- The digits of `n` after a decimal point, in units of `1 / unit`, without trailing zeros. -/
def fraction_digits (n unit : ℕ) : String :=
  let digits := (Nat.toDigits 10 (unit + n)).tail.rdropWhile (· == '0')
  if digits.isEmpty then "" else "." ++ text digits

/-- `{:?}` of a `Duration`. -/
def debug_duration (d : Duration) : String :=
  let in_unit (unit : ℕ) (name : String) :=
    toString (d / unit) ++ fraction_digits (d % unit) unit ++ name
  if d ≥ 1000000000 then in_unit 1000000000 "s"
  else if d ≥ 1000000 then in_unit 1000000 "ms"
  else if d ≥ 1000 then in_unit 1000 "µs"
  else in_unit 1 "ns"

end Lagos.Config
