/-
Whether a caller owns what it asks for (`binding.rs`): what it supplied, in the query or a
header, is what its identity proves.
-/
import Lagos.Identity
import Lagos.Config
import Lagos.Lib.Percent

set_option autoImplicit false

open RustStd

namespace Lagos.Config

open Lagos.Auth

/-! ## What a client supplies -/

/-- `percent_decode`: as in a form, where a plus is a space. -/
def percent_decode (s : Str) : Option Str :=
  Percent.decode_utf8 (s.map fun c => if c = '+' then ' ' else c)

/-- The loop of `query_param`, with the value found so far. -/
def scan_pairs (name : Str) : List Str → Option Str → Option Str
  | [], value => value
  | pair :: pairs, value =>
    let (k, v) := (split_once '=' pair).getD (pair, [])
    (percent_decode k).bind fun key =>
      if key = name then
        -- a second value is ambiguous, however it is spelled
        if value.isSome then none
        else (percent_decode v).bind fun v => scan_pairs name pairs (some v)
      else scan_pairs name pairs value

/-- `query_param`. -/
def query_param (query name : Str) : Option Str := scan_pairs name (split '&' query) none

/-- `Binding::supplied`. -/
def Binding.supplied (b : Binding) (query : Option Str) (header : Str → Option Str) : Option Str :=
  match b.source with
  | .Query name => query.bind fun query => query_param query name
  | .Header name => header name

/-! ## What an identity proves -/

/-- `scalar_to_string`. -/
def scalar_to_string : Value → Option Str
  | .String s => some s
  | .Number n => some n
  | .Bool b => some (toString b).toList
  | .Null => none
  | .Array _ => none
  | .Object _ => none

/-- `Binding::proven`. -/
def Binding.proven (b : Binding) (identity : Identity) : Option Str :=
  match b.target with
  | .Subject => some identity.subject
  | .Claim path => (identity.claim_at path).bind scalar_to_string

/-- `Binding::permits`. -/
def Binding.permits (b : Binding) (identity : Identity) (query : Option Str)
    (header : Str → Option Str) : Bool :=
  match b.supplied query header, b.proven identity with
  | some supplied, some proven => supplied == proven
  | _, _ => false

/-- Nothing is permitted that is missing on either side. -/
theorem Binding.permits_iff {b : Binding} {identity : Identity} {query : Option Str}
    {header : Str → Option Str} :
    b.permits identity query header = true
      ↔ ∃ v, b.supplied query header = some v ∧ b.proven identity = some v := by
  unfold Binding.permits
  cases b.supplied query header with
  | none => exact iff_of_false (by simp) (by simp)
  | some supplied =>
    cases b.proven identity with
    | none => exact iff_of_false (by simp) (by simp)
    | some proven =>
      constructor
      · intro h
        exact ⟨supplied, rfl, congrArg some (beq_iff_eq.mp h).symm⟩
      · rintro ⟨v, ⟨⟩, ⟨⟩⟩
        exact beq_self_eq_true _

end Lagos.Config
