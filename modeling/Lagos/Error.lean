/-
Answers that the gateway gives itself instead of proxying (`error.rs`).

A rejection says two things to two readers: its status and body go to the client, its event and
reason to the log. Everything that the gateway refuses to route is `not_found`, whatever the
reason, so that the client reads the same each time.
-/
import Lagos.Lib.RustStd

set_option autoImplicit false

open RustStd

namespace Lagos.Error

/-- The values in the bodies of rejections. -/
inductive Field where
  | number (n : ℕ)
  | text (s : String)
  deriving DecidableEq, Repr

/-- The body of a rejection: an object, in the order of its keys. -/
abbrev Body := List (String × Field)

/-- `Rejection`. -/
structure Rejection where
  status : ℕ
  body : Body
  event : String
  reason : String
  deriving DecidableEq, Repr

/-- The envelope that all bodies share. -/
def envelope (status : ℕ) (message error : String) : Body :=
  [("error", .text error), ("message", .text message), ("statusCode", .number status)]

/-- `Rejection::not_found`. -/
def Rejection.not_found (event reason : String) : Rejection :=
  ⟨404, envelope 404 "Not Found" "Not Found", event, reason⟩

/-- The body of an answer that says when to come back, in whole seconds. -/
def retry_envelope (status : ℕ) (message error : String) (retry_after_secs : ℕ) : Body :=
  [("error", .text error), ("message", .text message), ("retryAfter", .number retry_after_secs),
    ("statusCode", .number status)]

/-- `Rejection::rate_limited`. -/
def Rejection.rate_limited (retry_after_secs : ℕ) : Rejection where
  status := 429
  body := retry_envelope 429 "Too many requests" "Too Many Requests" retry_after_secs
  event := "gateway.rate_limited"
  reason := "rate_limited"

/-- `Rejection::circuit_open`. -/
def Rejection.circuit_open (retry_after_secs : ℕ) : Rejection where
  status := 503
  body := retry_envelope 503 "The upstream service is temporarily unavailable."
    "Service Unavailable" retry_after_secs
  event := "gateway.circuit_open"
  reason := "circuit_open"

/-- `Rejection::concurrency_limited`. -/
def Rejection.concurrency_limited (per_caller : Bool) (retry_after_secs : ℕ) : Rejection where
  status := if per_caller then 429 else 503
  body :=
    if per_caller then
      retry_envelope 429 "Too many concurrent requests" "Too Many Requests" retry_after_secs
    else
      retry_envelope 503 "The upstream service is at capacity." "Service Unavailable"
        retry_after_secs
  event := "gateway.concurrency_limited"
  reason := "concurrency_limited"

/-- `Rejection::missing_bearer`. -/
def Rejection.missing_bearer : Rejection where
  status := 401
  body := [("error", .text "Unauthorized"), ("hint", .text "Use: Authorization: Bearer <token>"),
    ("message", .text ("Authentication required. "
      ++ "Please provide a valid bearer token in the Authorization header.")),
    ("statusCode", .number 401)]
  event := "gateway.auth.rejected"
  reason := "missing_bearer"

/-- `Rejection::invalid_token`. -/
def Rejection.invalid_token (detail : String) : Rejection where
  status := 401
  body := ("hint", .text "Refresh the token or sign in again, then retry.")
    :: envelope 401 "Invalid token" "Unauthorized"
  event := "gateway.auth.rejected"
  reason := s!"invalid_token: {detail}"

/-- `Rejection::missing_client_key`. -/
def Rejection.missing_client_key (header : Str) : Rejection where
  status := 401
  body := ("hint", .text s!"Send the key in the {text header} header.")
    :: envelope 401 "Client key required" "Unauthorized"
  event := "gateway.client_key.rejected"
  reason := "missing_client_key"

/-- `Rejection::invalid_client_key`. -/
def Rejection.invalid_client_key : Rejection where
  status := 401
  body := envelope 401 "Invalid client key" "Unauthorized"
  event := "gateway.client_key.rejected"
  reason := "bad_client_key"

/-- `Rejection::forbidden`. -/
def Rejection.forbidden (message reason : String) : Rejection :=
  ⟨403, envelope 403 message "Forbidden", "gateway.request.forbidden", reason⟩

/-- `Rejection::unavailable`. -/
def Rejection.unavailable (message reason : String) : Rejection :=
  ⟨503, envelope 503 message "Service Unavailable", "gateway.upstream.unavailable", reason⟩

/-- `Rejection::payload_too_large`. -/
def Rejection.payload_too_large : Rejection where
  status := 413
  body := envelope 413 "Payload Too Large" "Payload Too Large"
  event := "gateway.request.too_large"
  reason := "body_too_large"

/-- `Rejection::gateway_timeout`. -/
def Rejection.gateway_timeout : Rejection :=
  ⟨504, envelope 504 "Gateway Timeout" "Gateway Timeout", "gateway.upstream.timeout",
    "upstream_timeout"⟩

/-- The rejection that `fail_to_proxy` makes of an error of this type, which is neither a
timeout nor a status. -/
def Rejection.upstream_failed (etype : String) : Rejection :=
  ⟨502, envelope 502 "Bad Gateway" "Bad Gateway", "gateway.upstream.unreachable", etype⟩

end Lagos.Error
