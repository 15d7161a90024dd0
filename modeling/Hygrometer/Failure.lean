/-!
# Failures

What a client is told when there is no answer: a kind, which fixes the machine-readable code and the
HTTP status, and a detail in words.

The kinds are those that the program tells apart, and each has its own code, so a client can decide
by the code alone what to do. The status is coarser: two kinds share one. A message starts with a
heading for its kind, and the detail follows as it is, whatever is in it.

Nothing else is called a failure. Readers and decoders have errors of their own, which say more than
a client is told; a `toFailure` says what is made of such an error where a client sees it.
-/

namespace Hygrometer

/-- The kinds of failure. -/
inductive FailureKind where
  /-- The input or the configuration is invalid. -/
  | badRequest
  /-- The sensor cannot give a sample now. -/
  | sensorUnavailable
  /-- The sensor answered with octets that form no valid sample. -/
  | malformedPayload
  /-- The listening socket cannot be bound. -/
  | bind
  /-- Anything else. -/
  | internal
deriving DecidableEq, Repr

namespace FailureKind

/-- The stable code that clients see. -/
def code : FailureKind → String
  | badRequest => "BAD_REQUEST"
  | sensorUnavailable => "SENSOR_UNAVAILABLE"
  | malformedPayload => "MALFORMED_PAYLOAD"
  | bind => "BIND_FAILED"
  | internal => "INTERNAL"

/-- The HTTP status of the answer. -/
def status : FailureKind → Nat
  | badRequest => 400
  | sensorUnavailable => 503
  | malformedPayload => 502
  | bind => 500
  | internal => 500

/-- The words that start the message. -/
def heading : FailureKind → String
  | badRequest => "bad request: "
  | sensorUnavailable => "sensor unavailable: "
  | malformedPayload => "malformed sensor payload: "
  | bind => "bind failed: "
  | internal => "internal: "

end FailureKind

/-- A failure: its kind and what happened. -/
structure Failure where
  /-- The kind. -/
  kind : FailureKind
  /-- What happened, in words. -/
  detail : String
deriving DecidableEq

/-- The whole message of a failure. -/
def Failure.message (f : Failure) : String := f.kind.heading ++ f.detail

end Hygrometer
