import HurriCache.ClientTypes

/-!
# Statuses, exceptions and what a future delivers

A future is a value or an exception. `GrpcStatusException` keeps the status
code, the message and the route trailer apart because the failover code
reads all three; every other exception carries only its text.
-/

set_option autoImplicit false

namespace HurriCache.CallOutcomes
open HurriCache.ClientTypes

inductive StatusCode where
  | OK | CANCELLED | UNKNOWN | INVALID_ARGUMENT | DEADLINE_EXCEEDED | NOT_FOUND
  | ALREADY_EXISTS | PERMISSION_DENIED | RESOURCE_EXHAUSTED | FAILED_PRECONDITION
  | ABORTED | OUT_OF_RANGE | UNIMPLEMENTED | INTERNAL | UNAVAILABLE | DATA_LOSS
  | UNAUTHENTICATED
  deriving DecidableEq, Repr

/-- `grpc::Status`. -/
structure Status where
  error_code : StatusCode
  error_message : Text
  deriving DecidableEq, Repr

def Status.ok (s : Status) : Bool := s.error_code == .OK

def Status.initial : Status := ⟨.OK, []⟩

inductive CallException where
  | grpc (code : StatusCode) (statusMessage routeTrailer : Text)
  | other (what : Text)
  deriving DecidableEq, Repr

abbrev Outcome (T : Type) := Except CallException T

end HurriCache.CallOutcomes
