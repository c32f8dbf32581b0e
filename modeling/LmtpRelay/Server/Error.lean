/-
What can go wrong with the server as a whole.
-/
import LmtpRelay.Text.Octets

namespace LmtpRelay

/-- a failure of the server -/
inductive ServerError where
  /-- the listener is not a local socket -/
  | unsupportedTransport (transport : String)
  /-- no listener could be made at an address -/
  | bind (address : String) (failure : IoFailure)
  /-- accepting a connection failed -/
  | accept (failure : IoFailure)
  /-- the server was closed before it began to serve -/
  | closed
  deriving DecidableEq, Repr

def ServerError.message : ServerError → String
  | .unsupportedTransport transport => s!"Unsupported listener transport '{transport}', expected a unix socket"
  | .bind address failure => s!"Unable to bind {address}: {failure.text}"
  | .accept failure => s!"Failed to accept connection: {failure.text}"
  | .closed => "Server has already been closed"

end LmtpRelay
