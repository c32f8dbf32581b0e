/-
What can go wrong on the connection to the peer.
-/
import LmtpRelay.Text.Octets

namespace LmtpRelay

inductive ConnectionError where
  /-- reading or writing failed -/
  | io (failure : IoFailure)
  /-- the peer closed its side -/
  | closed
  /-- a line was longer than allowed, and has been passed over -/
  | lineTooLong (limit : Nat)
  deriving DecidableEq, Repr

def ConnectionError.message : ConnectionError → String
  | .io failure => s!"I/O error: {failure.text}"
  | .closed => "Connection closed by peer"
  | .lineTooLong limit => s!"Line exceeds {limit} bytes"

end LmtpRelay
