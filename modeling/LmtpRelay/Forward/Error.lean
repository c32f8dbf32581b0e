/-
What can go wrong with the downstream server, and with a forwarder in general. Each failure has its own wording, and a
forwarding failure says which reply it is worth to the peer: a rejection is passed on as it came, everything else is a
failure for now.
-/
import LmtpRelay.Reply.Basic
import LmtpRelay.Text.Octets

namespace LmtpRelay

inductive DownstreamError where
  /-- reading or writing failed -/
  | io (failure : IoFailure)
  /-- no connection could be made -/
  | connect (path : String) (failure : IoFailure)
  /-- a step took too long -/
  | timeout (step : String)
  /-- the server ended the connection -/
  | closed
  /-- the server sent what is no reply -/
  | malformed (detail : String)
  /-- the server's reply is not the one the command needs -/
  | unexpected (command : String) (reply : Reply)
  /-- an earlier failure left the connection in an unknown state -/
  | broken
  deriving DecidableEq, Repr

def DownstreamError.message : DownstreamError → String
  | .io failure => s!"I/O error: {failure.text}"
  | .connect path failure => s!"Unable to connect to {path}: {failure.text}"
  | .timeout step => s!"Timed out during {step}"
  | .closed => "Connection closed by server"
  | .malformed detail => s!"Malformed response: {detail}"
  | .unexpected command reply => s!"Unexpected response to {command}: {reply.text}"
  | .broken => "Connection is no longer usable"

/-- a failure of a forwarder, for a command or for one recipient -/
inductive ForwardError where
  /-- the downstream server said no -/
  | rejected (reply : Reply)
  | downstream (error : DownstreamError)
  | unavailable (detail : String)
  deriving DecidableEq, Repr

namespace ForwardError

def message : ForwardError → String
  | rejected reply => s!"Rejected by downstream: {reply.text}"
  | downstream error => error.message
  | unavailable detail => s!"Forwarder unavailable: {detail}"

/-- the reply that the failure is worth to the peer -/
def reply : ForwardError → Reply
  | rejected reply => reply
  | downstream (.timeout _) => .coded .actionUnavailable .timeout "Downstream timed out"
  | downstream _ | unavailable _ => .coded .actionUnavailable .temporaryNetwork "Downstream unavailable"

end ForwardError
end LmtpRelay
