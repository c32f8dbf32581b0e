/-
What can go wrong in a session, how it is worded, and which reply it is worth to the peer.
-/
import LmtpRelay.Forward.Error
import LmtpRelay.Resolver

namespace LmtpRelay

/-- a failure of an operation on a session -/
inductive SessionError where
  /-- the recipient has no local part -/
  | invalidAddress (recipient : String)
  /-- the local part has no forwarding address -/
  | resolution (identifier : String) (cause : ResolveError)
  /-- the forwarding address is that of another recipient -/
  | collision (recipient resolved : String)
  | forward (error : ForwardError)
  /-- a body came without a recipient -/
  | noRecipients
  /-- the body could not be read, or not be passed on -/
  | dataCopy (failure : IoFailure)
  /-- the recipients whose status did not come in time -/
  | statusTimeout (missing : List String)
  /-- the recipients that the message was not delivered to -/
  | delivery (failed : List String)
  | authUnsupported
  deriving DecidableEq, Repr

namespace SessionError

def message : SessionError → String
  | invalidAddress recipient => s!"Invalid recipient address '{recipient}'"
  | resolution identifier cause => s!"Unable to resolve '{identifier}': {cause.message}"
  | collision recipient resolved =>
    s!"Recipient '{recipient}' resolves to '{resolved}', which is already a recipient"
  | forward error => error.message
  | noRecipients => "No recipients have been accepted"
  | dataCopy failure => s!"Failed to copy message data: {failure.text}"
  | statusTimeout missing => "timeout waiting for forward LMTP status: " ++ ", ".intercalate missing
  | delivery failed => "Delivery failed for: " ++ ", ".intercalate failed
  | authUnsupported => "Authentication is not supported"

/-- whether the failure ends the whole transaction, and not only one command -/
def isTransactionFatal : SessionError → Bool
  | dataCopy _ | statusTimeout _ | delivery _ => true
  | _ => false

/-- whether the failure concerns only the recipient that caused it -/
def isRecipientScoped : SessionError → Bool
  | invalidAddress _ | resolution _ _ | collision _ _ => true
  | _ => false

def reply : SessionError → Reply
  | invalidAddress _ => .coded .parameterError .badDestinationSyntax "Invalid recipient address"
  | resolution _ (.notFound _) => .coded .refused .badDestination "No such user here"
  | resolution _ (.failed _) => .coded .actionUnavailable .temporaryDestination "Unable to resolve recipient"
  | collision _ _ => .coded .refused .badDestinationSyntax "Recipient duplicates another recipient"
  | forward error => error.reply
  | noRecipients => .coded .badSequence .invalidCommand "No valid recipients"
  | dataCopy _ => .coded .actionUnavailable .temporarySystem "Failed to transfer message"
  | statusTimeout _ => .coded .actionUnavailable .timeout "Timed out waiting for delivery status"
  | delivery _ => .coded .transactionFailed .undefinedFailure "Delivery failed"
  | authUnsupported => .coded .notImplemented .authUnsupported "Authentication not supported"

end SessionError
end LmtpRelay
