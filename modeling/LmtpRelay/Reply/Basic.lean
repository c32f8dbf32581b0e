/-
Replies: a reply code, an enhanced code when there is one, and a text for people.
-/
import LmtpRelay.Reply.Enhanced
import LmtpRelay.Reply.Status

namespace LmtpRelay

structure Reply where
  status : Status
  enhanced : Option EnhancedCode
  message : String
  deriving DecidableEq, Repr

namespace Reply

def coded (status : Status) (enhanced : EnhancedCode) (message : String) : Reply := ⟨status, some enhanced, message⟩

/-- a reply that says the command was carried out -/
def done (message : String) : Reply := coded .done .success message

/-- the reply as it is sent, without the end of the line -/
def text (r : Reply) : String :=
  match r.enhanced with
  | some e => s!"{r.status.text} {e.text} {r.message}"
  | none => s!"{r.status.text} {r.message}"

/-- whether the reply is not a rejection -/
def isSuccess (r : Reply) : Bool := r.status.isSuccess

end Reply
end LmtpRelay
