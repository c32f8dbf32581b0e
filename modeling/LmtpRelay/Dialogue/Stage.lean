/-
The order of a dialogue. A peer greets, opens a transaction with a sender, adds recipients, sends the body and may
begin again. The stage moves only on commands that were accepted, so its input is what happened rather than what was
asked. The envelope holds what the dialogue knows of the peer and of the open transaction.
-/
import LmtpRelay.Command.Basic

namespace LmtpRelay

/-! ## Stages -/

/-- how far a dialogue has come -/
inductive Stage where
  /-- the peer has not given its name -/
  | connected
  /-- the peer is known and no transaction is open -/
  | ready
  /-- a sender is accepted, and no recipient -/
  | sender
  /-- a sender and at least one recipient are accepted -/
  | recipients
  /-- the dialogue is over -/
  | closed
  deriving DecidableEq, Repr

namespace Stage

/-- the kinds of line that may come now -/
def allows : Stage → Verb → Bool
  | s, .mail => s = .ready
  | s, .rcpt => s = .sender ∨ s = .recipients
  | s, .data => s = .recipients
  | s, _ => s ≠ .closed

def inTransaction (s : Stage) : Bool := s = .sender ∨ s = .recipients

end Stage

/-! ## What happens -/

/-- an accepted command -/
inductive Event where
  | lhlo (client : String)
  | mail (sender : String)
  | rcpt (recipient : String)
  /-- a body was dealt with, whatever came of it -/
  | dataComplete
  | reset
  | quit
  deriving DecidableEq, Repr

/-- what is known of the peer and of the open transaction -/
structure Envelope where
  /-- the name that the peer gave -/
  client : Option String
  sender : Option String
  /-- the accepted recipients, in the order of acceptance -/
  recipients : List String
  deriving DecidableEq, Repr

namespace Envelope

def empty : Envelope := ⟨none, none, []⟩

def clear (e : Envelope) : Envelope := { e with sender := none, recipients := [] }

end Envelope

/-- a dialogue: how far it has come and what is known -/
structure Dialogue where
  stage : Stage
  envelope : Envelope
  deriving DecidableEq, Repr

namespace Dialogue

def initial : Dialogue := ⟨.connected, .empty⟩

/-- the stage without a transaction -/
def idle (e : Envelope) : Stage := if e.client.isSome then .ready else .connected

/-- an accepted command moves the dialogue; one that does not fit the stage changes nothing -/
def apply (d : Dialogue) (event : Event) : Dialogue :=
  match d.stage, event with
  | .closed, _ => d
  | _, .quit => { d with stage := .closed }
  | _, .lhlo client => ⟨.ready, { d.envelope.clear with client := some client }⟩
  | .ready, .mail sender => ⟨.sender, { d.envelope with sender := some sender }⟩
  | .sender, .rcpt recipient | .recipients, .rcpt recipient =>
    ⟨.recipients, { d.envelope with recipients := d.envelope.recipients ++ [recipient] }⟩
  | _, .dataComplete | _, .reset => ⟨idle d.envelope, d.envelope.clear⟩
  | _, _ => d

end Dialogue
end LmtpRelay
