/-
The replies after a body: one for each accepted recipient, in the order of acceptance. A recipient with a status gets
the reply for it; the others get the reply for the failure of the whole transaction.
-/
import LmtpRelay.Session.StatusQueue

namespace LmtpRelay

structure Slot where
  recipient : String
  reply : Option Reply
  deriving DecidableEq, Repr

/-- the places for the replies, in the order of acceptance -/
abbrev Outcomes := List Slot

namespace Outcomes

def ofRecipients (recipients : List String) : Outcomes := recipients.map (⟨·, none⟩)

def replyOf (e : StatusEvent) : Reply :=
  match e.result with
  | .ok _ => .done s!"<{e.recipient}> delivered"
  | .error error => error.reply

/-- put the reply for a status into the first free place of its recipient -/
def set (e : StatusEvent) : Outcomes → Outcomes
  | [] => []
  | slot :: rest =>
    if slot.recipient = e.recipient ∧ slot.reply = none then ⟨slot.recipient, some (replyOf e)⟩ :: rest
    else slot :: set e rest

/-- the reply where there is neither a status nor a failure -/
def noStatus : Reply := .coded .actionUnavailable .temporarySystem "No delivery status received"

/-- the replies; `fallback` is the one for a recipient without a status -/
def replies (o : Outcomes) (fallback : Option Reply) : List Reply :=
  o.map fun slot => (slot.reply.or fallback).getD noStatus

/-- the replies after a body, from the statuses in the order in which they came -/
def ofStatuses (recipients : List String) (statuses : List StatusEvent) (fallback : Option Reply) : List Reply :=
  (statuses.foldl (fun o e => set e o) (ofRecipients recipients)).replies fallback

end Outcomes
end LmtpRelay
