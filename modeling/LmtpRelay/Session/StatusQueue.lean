/-
The queue of delivery statuses. A forwarder reports what became of each recipient; a report never waits, and it is lost
when the queue is full or nobody receives any more.
-/
import LmtpRelay.Forward.Error

namespace LmtpRelay

/-- what became of one recipient -/
structure StatusEvent where
  recipient : String
  result : Except ForwardError Unit
  deriving Repr

/-- whether the message was delivered to the recipient -/
def StatusEvent.isSuccess (e : StatusEvent) : Bool :=
  match e.result with
  | .ok _ => true
  | .error _ => false

/-- reports on their way from a forwarder to a session -/
structure StatusQueue where
  /-- how many reports can wait -/
  room : Nat
  /-- the reports that wait, oldest first -/
  queued : List StatusEvent
  /-- whether anyone may still report -/
  hasSender : Bool
  /-- whether the receiving end is there -/
  hasReceiver : Bool
  deriving Repr

/-- what the receiving end finds when it looks -/
inductive Received where
  | event (e : StatusEvent)
  /-- nothing waits, and a report may still come -/
  | empty
  /-- nothing waits, and nothing can come -/
  | closed
  deriving Repr

namespace StatusQueue

/-- a queue with room for the reports that are outstanding, and for one at least -/
def ofOutstanding (n : Nat) : StatusQueue := ⟨max 1 n, [], true, true⟩

def accepts (q : StatusQueue) : Bool := q.hasReceiver && q.queued.length < q.room

/-- report a status; one that is not accepted is lost -/
def report (q : StatusQueue) (e : StatusEvent) : StatusQueue :=
  if q.accepts then { q with queued := q.queued ++ [e] } else q

/-- look for a report without waiting -/
def receive (q : StatusQueue) : Received × StatusQueue :=
  match q.hasReceiver, q.queued with
  | false, _ => (.closed, q)
  | true, e :: rest => (.event e, { q with queued := rest })
  | true, [] => (if q.hasSender then .empty else .closed, q)

/-- the last one who could report is gone -/
def dropSender (q : StatusQueue) : StatusQueue := { q with hasSender := false }

/-- the receiving end is gone, and with it the reports that waited -/
def dropReceiver (q : StatusQueue) : StatusQueue := { q with queued := [], hasReceiver := false }

end StatusQueue
end LmtpRelay
