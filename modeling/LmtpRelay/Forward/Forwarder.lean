/-
Forwarders: whoever takes a transaction on. A forwarder is a set of operations on a state of its own; each is given the
moment at which it begins, and says how long it takes, what it comes to and the state after it.

The body is opened, written in pieces, and then either finished or abandoned. Finishing reports what became of the
recipients. Reports come in bursts: those made by the finishing call itself, and those made afterwards by someone who
still holds on to the queue. A finishing call may never end, and it may be cut off.
-/
import LmtpRelay.Command.Parameters
import LmtpRelay.Session.StatusQueue
import LmtpRelay.Time

namespace LmtpRelay

/-- what an operation on a forwarder comes to -/
structure Answer (σ α : Type) where
  took : Nat
  value : α
  /-- the state after the operation -/
  next : σ

/-- reports made at one moment, with nothing in between -/
structure Burst where
  time : Instant
  events : List StatusEvent
  deriving Repr

/-- what finishing a body comes to -/
structure Closing (σ : Type) where
  /-- how long the call takes; `none` where it never ends -/
  took : Option Nat
  /-- the result of the call when it ends -/
  result : Except ForwardError Unit
  /-- the reports made until the call ends, in order of time -/
  direct : List Burst
  /-- the reports made after the call has ended, in order of time; a burst without reports stands for someone who had
  the queue and lets go of it without a report -/
  later : List Burst
  /-- when the last one who could still report lets go of the queue; `none` where that never happens -/
  released : Option Instant
  /-- the state after the call has ended -/
  closed : σ
  /-- the state after the call was cut off at a moment -/
  cut : Instant → σ

/-- the operations of a forwarder -/
structure Forwarder (σ : Type) where
  /-- begin a transaction -/
  mail (now : Instant) (s : σ) (sender : String) (params : Parameters) : Answer σ (Except ForwardError Unit)
  /-- add a recipient -/
  rcpt (now : Instant) (s : σ) (recipient : String) : Answer σ (Except ForwardError Unit)
  /-- begin the body -/
  data (now : Instant) (s : σ) : Answer σ (Except ForwardError Unit)
  /-- pass on a piece of the body -/
  write (now : Instant) (s : σ) (piece : Octets) : Answer σ (Except IoFailure Unit)
  /-- end the body and report what became of the recipients -/
  finish (now : Instant) (s : σ) : Closing σ
  /-- give the body up -/
  abandon (now : Instant) (s : σ) : σ
  /-- forget the transaction -/
  reset (now : Instant) (s : σ) : Answer σ (Except ForwardError Unit)
  /-- end the dialogue -/
  close (now : Instant) (s : σ) : Answer σ (Except ForwardError Unit)

end LmtpRelay
