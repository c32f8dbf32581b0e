/-
The journal of a run: what was said to the peer and what was asked of the forwarder, each with its moment. What the
forwarder does while an operation goes on is entered as a whole, so the entries are sorted by time before they are
shown.
-/
import LmtpRelay.Forward.Forwarder

namespace LmtpRelay

/-- something that happens in a run -/
inductive Deed where
  /-- text sent to the peer -/
  | said (text : String)
  | mail (sender : String) (params : Parameters) (result : Except ForwardError Unit)
  | rcpt (recipient : String) (result : Except ForwardError Unit)
  | data (result : Except ForwardError Unit)
  | write (piece : Octets) (result : Except IoFailure Unit)
  /-- the forwarder is asked to end the body -/
  | finish
  /-- the body is given up, or its end cut off -/
  | abandon
  /-- a report of the forwarder, and whether it was queued -/
  | report (event : StatusEvent) (queued : Bool)
  | reset (result : Except ForwardError Unit)
  | close (result : Except ForwardError Unit)
  deriving Repr

structure Entry where
  time : Instant
  deed : Deed
  deriving Repr

/-- the entries of a run, in the order in which they were made -/
abbrev Journal := List Entry

namespace Journal

/-- entries in order of time; those of one moment stay as they were made -/
def sorted (j : Journal) : Journal := j.mergeSort fun a b => a.time ≤ b.time

/-- all that happened, in order of time -/
def deeds (j : Journal) : List Deed := j.sorted.map Entry.deed

/-- what happened from one moment on and before another, in order of time -/
def window (first last : Instant) (j : Journal) : List Deed :=
  deeds (j.filter fun e => first ≤ e.time && e.time < last)

def said (j : Journal) : List String :=
  j.filterMap fun e => match e.deed with
    | .said text => some text
    | _ => none

end Journal
end LmtpRelay
