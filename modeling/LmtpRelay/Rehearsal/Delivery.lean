/-
Bodies sent over a client without a session: the pieces are written one after another, and the body is then ended or
given up. The statuses go into a queue.
-/
import LmtpRelay.Downstream.Client

namespace LmtpRelay.Rehearsal

variable {π : Type}

def writePieces (now : Instant) (c : Client π) : List Octets → Answer (Client π) (Except IoFailure Unit)
  | [] => ⟨0, .ok (), c⟩
  | piece :: rest =>
    let a := c.writePiece now piece
    match a.value with
    | .ok _ =>
      let b := writePieces (now + a.took) a.next rest
      { b with took := a.took + b.took }
    | .error _ => a

/-- send a body, ending it or giving it up: the result, and the statuses that found room -/
def deliver (now : Instant) (c : Client π) (pieces : List Octets) (ends : Bool) (queue : StatusQueue) :
    Answer (Client π) (Except ForwardError Unit × List StatusEvent) :=
  let a := c.data now
  match a.value with
  | .error e => ⟨a.took, (.error e, []), a.next⟩
  | .ok _ =>
    let w := writePieces (now + a.took) a.next pieces
    let took := a.took + w.took
    match w.value with
    | .error f => ⟨took, (.error (.downstream (.io f)), []), w.next.abandon (now + took)⟩
    | .ok _ =>
      if ends then
        let closing := w.next.finish (now + took)
        let queue := (closing.direct.flatMap Burst.events).foldl StatusQueue.report queue
        ⟨took + closing.took.getD 0, (closing.result, queue.queued), closing.closed⟩
      else ⟨took, (.ok (), []), w.next.abandon (now + took)⟩

end LmtpRelay.Rehearsal
