/-
Passing a body on and collecting the statuses of its recipients.

The body is read in pieces and each is passed on; then the forwarder finishes it. From the end of the copy on, finishing
and collecting share one deadline. Reports wait in a queue with room for one from each recipient; the session takes
them in order, and only the first report for each recipient counts. Collecting ends when every recipient has a status,
when nobody can report any more, or at the deadline. Whatever happens, the transaction is over.
-/
import LmtpRelay.Session.Basic

namespace LmtpRelay

/-! ## The body -/

/-- a body to be read: pieces, and a failure after them unless it ends there -/
structure BodyInput where
  pieces : List Octets
  failure : Option IoFailure
  deriving DecidableEq, Repr

/-- how much of a body is read at once -/
def copyLimit : Nat := 8192

/-- cut octets into parts of at most `limit` each, none of them empty -/
def cut (limit : Nat) (bs : Octets) : List Octets :=
  if _h : bs = [] ∨ limit = 0 then [] else bs.take limit :: cut limit (bs.drop limit)
termination_by bs.length
decreasing_by
  have : bs ≠ [] := fun e => _h (.inl e)
  have : 0 < bs.length := List.length_pos_iff.2 this
  simp only [List.length_drop]
  omega

def BodyInput.ofChunks (chunks : List Octets) (failure : Option IoFailure) : BodyInput :=
  ⟨chunks.flatMap (cut copyLimit), failure⟩

namespace Session

variable {σ : Type}

/-- pass the pieces of a body on until one fails -/
def copyPieces (s : Session σ) : List Octets → Except IoFailure Unit × Session σ
  | [] => (.ok (), s)
  | piece :: rest =>
    let a := s.forwarder.write s.now s.downstream piece
    let s := (s.note (.write piece a.value)).heard a
    match a.value with
    | .ok _ => copyPieces s rest
    | .error f => (.error f, s)

def copyBody (s : Session σ) (body : BodyInput) : Except IoFailure Unit × Session σ :=
  let (copied, s) := s.copyPieces body.pieces
  match copied, body.failure with
  | .ok _, some f => (.error f, s)
  | _, _ => (copied, s)

def abandon (s : Session σ) : Session σ :=
  let s := s.note .abandon
  { s with downstream := s.forwarder.abandon s.now s.downstream }

/-! ## Statuses -/

/-- enter the reports of a burst, each with whether it finds room: `room` of them do -/
def noteBurst (s : Session σ) (b : Burst) (room : Nat) : Session σ :=
  s.enter ((b.events.take room).map (⟨b.time, .report · true⟩) ++ (b.events.drop room).map (⟨b.time, .report · false⟩))

/-- enter the reports of bursts that are queued one after another while nothing is taken out; gives those that found
room, in order -/
def queueBursts (s : Session σ) (room : Nat) : List Burst → List StatusEvent × Session σ
  | [] => ([], s)
  | b :: rest =>
    let (more, s) := queueBursts (s.noteBurst b room) (room - b.events.length) rest
    (b.events.take room ++ more, s)

/-- the statuses collected so far -/
structure Collected where
  /-- the recipients that have none -/
  outstanding : Recipients
  /-- the statuses in the order in which they came, under the recipients' own names -/
  statuses : List StatusEvent
  deriving Repr

/-- take one report: the first one for a recipient counts -/
def Collected.take (c : Collected) (e : StatusEvent) : Collected :=
  match c.outstanding.named? e.recipient with
  | some recipient => ⟨c.outstanding.erase e.recipient, c.statuses ++ [⟨recipient, e.result⟩]⟩
  | none => c

/-- take reports in order until nothing is outstanding -/
def Collected.drain (c : Collected) : List StatusEvent → Collected
  | [] => c
  | e :: rest => if c.outstanding.isEmpty then c else drain (c.take e) rest

/-- take the bursts that come before the deadline, and then wait for the queue to be let go of; what comes when nothing
is outstanding, or at the deadline or later, is left to be reported to nobody -/
def collectLater (s : Session σ) (c : Collected) (room deadline : Nat) (released : Option Instant) :
    List Burst → Collected × Session σ
  | [] =>
    if c.outstanding.isEmpty then (c, s)
    else
      match released with
      | some t => (c, s.waitUntil (if inTime s.now deadline t then t else deadline))
      | none => (c, s.waitUntil deadline)
  | b :: rest =>
    if c.outstanding.isEmpty then (c, s.leave (b :: rest))
    else if b.time < deadline then
      let s := ((s.letReport b.time).waitUntil b.time).noteBurst b room
      collectLater s (c.drain (b.events.take room)) room deadline released rest
    else (c, (s.waitUntil deadline).leave (b :: rest))

/-- what the statuses of a body come to -/
def Collected.result (c : Collected) : Except SessionError Unit :=
  let failed := (c.statuses.filter fun e => !e.isSuccess).map StatusEvent.recipient
  if !c.outstanding.isEmpty then .error (.statusTimeout c.outstanding.names)
  else if failed.isEmpty then .ok ()
  else .error (.delivery failed)

/-- what passing on a body comes to: the result, the statuses in the order in which they came, and the session after -/
abbrev Transfer (σ : Type) := Except SessionError Unit × List StatusEvent × Session σ

/-- the finishing call has ended: take what it reported, and then what comes later -/
def settle (s : Session σ) (closing : Closing σ) (took deadline : Nat) : Transfer σ :=
  let room := max 1 s.recipients.size
  let (early, s) := s.queueBursts room closing.direct
  let s := { s.pass took with downstream := closing.closed }
  match closing.result with
  | .error e => (.error (.forward e), [], s.leave closing.later)
  | .ok _ =>
    let c := Collected.drain ⟨s.recipients, []⟩ early
    let (c, s) := s.collectLater c room deadline closing.released closing.later
    (c.result, c.statuses, { s with recipients := c.outstanding })

/-- the finishing call is cut off at the deadline: take what it reported until then -/
def settleCut (s : Session σ) (closing : Closing σ) (deadline : Nat) : Transfer σ :=
  let room := max 1 s.recipients.size
  let (early, s) := s.queueBursts room (closing.direct.filter fun b => inTime s.now deadline b.time)
  let s := { s.waitUntil deadline with downstream := closing.cut deadline }.note .abandon
  let c := Collected.drain ⟨s.recipients, []⟩ early
  (c.result, c.statuses, { s with recipients := c.outstanding })

/-- end the body and collect the statuses -/
def finish (s : Session σ) : Transfer σ :=
  let deadline := s.now + s.statusWait
  let s := s.note .finish
  let closing := s.forwarder.finish s.now s.downstream
  match closing.took with
  | some took =>
    if inTime s.now deadline (s.now + took) then s.settle closing took deadline else s.settleCut closing deadline
  | none => s.settleCut closing deadline

/-- pass a body on and collect its statuses -/
def transfer (s : Session σ) (body : BodyInput) : Transfer σ :=
  let a := s.forwarder.data s.now s.downstream
  let s := (s.note (.data a.value)).heard a
  match a.value with
  | .error e => (.error (.forward e), [], s)
  | .ok _ =>
    let (copied, s) := s.copyBody body
    match copied with
    | .error f => (.error (.dataCopy f), [], s.abandon)
    | .ok _ => s.finish

/-- pass a body on, collect its statuses and end the transaction; a failure of the forwarder as a whole may have left
its transaction open, so that is reset -/
def data (s : Session σ) (body : BodyInput) : Transfer σ :=
  if s.recipients.isEmpty then (.error .noRecipients, [], s)
  else
    let (result, statuses, s) := s.transfer body
    let s := s.clear
    match result with
    | .error (.forward e) => (.error (.forward e), statuses, s.resetForwarder.2)
    | _ => (result, statuses, s)

end Session
end LmtpRelay
