/-
The client of the downstream server. Each command is one line, answered by one response; after the end of a body the
server answers once for each accepted recipient, in order, and each answer becomes a report. Each exchange has a time
limit. A failure in the middle of an exchange leaves the connection in an unknown state: the client is broken from then
on, and refuses every further command without writing anything.
-/
import LmtpRelay.Command.Basic
import LmtpRelay.Config.Timeouts
import LmtpRelay.Downstream.Peer
import LmtpRelay.Downstream.Response
import LmtpRelay.Downstream.Stuffing
import LmtpRelay.Forward.Forwarder
import LmtpRelay.Text.Utf8

namespace LmtpRelay

/-! ## Reading responses -/

/-- reading a line as text failed -/
def lineFault (piece : Octets) : IoFailure := ((Utf8.fault? piece).map fun f => ⟨f.message⟩).getD .notText

/-- the line that a piece spells: text without the carriage returns and line feeds at its end -/
def responseText? (piece : Octets) : Option String :=
  (Octets.toText? piece).map fun s =>
    String.ofList (s.toList.reverse.dropWhile fun c => c = '\r' ∨ c = '\n').reverse

/-- read the rest of a response, whose lines have at most `limit` octets -/
def Source.readResponseFrom (limit : Nat) (now : Instant) (sofar : Option Response) (s : Source) :
    Read (Except DownstreamError Response) :=
  let r := s.piece limit now
  match _h : r.value with
  | none => ⟨none, r.ready, r.rest⟩
  | some (.error f) => ⟨some (.error (.io f)), r.ready, r.rest⟩
  | some (.ok []) => ⟨some (.error .closed), r.ready, r.rest⟩
  | some (.ok (b :: bs)) =>
    match responseText? (b :: bs) with
    | none => ⟨some (.error (.io (lineFault (b :: bs)))), r.ready, r.rest⟩
    | some text =>
      match ResponseLine.parse text with
      | .error fault => ⟨some (.error fault.error), r.ready, r.rest⟩
      | .ok line =>
        match Response.push sofar line with
        | .error fault => ⟨some (.error fault.error), r.ready, r.rest⟩
        | .ok response =>
          if line.isLast then ⟨some (.ok response), r.ready, r.rest⟩
          else (readResponseFrom limit now (some response) r.rest).after r.ready
termination_by s.size
decreasing_by exact Source.size_piece_lt _h

/-- read one response, beginning `now`; a line may be as long as all that there is to read -/
def Source.readResponse (now : Instant) (s : Source) : Read (Except DownstreamError Response) :=
  s.readResponseFrom (s.size + 1) now none

/-! ## State -/

structure Client (π : Type) where
  timeouts : ClientTimeouts
  peer : Peer π
  /-- the state of the server -/
  server : π
  /-- what the server has sent and the client has not read -/
  source : Source
  /-- what was written to the server, in pieces, last first -/
  written : List Octets
  /-- the recipients accepted in the open transaction -/
  accepted : List String
  /-- the recipients that the server owes an answer after the open body -/
  owed : List String
  /-- whether a line of the open body begins here -/
  atStart : Bool
  /-- whether the connection is in an unknown state -/
  broken : Bool
  /-- whether the client has ended its side of the connection -/
  shut : Bool

namespace Client

variable {π : Type}

def start (timeouts : ClientTimeouts) (peer : Peer π) (server : π) (source : Source) : Client π :=
  ⟨timeouts, peer, server, source, [], [], [], true, false, false⟩

def sent (c : Client π) : Octets := c.written.reverse.flatten

/-- a write on a side that has been ended -/
def brokenPipe : IoFailure := ⟨"Broken pipe (os error 32)"⟩

def writeTimedOut : IoFailure := ⟨"timed out writing message data"⟩

/-! ## Writing and waiting -/

/-- write octets; `none` where that does not end before the deadline -/
def write (c : Client π) (now deadline : Instant) (octets : Octets) :
    Option (Instant × Except IoFailure Unit) × Client π :=
  if octets.isEmpty then (some (now, .ok ()), c)
  else if c.shut then (some (now, .error brokenPipe), c)
  else
    let r := c.peer.write now c.server octets
    let c := { c with server := r.next, source := r.extend c.source, written := octets :: c.written }
    match r.took with
    | some took => (if inTime now deadline (now + took) then some (now + took, r.result) else none, c)
    | none => (none, c)

/-- wait for a response until the deadline -/
def await (c : Client π) (now deadline : Instant) (step : String) :
    Timed (Except DownstreamError Response) × Client π :=
  let r := c.source.readResponse now
  match r.within now deadline with
  | some result => (⟨r.ready - now, result⟩, { c with source := r.rest })
  | none => (⟨deadline - now, .error (.timeout step)⟩, { c with source := r.rest })

/-- write one line and wait for its response, all before the deadline -/
def exchange (c : Client π) (now deadline : Instant) (step line : String) :
    Timed (Except DownstreamError Response) × Client π :=
  match c.write now deadline (Octets.ofText (line ++ "\r\n")) with
  | (none, c) => (⟨deadline - now, .error (.timeout step)⟩, c)
  | (some (time, .error f), c) => (⟨time - now, .error (.io f)⟩, c)
  | (some (time, .ok _), c) =>
    let (a, c) := c.await time deadline step
    (⟨time - now + a.took, a.value⟩, c)

/-- a failed exchange breaks the client -/
def settle {α : Type} (r : Timed (Except DownstreamError α) × Client π) : Timed (Except DownstreamError α) × Client π :=
  match r.1.value with
  | .ok _ => r
  | .error _ => (r.1, { r.2 with broken := true })

def command (c : Client π) (now : Instant) (step line : String) : Timed (Except DownstreamError Response) × Client π :=
  if c.broken then (⟨0, .error .broken⟩, c)
  else settle (c.exchange now (now + seconds c.timeouts.commandSecs) step line)

/-! ## Commands -/

/-- a response that does not say that the command was carried out -/
def rejected (r : Response) : ForwardError := .rejected r.reply

/-- what a command comes to for which any success will do -/
def judged (r : Except DownstreamError Response) : Except ForwardError Unit :=
  match r with
  | .ok response => if response.isSuccess then .ok () else .error (rejected response)
  | .error e => .error (.downstream e)

def mail (now : Instant) (c : Client π) (sender : String) (params : Parameters) :
    Answer (Client π) (Except ForwardError Unit) :=
  let (r, c) := { c with accepted := [] }.command now "MAIL" (Command.mail sender params).text
  ⟨r.took, judged r.value, c⟩

/-- add a recipient, and remember it when it is accepted -/
def rcpt (now : Instant) (c : Client π) (recipient : String) : Answer (Client π) (Except ForwardError Unit) :=
  let (r, c) := c.command now "RCPT" (Command.rcpt recipient .empty).text
  match judged r.value with
  | .ok _ => ⟨r.took, .ok (), { c with accepted := c.accepted ++ [recipient] }⟩
  | .error e => ⟨r.took, .error e, c⟩

/-- begin a body; only one response allows that -/
def data (now : Instant) (c : Client π) : Answer (Client π) (Except ForwardError Unit) :=
  let (r, c) := c.command now "DATA" Command.data.text
  match r.value with
  | .error e => ⟨r.took, .error (.downstream e), c⟩
  | .ok response =>
    if response.code = Status.startMailInput.code then
      ⟨r.took, .ok (), { c with owed := c.accepted, accepted := [], atStart := true }⟩
    else ⟨r.took, .error (rejected response), c⟩

def reset (now : Instant) (c : Client π) : Answer (Client π) (Except ForwardError Unit) :=
  let (r, c) := { c with accepted := [] }.command now "RSET" Command.rset.text
  ⟨r.took, judged r.value, c⟩

/-- say goodbye, unless the client is broken, and end the client's side; only the attempt matters -/
def close (now : Instant) (c : Client π) : Answer (Client π) (Except ForwardError Unit) :=
  if c.broken then ⟨0, .ok (), { c with shut := true }⟩
  else
    let (r, c) := c.command now "QUIT" Command.quit.text
    ⟨r.took, .ok (), { c with shut := true }⟩

/-! ## Bodies -/

/-- write octets of a body within the limit for them -/
def writeRaw (now : Instant) (c : Client π) (octets : Octets) : Answer (Client π) (Except IoFailure Unit) :=
  let limit := seconds c.timeouts.dataSecs
  match c.write now (now + limit) octets with
  | (some (time, result), c) => ⟨time - now, result, c⟩
  | (none, c) => ⟨limit, .error writeTimedOut, c⟩

def writePiece (now : Instant) (c : Client π) (piece : Octets) : Answer (Client π) (Except IoFailure Unit) :=
  let (octets, atStart) := stuff c.atStart piece
  writeRaw now { c with atStart } octets

/-- the status that a failure to read a reply leaves to each recipient that is still owed one -/
def unavailable (e : DownstreamError) (recipient : String) : StatusEvent :=
  ⟨recipient, .error (.unavailable e.message)⟩

/-- read one reply for each recipient; the first failure breaks the client and is reported for all that remain -/
def readStatuses (c : Client π) (now : Instant) : List String → List Burst × Instant × Client π
  | [] => ([], now, c)
  | recipient :: rest =>
    let (r, c) := c.await now (now + seconds c.timeouts.dataSecs) "DATA"
    let time := now + r.took
    match r.value with
    | .error e => ([⟨time, (recipient :: rest).map (unavailable e)⟩], time, { c with broken := true })
    | .ok response =>
      let (more, last, c) := readStatuses c time rest
      (⟨time, [⟨recipient, judged (.ok response)⟩]⟩ :: more, last, c)

/-- end the body and read the replies; where its end cannot be written nothing is read -/
def finish (now : Instant) (c : Client π) : Closing (Client π) :=
  let broken (c : Client π) : Instant → Client π := fun _ => { c with broken := true, owed := [] }
  let w := writeRaw now c (terminator c.atStart)
  match w.value with
  | .error _ =>
    let c := { w.next with owed := [] }
    ⟨some w.took, .ok (), [], [], some (now + w.took), c, broken c⟩
  | .ok _ =>
    let (bursts, last, c) := w.next.readStatuses (now + w.took) w.next.owed
    let c := { c with owed := [] }
    ⟨some (last - now), .ok (), bursts, [], some last, c, broken c⟩

/-- give the body up: the server still waits for its end -/
def abandon (_ : Instant) (c : Client π) : Client π := { c with broken := true, owed := [] }

def forwarder (π : Type) : Forwarder (Client π) where
  mail now c sender params := mail now c sender params
  rcpt now c recipient := rcpt now c recipient
  data now c := data now c
  write now c piece := writePiece now c piece
  finish now c := finish now c
  abandon now c := abandon now c
  reset now c := reset now c
  close now c := close now c

end Client
end LmtpRelay
