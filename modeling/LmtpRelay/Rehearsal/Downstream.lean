/-
A downstream server that follows a script, for rehearsing a client. It sends one reply when it is reached and one more
for each line that it receives; the lines of a body get a single reply after its end. A reply is there a moment after
what it answers, so that a client with no patience at all does not see it. When the replies are used up the server says
nothing more, but goes on reading.
-/
import LmtpRelay.Config.Location
import LmtpRelay.Downstream.Connect

namespace LmtpRelay.Rehearsal

structure Line where
  octets : Octets
  /-- whether the server ends its side after it -/
  closes : Bool
  deriving DecidableEq, Repr

/-- what the server has received and what it will still send -/
structure Server where
  replies : List Line
  /-- whether the lines are those of a body -/
  inBody : Bool
  /-- the line that is not whole yet, last octet first -/
  partialLine : Octets
  deriving DecidableEq, Repr

namespace Server

def dataLine : Octets := Octets.ofText "DATA\r\n"

def lastLine : Octets := Octets.ofText ".\r\n"

/-- the start of a reply that lets a body come -/
def goAhead : Octets := Octets.ofText "354"

/-- a whole line has come: what is sent because of it -/
def onLine (s : Server) (line : Octets) : List Line × Server :=
  if s.inBody && line ≠ lastLine then ([], s)
  else
    match s.replies with
    | [] => ([], { s with inBody := false })
    | reply :: rest =>
      let opens := !s.inBody && line = dataLine && goAhead.isPrefixOf reply.octets
      ([reply], { s with replies := rest, inBody := opens })

/-- octets have come: what is sent because of them -/
def receive (s : Server) : Octets → List Line × Server
  | [] => ([], s)
  | b :: bs =>
    let line := b :: s.partialLine
    if b = Octets.lf then
      let (here, s) := onLine { s with partialLine := [] } line.reverse
      let (more, s) := receive s bs
      (here ++ more, s)
    else receive { s with partialLine := line } bs

/-- lines that arrive at a moment, up to the one after which the server ends its side -/
def sending (time : Instant) : List Line → List Arrival × List Halt
  | [] => ([], [])
  | l :: rest =>
    if l.closes then ([⟨time, l.octets⟩], [⟨time, .closed⟩])
    else let (more, halts) := sending time rest; (⟨time, l.octets⟩ :: more, halts)

/-- the server as a client meets it: writes never fail and take no time -/
def peer : Peer Server where
  write now s octets :=
    let (lines, next) := s.receive octets
    let (arrivals, halts) := sending (now + 1) lines
    ⟨some 0, .ok (), arrivals, halts, next⟩

/-- reaching the server, which takes a moment: the first reply is sent unasked -/
def dial (now : Instant) (replies : List Line) : Dial Server :=
  let (arrivals, halts) := sending (now + 2) (replies.take 1)
  ⟨some 1, .ok (⟨replies.drop 1, false, []⟩, ⟨arrivals, halts⟩)⟩

end Server

/-- reaching for a server where nobody listens -/
def absent (files : FileTree) (path : String) : Dial Server := ⟨some 0, .error (files.connectFault path)⟩

end LmtpRelay.Rehearsal
