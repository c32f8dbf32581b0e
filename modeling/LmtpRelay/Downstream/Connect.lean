/-
Connecting to the downstream server: the socket has to be reached in time, the server has to greet with the code for a
ready service, and it has to accept the greeting of the client.
-/
import LmtpRelay.Downstream.Client

namespace LmtpRelay

/-- what reaching for a socket comes to -/
structure Dial (π : Type) where
  /-- how long it takes; `none` where it never ends -/
  took : Option Nat
  /-- the state of the server and what it sends unasked -/
  result : Except IoFailure (π × Source)

/-- what connecting comes to: where the socket was reached there is a client even if the server refused it -/
structure Opening (π : Type) where
  took : Nat
  result : Except DownstreamError Unit
  client : Option (Client π)

namespace Opening

variable {π : Type}

def greeting (c : Client π) (now : Instant) : Timed (Except DownstreamError Unit) × Client π :=
  let (r, c) := Client.settle (c.await now (now + seconds c.timeouts.commandSecs) "greeting")
  match r.value with
  | .error e => (⟨r.took, .error e⟩, c)
  | .ok response =>
    if response.code = Status.serviceReady.code then (⟨r.took, .ok ()⟩, c)
    else (⟨r.took, .error (.unexpected "greeting" response.reply)⟩, c)

/-- give the client's name -/
def introduce (c : Client π) (now : Instant) (hostname : String) : Timed (Except DownstreamError Unit) × Client π :=
  let (r, c) := c.command now "LHLO" (Command.lhlo hostname).text
  match r.value with
  | .error e => (⟨r.took, .error e⟩, c)
  | .ok response =>
    if response.isSuccess then (⟨r.took, .ok ()⟩, c)
    else (⟨r.took, .error (.unexpected "LHLO" response.reply)⟩, c)

/-- the two greetings on a new connection -/
def greet (c : Client π) (now : Instant) (hostname : String) : Timed (Except DownstreamError Unit) × Client π :=
  let (g, c) := greeting c now
  match g.value with
  | .error e => (⟨g.took, .error e⟩, c)
  | .ok _ =>
    let (l, c) := introduce c (now + g.took) hostname
    (⟨g.took + l.took, l.value⟩, c)

def connect (path hostname : String) (timeouts : ClientTimeouts) (peer : Peer π) (now : Instant) (dial : Dial π) :
    Opening π :=
  let limit := seconds timeouts.connectSecs
  match dial.took with
  | none => ⟨limit, .error (.timeout "connect"), none⟩
  | some took =>
    if inTime now (now + limit) (now + took) then
      match dial.result with
      | .error failure => ⟨took, .error (.connect path failure), none⟩
      | .ok (server, source) =>
        let (r, c) := greet (Client.start timeouts peer server source) (now + took) hostname
        ⟨took + r.took, r.value, some c⟩
    else ⟨limit, .error (.timeout "connect"), none⟩

end Opening
end LmtpRelay
