/-
Serving one connection: the downstream server is reached first, and a peer for whom that fails is turned away.
-/
import LmtpRelay.Config.Basic
import LmtpRelay.Downstream.Connect
import LmtpRelay.Engine.Run

namespace LmtpRelay

/-- what all connections of a server have in common -/
structure ServerSettings where
  engine : EngineSettings
  client : ClientTimeouts
  /-- how long the statuses of a body may take, in seconds -/
  statusWaitSecs : Nat
  /-- the socket of the downstream server -/
  forward : String
  resolver : Resolver

def Config.serverSettings (c : Config) : ServerSettings :=
  ⟨⟨c.hostname, c.maxMessageSize, c.timeouts.server⟩, c.timeouts.client, c.timeouts.statusWaitSecs, c.forward,
    .ofTable c.recipients⟩

namespace ServerSettings

variable {π : Type}

/-- what is said to a peer for whom the downstream server cannot be reached -/
def turnedAway : Reply := .coded .unavailable .temporarySystem "Downstream unavailable, try again later"

def reach (s : ServerSettings) (peer : Peer π) (now : Instant) (dial : Dial π) : Opening π :=
  Opening.connect s.forward s.engine.hostname s.client peer now dial

/-- the dialogue with a peer over a client that has been accepted -/
def dialogue (s : ServerSettings) (id : Nat) (surroundings : Surroundings) (client : Client π) (now : Instant) :
    Engine (Client π) :=
  Engine.start s.engine surroundings
    (Session.start id s.resolver (Client.forwarder π) client (seconds s.statusWaitSecs) now)

/-- what one connection comes to: all that is said to the peer, and the client where the socket was reached -/
structure Served (π : Type) where
  said : List String
  client : Option (Client π)

def serve (s : ServerSettings) (id : Nat) (surroundings : Surroundings) (peer : Peer π) (dial : Dial π)
    (now : Instant) (source : Source) : Served π :=
  let opening := s.reach peer now dial
  match opening.result, opening.client with
  | .ok _, some client =>
    let (_, e) := (s.dialogue id surroundings client (now + opening.took)).run source
    ⟨e.session.journal.said, some e.session.downstream⟩
  | _, client => ⟨[turnedAway.line], client⟩

end ServerSettings
end LmtpRelay
