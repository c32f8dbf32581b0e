/-
How long things may take: settings in seconds for the peer's side and for the downstream server's side.
-/
import LmtpRelay.Time

namespace LmtpRelay

/-- limits for the dialogue with the peer -/
structure ServerTimeouts where
  /-- the time from one command to the next -/
  commandSecs : Nat
  /-- the time for a whole body -/
  dataSecs : Nat
  /-- the time for the whole dialogue -/
  connectionSecs : Nat
  deriving DecidableEq, Repr

/-- limits for the dialogue with the downstream server -/
structure ClientTimeouts where
  /-- the time to connect -/
  connectSecs : Nat
  /-- the time for each command and its reply -/
  commandSecs : Nat
  /-- the time for each piece of a body, and for each reply after it -/
  dataSecs : Nat
  deriving DecidableEq, Repr

structure Timeouts where
  server : ServerTimeouts
  client : ClientTimeouts
  /-- the time for the statuses of a body -/
  statusWaitSecs : Nat
  deriving DecidableEq, Repr

/-- the limits for the peer where nothing else is said -/
def ServerTimeouts.standard : ServerTimeouts := ⟨300, 600, 1800⟩

/-- the limits for the downstream server where nothing else is said -/
def ClientTimeouts.standard : ClientTimeouts := ⟨30, 30, 120⟩

/-- the limits where nothing else is said -/
def Timeouts.standard : Timeouts := ⟨.standard, .standard, 5⟩

/-- the longest that a connection to the downstream server may take with one command and one body -/
def ClientTimeouts.connectionSecs (t : ClientTimeouts) : Nat := t.connectSecs + t.commandSecs + t.dataSecs

end LmtpRelay
