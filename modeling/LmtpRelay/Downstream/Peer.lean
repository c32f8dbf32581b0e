/-
The downstream server as its client meets it: something that octets are written to, and that sends octets of its own
because of them.
-/
import LmtpRelay.Wire.Source

namespace LmtpRelay

/-- what a write comes to -/
structure Reaction (π : Type) where
  /-- how long the write takes; `none` where it never ends -/
  took : Option Nat
  result : Except IoFailure Unit
  /-- what the server sends because of it -/
  arrivals : List Arrival
  /-- what ends the server's side because of it -/
  halts : List Halt
  /-- the server's state after it -/
  next : π

/-- a downstream server -/
structure Peer (π : Type) where
  /-- octets are written to the server -/
  write (now : Instant) (s : π) (octets : Octets) : Reaction π

/-- what a reaction adds to what there is to read; a side that has ended sends nothing more -/
def Reaction.extend {π : Type} (r : Reaction π) (s : Source) : Source :=
  if s.halts.isEmpty then ⟨s.arrivals ++ r.arrivals, r.halts⟩ else s

end LmtpRelay
