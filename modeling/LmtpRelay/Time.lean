/-
Time. There is one clock, which counts milliseconds. Nothing reads it: operations are given the moment at which they
begin and say how long they took, so that a run is a function of its input.
-/

namespace LmtpRelay

/-- a moment, in milliseconds since the start -/
abbrev Instant := Nat

/-- a number of seconds as a span on the clock -/
def seconds (n : Nat) : Nat := n * 1000

structure Timed (α : Type) where
  took : Nat
  value : α
  deriving DecidableEq, Repr

/-- whether something that is ready at one moment is in time for a deadline when the wait begins `now`: what is there
without waiting counts always, anything else has to come before the deadline -/
def inTime (now deadline ready : Instant) : Bool := ready ≤ now || ready < deadline

end LmtpRelay
