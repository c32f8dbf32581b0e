/-
Addresses of four octets, written in decimal with full stops between them. An octet has at most three digits and no
leading zero.
-/
import LmtpRelay.Net.Scan

namespace LmtpRelay.Net

open Text

/-- an address of four octets -/
structure Ipv4 where
  a : Nat
  b : Nat
  c : Nat
  d : Nat
  deriving DecidableEq, Repr

namespace Ipv4

def octet : Reader Nat := number 10 (some 3) false 255

def read : Reader Ipv4 := fun cs => do
  let (a, cs) ← octet cs
  let ((), cs) ← mark '.' cs
  let (b, cs) ← octet cs
  let ((), cs) ← mark '.' cs
  let (c, cs) ← octet cs
  let ((), cs) ← mark '.' cs
  let (d, cs) ← octet cs
  return (⟨a, b, c, d⟩, cs)

def text (ip : Ipv4) : String := s!"{ip.a}.{ip.b}.{ip.c}.{ip.d}"

end Ipv4
end LmtpRelay.Net
