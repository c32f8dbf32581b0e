/-
Socket addresses: an address of either kind with a port. An address of eight groups stands in square brackets and may
have a scope number, which the written form shows unless it is zero.
-/
import LmtpRelay.Net.Ipv6
import LmtpRelay.System.Fault

namespace LmtpRelay.Net

open Text

inductive Socket where
  | v4 (ip : Ipv4) (port : Nat)
  | v6 (ip : Ipv6) (scope port : Nat)

namespace Socket

/-- read an address of four octets and a port -/
def readV4 : Reader Socket := fun cs => do
  let (ip, cs) ← Ipv4.read cs
  let (port, cs) ← Net.port cs
  return (.v4 ip port, cs)

/-- a scope number, or zero where there is none -/
def scope (cs : List Char) : Nat × List Char :=
  let read : Option (Nat × List Char) := (mark '%' cs).bind fun ((), rest) => number 10 none true 4294967295 rest
  read.getD (0, cs)

/-- read an address of eight groups and a port -/
def readV6 : Reader Socket := fun cs => do
  let ((), cs) ← mark '[' cs
  let (ip, cs) ← Ipv6.read cs
  let (scope, cs) := scope cs
  let ((), cs) ← mark ']' cs
  let (port, cs) ← Net.port cs
  return (.v6 ip scope port, cs)

/-- the socket address that a whole text spells -/
def parse? (cs : List Char) : Option Socket :=
  match (readV4 cs).or (readV6 cs) with
  | some (socket, []) => some socket
  | _ => none

def text : Socket → String
  | v4 ip port => s!"{ip.text}:{port}"
  | v6 ip scope port => if scope = 0 then s!"[{ip.text}]:{port}" else s!"[{ip.text}%{scope}]:{port}"

/-! ## Listening -/

/-- why nobody can listen at an address of four octets on a machine without a network -/
def listenFault4? (ip : Ipv4) : Option IoFailure :=
  if ip.a = 127 ∨ ip = ⟨0, 0, 0, 0⟩ ∨ (224 ≤ ip.a ∧ ip.a < 240) ∨ ip = ⟨255, 255, 255, 255⟩ then none
  else some SystemFault.addressNotAvailable

/-- why nobody can listen at an address of eight groups on a machine without a network: a mapped address is the one that
it stands for, many hosts' address is none for a stream, and an address on a link needs the link -/
def listenFault6? (ip : Ipv6) (scope : Nat) : Option IoFailure :=
  match ip.groups with
  | [0, 0, 0, 0, 0, 0, 0, 0] | [0, 0, 0, 0, 0, 0, 0, 1] => none
  | [0, 0, 0, 0, 0, 0xffff, x, y] => listenFault4? ⟨x / 256, x % 256, y / 256, y % 256⟩
  | g :: _ =>
    if 0xff00 ≤ g ∨ (0xfe80 ≤ g ∧ g < 0xfec0 ∧ scope = 0) then some SystemFault.invalidArgument
    else some SystemFault.addressNotAvailable
  | [] => none

/-- why nobody can listen at a socket address on a machine without a network -/
def listenFault? : Socket → Option IoFailure
  | v4 ip _ => listenFault4? ip
  | v6 ip scope _ => listenFault6? ip scope

end Socket
end LmtpRelay.Net
