/-
Addresses of eight groups, written in hexadecimal with colons between them. Two colons stand for groups of zero, and
the last two groups may be written as an address of four octets. The written form leaves out the first longest run
of at least two zero groups, and shows the four octets of a mapped address.
-/
import LmtpRelay.Net.Ipv4

namespace LmtpRelay.Net

open Text

/-- an address of eight groups -/
structure Ipv6 where
  groups : List Nat
  eight : groups.length = 8

namespace Ipv6

/-! ## Reading -/

def group : Reader Nat := number 16 (some 4) true 65535

/-- a colon, unless this is the first group -/
def separated {α : Type} (first : Bool) (read : Reader α) : Reader α := fun cs =>
  if first then read cs else (mark ':' cs).bind fun ((), rest) => read rest

/-- the two groups that four octets make -/
def pair (ip : Ipv4) : List Nat := [ip.a * 256 + ip.b, ip.c * 256 + ip.d]

/-- at most `room` groups, whether the last two were written as octets, and the rest of the text -/
def groupsUpTo (first : Bool) : Nat → List Char → List Nat × Bool × List Char
  | 0, cs => ([], false, cs)
  | room + 1, cs =>
    match if 1 ≤ room then separated first Ipv4.read cs else none with
    | some (ip, rest) => (pair ip, true, rest)
    | none =>
      match separated first group cs with
      | none => ([], false, cs)
      | some (g, rest) =>
        let (gs, octets, rest) := groupsUpTo false room rest
        (g :: gs, octets, rest)

def ofGroups? (gs : List Nat) : Option Ipv6 := if h : gs.length = 8 then some ⟨gs, h⟩ else none

def read : Reader Ipv6 := fun cs => do
  let (head, octets, rest) := groupsUpTo true 8 cs
  if head.length = 8 then return (← ofGroups? head, rest)
  if octets then none
  let ((), rest) ← mark ':' rest
  let ((), rest) ← mark ':' rest
  let (tail, _, rest) := groupsUpTo true (7 - head.length) rest
  let zeros := List.replicate (8 - head.length - tail.length) 0
  return (← ofGroups? (head ++ zeros ++ tail), rest)

/-! ## Writing -/

def groupText (g : Nat) : String := String.ofList (Nat.toDigits 16 g)

/-- how many zeros a list begins with -/
def zerosAt (gs : List Nat) : Nat := (gs.takeWhile (· == 0)).length

/-- the start and length of the first longest run of zeros, looking from position `i` on -/
def longestZeros (i : Nat) : List Nat → Nat × Nat
  | [] => (i, 0)
  | g :: gs =>
    let here := zerosAt (g :: gs)
    let (start, length) := longestZeros (i + 1) gs
    if length ≤ here then (i, here) else (start, length)

def groupsText (gs : List Nat) : String := ":".intercalate (gs.map groupText)

def text (ip : Ipv6) : String :=
  match ip.groups with
  | [0, 0, 0, 0, 0, 0xffff, x, y] => s!"::ffff:{x / 256}.{x % 256}.{y / 256}.{y % 256}"
  | gs =>
    let (start, length) := longestZeros 0 gs
    if length ≤ 1 then groupsText gs
    else groupsText (gs.take start) ++ "::" ++ groupsText (gs.drop (start + length))

end Ipv6
end LmtpRelay.Net
