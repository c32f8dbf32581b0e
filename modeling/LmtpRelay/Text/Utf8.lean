/-
Where octets stop being UTF-8. A first octet says which octets may follow it; the first octet that may not stand where
it does, or the end of the octets in the middle of a character, is a fault. A fault is given by where its character
begins and by how many octets of it were good.
-/
import LmtpRelay.Text.Octets

namespace LmtpRelay.Utf8

structure Bounds where
  low : UInt8
  high : UInt8

def Bounds.admit (r : Bounds) (b : UInt8) : Bool := r.low ≤ b && b ≤ r.high

/-- an octet that continues a character -/
def tail : Bounds := ⟨0x80, 0xBF⟩

/-- what has to follow the first octet of a character; `none` where no character begins so -/
def following (b : UInt8) : Option (List Bounds) :=
  if b ≤ 0x7F then some []
  else if 0xC2 ≤ b && b ≤ 0xDF then some [tail]
  else if b = 0xE0 then some [⟨0xA0, 0xBF⟩, tail]
  else if b = 0xED then some [⟨0x80, 0x9F⟩, tail]
  else if 0xE1 ≤ b && b ≤ 0xEF then some [tail, tail]
  else if b = 0xF0 then some [⟨0x90, 0xBF⟩, tail, tail]
  else if 0xF1 ≤ b && b ≤ 0xF3 then some [tail, tail, tail]
  else if b = 0xF4 then some [⟨0x80, 0x8F⟩, tail, tail]
  else none

/-- why octets are not UTF-8 -/
inductive Fault where
  /-- a character begins at `index` and goes wrong after `good` octets -/
  | invalid (good index : Nat)
  /-- a character begins at `index` and is not ended -/
  | incomplete (index : Nat)
  deriving DecidableEq, Repr

def Fault.message : Fault → String
  | .invalid good index => s!"invalid utf-8 sequence of {good} bytes from index {index}"
  | .incomplete index => s!"incomplete utf-8 byte sequence from index {index}"

structure Begun where
  /-- where it begins -/
  index : Nat
  /-- how many octets it has -/
  good : Nat
  /-- what has to follow -/
  owed : List Bounds

/-- look for a fault in octets that follow a character of which some is still owed -/
def faultAfter (c : Begun) : Octets → Option Fault
  | [] => if c.owed.isEmpty then none else some (.incomplete c.index)
  | b :: bs =>
    match c.owed with
    | r :: owed =>
      if r.admit b then faultAfter ⟨c.index, c.good + 1, owed⟩ bs else some (.invalid c.good c.index)
    | [] =>
      let index := c.index + c.good
      match following b with
      | some owed => faultAfter ⟨index, 1, owed⟩ bs
      | none => some (.invalid 1 index)

def fault? (bs : Octets) : Option Fault := faultAfter ⟨0, 0, []⟩ bs

end LmtpRelay.Utf8
