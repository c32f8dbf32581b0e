/-
Readers. A reader takes what it understands from the start of a text and gives it with the rest of the text, or fails.
-/

namespace LmtpRelay.Text

/-- a reader takes what it understands from the start of a text, or fails -/
abbrev Reader (α : Type) := List Char → Option (α × List Char)

def mark (c : Char) : Reader Unit
  | d :: rest => if d = c then some ((), rest) else none
  | [] => none

def literal (expected : List Char) : Reader Unit := fun cs =>
  if expected.isPrefixOf cs then some ((), cs.drop expected.length) else none

/-- the value of a digit in a base up to sixteen, in either case -/
def digitOf? (base : Nat) (c : Char) : Option Nat :=
  let n := c.toNat
  let value :=
    if 48 ≤ n ∧ n ≤ 57 then some (n - 48)
    else if 97 ≤ n ∧ n ≤ 102 then some (n - 87)
    else if 65 ≤ n ∧ n ≤ 70 then some (n - 55)
    else none
  value.bind fun v => if v < base then some v else none

def valueOf (base : Nat) (ds : List Nat) : Nat := ds.foldl (fun acc d => acc * base + d) 0

/-- the number that digits spell, when it is at most `limit` -/
def valueUpTo? (base limit : Nat) (ds : List Nat) : Option Nat :=
  ds.foldlM (fun acc d => if acc * base + d ≤ limit then some (acc * base + d) else none) 0

end LmtpRelay.Text
