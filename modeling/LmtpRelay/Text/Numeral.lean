/-
Unsigned decimal numerals: an optional plus sign, then one or more of the digits 0 to 9, with a value within a
given limit. Leading zeros are allowed; nothing else is.
-/

namespace LmtpRelay.Text

def digit? (c : Char) : Option Nat :=
  if '0' ≤ c ∧ c ≤ '9' then some (c.toNat - '0'.toNat) else none

/-- the value of a run of digits read after `acc`, when it is at most `limit` -/
def digitsFrom? (limit acc : Nat) : List Char → Option Nat
  | [] => some acc
  | c :: cs => do
    let n := acc * 10 + (← digit? c)
    if n ≤ limit then digitsFrom? limit n cs else none

/-- the value of a non-empty run of digits, when it is at most `limit` -/
def digits? (limit : Nat) : List Char → Option Nat
  | [] => none
  | c :: cs => digitsFrom? limit 0 (c :: cs)

/-- the value of a numeral, when it is at most `limit` -/
def numeral? (limit : Nat) (cs : List Char) : Option Nat :=
  let unsigned := match cs with
    | '+' :: rest => rest
    | _ => cs
  digits? limit unsigned

/-- the largest value of a word of the given number of bits -/
def wordMax (bits : Nat) : Nat := Nat.pow 2 bits - 1

end LmtpRelay.Text
