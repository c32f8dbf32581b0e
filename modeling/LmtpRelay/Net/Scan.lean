/-
Reading numbers at the start of a text, as the parsers of network addresses need them.
-/
import LmtpRelay.Text.Reader

namespace LmtpRelay.Net

open Text

def digits (base : Nat) : List Char → List Nat × List Char
  | [] => ([], [])
  | c :: cs =>
    match digitOf? base c with
    | some d => let (ds, rest) := digits base cs; (d :: ds, rest)
    | none => ([], c :: cs)

/-- a number of at least one digit, within limits of length and value -/
def number (base : Nat) (maxDigits : Option Nat) (leadingZeros : Bool) (limit : Nat) : Reader Nat := fun cs =>
  let (ds, rest) := digits base cs
  let fits := maxDigits.all (ds.length ≤ ·)
  let leads := leadingZeros || ds.length ≤ 1 || ds.head? != some 0
  if !ds.isEmpty && fits && leads then (valueUpTo? base limit ds).map (·, rest) else none

def port : Reader Nat := fun cs => do
  let ((), cs) ← mark ':' cs
  number 10 none true 65535 cs

end LmtpRelay.Net
