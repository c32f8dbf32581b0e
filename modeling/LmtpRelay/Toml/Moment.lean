/-
Dates and times: a date, a time, or a date with a time and perhaps an offset. Days exist in their month, a minute may
have a leap second, and fractions of a second are kept to nine digits. The standard form has a capital T between date
and time, no zeros at the end of a fraction, and a capital Z for the offset zero where it was written with a letter.
-/
import LmtpRelay.Text.Reader

namespace LmtpRelay.Toml

open LmtpRelay.Text

def exactDigits : Nat → Reader (List Nat)
  | 0, cs => some ([], cs)
  | n + 1, c :: rest => do
    let d ← digitOf? 10 c
    let (ds, rest) ← exactDigits n rest
    return (d :: ds, rest)
  | _ + 1, [] => none

/-- a number of exactly `n` digits within bounds -/
def field (n low high : Nat) : Reader Nat := fun cs => do
  let (ds, rest) ← exactDigits n cs
  let v := valueOf 10 ds
  if low ≤ v ∧ v ≤ high then some (v, rest) else none

/-- a number with zeros in front of it, up to `n` digits -/
def padded (n v : Nat) : List Char :=
  let digits := Nat.toDigits 10 v
  List.replicate (n - digits.length) '0' ++ digits

def daysIn (year month : Nat) : Nat :=
  if month = 2 then if year % 4 = 0 ∧ (year % 100 ≠ 0 ∨ year % 400 = 0) then 29 else 28
  else if month = 4 ∨ month = 6 ∨ month = 9 ∨ month = 11 then 30
  else 31

def date : Reader (List Char) := fun cs => do
  let (year, cs) ← field 4 0 9999 cs
  let ((), cs) ← mark '-' cs
  let (month, cs) ← field 2 1 12 cs
  let ((), cs) ← mark '-' cs
  let (day, cs) ← field 2 1 (daysIn year month) cs
  return (padded 4 year ++ '-' :: padded 2 month ++ '-' :: padded 2 day, cs)

def secondFraction (cs : List Char) : Option (List Char × List Char) :=
  match cs with
  | '.' :: rest =>
    let digits := rest.takeWhile Char.isDigit
    if digits.isEmpty then none
    else
      let kept := ((digits.take 9).reverse.dropWhile (· = '0')).reverse
      some (if kept.isEmpty then [] else '.' :: kept, rest.drop digits.length)
  | _ => some ([], cs)

def time : Reader (List Char) := fun cs => do
  let (hour, cs) ← field 2 0 23 cs
  let ((), cs) ← mark ':' cs
  let (minute, cs) ← field 2 0 59 cs
  let ((), cs) ← mark ':' cs
  let (second, cs) ← field 2 0 60 cs
  let (part, cs) ← secondFraction cs
  return (padded 2 hour ++ ':' :: padded 2 minute ++ ':' :: padded 2 second ++ part, cs)

/-- an offset, in the standard form; nothing where there is none -/
def offset : Reader (List Char)
  | 'Z' :: rest | 'z' :: rest => some (['Z'], rest)
  | c :: rest =>
    if c = '+' ∨ c = '-' then do
      let (hour, cs) ← field 2 0 23 rest
      let ((), cs) ← mark ':' cs
      let (minute, cs) ← field 2 0 59 cs
      let shown := if hour = 0 ∧ minute = 0 then '+' else c
      return (shown :: padded 2 hour ++ ':' :: padded 2 minute, cs)
    else some ([], c :: rest)
  | [] => some ([], [])

/-- what may stand between a date and a time -/
def isBetween (c : Char) : Bool := c = 'T' || c = 't' || c = ' '

/-- a time and perhaps an offset after a date -/
def timeAfterDate : Reader (List Char)
  | c :: rest =>
    if isBetween c then do
      let (t, rest) ← time rest
      let (o, rest) ← offset rest
      return ('T' :: t ++ o, rest)
    else none
  | [] => none

/-- a date, a time, or both, in the standard form -/
def moment : Reader String := fun cs =>
  match date cs with
  | some (d, rest) =>
    let (t, rest) := (timeAfterDate rest).getD ([], rest)
    some (String.ofList (d ++ t), rest)
  | none => (time cs).map fun (t, rest) => (String.ofList t, rest)

end LmtpRelay.Toml
