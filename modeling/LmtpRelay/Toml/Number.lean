/-
Integers and floats. Digits may have single underscores between them; a decimal number has no leading zero; an integer
in another base has no sign. An integer has to fit into 64 bits with a sign. Of a float only its form matters here, and
that it is not too large to be finite.
-/
import LmtpRelay.Text.Numeral
import LmtpRelay.Text.Reader
import LmtpRelay.Toml.Value

namespace LmtpRelay.Toml

open LmtpRelay.Text

/-- digits after the first one, with single underscores between them -/
def moreDigits (base : Nat) : List Char → List Nat × List Char
  | '_' :: c :: rest =>
    match digitOf? base c with
    | some d => let (ds, rest) := moreDigits base rest; (d :: ds, rest)
    | none => ([], '_' :: c :: rest)
  | c :: rest =>
    match digitOf? base c with
    | some d => let (ds, rest) := moreDigits base rest; (d :: ds, rest)
    | none => ([], c :: rest)
  | [] => ([], [])

def someDigits (base : Nat) : Reader (List Nat)
  | c :: rest => (digitOf? base c).map fun d => let (ds, rest) := moreDigits base rest; (d :: ds, rest)
  | [] => none

/-- a sign, if there is one, and whether it is a minus -/
def sign : List Char → Bool × List Char
  | '-' :: rest => (true, rest)
  | '+' :: rest => (false, rest)
  | cs => (false, cs)

/-- the digits of a decimal integer: a single zero, or digits that do not begin with one -/
def decimalDigits : Reader (List Nat)
  | '0' :: rest => some ([0], rest)
  | cs => someDigits 10 cs

/-- a number in another base, with the letter for it -/
def otherBase? : List Char → Option (Nat × List Char)
  | '0' :: 'x' :: rest => some (16, rest)
  | '0' :: 'o' :: rest => some (8, rest)
  | '0' :: 'b' :: rest => some (2, rest)
  | _ => none

def integer : Reader Int := fun cs =>
  match otherBase? cs with
  | some (base, rest) => do
    let (ds, rest) ← someDigits base rest
    let n ← valueUpTo? base maxInteger ds
    return ((n : Int), rest)
  | none => do
    let (negative, unsigned) := sign cs
    let (ds, rest) ← decimalDigits unsigned
    let n ← valueUpTo? 10 (if negative then maxInteger + 1 else maxInteger) ds
    return (if negative then -(n : Int) else n, rest)

/-- the digits after a full stop -/
def fraction : Reader (List Nat) := fun cs => do
  let ((), cs) ← mark '.' cs
  someDigits 10 cs

/-- an exponent so large that any larger one comes to the same -/
def hugeExponent : Nat := wordMax 64

def exponent : Reader Int
  | c :: rest =>
    if c = 'e' || c = 'E' then do
      let (negative, unsigned) := sign rest
      let (ds, rest) ← someDigits 10 unsigned
      let n := (valueUpTo? 10 hugeExponent ds).getD hugeExponent
      some (if negative then -(n : Int) else n, rest)
    else none
  | [] => none

/-- the smallest number that is rounded to infinity in double precision -/
def firstInfinite : Nat := Nat.pow 2 1024 - Nat.pow 2 970

/-- how many digits that number has -/
def infiniteLength : Nat := 309

/-- whether digits with a decimal exponent spell a number that is too large: its whole part has more digits, or as many
and they are not less -/
def isTooLarge (ds : List Nat) (exp : Int) : Bool :=
  let ds := ds.dropWhile (· == 0)
  let length := ds.length + exp
  let whole := ds.take infiniteLength
  !ds.isEmpty && (infiniteLength < length ||
    (length = infiniteLength && firstInfinite ≤ valueOf 10 whole * Nat.pow 10 (infiniteLength - whole.length)))

def special : Reader Unit := fun cs =>
  let (_, unsigned) := sign cs
  (literal ['i', 'n', 'f'] unsigned).or (literal ['n', 'a', 'n'] unsigned)

/-- a float; it has a fraction or an exponent, or both -/
def float : Reader Unit := fun cs =>
  let (negative, unsigned) := sign cs
  let written : Option (Unit × List Char) := do
    let (whole, rest) ← decimalDigits unsigned
    let part? := fraction rest
    let (part, afterPart) := part?.getD ([], rest)
    let exp? := exponent afterPart
    let (exp, afterExp) := exp?.getD (0, afterPart)
    if part?.isNone && exp?.isNone then none
    else if !negative && isTooLarge (whole ++ part) (exp - part.length) then none
    else some ((), afterExp)
  written.or (special cs)

end LmtpRelay.Toml
