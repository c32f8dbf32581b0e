/-
Letter case. Verbs, path words and parameter keys are compared without regard to the case of the letters A to Z;
every other character stands for itself.
-/

namespace LmtpRelay.Text

/-- the text with the letters a to z made capital -/
def upper (cs : List Char) : List Char := cs.map Char.toUpper

/-- the text with the letters A to Z made small -/
def lower (cs : List Char) : List Char := cs.map Char.toLower

/-- equality up to the case of the letters A to Z -/
def sameFolded (a b : List Char) : Bool := upper a == upper b

/-- what follows `head` at the start of `cs`, compared up to letter case -/
def dropFolded? (head cs : List Char) : Option (List Char) :=
  if head.length ≤ cs.length && sameFolded (cs.take head.length) head then some (cs.drop head.length) else none

end LmtpRelay.Text
