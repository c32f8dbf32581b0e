/-
Values of a configuration file: texts, integers, other scalars, arrays and tables. A table keeps its entries in the
order in which they were written, and has no two with one key.
-/

namespace LmtpRelay.Toml

inductive Value where
  | text (s : String)
  | integer (n : Int)
  /-- a number with a fraction or an exponent, or one that is no number -/
  | float
  | boolean (b : Bool)
  /-- a date, a time or both, in the standard form -/
  | moment (written : String)
  | array (items : List Value)
  | table (entries : List (String × Value))
  deriving Repr

def maxInteger : Nat := Nat.pow 2 63 - 1

/-- how deep values may be nested, and how many parts a key may have -/
def depthLimit : Nat := 80

end LmtpRelay.Toml
