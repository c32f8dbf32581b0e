/-
Parameters of a MAIL or RCPT command: keys with or without a value, in the order in which they were given. Keys are
kept in capitals and compared without regard to case; values are kept as they are. `parse` refuses a key that is
given twice and a SIZE that is not a positive number.
-/
import LmtpRelay.Text.Blank
import LmtpRelay.Text.Fold
import LmtpRelay.Text.Numeral

namespace LmtpRelay

structure Parameter where
  key : String
  value : Option String
  deriving DecidableEq, Repr

def Parameter.text (p : Parameter) : String :=
  match p.value with
  | some value => s!"{p.key}={value}"
  | none => p.key

structure Parameters where
  /-- the parameters in the order given -/
  entries : List Parameter
  deriving DecidableEq, Repr

/-- why a parameter list is refused -/
inductive ParameterFault where
  | duplicate (key : String)
  | zeroSize
  | invalidSize (value : String)
  deriving DecidableEq, Repr

def ParameterFault.message : ParameterFault → String
  | .duplicate key => s!"Duplicate parameter '{key}' not allowed"
  | .zeroSize => "SIZE=0 is not allowed"
  | .invalidSize value => s!"Invalid SIZE value: {value}"

namespace Parameters

def empty : Parameters := ⟨[]⟩

/-! ## Looking up -/

/-- a key in capitals, as it is kept -/
def capital (key : String) : String := String.ofList (Text.upper key.toList)

/-- the value of the first parameter with a key, when it has one -/
def get? (ps : Parameters) (key : String) : Option String :=
  let key := capital key
  (ps.entries.find? fun p => p.key == key).bind Parameter.value

def has (ps : Parameters) (key : String) : Bool :=
  let key := capital key
  ps.entries.any fun p => p.key == key

/-- the largest number that a SIZE may give -/
def sizeLimit : Nat := Text.wordMax 64

def size? (ps : Parameters) : Option Nat := (ps.get? "SIZE").bind fun v => Text.numeral? sizeLimit v.toList

def isEmpty (ps : Parameters) : Bool := ps.entries.isEmpty

/-! ## Adding -/

/-- add a parameter at the end, its key in capitals -/
def insert (ps : Parameters) (key : String) (value : Option String) : Parameters :=
  ⟨ps.entries ++ [⟨capital key, value⟩]⟩

/-- a SIZE has to be a positive number; any other key may have any value -/
def checkSize (key : String) (value : Option String) : Except ParameterFault Unit :=
  if Text.sameFolded key.toList "SIZE".toList then
    match value.bind fun v => Text.numeral? sizeLimit v.toList with
    | some 0 => .error .zeroSize
    | some _ => .ok ()
    | none => .error (.invalidSize (value.getD ""))
  else .ok ()

/-- the key and the value that one word spells: the key ends at the first equals sign -/
def splitToken (token : List Char) : String × Option String :=
  match Text.splitOnce '=' token with
  | some (key, value) => (String.ofList key, some (String.ofList value))
  | none => (String.ofList token, none)

def addToken (ps : Parameters) (token : List Char) : Except ParameterFault Parameters :=
  let (key, value) := splitToken token
  if ps.has key then .error (.duplicate (capital key))
  else (checkSize key value).map fun _ => ps.insert key value

def parse (cs : List Char) : Except ParameterFault Parameters := (Text.words cs).foldlM addToken empty

/-! ## Writing -/

/-- the parameters as they are sent, with a space between each two -/
def text (ps : Parameters) : String := " ".intercalate (ps.entries.map Parameter.text)

end Parameters
end LmtpRelay
