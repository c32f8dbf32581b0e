/-
Reading a whole text. Each line that is not blank is a header, which says which table the lines after it belong to, or
a key with its value. Values may be nested up to a limit. The text may begin with a byte order mark.
-/
import LmtpRelay.Toml.Moment
import LmtpRelay.Toml.Number
import LmtpRelay.Toml.Table
import LmtpRelay.Toml.Text

namespace LmtpRelay.Toml

open LmtpRelay.Text

/-! ## Keys -/

/-- a character of a key without quotes -/
def isBareChar (c : Char) : Bool := c.isAlphanum || c = '_' || c = '-'

def simpleKey : Reader String := fun cs =>
  match shortText cs with
  | some (text, rest) => some (String.ofList text, rest)
  | none =>
    let bare := cs.takeWhile isBareChar
    if bare.isEmpty then none else some (String.ofList bare, cs.drop bare.length)

def keyParts (room : Nat) : Reader (List String) := fun cs =>
  match room with
  | 0 => none
  | room + 1 => do
    let (part, rest) ← simpleKey (skipSpace cs)
    match skipSpace rest with
    | '.' :: rest => (keyParts room rest).map fun (parts, rest) => (part :: parts, rest)
    | rest => some ([part], rest)

/-- a key: the path to a table and the last part -/
def key : Reader (List String × String) := fun cs => do
  let (parts, rest) ← keyParts (depthLimit - 1) cs
  let last ← parts.getLast?
  return ((parts.dropLast, last), rest)

/-! ## Values -/

/-- drop blanks, comments and ends of lines between the items of an array -/
def skipLines (inComment : Bool) : List Char → List Char
  | [] => []
  | '\n' :: rest => skipLines false rest
  | '\r' :: '\n' :: rest => skipLines false rest
  | c :: rest =>
    if inComment then if isCommentChar c then skipLines true rest else c :: rest
    else if isSpace c then skipLines false rest
    else if c = '#' then skipLines true rest
    else c :: rest

/-- a value that holds no others -/
def scalarValue : Reader Value := fun cs =>
  match cs.head? with
  | some '"' | some '\'' => (anyText cs).map fun (text, rest) => (.text (String.ofList text), rest)
  | some 't' => (literal "true".toList cs).map fun (_, rest) => (.boolean true, rest)
  | some 'f' => (literal "false".toList cs).map fun (_, rest) => (.boolean false, rest)
  | _ =>
    match moment cs, float cs with
    | some (written, rest), _ => some (.moment written, rest)
    | none, some (_, rest) => some (.float, rest)
    | none, none => (integer cs).map fun (n, rest) => (.integer n, rest)

mutual

/-- a value, nested in `depth` others -/
def value (fuel depth : Nat) (cs : List Char) : Option (Value × List Char) :=
  match fuel with
  | 0 => none
  | fuel + 1 =>
    match cs with
    | '[' :: rest =>
      if depth + 1 < depthLimit then
        (arrayItems fuel (depth + 1) rest).map fun (items, rest) => (.array items, rest)
      else none
    | '{' :: rest =>
      if depth + 1 < depthLimit then
        match skipSpace rest with
        | '}' :: rest => some (.table [], rest)
        | _ =>
          (tableItems fuel (depth + 1) (.empty .defined) rest).map fun (t, rest) => (.table (valuesOf t.entries), rest)
      else none
    | _ => scalarValue cs

/-- the items of an array up to its end; a comma may follow the last one -/
def arrayItems (fuel depth : Nat) (cs : List Char) : Option (List Value × List Char) :=
  match fuel with
  | 0 => none
  | fuel + 1 =>
    match skipLines false cs with
    | ']' :: rest => some ([], rest)
    | cs => do
      let (v, rest) ← value fuel depth cs
      match skipLines false rest with
      | ']' :: rest => return ([v], rest)
      | ',' :: rest =>
        let (items, rest) ← arrayItems fuel depth rest
        return (v :: items, rest)
      | _ => none

/-- the entries of a table on one line up to its end; no comma may follow the last one -/
def tableItems (fuel depth : Nat) (t : Table) (cs : List Char) : Option (Table × List Char) :=
  match fuel with
  | 0 => none
  | fuel + 1 => do
    let ((path, last), rest) ← key cs
    let ((), rest) ← mark '=' rest
    let (v, rest) ← value fuel depth (skipSpace rest)
    let t ← t.insertAt path last v
    match skipSpace rest with
    | '}' :: rest => return (t, rest)
    | ',' :: rest => tableItems fuel depth t rest
    | _ => none

end

/-! ## Lines -/

/-- what a line says -/
inductive Line where
  /-- the lines after it belong to this table -/
  | header (path : List String) (last : String)
  /-- the lines after it belong to one more table of this name -/
  | another (path : List String) (last : String)
  | entry (path : List String) (last : String) (v : Value)

/-- a header or an entry at the start of a line, and the lines after it -/
def line (fuel : Nat) (cs : List Char) : Option (Line × List Char) :=
  match cs with
  | '[' :: '[' :: rest => do
    let ((path, last), rest) ← key rest
    let ((), rest) ← literal [']', ']'] rest
    return (.another path last, ← trailing rest)
  | '[' :: rest => do
    let ((path, last), rest) ← key rest
    let ((), rest) ← mark ']' rest
    return (.header path last, ← trailing rest)
  | cs => do
    let ((path, last), rest) ← key cs
    let ((), rest) ← mark '=' rest
    let (v, rest) ← value fuel 0 (skipSpace rest)
    return (.entry path last v, ← trailing rest)

/-- the whole text so far and the path of the table that lines belong to -/
structure Draft where
  root : Table
  current : List String

def Draft.initial : Draft := ⟨.empty .defined, []⟩

def Draft.add (d : Draft) : Line → Option Draft
  | .header path last => (d.root.along false path (·.define last)).map (⟨·, path ++ [last]⟩)
  | .another path last => (d.root.along false path (·.append last)).map (⟨·, path ++ [last]⟩)
  | .entry path last v => (d.root.along false d.current (·.insertAt path last v)).map ({ d with root := · })

/-- take lines until the text ends -/
def Draft.read (d : Draft) (fuel : Nat) (cs : List Char) : Option Draft :=
  match fuel with
  | 0 => none
  | fuel + 1 =>
    match skipSpace cs with
    | [] => some d
    | cs =>
      match trailing cs with
      | some rest => d.read fuel rest
      | none => do
        let (l, rest) ← line fuel cs
        (← d.add l).read fuel rest

def dropMark : List Char → List Char
  | c :: rest => if c.toNat = 0xFEFF then rest else c :: rest
  | [] => []

/-- the entries of the table that a text spells -/
def parse? (text : String) : Option (List (String × Value)) :=
  let cs := dropMark text.toList
  (Draft.initial.read (2 * cs.length + 3) cs).map fun d => valuesOf d.root.entries

end LmtpRelay.Toml
