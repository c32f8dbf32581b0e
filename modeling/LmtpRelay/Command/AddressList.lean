/-
Address lists. A path is read as a list of mailboxes and groups in the form that message headers use: a mailbox is
written bare or in angle brackets, may follow a quoted name and may carry a comment; a group is a name, a colon and
its members up to a semicolon. `entries` reads one character at a time and gives the entries in order. Names and
comments are passed over: only addresses are kept.
-/
import LmtpRelay.Text.Blank

namespace LmtpRelay.AddressList

/-! ## Entries -/

inductive Entry where
  /-- one mailbox -/
  | mailbox (address : List Char)
  /-- a named group and the addresses in it -/
  | group (members : List (List Char))
  deriving DecidableEq, Repr

inductive Fault where
  /-- a mailbox without an at sign -/
  | noAtSign
  /-- a semicolon where no group is open -/
  | strayTerminator
  /-- something other than a separator or a comment after an address in brackets -/
  | afterBracket
  /-- a group inside a group -/
  | nestedGroup
  /-- a group that is not ended -/
  | openGroup
  /-- a quoted name, an address in brackets or a comment that is not ended -/
  | unfinished
  deriving DecidableEq, Repr

/-- the wording of a fault -/
def Fault.message : Fault → String
  | .noAtSign => "Invalid address found: must contain a '@' symbol"
  | .strayTerminator => "Unexpected group terminator found in initial list"
  | .afterBracket => "Unexpected char found after bracketed address"
  | .nestedGroup => "Found unexpected nested group"
  | .openGroup => "Found unterminated group address"
  | .unfinished => "Address string unexpectedly terminated"

/-! ## Scanning -/

/-- where in an entry the scan stands -/
inductive Place where
  /-- before an entry -/
  | start
  /-- right after the colon that opened a group -/
  | opened
  /-- in a quoted name -/
  | quoted
  /-- after a backslash in a quoted name -/
  | escaped
  /-- after a quoted name -/
  | named
  /-- in angle brackets -/
  | bracketed
  /-- after an address in brackets -/
  | closed
  /-- in a bare address -/
  | bare
  /-- in a comment after an address in brackets -/
  | commentAfterBracket
  /-- in a comment within a bare address -/
  | commentInBare
  deriving DecidableEq, Repr

/-- what has been read so far -/
structure Scan where
  place : Place
  /-- the address being read, last character first -/
  address : List Char
  /-- the members of the group being read, last first; `none` outside a group -/
  members : Option (List (List Char))
  /-- the entries read, last first -/
  entries : List Entry
  deriving DecidableEq, Repr

def Scan.initial : Scan := ⟨.start, [], none, []⟩

/-- go to a place with no address begun -/
def Scan.moveTo (s : Scan) (place : Place) : Scan := { s with place, address := [] }

def Scan.take (s : Scan) (place : Place) (c : Char) : Scan := { s with place, address := c :: s.address }

/-- the address that has been read ends here: it joins the open group, or the list -/
def Scan.push (s : Scan) (place : Place) (address : List Char) : Except Fault Scan :=
  if address.contains '@' then
    match s.members with
    | some members => .ok { s with place, address := [], members := some (address :: members) }
    | none => .ok { s with place, address := [], entries := .mailbox address :: s.entries }
  else .error .noAtSign

/-- a colon opens a group, unless one is open -/
def Scan.openGroup (s : Scan) : Except Fault Scan :=
  match s.members with
  | some _ => .error .nestedGroup
  | none => .ok { s with place := .opened, address := [], members := some [] }

/-- a semicolon ends the open group; without one the next entry begins -/
def Scan.endGroup (s : Scan) : Scan :=
  match s.members with
  | some members => ⟨.start, [], none, .group members.reverse :: s.entries⟩
  | none => s.moveTo .start

/-- a bare address is kept without the blanks at its end -/
def Scan.bareAddress (s : Scan) : List Char := (s.address.dropWhile Text.isBlank).reverse

def Scan.begin (s : Scan) (c : Char) : Except Fault Scan :=
  if Text.isBlank c then .ok (s.moveTo .start)
  else if c = '"' then .ok (s.moveTo .quoted)
  else if c = '<' then .ok (s.moveTo .bracketed)
  else if c = ';' then if s.members.isSome then .ok s.endGroup else .error .strayTerminator
  else .ok ((s.moveTo .bare).take .bare c)

def Scan.step (s : Scan) (c : Char) : Except Fault Scan :=
  match s.place with
  | .start | .opened => s.begin c
  | .quoted => .ok (if c = '\\' then s.moveTo .escaped else if c = '"' then s.moveTo .named else s)
  | .escaped => .ok (s.moveTo .quoted)
  | .named =>
    if c = '<' then .ok (s.moveTo .bracketed)
    else if c = ':' then s.openGroup
    else if c = '"' then .ok (s.moveTo .quoted)
    else .ok s
  | .bracketed => if c = '>' then s.push .closed s.address.reverse else .ok (s.take .bracketed c)
  | .closed =>
    if Text.isBlank c then .ok s
    else if c = ',' then .ok (s.moveTo .start)
    else if c = ';' then .ok s.endGroup
    else if c = '(' then .ok (s.moveTo .commentAfterBracket)
    else .error .afterBracket
  | .bare =>
    if c = '<' then .ok (s.moveTo .bracketed)
    else if c = ',' then s.push .start s.bareAddress
    else if c = ';' then (s.push .start s.bareAddress).map Scan.endGroup
    else if c = ':' then s.openGroup
    else if c = '(' then .ok { s with place := .commentInBare }
    else .ok (s.take .bare c)
  | .commentAfterBracket => .ok (if c = ')' then s.moveTo .closed else s)
  | .commentInBare => .ok (if c = ')' then { s with place := .bare } else s)

/-- the end of the text, and all entries, last first: a group may only end here when nothing follows its colon -/
def Scan.finish (s : Scan) : Except Fault (List Entry) :=
  match s.members, s.place with
  | some _, .opened => .ok (.group [] :: s.entries)
  | some _, _ => .error .openGroup
  | none, .start | none, .opened | none, .closed => .ok s.entries
  | none, .bare => (s.push .start s.bareAddress).map Scan.entries
  | none, _ => .error .unfinished

def entries (cs : List Char) : Except Fault (List Entry) := do
  let s ← cs.foldlM Scan.step Scan.initial
  return (← s.finish).reverse

end LmtpRelay.AddressList
