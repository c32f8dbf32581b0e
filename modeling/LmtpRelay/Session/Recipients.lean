/-
The recipients of a transaction: for each address that mail is forwarded to, the recipient that the peer named, in the
order of acceptance. No two entries have the same forwarding address.
-/
namespace LmtpRelay

/-- forwarding addresses with the recipients that they stand for, oldest first -/
structure Recipients where
  entries : List (String × String)
  deriving DecidableEq, Repr

namespace Recipients

def empty : Recipients := ⟨[]⟩

/-- whether a forwarding address is in use -/
def contains (m : Recipients) (resolved : String) : Bool := m.entries.any fun e => e.1 == resolved

/-- the recipient that a forwarding address stands for -/
def named? (m : Recipients) (resolved : String) : Option String :=
  (m.entries.find? fun e => e.1 == resolved).map Prod.snd

/-- add a recipient at the end, unless its forwarding address is in use -/
def insert? (m : Recipients) (resolved recipient : String) : Option Recipients :=
  if m.contains resolved then none else some ⟨m.entries ++ [(resolved, recipient)]⟩

/-- take a forwarding address out -/
def erase (m : Recipients) (resolved : String) : Recipients := ⟨m.entries.eraseP fun e => e.1 == resolved⟩

/-- the forwarding addresses in the order of acceptance -/
def resolved (m : Recipients) : List String := m.entries.map Prod.fst

/-- the recipients as the peer named them, in the order of acceptance -/
def names (m : Recipients) : List String := m.entries.map Prod.snd

def size (m : Recipients) : Nat := m.entries.length

def isEmpty (m : Recipients) : Bool := m.entries.isEmpty

@[simp] theorem length_resolved (m : Recipients) : m.resolved.length = m.size := List.length_map _

@[simp] theorem length_names (m : Recipients) : m.names.length = m.size := List.length_map _

end Recipients
end LmtpRelay
