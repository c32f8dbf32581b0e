/-
Resolvers. A resolver maps the local part of a recipient to the address that mail for it goes to. It may take time and
it may answer the same question differently the next time, so an answer depends on how many were given before.
-/
import LmtpRelay.Time

namespace LmtpRelay

inductive ResolveError where
  | notFound (identifier : String)
  | failed (detail : String)
  deriving DecidableEq, Repr

def ResolveError.message : ResolveError → String
  | .notFound identifier => s!"No forwarding address for '{identifier}'"
  | .failed detail => s!"Resolution failed: {detail}"

/-- the answer to the `n`-th question -/
structure Resolver where
  resolve (n : Nat) (identifier : String) : Timed (Except ResolveError String)

namespace Resolver

/-- a resolver that answers at once and always in the same way -/
def ofFunction (f : String → Except ResolveError String) : Resolver := ⟨fun _ identifier => ⟨0, f identifier⟩⟩

/-- whether the answer depends on the identifier alone -/
def Steady (r : Resolver) : Prop := ∀ m n identifier, (r.resolve m identifier).value = (r.resolve n identifier).value

/-- the address that a table gives for an identifier -/
def lookup (table : List (String × String)) (identifier : String) : Except ResolveError String :=
  match table.lookup identifier with
  | some address => .ok address
  | none => .error (.notFound identifier)

def ofTable (table : List (String × String)) : Resolver := ofFunction (lookup table)

end Resolver
end LmtpRelay
