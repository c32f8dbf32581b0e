/-
Enhanced status codes: a class, a subject and a detail, written with full stops between them. A text begins with an
enhanced code when its first word is one and the class is 2 (done), 4 (failed for now) or 5 (failed for good).
-/
import LmtpRelay.Text.Blank
import LmtpRelay.Text.Numeral

namespace LmtpRelay

structure EnhancedCode where
  /-- done, failed for now, or failed for good -/
  cls : Nat
  /-- what the code is about -/
  subject : Nat
  /-- what happened to it -/
  detail : Nat
  deriving DecidableEq, Repr

namespace EnhancedCode

def success : EnhancedCode := ⟨2, 0, 0⟩
def otherAddress : EnhancedCode := ⟨2, 1, 0⟩
def temporaryDestination : EnhancedCode := ⟨4, 1, 1⟩
def temporarySystem : EnhancedCode := ⟨4, 3, 0⟩
def systemNotAccepting : EnhancedCode := ⟨4, 3, 2⟩
def temporaryNetwork : EnhancedCode := ⟨4, 4, 0⟩
def timeout : EnhancedCode := ⟨4, 4, 2⟩
def temporaryProtocol : EnhancedCode := ⟨4, 5, 0⟩
def undefinedFailure : EnhancedCode := ⟨5, 0, 0⟩
def badDestination : EnhancedCode := ⟨5, 1, 1⟩
def badDestinationSyntax : EnhancedCode := ⟨5, 1, 3⟩
def messageTooBig : EnhancedCode := ⟨5, 3, 4⟩
def invalidCommand : EnhancedCode := ⟨5, 5, 1⟩
def syntaxError : EnhancedCode := ⟨5, 5, 2⟩
def invalidArguments : EnhancedCode := ⟨5, 5, 4⟩
def authUnsupported : EnhancedCode := ⟨5, 7, 0⟩

def text (e : EnhancedCode) : String := s!"{e.cls}.{e.subject}.{e.detail}"

/-- the code that one word spells: everything after the second full stop is the detail -/
def ofWord? (word : List Char) : Option EnhancedCode := do
  let (cls, rest) ← Text.splitOnce '.' word
  let (subject, detail) ← Text.splitOnce '.' rest
  let cls ← Text.numeral? (Text.wordMax 8) cls
  let subject ← Text.numeral? (Text.wordMax 16) subject
  let detail ← Text.numeral? (Text.wordMax 16) detail
  if cls = 2 ∨ cls = 4 ∨ cls = 5 then some ⟨cls, subject, detail⟩ else none

/-- the code that the first word of a text spells -/
def ofText? (cs : List Char) : Option EnhancedCode := (Text.words cs).head?.bind ofWord?

end EnhancedCode
end LmtpRelay
