/-
Octets and the texts they spell. Everything that crosses a connection is a list of octets; a text is sent as its
UTF-8 encoding, and octets are a text only when they are exactly the encoding of one.
-/

namespace LmtpRelay

/-- a run of octets, as it is sent and received -/
abbrev Octets := List UInt8

namespace Octets

def cr : UInt8 := 13

def lf : UInt8 := 10

def dot : UInt8 := 46

def crlf : Octets := [cr, lf]

def ofText (s : String) : Octets := s.toByteArray.data.toList

/-- the text that the octets encode; `none` where they are not well-formed UTF-8 -/
def toText? (bs : Octets) : Option String := String.fromUTF8? ⟨⟨bs⟩⟩

end Octets

/-- what the system says of an input or output operation that failed -/
structure IoFailure where
  /-- the text of the failure -/
  text : String
  deriving DecidableEq, Repr

/-- reading as text failed because the octets are not well-formed UTF-8 -/
def IoFailure.notText : IoFailure := ⟨"stream did not contain valid UTF-8"⟩

end LmtpRelay
