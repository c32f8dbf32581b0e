/-
Responses of the downstream server. A response is one or more lines that begin with the same three digits; a hyphen
after the digits says that more lines follow. `Response.reply` is the response as a reply to pass on: its lines are
joined, and an enhanced code at the start of the text becomes the reply's own.
-/
import LmtpRelay.Forward.Error

namespace LmtpRelay

structure ResponseLine where
  code : Nat
  /-- whether the response ends with this line -/
  isLast : Bool
  message : String
  deriving DecidableEq, Repr

structure Response where
  code : Nat
  /-- the text of each line, last first -/
  texts : List String
  deriving DecidableEq, Repr

/-- why a line does not belong to a response -/
inductive ResponseFault where
  /-- the line does not begin with three digits -/
  | noCode (line : String)
  /-- the octet after the digits is neither a space nor a hyphen -/
  | separator (octet : UInt8)
  /-- the code is not that of the lines before -/
  | otherCode (expected got : Nat)
  deriving DecidableEq, Repr

def ResponseFault.message : ResponseFault → String
  | .noCode line => s!"Invalid status code in '{line}'"
  | .separator octet => s!"Invalid separator character: '{Char.ofNat octet.toNat}'"
  | .otherCode expected got =>
    s!"Status code mismatch in multi-line response: expected {expected}, got {got}"

def ResponseFault.error (fault : ResponseFault) : DownstreamError := .malformed fault.message

/-- the number that three digits at the start of a line spell, and what follows them -/
def ResponseLine.code? : List Char → Option (Nat × List Char)
  | a :: b :: c :: rest => (Text.digits? 999 [a, b, c]).map fun code => (code, rest)
  | _ => none

def ResponseLine.parse (line : String) : Except ResponseFault ResponseLine :=
  match ResponseLine.code? line.toList with
  | none => .error (.noCode line)
  | some (code, []) => .ok ⟨code, true, ""⟩
  | some (code, ' ' :: message) => .ok ⟨code, true, String.ofList message⟩
  | some (code, '-' :: message) => .ok ⟨code, false, String.ofList message⟩
  | some (_, c :: _) => .error (.separator ((String.utf8EncodeChar c).headD 0))

namespace Response

def lines (r : Response) : List String := r.texts.reverse

/-- whether the response says that the command was carried out -/
def isSuccess (r : Response) : Bool := 200 ≤ r.code && r.code < 300

/-- add a line to the response that has been read so far -/
def push (sofar : Option Response) (line : ResponseLine) : Except ResponseFault Response :=
  match sofar with
  | none => .ok ⟨line.code, [line.message]⟩
  | some r =>
    if r.code = line.code then .ok { r with texts := line.message :: r.texts }
    else .error (.otherCode r.code line.code)

def reply (r : Response) : Reply :=
  let text := " ".intercalate r.lines
  match EnhancedCode.ofText? text.toList with
  | some code =>
    let message := (Text.splitOnce ' ' text.toList).elim [] Prod.snd
    ⟨⟨r.code⟩, some code, String.ofList message⟩
  | none => ⟨⟨r.code⟩, none, text⟩

end Response
end LmtpRelay
