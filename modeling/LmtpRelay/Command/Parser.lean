/-
Reading a command line. Blanks at both ends are dropped and letter case does not matter in verbs and in the words in
front of a path. A path is one address, in angle brackets or bare; the parameters after it are read first, so a fault
in them is the one reported when both are wrong.
-/
import LmtpRelay.Command.AddressList
import LmtpRelay.Command.Basic
import LmtpRelay.Text.Octets

namespace LmtpRelay

/-- why a line is no command -/
inductive CommandFault where
  /-- the line is not UTF-8 -/
  | notText
  /-- a line that begins with no known verb -/
  | unknown (line : String)
  /-- a greeting without a host name -/
  | noHost (line : String)
  /-- the null path where a recipient is wanted -/
  | nullPath
  /-- a group where an address is wanted -/
  | group (path : String)
  /-- nothing where an address is wanted -/
  | noAddress (path : String)
  | address (fault : AddressList.Fault)
  | parameter (fault : ParameterFault)
  deriving DecidableEq, Repr

def CommandFault.message : CommandFault → String
  | .notText => "Unable to interpret command"
  | .unknown line => line
  | .noHost line => s!"Expected hostname in {line}"
  | .nullPath => "Null path is not allowed here"
  | .group path => s!"Group addresses are not allowed: {path}"
  | .noAddress path => s!"Expected an address in '{path}'"
  | .address fault => fault.message
  | .parameter fault => fault.message

namespace Command

/-- the address in a path: the first entry of the list that it spells -/
def parseAddress (path : List Char) : Except CommandFault String := do
  match ← (AddressList.entries path).mapError CommandFault.address with
  | .mailbox address :: _ => .ok (String.ofList address)
  | .group _ :: _ => .error (.group (String.ofList path))
  | [] => .error (.noAddress (String.ofList path))

/-- the address and the parameters after the words in front of a path -/
def parsePath (allowNull : Bool) (rest : List Char) : Except CommandFault (String × Parameters) := do
  let (path, words) := Text.splitBlank (Text.trim rest)
  let params ← (Parameters.parse words).mapError CommandFault.parameter
  if path = ['<', '>'] then
    if allowNull then return ("", params) else .error .nullPath
  else
    let address ← parseAddress path
    return (address, params)

/-- a command that has no path, told by its verb or by the whole line -/
def parseVerb (line verb argument : List Char) : Except CommandFault Command :=
  let isVerb (word : String) := Text.sameFolded verb word.toList
  let isLine (word : String) := Text.sameFolded line word.toList
  if isVerb "LHLO" then
    if argument.isEmpty then .error (.noHost (String.ofList line)) else .ok (.lhlo (String.ofList argument))
  else if isVerb "HELO" || isVerb "EHLO" then .ok (.helo (String.ofList argument))
  else if isVerb "VRFY" then .ok (.vrfy (String.ofList argument))
  else if isVerb "AUTH" then .ok (.auth (String.ofList argument))
  else if isVerb "HELP" then .ok .help
  else if isVerb "NOOP" then .ok .noop
  else if isLine "DATA" then .ok .data
  else if isLine "RSET" then .ok .rset
  else if isLine "QUIT" then .ok .quit
  else .error (.unknown (String.ofList line))

def parseText (text : List Char) : Except CommandFault Command :=
  let line := Text.trim text
  match Text.dropFolded? "MAIL FROM:".toList line, Text.dropFolded? "RCPT TO:".toList line with
  | some rest, _ => (parsePath true rest).map fun (sender, params) => .mail sender params
  | none, some rest => (parsePath false rest).map fun (recipient, params) => .rcpt recipient params
  | none, none =>
    match Text.splitOnce ' ' line with
    | some (verb, argument) => parseVerb line verb (Text.trim argument)
    | none => parseVerb line line []

/-- the command that a line of octets spells -/
def parse (line : Octets) : Except CommandFault Command :=
  match Octets.toText? line with
  | some text => parseText text.toList
  | none => .error .notText

end Command
end LmtpRelay
