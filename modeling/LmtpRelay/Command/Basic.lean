/-
Commands of the dialogue and the verbs that name them. `Command.text` writes a command in the form in which it is
sent, except that the credentials after AUTH are left out.
-/
import LmtpRelay.Command.Parameters

namespace LmtpRelay

/-- the kinds of line a peer may send -/
inductive Verb where
  | lhlo
  /-- HELO or EHLO, neither of which belongs to LMTP -/
  | helo
  | mail
  | rcpt
  | data
  | rset
  | noop
  | quit
  | vrfy
  | help
  | auth
  /-- a line that is no command -/
  | invalid
  deriving DecidableEq, Repr

namespace Verb

def all : List Verb := [.lhlo, .helo, .mail, .rcpt, .data, .rset, .noop, .quit, .vrfy, .help, .auth, .invalid]

def word : Verb → String
  | .lhlo => "LHLO"
  | .helo => "HELO"
  | .mail => "MAIL"
  | .rcpt => "RCPT"
  | .data => "DATA"
  | .rset => "RSET"
  | .noop => "NOOP"
  | .quit => "QUIT"
  | .vrfy => "VRFY"
  | .help => "HELP"
  | .auth => "AUTH"
  | .invalid => "INVALID"

end Verb

inductive Command where
  | lhlo (host : String)
  | helo (host : String)
  /-- the empty sender is the null path -/
  | mail (sender : String) (params : Parameters)
  | rcpt (recipient : String) (params : Parameters)
  | data
  | rset
  | noop
  | quit
  | vrfy (argument : String)
  | help
  | auth (argument : String)
  deriving DecidableEq, Repr

namespace Command

def verb : Command → Verb
  | lhlo _ => .lhlo
  | helo _ => .helo
  | mail _ _ => .mail
  | rcpt _ _ => .rcpt
  | data => .data
  | rset => .rset
  | noop => .noop
  | quit => .quit
  | vrfy _ => .vrfy
  | help => .help
  | auth _ => .auth

/-- a verb with a path in angle brackets, and parameters when there are any -/
def pathText (head address : String) (params : Parameters) : String :=
  if params.isEmpty then s!"{head}<{address}>" else s!"{head}<{address}> {params.text}"

/-- the command as it is sent; credentials are not shown -/
def text : Command → String
  | lhlo host => s!"LHLO {host}"
  | helo host => s!"HELO {host}"
  | mail sender params => pathText "MAIL FROM:" sender params
  | rcpt recipient params => pathText "RCPT TO:" recipient params
  | vrfy argument => s!"VRFY {argument}"
  | data => "DATA"
  | rset => "RSET"
  | noop => "NOOP"
  | quit => "QUIT"
  | help => "HELP"
  | auth _ => "AUTH"

end Command
end LmtpRelay
