/-
What is sent to the peer: a reply is one line, and a reply of several lines has a hyphen after the code on all of them
but the last.
-/
import LmtpRelay.Reply.Basic
import LmtpRelay.Text.Octets

namespace LmtpRelay

def Reply.line (r : Reply) : String := r.text ++ "\r\n"

def Status.eachLine (status : Status) : List String → List String
  | [] => []
  | [last] => [s!"{status.text} {last}\r\n"]
  | line :: rest => s!"{status.text}-{line}\r\n" :: status.eachLine rest

def Status.lines (status : Status) (texts : List String) : String := String.join (status.eachLine texts)

end LmtpRelay
