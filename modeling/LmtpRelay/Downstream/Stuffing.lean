/-
Sending message bodies. A full stop at the start of a line is doubled, so that no line of the body is taken for its
end; the end itself is a line with a single full stop.
-/
import LmtpRelay.Text.Octets

namespace LmtpRelay

/-- octets with each full stop at the start of a line doubled, and whether a line begins after them -/
def stuff (atStart : Bool) : Octets → Octets × Bool
  | [] => ([], atStart)
  | b :: bs =>
    let (rest, after) := stuff (b = Octets.lf) bs
    (if atStart && b = Octets.dot then b :: b :: rest else b :: rest, after)

/-- the end of a body, on a line of its own -/
def terminator (atStart : Bool) : Octets :=
  if atStart then Octets.dot :: Octets.crlf else Octets.crlf ++ Octets.dot :: Octets.crlf

end LmtpRelay
