/-
Reading message bodies. The body ends with a line that is a single full stop; a full stop at the start of any other
line was put there by the sender and is taken away. A body that is too large is read to its end all the same, so that
the next command line is found, but only its size is kept.
-/
import LmtpRelay.Wire.Error
import LmtpRelay.Wire.Source

namespace LmtpRelay

/-- the longest piece of a body that is read at once -/
def bodyPieceLimit : Nat := 8192

/-- a message body -/
inductive Body where
  /-- the body, without the full stops that the sender added -/
  | complete (octets : Octets)
  /-- the size of a body that is larger than allowed -/
  | tooLarge (size : Nat)
  deriving DecidableEq, Repr

/-- whether a piece at the start of a line ends the body -/
def isTerminator (piece : Octets) : Bool :=
  piece = [Octets.dot, Octets.cr, Octets.lf] || piece = [Octets.dot, Octets.lf]

/-- a piece at the start of a line without the full stop that the sender added -/
def unstuff (atStart : Bool) : Octets → Octets
  | b :: bs => if atStart && b = Octets.dot then bs else b :: bs
  | [] => []

/-- what has been read of a body -/
structure BodySoFar where
  /-- whether a line begins here -/
  atStart : Bool
  /-- the size so far -/
  received : Nat
  /-- the pieces, last first, as far as they are within the limit -/
  pieces : List Octets
  deriving DecidableEq, Repr

namespace BodySoFar

def initial : BodySoFar := ⟨true, 0, []⟩

def add (max : Nat) (b : BodySoFar) (piece : Octets) : BodySoFar :=
  let data := unstuff b.atStart piece
  let received := b.received + data.length
  ⟨endsLine piece, received, if received ≤ max then data :: b.pieces else b.pieces⟩

def body (max : Nat) (b : BodySoFar) : Body :=
  if max < b.received then .tooLarge b.received else .complete b.pieces.reverse.flatten

end BodySoFar

namespace Source

def readBodyFrom (max : Nat) (now : Instant) (sofar : BodySoFar) (s : Source) : Read (Except ConnectionError Body) :=
  let r := s.piece bodyPieceLimit now
  match _h : r.value with
  | none => ⟨none, r.ready, r.rest⟩
  | some (.error f) => ⟨some (.error (.io f)), r.ready, r.rest⟩
  | some (.ok []) => ⟨some (.error .closed), r.ready, r.rest⟩
  | some (.ok (b :: bs)) =>
    if sofar.atStart && isTerminator (b :: bs) then ⟨some (.ok (sofar.body max)), r.ready, r.rest⟩
    else (readBodyFrom max now (sofar.add max (b :: bs)) r.rest).after r.ready
termination_by s.size
decreasing_by exact size_piece_lt _h

/-- read a body of at most `max` octets, beginning `now` -/
def readBody (max : Nat) (now : Instant) (s : Source) : Read (Except ConnectionError Body) :=
  readBodyFrom max now .initial s

theorem size_readBodyFrom_le (max : Nat) (now : Instant) (sofar : BodySoFar) (s : Source) :
    (s.readBodyFrom max now sofar).rest.size ≤ s.size := by
  fun_induction readBodyFrom max now sofar s with
  | case5 sofar s r b bs h hn ih => exact Nat.le_trans ih (size_piece_le bodyPieceLimit now s)
  | _ => exact size_piece_le bodyPieceLimit now _

theorem size_readBody_le (max : Nat) (now : Instant) (s : Source) : (s.readBody max now).rest.size ≤ s.size :=
  size_readBodyFrom_le max now .initial s

end Source
end LmtpRelay
