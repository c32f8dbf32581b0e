/-
Reading command lines. A line is a piece of at most `lineLimit` octets that ends with a line feed, or what is left when
the stream is closed; carriage returns and line feeds at its end are dropped. A longer line is passed over up to its
line feed and reported as too long.
-/
import LmtpRelay.Wire.Error
import LmtpRelay.Wire.Source

namespace LmtpRelay

/-- the longest line accepted, with its end -/
def lineLimit : Nat := 1000

def isLineEnd (b : UInt8) : Bool := b = Octets.cr || b = Octets.lf

def dropLineEnd : Octets → Octets
  | [] => []
  | b :: bs =>
    match dropLineEnd bs with
    | [] => if isLineEnd b then [] else [b]
    | kept => b :: kept

namespace Source

/-- pass over the rest of a line -/
def discardLine (now : Instant) (s : Source) : Read (Except ConnectionError Unit) :=
  let r := s.piece lineLimit now
  match _h : r.value with
  | none => ⟨none, r.ready, r.rest⟩
  | some (.error f) => ⟨some (.error (.io f)), r.ready, r.rest⟩
  | some (.ok []) => ⟨some (.error .closed), r.ready, r.rest⟩
  | some (.ok (b :: bs)) =>
    if endsLine (b :: bs) then ⟨some (.ok ()), r.ready, r.rest⟩ else (discardLine now r.rest).after r.ready
termination_by s.size
decreasing_by exact size_piece_lt _h

/-- what a first piece says of its line: the line, or that the line is too long -/
def lineOfPiece (piece : Octets) : Option Octets :=
  if !endsLine piece && lineLimit ≤ piece.length then none else some (dropLineEnd piece)

/-- read one line, without its end, beginning `now` -/
def readLine (now : Instant) (s : Source) : Read (Except ConnectionError Octets) :=
  let r := s.piece lineLimit now
  match r.value with
  | none => ⟨none, r.ready, r.rest⟩
  | some (.error f) => ⟨some (.error (.io f)), r.ready, r.rest⟩
  | some (.ok []) => ⟨some (.error .closed), r.ready, r.rest⟩
  | some (.ok piece) =>
    match lineOfPiece piece with
    | some line => ⟨some (.ok line), r.ready, r.rest⟩
    | none => ((r.rest.discardLine now).map fun e => e.bind fun _ => .error (.lineTooLong lineLimit)).after r.ready

/-! ## Reading moves on -/

theorem size_discardLine_le (now : Instant) (s : Source) : (s.discardLine now).rest.size ≤ s.size := by
  fun_induction discardLine now s with
  | case5 s r b bs h hn ih => exact Nat.le_trans ih (size_piece_le lineLimit now s)
  | _ => exact size_piece_le lineLimit now _

/-- after a line, or one that was too long, there is less to read -/
theorem size_readLine_lt {now : Instant} {s : Source} {result : Except ConnectionError Octets}
    (h : (s.readLine now).value = some result) (ok : result ≠ .error .closed) (io : ∀ f, result ≠ .error (.io f)) :
    (s.readLine now).rest.size < s.size := by
  unfold readLine at h ⊢
  dsimp only at h ⊢
  split at h
  · simp at h
  · exact absurd (Option.some.inj h).symm (io _)
  · exact absurd (Option.some.inj h).symm ok
  · next piece hp hv =>
    cases piece with
    | nil => exact absurd rfl hp
    | cons b bs =>
      have hlt := size_piece_lt hv
      split
      · exact hlt
      · exact Nat.lt_of_le_of_lt (size_discardLine_le now _) hlt

end Source
end LmtpRelay
