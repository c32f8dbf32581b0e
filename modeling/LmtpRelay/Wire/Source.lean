/-
The receiving side of a connection. Octets arrive in chunks, each at its own moment. The stream may be closed or begin
to fail at some moment; a reader that has read all that is there notices that, and does not wait for what comes later.
A reader takes pieces: the octets up to and including the next line feed, but no more than a limit, however they are cut
into chunks. A piece is shorter only where the stream is closed.

`size_piece` says that a piece and what is left make up what was there, so that reading piece by piece ends.
-/
import LmtpRelay.Text.Octets
import LmtpRelay.Time

namespace LmtpRelay

/-! ## Arrivals -/

/-- octets that arrive together -/
structure Arrival where
  time : Instant
  octets : Octets
  deriving DecidableEq, Repr

/-- what a reader finds when nothing is left to read -/
inductive Ending where
  /-- the peer closed its side -/
  | closed
  /-- every read fails -/
  | failure (f : IoFailure)
  deriving DecidableEq, Repr

/-- something that ends a stream, and when -/
structure Halt where
  time : Instant
  ending : Ending
  deriving DecidableEq, Repr

/-- what a connection still has to deliver; a stream that nothing ends is silent in the end -/
structure Source where
  /-- what arrives, in order of time -/
  arrivals : List Arrival
  /-- what ends the stream, in order of time -/
  halts : List Halt
  deriving DecidableEq, Repr

/-- the octets there are to read, however they are cut -/
def Source.octets (s : Source) : Octets := s.arrivals.flatMap Arrival.octets

def Source.size (s : Source) : Nat := s.octets.length

/-- what a read comes to -/
structure Read (α : Type) where
  /-- the result; `none` where the read never ends -/
  value : Option α
  /-- when the last octet that it needs is there -/
  ready : Instant
  rest : Source

def Read.map {α β : Type} (f : α → β) (r : Read α) : Read β := ⟨r.value.map f, r.ready, r.rest⟩

/-- a read that began only at a later moment -/
def Read.after {α : Type} (t : Instant) (r : Read α) : Read α := { r with ready := max t r.ready }

/-- whether a read that begins `now` ends in time for a deadline, and with what -/
def Read.within {α : Type} (now deadline : Instant) (r : Read α) : Option α :=
  if inTime now deadline r.ready then r.value else none

/-! ## The end -/

/-- when a reader that begins `now` notices that the stream has ended, if that ever happens -/
def Source.noticed? (now : Instant) (s : Source) : Option Instant := s.halts.head?.map fun h => max now h.time

/-- how a stream has ended by a moment: a failure counts more than a close, and the last failure counts -/
def endingAt (t : Instant) (halts : List Halt) : Ending :=
  (halts.filter fun h => h.time ≤ t).foldl (fun e h => if h.ending = .closed then e else h.ending) .closed

/-- whether an arrival comes when the end of the stream has been noticed already -/
def Arrival.isLate (noticed : Option Instant) (a : Arrival) : Bool := noticed.any (· < a.time)

/-! ## Pieces -/

/-- the octets up to and including the first line feed, but at most `limit`, and the others -/
def cutLine : Nat → Octets → Octets × Octets
  | 0, bs => ([], bs)
  | _ + 1, [] => ([], [])
  | n + 1, b :: bs =>
    if b = Octets.lf then ([b], bs)
    else let (piece, rest) := cutLine n bs; (b :: piece, rest)

def endsLine (bs : Octets) : Bool := bs.getLast? = some Octets.lf

/-- a piece gathered from arrivals -/
structure Gathered where
  piece : Octets
  /-- whether the piece is whole: it ends a line or has reached the limit -/
  whole : Bool
  ready : Instant
  rest : List Arrival

/-- gather a piece of at most `limit` octets from what arrives before the end is noticed -/
def gather (limit : Nat) (noticed : Option Instant) : List Arrival → Gathered
  | [] => ⟨[], limit == 0, 0, []⟩
  | a :: rest =>
    if a.isLate noticed then ⟨[], limit == 0, 0, a :: rest⟩
    else
      let (piece, others) := cutLine limit a.octets
      if endsLine piece || limit ≤ piece.length then ⟨piece, true, a.time, ⟨a.time, others⟩ :: rest⟩
      else
        let g := gather (limit - piece.length) noticed rest
        { g with piece := piece ++ g.piece, ready := max a.time g.ready }

/-- read a piece of at most `limit` octets, beginning `now`; the empty piece means that the stream is closed -/
def Source.piece (limit : Nat) (now : Instant) (s : Source) : Read (Except IoFailure Octets) :=
  let g := gather limit (s.noticed? now) s.arrivals
  let rest := { s with arrivals := g.rest }
  if g.whole then ⟨some (.ok g.piece), g.ready, rest⟩
  else
    match s.noticed? now with
    | none => ⟨none, g.ready, rest⟩
    | some t =>
      match endingAt t s.halts with
      | .closed => ⟨some (.ok g.piece), max g.ready t, rest⟩
      | .failure f => ⟨some (.error f), max g.ready t, rest⟩

/-! ## Nothing is lost -/

theorem cutLine_append (limit : Nat) (bs : Octets) : (cutLine limit bs).1 ++ (cutLine limit bs).2 = bs := by
  induction bs generalizing limit with
  | nil => cases limit <;> rfl
  | cons b bs ih =>
    cases limit with
    | zero => rfl
    | succ n =>
      by_cases h : b = Octets.lf
      · simp [cutLine, h]
      · simpa [cutLine, h] using ih n

/-- octets are left over only where the piece ends a line or is as long as it may be -/
theorem whole_of_cutLine_rest (limit : Nat) (bs : Octets) (h : (cutLine limit bs).2 ≠ []) :
    (endsLine (cutLine limit bs).1 || limit ≤ (cutLine limit bs).1.length) = true := by
  induction bs generalizing limit with
  | nil => cases limit <;> simp [cutLine] at h
  | cons b bs ih =>
    cases limit with
    | zero => simp
    | succ n =>
      by_cases hb : b = Octets.lf
      · simp [cutLine, hb, endsLine]
      · simp only [cutLine, hb, if_false] at h ⊢
        have := ih n h
        cases hp : (cutLine n bs).1 with
        | nil => simp_all [endsLine]
        | cons x xs => simp_all [endsLine]

theorem octets_gather (limit : Nat) (noticed : Option Instant) (arrivals : List Arrival) :
    (gather limit noticed arrivals).piece ++ (gather limit noticed arrivals).rest.flatMap Arrival.octets
      = arrivals.flatMap Arrival.octets := by
  induction arrivals generalizing limit with
  | nil => rfl
  | cons a rest ih =>
    have h := cutLine_append limit a.octets
    simp only [gather]
    split
    · rfl
    · split
      · simp [← List.append_assoc, h]
      · next hn =>
        have none_left : (cutLine limit a.octets).2 = [] :=
          Classical.byContradiction fun hne => hn (whole_of_cutLine_rest limit a.octets hne)
        rw [none_left, List.append_nil] at h
        simp [ih, h]

theorem Source.arrivals_piece (limit : Nat) (now : Instant) (s : Source) :
    (s.piece limit now).rest.arrivals = (gather limit (s.noticed? now) s.arrivals).rest := by
  simp only [Source.piece]
  split
  · rfl
  · split
    · rfl
    · split <;> rfl

theorem Source.octets_piece {limit : Nat} {now : Instant} {s : Source} {piece : Octets}
    (h : (s.piece limit now).value = some (.ok piece)) : piece ++ (s.piece limit now).rest.octets = s.octets := by
  have hp : piece = (gather limit (s.noticed? now) s.arrivals).piece := by
    simp only [Source.piece] at h
    split at h
    · simpa using h.symm
    · split at h
      · simp at h
      · split at h <;> simp_all
  rw [hp, Source.octets, Source.arrivals_piece]
  exact octets_gather limit (s.noticed? now) s.arrivals

theorem Source.size_piece {limit : Nat} {now : Instant} {s : Source} {piece : Octets}
    (h : (s.piece limit now).value = some (.ok piece)) :
    piece.length + (s.piece limit now).rest.size = s.size := by
  have := congrArg List.length (Source.octets_piece h)
  simpa [Source.size] using this

/-- a piece that is not empty leaves less to read -/
theorem Source.size_piece_lt {limit : Nat} {now : Instant} {s : Source} {b : UInt8} {bs : Octets}
    (h : (s.piece limit now).value = some (.ok (b :: bs))) : (s.piece limit now).rest.size < s.size := by
  have := Source.size_piece h
  simp only [List.length_cons] at this
  omega

theorem Source.size_piece_le (limit : Nat) (now : Instant) (s : Source) :
    (s.piece limit now).rest.size ≤ s.size := by
  have hg := congrArg List.length (octets_gather limit (s.noticed? now) s.arrivals)
  simp only [Source.size, Source.octets, Source.arrivals_piece]
  simp only [List.length_append] at hg
  omega

end LmtpRelay
