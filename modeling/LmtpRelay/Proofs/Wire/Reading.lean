/-
What a reader finds, however the stream is cut. The octets that come before the end of a stream is noticed are a single
list (`Source.there`). A piece is cut off the front of it (`piece_there`), a command line is its first line where that
is not too long (`readLine_there`), and a body is what `splitBody` finds in it (`readBody_there`). None of this depends
on how the octets are cut into arrivals.
-/
import LmtpRelay.Proofs.Wire.Bodies
import LmtpRelay.Wire.Line

namespace LmtpRelay

/-! ## Lines -/

/-- the octets up to and including the first line feed, or all of them, and what comes after -/
def splitLine : Octets → Octets × Octets
  | [] => ([], [])
  | b :: bs => if b = Octets.lf then ([b], bs) else (b :: (splitLine bs).1, (splitLine bs).2)

theorem splitLine_append (bs : Octets) : (splitLine bs).1 ++ (splitLine bs).2 = bs := by
  induction bs with
  | nil => rfl
  | cons b bs ih =>
    rw [splitLine]
    split
    · rfl
    · exact congrArg (b :: ·) ih

theorem endsLine_cons_of_ne {b : UInt8} (h : b ≠ Octets.lf) (bs : Octets) : endsLine (b :: bs) = endsLine bs := by
  cases bs with
  | nil => simp [endsLine, h]
  | cons c cs => exact endsLine_cons b (List.cons_ne_nil c cs)

theorem splitLine_last {bs : Octets} (h : endsLine (splitLine bs).1 = false) : splitLine bs = (bs, []) := by
  induction bs with
  | nil => rfl
  | cons b bs ih =>
    rw [splitLine] at h ⊢
    by_cases hb : b = Octets.lf
    · rw [if_pos hb, hb] at h
      cases h
    · rw [if_neg hb] at h ⊢
      rw [ih ((endsLine_cons_of_ne hb _).symm.trans h)]

theorem endsLine_append_of_not {a : Octets} (h : endsLine a = false) (b : Octets) : endsLine (a ++ b) = endsLine b := by
  cases b with
  | nil => rw [List.append_nil, h]; rfl
  | cons c cs => exact endsLine_append (List.cons_ne_nil c cs) a

theorem splitLine_cut (limit : Nat) (bs : Octets) : splitLine bs =
    if endsLine (cutLine limit bs).1 then cutLine limit bs
    else ((cutLine limit bs).1 ++ (splitLine (cutLine limit bs).2).1, (splitLine (cutLine limit bs).2).2) := by
  induction bs generalizing limit with
  | nil => cases limit <;> rfl
  | cons b bs ih =>
    cases limit with
    | zero => rfl
    | succ n =>
      rw [splitLine, cutLine]
      by_cases hb : b = Octets.lf
      · rw [if_pos hb, if_pos hb, hb]
        rfl
      · rw [if_neg hb, if_neg hb]
        dsimp only
        rw [endsLine_cons_of_ne hb, ih n]
        split <;> rfl

/-- whether a piece is whole: it ends a line or is as long as it may be -/
def isWhole (limit : Nat) (piece : Octets) : Bool := endsLine piece || decide (limit ≤ piece.length)

theorem isWhole_cons {b : UInt8} (h : b ≠ Octets.lf) (n : Nat) (piece : Octets) :
    isWhole (n + 1) (b :: piece) = isWhole n piece := by
  rw [isWhole, isWhole, endsLine_cons_of_ne h, List.length_cons]
  simp

theorem cutLine_short {limit : Nat} {bs : Octets} (h : isWhole limit (cutLine limit bs).1 = false) :
    cutLine limit bs = (bs, []) := by
  have none_left : (cutLine limit bs).2 = [] := by
    refine Classical.byContradiction fun some_left => ?_
    exact absurd ((whole_of_cutLine_rest limit bs some_left).symm.trans h) nofun
  have all := cutLine_append limit bs
  rw [none_left, List.append_nil] at all
  exact Prod.ext all none_left

theorem cutLine_length (limit : Nat) (bs : Octets) : (cutLine limit bs).1.length ≤ limit := by
  induction bs generalizing limit with
  | nil => cases limit <;> simp [cutLine]
  | cons b bs ih =>
    cases limit with
    | zero => simp [cutLine]
    | succ n =>
      rw [cutLine]
      split
      · simp
      · simpa using ih n

/-! ## Arrivals -/

/-- a piece that is whole is cut off in front of whatever comes after -/
theorem cutLine_whole {limit : Nat} {a : Octets} (h : isWhole limit (cutLine limit a).1 = true) (b : Octets) :
    cutLine limit (a ++ b) = ((cutLine limit a).1, (cutLine limit a).2 ++ b) := by
  induction a generalizing limit with
  | nil =>
    cases limit with
    | zero => cases b <;> rfl
    | succ n => cases h
  | cons c cs ih =>
    cases limit with
    | zero => rfl
    | succ n =>
      rw [cutLine] at h
      rw [List.cons_append, cutLine, cutLine]
      by_cases hc : c = Octets.lf
      · rw [if_pos hc, if_pos hc]
      · rw [if_neg hc] at h
        rw [if_neg hc, if_neg hc, ih ((isWhole_cons hc n _).symm.trans h)]

/-- a piece that is not whole goes on in what comes after -/
theorem cutLine_more {limit : Nat} {a : Octets} (h : isWhole limit (cutLine limit a).1 = false) (b : Octets) :
    cutLine limit (a ++ b) = (a ++ (cutLine (limit - a.length) b).1, (cutLine (limit - a.length) b).2) := by
  induction a generalizing limit with
  | nil => rfl
  | cons c cs ih =>
    cases limit with
    | zero => cases h
    | succ n =>
      rw [cutLine] at h
      by_cases hc : c = Octets.lf
      · rw [if_pos hc, hc] at h
        cases h
      · rw [if_neg hc] at h
        rw [List.cons_append, cutLine, if_neg hc, ih ((isWhole_cons hc n _).symm.trans h), List.length_cons,
          Nat.add_sub_add_right]
        rfl

/-- the octets that arrive before the end is noticed -/
def timely (noticed : Option Instant) (arrivals : List Arrival) : Octets :=
  (arrivals.takeWhile fun a => !a.isLate noticed).flatMap Arrival.octets

theorem timely_cons (noticed : Option Instant) (a : Arrival) (rest : List Arrival) :
    timely noticed (a :: rest) = if a.isLate noticed then [] else a.octets ++ timely noticed rest := by
  unfold timely
  cases h : a.isLate noticed with
  | true => rw [List.takeWhile_cons_of_neg (by simp [h])]; rfl
  | false => rw [List.takeWhile_cons_of_pos (by simp [h]), List.flatMap_cons]; rfl

/-- a piece is cut off the octets that arrive in time, however they are cut -/
theorem gather_timely (limit : Nat) (noticed : Option Instant) (arrivals : List Arrival) :
    (gather limit noticed arrivals).piece = (cutLine limit (timely noticed arrivals)).1 ∧
      timely noticed (gather limit noticed arrivals).rest = (cutLine limit (timely noticed arrivals)).2 ∧
      (gather limit noticed arrivals).whole = isWhole limit (cutLine limit (timely noticed arrivals)).1 := by
  have nothing : ∀ limit, cutLine limit [] = ([], []) := fun limit => by cases limit <;> rfl
  have none_whole : ∀ limit, (limit == 0) = isWhole limit [] := fun limit => by cases limit <;> rfl
  induction arrivals generalizing limit with
  | nil =>
    have empty : timely noticed [] = [] := rfl
    rw [empty, nothing]
    exact ⟨rfl, rfl, none_whole limit⟩
  | cons a rest ih =>
    have step : gather limit noticed (a :: rest) = if a.isLate noticed then ⟨[], limit == 0, 0, a :: rest⟩
      else if isWhole limit (cutLine limit a.octets).1 then
        ⟨(cutLine limit a.octets).1, true, a.time, ⟨a.time, (cutLine limit a.octets).2⟩ :: rest⟩
      else { gather (limit - (cutLine limit a.octets).1.length) noticed rest with
        piece := (cutLine limit a.octets).1
          ++ (gather (limit - (cutLine limit a.octets).1.length) noticed rest).piece
        ready := max a.time (gather (limit - (cutLine limit a.octets).1.length) noticed rest).ready } := rfl
    rw [step, timely_cons]
    cases late : a.isLate noticed with
    | true =>
      rw [if_pos rfl, if_pos rfl, nothing]
      refine ⟨rfl, ?_, none_whole limit⟩
      rw [timely_cons, if_pos late]
    | false =>
      rw [if_neg Bool.false_ne_true, if_neg Bool.false_ne_true]
      cases whole : isWhole limit (cutLine limit a.octets).1 with
      | true =>
        have here : (⟨a.time, (cutLine limit a.octets).2⟩ : Arrival).isLate noticed = false := late
        rw [if_pos rfl, cutLine_whole whole]
        refine ⟨rfl, ?_, whole.symm⟩
        rw [timely_cons, here]
        rfl
      | false =>
        have short := cutLine_short whole
        obtain ⟨piece, left, rest_whole⟩ := ih (limit - a.octets.length)
        rw [short] at whole
        obtain ⟨not_ended, not_long⟩ := Bool.or_eq_false_iff.1 whole
        have shorter : a.octets.length < limit := by simpa using not_long
        rw [if_neg Bool.false_ne_true, cutLine_more (short.symm ▸ whole), short]
        refine ⟨congrArg (a.octets ++ ·) piece, left, rest_whole.trans ?_⟩
        rw [isWhole, isWhole, endsLine_append_of_not not_ended, List.length_append]
        congr 1
        exact decide_eq_decide.2 (by omega)

/-! ## What is found -/

/-- the failure that an end of the stream is to a reader that needs more -/
def Ending.error : Ending → ConnectionError
  | .closed => .closed
  | .failure f => .io f

/-- the first line, without its end, where it is not too long; the last may do without an end where the stream is closed
and it is shorter than a line may be -/
def firstLine (ending : Option Ending) (bs : Octets) : Option (Except ConnectionError Octets) :=
  if endsLine (splitLine bs).1 then
    some (if (splitLine bs).1.length ≤ lineLimit then .ok (dropLineEnd (splitLine bs).1)
      else .error (.lineTooLong lineLimit))
  else ending.map fun e =>
    if e = .closed ∧ bs ≠ [] ∧ bs.length < lineLimit then .ok (dropLineEnd bs) else .error e.error

theorem firstLine_piece {bs : Octets} (ends : endsLine (cutLine lineLimit bs).1 = true) (ending : Option Ending) :
    firstLine ending bs = some (.ok (dropLineEnd (cutLine lineLimit bs).1)) := by
  rw [firstLine, splitLine_cut lineLimit, if_pos ends, if_pos ends, if_pos (cutLine_length lineLimit bs)]

/-- a first piece that is as long as it may be and ends no line belongs to a line that is too long -/
theorem firstLine_long {bs : Octets} (ends : endsLine (cutLine lineLimit bs).1 = false)
    (long : lineLimit ≤ (cutLine lineLimit bs).1.length) (ending : Option Ending) : firstLine ending bs
      = if endsLine (splitLine (cutLine lineLimit bs).2).1 then some (.error (.lineTooLong lineLimit))
        else (ending.map Ending.error).map .error := by
  have first := splitLine_cut lineLimit bs
  rw [ends, if_neg Bool.false_ne_true] at first
  have ended := endsLine_append_of_not ends (splitLine (cutLine lineLimit bs).2).1
  rw [firstLine, first]
  dsimp only
  rw [ended]
  cases hl : endsLine (splitLine (cutLine lineLimit bs).2).1 with
  | true =>
    have more : 0 < (splitLine (cutLine lineLimit bs).2).1.length := by
      rw [List.length_pos_iff]
      intro nothing
      rw [nothing] at hl
      cases hl
    have too_long : ¬((cutLine lineLimit bs).1 ++ (splitLine (cutLine lineLimit bs).2).1).length ≤ lineLimit := by
      rw [List.length_append]
      omega
    rw [if_pos rfl, if_pos rfl, if_neg too_long]
  | false =>
    have too_long : ¬bs.length < lineLimit := by
      have all := congrArg List.length (cutLine_append lineLimit bs)
      rw [List.length_append] at all
      omega
    rw [if_neg Bool.false_ne_true, if_neg Bool.false_ne_true, Option.map_map]
    congr 1
    funext e
    exact if_neg fun h => too_long h.2.2

theorem firstLine_last {bs : Octets} (last : splitLine bs = (bs, [])) (ends : endsLine bs = false)
    (ending : Option Ending) : firstLine ending bs = ending.map fun e =>
      if e = .closed ∧ bs ≠ [] ∧ bs.length < lineLimit then .ok (dropLineEnd bs) else .error e.error := by
  rw [firstLine, last, ends]
  rfl

/-! ## Bodies -/

theorem splitLine_shorter {bs : Octets} (h : endsLine (splitLine bs).1 = true) :
    (splitLine bs).2.length < bs.length := by
  have all := congrArg List.length (splitLine_append bs)
  have some_line : 0 < (splitLine bs).1.length := by
    rw [List.length_pos_iff]
    intro nothing
    rw [nothing] at h
    cases h
  rw [List.length_append] at all
  omega

/-- what a peer means by a body: its lines, each without the full stop that was put in front of it, up to the first that
is a full stop by itself; and what comes after that line -/
def splitBody (bs : Octets) : Option (Octets × Octets) :=
  if _h : endsLine (splitLine bs).1 = true then
    if isTerminator (splitLine bs).1 then some ([], (splitLine bs).2)
    else (splitBody (splitLine bs).2).map fun r => (unstuff true (splitLine bs).1 ++ r.1, r.2)
  else none
termination_by bs.length
decreasing_by exact splitLine_shorter _h

/-- a body within its limit, or the size of one that is larger -/
def Body.within (max : Nat) (octets : Octets) : Body :=
  if max < octets.length then .tooLarge octets.length else .complete octets

theorem Body.within_complete {max : Nat} {octets whole : Octets} :
    Body.within max octets = .complete whole ↔ octets = whole ∧ whole.length ≤ max := by
  unfold Body.within
  constructor
  · intro h
    split at h
    · cases h
    · next fits =>
      obtain rfl := Body.complete.inj h
      exact ⟨rfl, Nat.le_of_not_lt fits⟩
  · rintro ⟨rfl, fits⟩
    exact if_neg (Nat.not_lt.2 fits)

/-- the rest of a body, from the beginning of a line or from its middle on -/
def splitBodyFrom (atStart : Bool) (bs : Octets) : Option (Octets × Octets) :=
  if atStart then splitBody bs
  else if endsLine (splitLine bs).1 then (splitBody (splitLine bs).2).map fun r => ((splitLine bs).1 ++ r.1, r.2)
  else none

/-- a line that is a full stop is short and has an end -/
theorem isTerminator_iff {bs : Octets} : isTerminator bs = true ↔
    bs = [Octets.dot, Octets.cr, Octets.lf] ∨ bs = [Octets.dot, Octets.lf] := by simp [isTerminator]

theorem unstuff_append {piece : Octets} (h : piece ≠ []) (atStart : Bool) (rest : Octets) :
    unstuff atStart (piece ++ rest) = unstuff atStart piece ++ rest := by
  cases piece with
  | nil => exact absurd rfl h
  | cons b bs =>
    rw [List.cons_append, unstuff, unstuff]
    split <;> rfl

/-- a piece at the start of a line that is a full stop ends the body -/
theorem splitBodyFrom_ended {bs : Octets} {atStart : Bool}
    (ended : (atStart && isTerminator (cutLine bodyPieceLimit bs).1) = true) :
    splitBodyFrom atStart bs = some ([], (cutLine bodyPieceLimit bs).2) := by
  obtain ⟨rfl, terminator⟩ := Bool.and_eq_true_iff.1 ended
  have ends : endsLine (cutLine bodyPieceLimit bs).1 = true := by
    rcases isTerminator_iff.1 terminator with h | h <;> rw [h] <;> rfl
  have first := splitLine_cut bodyPieceLimit bs
  rw [if_pos ends] at first
  rw [splitBodyFrom, if_pos rfl, splitBody, first, dif_pos ends, if_pos terminator]

/-- in the middle of a line nothing is taken away -/
theorem unstuff_middle (piece : Octets) : unstuff false piece = piece := by cases piece <;> rfl

/-- what is as long as a piece of a body may be is no full stop by itself -/
theorem isTerminator_of_long {bs : Octets} (long : bodyPieceLimit ≤ bs.length) : isTerminator bs = false := by
  rw [← Bool.not_eq_true, isTerminator_iff]
  rintro (rfl | rfl) <;> exact absurd long (by decide)

/-- any other piece that ends its line is part of the body, and a line begins after it -/
theorem splitBodyFrom_line {bs : Octets} {atStart : Bool} (ends : endsLine (cutLine bodyPieceLimit bs).1 = true)
    (goes_on : (atStart && isTerminator (cutLine bodyPieceLimit bs).1) = false) : splitBodyFrom atStart bs
      = (splitBody (cutLine bodyPieceLimit bs).2).map fun r =>
        (unstuff atStart (cutLine bodyPieceLimit bs).1 ++ r.1, r.2) := by
  have first := splitLine_cut bodyPieceLimit bs
  rw [if_pos ends] at first
  cases atStart with
  | true =>
    have other : ¬isTerminator (cutLine bodyPieceLimit bs).1 = true := by simpa using goes_on
    rw [splitBodyFrom, if_pos rfl, splitBody, first, dif_pos ends, if_neg other]
  | false => rw [splitBodyFrom, if_neg Bool.false_ne_true, first, if_pos ends, unstuff_middle]

/-- a piece that ends no line is part of the body, and its line goes on after it -/
theorem splitBodyFrom_part {bs : Octets} {atStart : Bool} (some_octets : (cutLine bodyPieceLimit bs).1 ≠ [])
    (ends : endsLine (cutLine bodyPieceLimit bs).1 = false)
    (whole : isWhole bodyPieceLimit (cutLine bodyPieceLimit bs).1 = true ∨ cutLine bodyPieceLimit bs = (bs, [])) :
    splitBodyFrom atStart bs = (splitBodyFrom false (cutLine bodyPieceLimit bs).2).map fun r =>
      (unstuff atStart (cutLine bodyPieceLimit bs).1 ++ r.1, r.2) := by
  have first := splitLine_cut bodyPieceLimit bs
  rw [ends, if_neg Bool.false_ne_true] at first
  have ended := endsLine_append_of_not ends (splitLine (cutLine bodyPieceLimit bs).2).1
  rw [splitBodyFrom, splitBodyFrom, if_neg Bool.false_ne_true]
  cases hl : endsLine (splitLine (cutLine bodyPieceLimit bs).2).1 with
  | false =>
    rw [hl] at ended
    rw [if_neg Bool.false_ne_true, splitBody, first]
    cases atStart <;> simp [ended]
  | true =>
    -- the piece is longer than a full stop, since more of the line comes after it
    have long : bodyPieceLimit ≤ (cutLine bodyPieceLimit bs).1.length := by
      rcases whole with whole | all
      · simpa [isWhole, ends] using whole
      · rw [all] at hl
        cases hl
    have other : isTerminator ((cutLine bodyPieceLimit bs).1 ++ (splitLine (cutLine bodyPieceLimit bs).2).1) = false :=
      isTerminator_of_long (Nat.le_trans long (by rw [List.length_append]; exact Nat.le_add_right _ _))
    rw [hl] at ended
    rw [if_pos rfl, Option.map_map]
    cases atStart with
    | true =>
      rw [if_pos rfl, splitBody, first, dif_pos ended, if_neg (by simp [other])]
      congr 1
      funext r
      simp [unstuff_append some_octets]
    | false =>
      rw [if_neg Bool.false_ne_true, first, if_pos ended]
      congr 1
      funext r
      simp [unstuff_middle]

/-- any piece but a full stop by itself is part of the body -/
theorem splitBodyFrom_piece {bs : Octets} {atStart : Bool} (some_octets : (cutLine bodyPieceLimit bs).1 ≠ [])
    (whole : isWhole bodyPieceLimit (cutLine bodyPieceLimit bs).1 = true ∨ cutLine bodyPieceLimit bs = (bs, []))
    (goes_on : (atStart && isTerminator (cutLine bodyPieceLimit bs).1) = false) : splitBodyFrom atStart bs
      = (splitBodyFrom (endsLine (cutLine bodyPieceLimit bs).1) (cutLine bodyPieceLimit bs).2).map fun r =>
        (unstuff atStart (cutLine bodyPieceLimit bs).1 ++ r.1, r.2) := by
  cases ends : endsLine (cutLine bodyPieceLimit bs).1 with
  | true => rw [splitBodyFrom_line ends goes_on, splitBodyFrom, if_pos rfl]
  | false => exact splitBodyFrom_part some_octets ends whole

/-! ## Pieces -/

namespace Source

/-- the octets that come before a reader that begins `now` notices the end of the stream -/
def there (now : Instant) (s : Source) : Octets := timely (s.noticed? now) s.arrivals

/-- how the stream has ended for a reader that has read all that is there, if it notices that at all -/
def ending? (now : Instant) (s : Source) : Option Ending := (s.noticed? now).map fun t => endingAt t s.halts

/-- **A piece is cut off what is there.** Where that is no whole piece, it depends on how the stream has ended. -/
theorem piece_there (limit : Nat) (now : Instant) (s : Source) :
    (s.piece limit now).value = (if isWhole limit (cutLine limit (s.there now)).1 then
        some (.ok (cutLine limit (s.there now)).1)
      else (s.ending? now).map fun e => match e with
        | .closed => .ok (cutLine limit (s.there now)).1
        | .failure f => .error f) ∧
    (s.piece limit now).rest.there now = (cutLine limit (s.there now)).2 ∧
    (s.piece limit now).rest.halts = s.halts := by
  obtain ⟨piece, left, whole⟩ := gather_timely limit (s.noticed? now) s.arrivals
  have halts : (s.piece limit now).rest.halts = s.halts := by
    unfold Source.piece
    dsimp only
    split
    · rfl
    · split
      · rfl
      · split <;> rfl
  refine ⟨?_, ?_, halts⟩
  · unfold Source.piece there ending?
    dsimp only
    rw [whole, piece]
    split
    · rfl
    · cases s.noticed? now with
      | none => rfl
      | some t =>
        dsimp only
        cases he : endingAt t s.halts <;> simp [he]
  · have noticed : (s.piece limit now).rest.noticed? now = s.noticed? now := by rw [noticed?, halts, noticed?]
    rw [there, noticed, arrivals_piece]
    exact left

theorem piece_ending (limit : Nat) (now : Instant) (s : Source) :
    (s.piece limit now).rest.ending? now = s.ending? now := by
  have halts := (piece_there limit now s).2.2
  rw [ending?, ending?, noticed?, noticed?, halts]

/-- where no octets can be read, the last line has no end and is shorter than a piece -/
theorem piece_stuck {limit : Nat} (some_limit : limit ≠ 0) {now : Instant} {s : Source}
    (h : ∀ piece, (s.piece limit now).value = some (.ok piece) → piece = []) :
    splitLine (s.there now) = (s.there now, []) ∧ endsLine (s.there now) = false ∧
      cutLine limit (s.there now) = (s.there now, []) ∧
      (s.piece limit now).value = (s.ending? now).map fun e => match e with
        | .closed => .ok (s.there now)
        | .failure f => .error f := by
  have value := (piece_there limit now s).1
  have short : isWhole limit (cutLine limit (s.there now)).1 = false := by
    rw [← Bool.not_eq_true]
    intro whole
    rw [if_pos whole] at value
    rw [h _ value] at whole
    have long : limit ≤ 0 := by simpa [isWhole, endsLine] using whole
    exact some_limit (Nat.le_zero.1 long)
  have cut := cutLine_short short
  rw [cut] at short value
  have not_ended : endsLine (s.there now) = false := (Bool.or_eq_false_iff.1 short).1
  refine ⟨?_, not_ended, cut, ?_⟩
  · rw [splitLine_cut limit, cut, not_ended]
    simp [splitLine]
  · rw [short] at value
    exact value

/-- a piece that is read is cut off what is there; it is whole, or the stream is closed after it -/
theorem piece_ok {limit : Nat} {now : Instant} {s : Source} {piece : Octets}
    (h : (s.piece limit now).value = some (.ok piece)) : piece = (cutLine limit (s.there now)).1 ∧
      (isWhole limit piece = true ∨
        isWhole limit piece = false ∧ cutLine limit (s.there now) = (s.there now, []) ∧
          s.ending? now = some .closed) := by
  have value := (piece_there limit now s).1
  rw [h] at value
  split at value
  · next whole =>
    obtain rfl := Except.ok.inj (Option.some.inj value)
    exact ⟨rfl, .inl whole⟩
  · next short =>
    obtain ⟨e, he, read⟩ := Option.map_eq_some_iff.1 value.symm
    cases e with
    | failure f => cases read
    | closed =>
      obtain rfl := Except.ok.inj read
      have partly := Bool.eq_false_iff.2 short
      exact ⟨rfl, .inr ⟨partly, cutLine_short partly, he⟩⟩

/-! ## Lines -/

/-- what a read without octets is to a reader that needs more: a wait for ever, or a failure -/
def unread : Option (Except IoFailure Octets) → Option ConnectionError
  | none => none
  | some (.error f) => some (.io f)
  | some (.ok _) => some .closed

/-- where no octets can be read, that is for the way in which the stream has ended -/
theorem stuck_error {limit : Nat} (some_limit : limit ≠ 0) {now : Instant} {s : Source}
    (h : ∀ piece, (s.piece limit now).value = some (.ok piece) → piece = []) :
    (s.ending? now).map Ending.error = unread (s.piece limit now).value := by
  rw [(piece_stuck some_limit h).2.2.2]
  cases s.ending? now with
  | none => rfl
  | some e => cases e <;> rfl

/-- the rest of a line is passed over where it ends -/
theorem discardLine_there (now : Instant) (s : Source) :
    (s.discardLine now).value = (if endsLine (splitLine (s.there now)).1 then some (.ok ())
      else ((s.ending? now).map Ending.error).map .error) ∧
    (s.discardLine now).rest.there now = (splitLine (s.there now)).2 ∧
    (s.discardLine now).rest.halts = s.halts := by
  -- where no octets can be read there is no end of the line
  have stuck : ∀ {s : Source} {value : Option (Except IoFailure Octets)}, (s.piece lineLimit now).value = value →
      (∀ piece, value = some (.ok piece) → piece = []) →
      ((unread value).map .error : Option (Except ConnectionError Unit)) = (if endsLine (splitLine (s.there now)).1 then
        some (.ok ()) else ((s.ending? now).map Ending.error).map .error) ∧
      (s.piece lineLimit now).rest.there now = (splitLine (s.there now)).2 ∧
      (s.piece lineLimit now).rest.halts = s.halts := by
    rintro s _ rfl h
    obtain ⟨split, not_ended, cut, -⟩ := piece_stuck (by decide) h
    obtain ⟨-, left, halts⟩ := piece_there lineLimit now s
    rw [split, not_ended, stuck_error (by decide) h, left, cut]
    exact ⟨rfl, rfl, halts⟩
  fun_induction discardLine now s with
  | case1 s r hv => exact stuck hv fun _ none => by cases none
  | case2 s r f hv => exact stuck hv fun _ failed => by cases failed
  | case3 s r hv => exact stuck hv fun _ empty => (Except.ok.inj (Option.some.inj empty)).symm
  | case4 s r b bs hv ends =>
    obtain ⟨-, left, halts⟩ := piece_there lineLimit now s
    have cut := (piece_ok hv).1
    rw [splitLine_cut lineLimit, ← cut, if_pos ends, ← cut, if_pos ends]
    exact ⟨rfl, left, halts⟩
  | case5 s r b bs hv goes_on ih =>
    obtain ⟨-, left, halts⟩ := piece_there lineLimit now s
    have cut := (piece_ok hv).1
    have same := piece_ending lineLimit now s
    have line : endsLine ((b :: bs) ++ (splitLine (cutLine lineLimit (s.there now)).2).1)
        = endsLine (splitLine (cutLine lineLimit (s.there now)).2).1 :=
      endsLine_append_of_not (Bool.eq_false_iff.2 goes_on) _
    rw [left, same] at ih
    rw [splitLine_cut lineLimit, ← cut, if_neg goes_on]
    dsimp only
    rw [line]
    exact ⟨ih.1, ih.2.1, ih.2.2.trans halts⟩

/-- a first piece is taken for its line where it ends that, or is all there is of it -/
theorem lineOfPiece_line {piece : Octets} (h : endsLine piece = true ∨ isWhole lineLimit piece = false) :
    lineOfPiece piece = some (dropLineEnd piece) := by
  refine if_neg ?_
  rcases h with ends | partly
  · simp [ends]
  · obtain ⟨-, short⟩ := Bool.or_eq_false_iff.1 partly
    simp only [short, Bool.and_false, Bool.false_eq_true, not_false_eq_true]

/-- a whole piece that ends no line belongs to a line that is too long -/
theorem lineOfPiece_long {piece : Octets} (whole : isWhole lineLimit piece = true) (ends : endsLine piece = false) :
    lineOfPiece piece = none := by
  refine if_pos ?_
  simpa [isWhole, ends] using whole

/-- where no octets can be read, there is no more of a line than the last one without an end -/
theorem readLine_stuck {now : Instant} {s : Source} {value : Option (Except IoFailure Octets)}
    (hv : (s.piece lineLimit now).value = value) (h : ∀ piece, value = some (.ok piece) → piece = []) :
    (unread value).map .error = firstLine (s.ending? now) (s.there now) ∧
    (s.piece lineLimit now).rest.there now = (splitLine (s.there now)).2 ∧
    (s.piece lineLimit now).rest.halts = s.halts := by
  subst hv
  obtain ⟨-, left, halts⟩ := piece_there lineLimit now s
  obtain ⟨last, not_ended, cut, value⟩ := piece_stuck (by decide) h
  refine ⟨?_, by rw [left, cut, last], halts⟩
  rw [← stuck_error (by decide) h, firstLine_last last not_ended, Option.map_map]
  cases he : s.ending? now with
  | none => rfl
  | some e =>
    cases e with
    | failure f => rfl
    | closed =>
      rw [he] at value
      rw [h _ value]
      rfl

/-- **A command line is the first line of what is there.** -/
theorem readLine_there (now : Instant) (s : Source) :
    (s.readLine now).value = firstLine (s.ending? now) (s.there now) ∧
    (s.readLine now).rest.there now = (splitLine (s.there now)).2 ∧
    (s.readLine now).rest.halts = s.halts := by
  obtain ⟨-, left, halts⟩ := piece_there lineLimit now s
  unfold readLine
  dsimp only
  split
  · next hv => exact readLine_stuck hv nofun
  · next f hv => exact readLine_stuck hv nofun
  · next hv => exact readLine_stuck hv fun _ empty => (Except.ok.inj (Option.some.inj empty)).symm
  · next piece some_octets hv =>
    obtain ⟨rfl, whole⟩ := piece_ok hv
    have first := splitLine_cut lineLimit (s.there now)
    cases ends : endsLine (cutLine lineLimit (s.there now)).1 with
    | true =>
      rw [ends, if_pos rfl] at first
      rw [lineOfPiece_line (.inl ends), firstLine_piece ends, first]
      exact ⟨rfl, left, halts⟩
    | false =>
      rw [ends, if_neg Bool.false_ne_true] at first
      rcases whole with whole | ⟨partly, all, closed⟩
      · -- the line goes on, and is passed over to its end
        have long : lineLimit ≤ (cutLine lineLimit (s.there now)).1.length := by simpa [isWhole, ends] using whole
        obtain ⟨value, after, halts'⟩ := discardLine_there now (s.piece lineLimit now).rest
        rw [left, piece_ending] at value
        rw [left] at after
        rw [lineOfPiece_long whole ends]
        refine ⟨?_, by rw [first]; exact after, halts'.trans halts⟩
        show ((s.piece lineLimit now).rest.discardLine now).value.map _ = _
        rw [value, firstLine_long ends long]
        split
        · rfl
        · rw [Option.map_map]
          rfl
      · rw [all] at partly first ends some_octets left ⊢
        have short : ¬lineLimit ≤ (s.there now).length := by simpa [isWhole, ends] using partly
        have last : splitLine (s.there now) = (s.there now, []) := first.trans (by simp [splitLine])
        have some_there : s.there now ≠ [] := some_octets
        rw [lineOfPiece_line (.inr partly), firstLine_last last ends, closed, last]
        exact ⟨by simp [some_there, Nat.lt_of_not_le short], left, halts⟩

/-! ## Bodies -/

/-- the body that a reader makes of what it has read before and of what is left -/
def bodyOf (max : Nat) (sofar : BodySoFar) (left : Octets) : Body :=
  if max < sofar.received + left.length then .tooLarge (sofar.received + left.length)
  else .complete (sofar.pieces.reverse.flatten ++ left)

theorem bodyOf_nil (max : Nat) (sofar : BodySoFar) : bodyOf max sofar [] = sofar.body max := by
  simp [bodyOf, BodySoFar.body]

theorem bodyOf_add (max : Nat) (sofar : BodySoFar) (piece left : Octets) :
    bodyOf max (sofar.add max piece) left = bodyOf max sofar (unstuff sofar.atStart piece ++ left) := by
  have received : (sofar.add max piece).received = sofar.received + (unstuff sofar.atStart piece).length := rfl
  unfold bodyOf
  rw [received, List.length_append, ← Nat.add_assoc]
  split
  · rfl
  · next fits =>
    have within : sofar.received + (unstuff sofar.atStart piece).length ≤ max := by omega
    have pieces : (sofar.add max piece).pieces = unstuff sofar.atStart piece :: sofar.pieces := if_pos within
    rw [pieces]
    simp

/-- what reading a body comes to: what is made of the octets that are left of it or, where it has no end, the failure to
read on -/
def bodyRead (make : Octets → Body) (ending : Option Ending) (left : Option (Octets × Octets)) :
    Option (Except ConnectionError Body) :=
  match left with
  | some (octets, _) => some (.ok (make octets))
  | none => (ending.map Ending.error).map .error

theorem readBodyFrom_stuck (max : Nat) {now : Instant} {s : Source} (sofar : BodySoFar)
    {value : Option (Except IoFailure Octets)} (hv : (s.piece bodyPieceLimit now).value = value)
    (h : ∀ piece, value = some (.ok piece) → piece = []) :
    (unread value).map .error
      = bodyRead (bodyOf max sofar) (s.ending? now) (splitBodyFrom sofar.atStart (s.there now)) ∧
    (s.piece bodyPieceLimit now).rest.there now
      = ((splitBodyFrom sofar.atStart (s.there now)).map Prod.snd).getD [] ∧
    (s.piece bodyPieceLimit now).rest.halts = s.halts := by
  subst hv
  obtain ⟨last, not_ended, cut, -⟩ := piece_stuck (by decide) h
  obtain ⟨-, left, halts⟩ := piece_there bodyPieceLimit now s
  have none_left : splitBodyFrom sofar.atStart (s.there now) = none := by
    rw [splitBodyFrom, splitBody, last]
    cases sofar.atStart <;> simp [not_ended]
  rw [none_left, ← stuck_error (by decide) h, left, cut]
  exact ⟨rfl, rfl, halts⟩

theorem readBodyFrom_there (max : Nat) (now : Instant) (sofar : BodySoFar) (s : Source) :
    (s.readBodyFrom max now sofar).value
      = bodyRead (bodyOf max sofar) (s.ending? now) (splitBodyFrom sofar.atStart (s.there now)) ∧
    (s.readBodyFrom max now sofar).rest.there now
      = ((splitBodyFrom sofar.atStart (s.there now)).map Prod.snd).getD [] ∧
    (s.readBodyFrom max now sofar).rest.halts = s.halts := by
  fun_induction readBodyFrom max now sofar s with
  | case1 sofar s r hv => exact readBodyFrom_stuck max sofar hv fun _ none => by cases none
  | case2 sofar s r f hv => exact readBodyFrom_stuck max sofar hv fun _ failed => by cases failed
  | case3 sofar s r hv =>
    exact readBodyFrom_stuck max sofar hv fun _ empty => (Except.ok.inj (Option.some.inj empty)).symm
  | case4 sofar s r b bs hv ended =>
    obtain ⟨-, left, halts⟩ := piece_there bodyPieceLimit now s
    have cut := (piece_ok hv).1
    rw [cut] at ended
    rw [splitBodyFrom_ended ended]
    exact ⟨congrArg (some ∘ Except.ok) (bodyOf_nil max sofar).symm, left, halts⟩
  | case5 sofar s r b bs hv goes_on ih =>
    obtain ⟨-, left, halts⟩ := piece_there bodyPieceLimit now s
    obtain ⟨cut, whole⟩ := piece_ok hv
    have same := piece_ending bodyPieceLimit now s
    have some_octets : (cutLine bodyPieceLimit (s.there now)).1 ≠ [] := cut ▸ List.cons_ne_nil b bs
    rw [cut] at goes_on whole
    have split := splitBodyFrom_piece some_octets (whole.imp_right fun h => h.2.1) (Bool.eq_false_iff.2 goes_on)
    have atStart : (sofar.add max (b :: bs)).atStart = endsLine (cutLine bodyPieceLimit (s.there now)).1 := by
      rw [← cut]
      rfl
    rw [left, same, atStart] at ih
    rw [split]
    refine ⟨?_, ?_, ih.2.2.trans halts⟩
    · refine ih.1.trans ?_
      cases splitBodyFrom (endsLine (cutLine bodyPieceLimit (s.there now)).1)
          (cutLine bodyPieceLimit (s.there now)).2 with
      | none => rfl
      | some r =>
        show some (Except.ok (bodyOf max (sofar.add max (b :: bs)) r.1)) = some _
        rw [bodyOf_add, cut]
    · refine ih.2.1.trans ?_
      rw [Option.map_map]
      rfl

/-- **A body is what is meant by the octets that are there,** up to its end. -/
theorem readBody_there (max : Nat) (now : Instant) (s : Source) :
    (s.readBody max now).value = bodyRead (Body.within max) (s.ending? now) (splitBody (s.there now)) ∧
    (s.readBody max now).rest.there now = ((splitBody (s.there now)).map Prod.snd).getD [] ∧
    (s.readBody max now).rest.halts = s.halts := by
  have read := readBodyFrom_there max now .initial s
  have whole : splitBodyFrom BodySoFar.initial.atStart (s.there now) = splitBody (s.there now) := if_pos rfl
  have body : bodyOf max .initial = Body.within max := by
    funext left
    simp [bodyOf, Body.within, BodySoFar.initial]
  rw [whole, body] at read
  exact read

end Source

end LmtpRelay
