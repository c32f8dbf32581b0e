/-
Message bodies on the wire. A body that is read whole is empty or ends with a line feed (`readBody_whole`), so it can
be ended by a full stop on a line of its own. Stuffing works octet by octet, so it does not matter how a body is cut
when it is written (`stuff_append`), and a reader of the stuffed body finds the same pieces, each with a full stop in
front of it where one was added (`cutLine_stuff`). It follows that a body comes back as it was, with nothing of what
is written after it: `readBody_stuffed`.
-/
import Mathlib
import LmtpRelay.Downstream.Stuffing
import LmtpRelay.Wire.Body

namespace LmtpRelay

/-! ## Lines -/

theorem endsLine_append {bs : Octets} (h : bs ≠ []) (before : Octets) : endsLine (before ++ bs) = endsLine bs := by
  unfold endsLine
  rw [List.getLast?_append, List.getLast?_eq_some_getLast h]
  rfl

theorem endsLine_cons (b : UInt8) {bs : Octets} (h : bs ≠ []) : endsLine (b :: bs) = endsLine bs :=
  endsLine_append h [b]

theorem cutLine_line {limit : Nat} {line : Octets} (h : Octets.lf ∉ line) (short : line.length < limit)
    (rest : Octets) : cutLine limit (line ++ Octets.lf :: rest) = (line ++ [Octets.lf], rest) := by
  induction line generalizing limit with
  | nil =>
    obtain ⟨n, rfl⟩ := Nat.exists_eq_add_one_of_ne_zero (Nat.ne_of_gt short)
    rfl
  | cons b line ih =>
    obtain ⟨n, rfl⟩ := Nat.exists_eq_add_one_of_ne_zero (Nat.ne_of_gt (Nat.zero_lt_of_lt short))
    have hb : b ≠ Octets.lf := fun e => h (e ▸ List.mem_cons_self)
    have cut : cutLine n (line ++ Octets.lf :: rest) = (line ++ [Octets.lf], rest) :=
      ih (fun hm => h (List.mem_cons_of_mem b hm)) (Nat.lt_of_succ_lt_succ short)
    simp only [List.cons_append, cutLine, hb, if_false, cut]

/-! ## Bodies that are read -/

/-- a body that a line with a full stop can end: it is empty, or its last line is ended -/
def IsWhole (body : Octets) : Prop := body = [] ∨ endsLine body = true

/-- what is kept of a body while it is within its limit -/
def BodySoFar.Keeps (max : Nat) (b : BodySoFar) : Prop :=
  b.received ≤ max →
    b.pieces.reverse.flatten.length = b.received ∧ (b.atStart = true → IsWhole b.pieces.reverse.flatten)

/-- where a piece ends a line and is not the end of the body, the octets that are kept of it end the line too -/
theorem endsLine_unstuff {atStart : Bool} {piece : Octets} (h : endsLine piece = true)
    (goes_on : (atStart && isTerminator piece) = false) : endsLine (unstuff atStart piece) = true := by
  cases piece with
  | nil => exact h
  | cons b bs =>
    unfold unstuff
    dsimp only
    split
    · next stuffed =>
      have rest : bs ≠ [] := by
        rintro rfl
        simp [endsLine] at h
        simp [h, Octets.lf, Octets.dot] at stuffed
      rw [← endsLine_cons b rest]
      exact h
    · exact h

theorem BodySoFar.Keeps.add {max : Nat} {b : BodySoFar} (h : b.Keeps max) {piece : Octets}
    (goes_on : (b.atStart && isTerminator piece) = false) : (b.add max piece).Keeps max := by
  intro within
  have received : b.received + (unstuff b.atStart piece).length ≤ max := within
  obtain ⟨length, -⟩ := h (Nat.le_trans (Nat.le_add_right _ _) received)
  have pieces : (b.add max piece).pieces = unstuff b.atStart piece :: b.pieces := if_pos received
  have body : (b.add max piece).pieces.reverse.flatten = b.pieces.reverse.flatten ++ unstuff b.atStart piece := by
    rw [pieces]
    simp
  rw [body]
  refine ⟨?_, fun atStart => .inr ?_⟩
  · rw [List.length_append, length]
    rfl
  · have line := endsLine_unstuff atStart goes_on
    rw [endsLine_append ?_]
    · exact line
    · intro nothing
      rw [nothing] at line
      cases line

namespace Source

theorem readBodyFrom_whole {max : Nat} {now : Instant} {sofar : BodySoFar} {s : Source} (h : sofar.Keeps max)
    {octets : Octets} (read : (s.readBodyFrom max now sofar).value = some (.ok (.complete octets))) :
    IsWhole octets ∧ octets.length ≤ max := by
  fun_induction readBodyFrom max now sofar s with
  | case4 sofar s r b bs hv ended =>
    obtain ⟨atStart, -⟩ := Bool.and_eq_true_iff.1 ended
    have body : sofar.body max = .complete octets := Except.ok.inj (Option.some.inj read)
    unfold BodySoFar.body at body
    split at body
    · cases body
    · next within =>
      obtain rfl := Body.complete.inj body
      obtain ⟨length, whole⟩ := h (Nat.le_of_not_lt within)
      exact ⟨whole atStart, length ▸ Nat.le_of_not_lt within⟩
  | case5 sofar s r b bs hv goes_on ih => exact ih (h.add (Bool.eq_false_iff.2 goes_on)) read
  | _ => cases read

/-- **A body that was read whole is empty or ends with a line feed, and is no larger than allowed.** -/
theorem readBody_whole {max : Nat} {now : Instant} {s : Source} {octets : Octets}
    (read : (s.readBody max now).value = some (.ok (.complete octets))) : IsWhole octets ∧ octets.length ≤ max :=
  readBodyFrom_whole (fun _ => ⟨rfl, fun _ => .inl rfl⟩) read

end Source

/-! ## Stuffing -/

theorem stuff_append (atStart : Bool) (a b : Octets) : stuff atStart (a ++ b)
    = ((stuff atStart a).1 ++ (stuff (stuff atStart a).2 b).1, (stuff (stuff atStart a).2 b).2) := by
  induction a generalizing atStart with
  | nil => rfl
  | cons x a ih =>
    rw [List.cons_append, stuff, stuff, ih]
    dsimp only
    split <;> rfl

/-- after a body a line begins where the body ends one -/
theorem stuff_whole {body : Octets} (h : IsWhole body) : (stuff true body).2 = true := by
  have last : ∀ {atStart : Bool} {bs : Octets}, endsLine bs = true → (stuff atStart bs).2 = true := by
    intro atStart bs hb
    induction bs generalizing atStart with
    | nil => cases hb
    | cons b bs ih =>
      cases bs with
      | nil => simpa [endsLine, stuff] using hb
      | cons c cs =>
        rw [endsLine_cons b (List.cons_ne_nil c cs)] at hb
        exact @ih (decide (b = Octets.lf)) hb
  rcases h with rfl | h
  · rfl
  · exact last h

/-- in the middle of a line a full stop is not doubled -/
theorem stuff_cons_ne {b : UInt8} (h : b ≠ Octets.lf) (bs : Octets) :
    (stuff false (b :: bs)).1 = b :: (stuff false bs).1 := by
  simp [stuff, h]

/-- whether a full stop is put in front -/
def isDotted (atStart : Bool) (bs : Octets) : Bool := atStart && bs.head? = some Octets.dot

/-- what is written of a body is what would be written in the middle of a line, after a full stop if there has to be
one -/
theorem stuff_eq (atStart : Bool) (bs : Octets) :
    (stuff atStart bs).1 = (if isDotted atStart bs then [Octets.dot] else []) ++ (stuff false bs).1 := by
  cases bs with
  | nil => cases atStart <;> rfl
  | cons b bs =>
    cases atStart with
    | false => rfl
    | true =>
      by_cases hb : b = Octets.dot
      · simp [stuff, isDotted, hb]
      · simp [stuff, isDotted, hb]

/-- **A piece of a stuffed body is a piece of the body.** In the middle of a line nothing is put before the line feed,
so a reader cuts what is written where it would cut the body. -/
theorem cutLine_stuff (limit : Nat) {body : Octets} (h : endsLine body = true) (rest : Octets) :
    cutLine limit ((stuff false body).1 ++ rest) = ((cutLine limit body).1,
      (stuff (endsLine (cutLine limit body).1) (cutLine limit body).2).1 ++ rest) := by
  induction body generalizing limit with
  | nil => cases h
  | cons b body ih =>
    cases limit with
    | zero => rfl
    | succ n =>
      by_cases hb : b = Octets.lf
      · subst hb
        simp [stuff, cutLine, endsLine, Octets.lf, Octets.dot]
      · have more : body ≠ [] := by
          rintro rfl
          simp [endsLine, hb] at h
        rw [endsLine_cons b more] at h
        have cut := ih n h
        have line : endsLine (b :: (cutLine n body).1) = endsLine (cutLine n body).1 := by
          cases (cutLine n body).1 with
          | nil => simp [endsLine, hb]
          | cons c cs => exact endsLine_cons b (List.cons_ne_nil c cs)
        rw [stuff_cons_ne hb, List.cons_append, cutLine, if_neg hb, cut, cutLine, if_neg hb]
        dsimp only
        rw [line]

/-! ## Reading a stuffed body -/

/-- a piece of a body as it stands in what is written -/
def dotted (atStart : Bool) (piece : Octets) : Octets :=
  (if isDotted atStart piece then [Octets.dot] else []) ++ piece

theorem unstuff_dotted (atStart : Bool) (piece : Octets) : unstuff atStart (dotted atStart piece) = piece := by
  cases atStart with
  | false => cases piece <;> rfl
  | true =>
    cases piece with
    | nil => rfl
    | cons b bs =>
      by_cases hb : b = Octets.dot
      · simp [dotted, isDotted, unstuff, hb]
      · simp [dotted, isDotted, unstuff, hb]

theorem endsLine_dotted (atStart : Bool) (piece : Octets) : endsLine (dotted atStart piece) = endsLine piece := by
  cases piece with
  | nil => cases atStart <;> rfl
  | cons b bs => exact endsLine_append (List.cons_ne_nil b bs) _

/-- no piece of a body is taken for its end -/
theorem dotted_not_terminator (atStart : Bool) (piece : Octets) :
    (atStart && isTerminator (dotted atStart piece)) = false := by
  cases atStart with
  | false => rfl
  | true =>
    cases piece with
    | nil => rfl
    | cons b bs =>
      by_cases hb : b = Octets.dot
      · simp [dotted, isDotted, isTerminator, hb, Octets.dot, Octets.cr, Octets.lf]
      · simp [dotted, isDotted, isTerminator, hb]

/-- the first piece of a stuffed body, and what is left of the body -/
theorem cutLine_stuffed (atStart : Bool) {body : Octets} (h : endsLine body = true) (tail : Octets) :
    ∃ piece rest, body = piece ++ rest ∧ piece ≠ [] ∧ (rest = [] ∧ endsLine piece = true ∨ endsLine rest = true) ∧
      cutLine bodyPieceLimit ((stuff atStart body).1 ++ tail)
        = (dotted atStart piece, (stuff (endsLine piece) rest).1 ++ tail) := by
  have first : ∀ n, isDotted atStart (cutLine (n + 1) body).1 = isDotted atStart body := by
    intro n
    cases body with
    | nil => cases h
    | cons b bs =>
      unfold cutLine
      split <;> rfl
  have some_octets : ∀ n, (cutLine (n + 1) body).1 ≠ [] := by
    intro n
    cases body with
    | nil => cases h
    | cons b bs =>
      unfold cutLine
      split <;> exact List.cons_ne_nil _ _
  have left : ∀ n, (cutLine n body).2 = [] ∧ endsLine (cutLine n body).1 = true ∨
      endsLine (cutLine n body).2 = true := by
    intro n
    have parts := cutLine_append n body
    rcases hr : (cutLine n body).2 with _ | ⟨c, cs⟩
    · rw [hr, List.append_nil] at parts
      exact .inl ⟨rfl, by rw [parts]; exact h⟩
    · rw [hr] at parts
      refine .inr ?_
      rw [← endsLine_append (List.cons_ne_nil c cs) (cutLine n body).1, parts]
      exact h
  rw [stuff_eq]
  cases hd : isDotted atStart body with
  | false =>
    refine ⟨_, _, (cutLine_append bodyPieceLimit body).symm, some_octets 8191, left _, ?_⟩
    have same : isDotted atStart (cutLine bodyPieceLimit body).1 = isDotted atStart body := first 8191
    rw [dotted, same, hd]
    exact cutLine_stuff bodyPieceLimit h tail
  | true =>
    -- the full stop in front counts as an octet of the piece
    refine ⟨_, _, (cutLine_append 8191 body).symm, some_octets 8190, left _, ?_⟩
    have cut : cutLine bodyPieceLimit (Octets.dot :: ((stuff false body).1 ++ tail))
        = (Octets.dot :: (cutLine 8191 ((stuff false body).1 ++ tail)).1,
          (cutLine 8191 ((stuff false body).1 ++ tail)).2) := rfl
    rw [dotted, first 8190, hd, if_pos rfl, List.append_assoc]
    refine cut.trans ?_
    rw [cutLine_stuff 8191 h tail]
    rfl

namespace Source

/-- a stream of which all is there -/
def plain (bs : Octets) : Source := ⟨[⟨0, bs⟩], []⟩

theorem plain_octets (bs : Octets) : (plain bs).octets = bs := List.append_nil bs

theorem piece_plain {limit : Nat} {bs : Octets}
    (whole : (endsLine (cutLine limit bs).1 || decide (limit ≤ (cutLine limit bs).1.length)) = true) (now : Instant) :
    (plain bs).piece limit now = ⟨some (.ok (cutLine limit bs).1), 0, plain (cutLine limit bs).2⟩ := by
  have gathered : gather limit none [⟨0, bs⟩]
      = ⟨(cutLine limit bs).1, true, 0, [⟨0, (cutLine limit bs).2⟩]⟩ := by
    unfold gather
    dsimp only
    rw [if_neg (by simp [Arrival.isLate]), if_pos whole]
  unfold piece
  rw [show (plain bs).noticed? now = none from rfl, show (plain bs).arrivals = [⟨0, bs⟩] from rfl, gathered]
  rfl

theorem readBodyFrom_ended {now : Instant} {s : Source} {piece : Octets} (max : Nat) (sofar : BodySoFar)
    (h : (s.piece bodyPieceLimit now).value = some (.ok piece))
    (ended : (sofar.atStart && isTerminator piece) = true) : s.readBodyFrom max now sofar
      = ⟨some (.ok (sofar.body max)), (s.piece bodyPieceLimit now).ready, (s.piece bodyPieceLimit now).rest⟩ := by
  rw [readBodyFrom]
  split <;> simp_all [isTerminator]

theorem readBodyFrom_goes_on {now : Instant} {s : Source} {piece : Octets} (max : Nat) (sofar : BodySoFar)
    (h : (s.piece bodyPieceLimit now).value = some (.ok piece)) (some_octets : piece ≠ [])
    (goes_on : (sofar.atStart && isTerminator piece) = false) : s.readBodyFrom max now sofar
      = ((s.piece bodyPieceLimit now).rest.readBodyFrom max now (sofar.add max piece)).after
        (s.piece bodyPieceLimit now).ready := by
  rw [readBodyFrom]
  split <;> simp_all

/-- where nothing of a body is left, the reader comes to its end -/
theorem readBodyFrom_terminator {max : Nat} (now : Instant) (rest : Octets) {sofar : BodySoFar}
    (atStart : sofar.atStart = true) (fits : sofar.received ≤ max) :
    ((plain (terminator true ++ rest)).readBodyFrom max now sofar).value
        = some (.ok (.complete sofar.pieces.reverse.flatten)) ∧
      ((plain (terminator true ++ rest)).readBodyFrom max now sofar).rest = plain rest := by
  have inside : Octets.lf ∉ [Octets.dot, Octets.cr] := by decide
  have cut : cutLine bodyPieceLimit (terminator true ++ rest) = (terminator true, rest) :=
    cutLine_line inside (by decide) rest
  have piece : (plain (terminator true ++ rest)).piece bodyPieceLimit now
      = ⟨some (.ok (terminator true)), 0, plain rest⟩ := by
    rw [piece_plain (by rw [cut]; rfl), cut]
  have body : sofar.body max = .complete sofar.pieces.reverse.flatten := if_neg (Nat.not_lt.2 fits)
  rw [readBodyFrom_ended max sofar (congrArg Read.value piece) (by rw [atStart]; rfl), piece, body]
  exact ⟨rfl, rfl⟩

theorem readBodyFrom_piece {max : Nat} (now : Instant) {sofar : BodySoFar} {bs first later : Octets}
    (some_octets : first ≠ []) (cut : cutLine bodyPieceLimit bs = (dotted sofar.atStart first, later))
    (some_later : later ≠ []) : (plain bs).readBodyFrom max now sofar
      = ((plain later).readBodyFrom max now (sofar.add max (dotted sofar.atStart first))).after 0 := by
  have some_left : (cutLine bodyPieceLimit bs).2 ≠ [] := by
    rw [cut]
    exact some_later
  have piece := piece_plain (whole_of_cutLine_rest _ _ some_left) now
  have octets : dotted sofar.atStart first ≠ [] := by
    intro nothing
    exact some_octets (List.append_eq_nil_iff.1 nothing).2
  rw [cut] at piece
  rw [readBodyFrom_goes_on max sofar (congrArg Read.value piece) octets (dotted_not_terminator _ _), piece]

theorem readBodyFrom_stuffed {max : Nat} (now : Instant) (rest : Octets) {body : Octets} (sofar : BodySoFar)
    (whole : body = [] ∧ sofar.atStart = true ∨ endsLine body = true) (fits : sofar.received + body.length ≤ max) :
    ((plain ((stuff sofar.atStart body).1 ++ (terminator true ++ rest))).readBodyFrom max now sofar).value
        = some (.ok (.complete (sofar.pieces.reverse.flatten ++ body))) ∧
      ((plain ((stuff sofar.atStart body).1 ++ (terminator true ++ rest))).readBodyFrom max now sofar).rest
        = plain rest := by
  -- the induction is on what is left of the body; what was read before is any that leaves room for it
  induction hn : body.length using Nat.strongRecOn generalizing body sofar with
  | _ n ih =>
    rcases whole with ⟨rfl, atStart⟩ | line
    · rw [List.append_nil]
      exact readBodyFrom_terminator now rest atStart fits
    · obtain ⟨first, left, rfl, some_octets, whole, cut⟩ :=
        cutLine_stuffed sofar.atStart line (terminator true ++ rest)
      have some_later : (stuff (endsLine first) left).1 ++ (terminator true ++ rest) ≠ [] := by
        simp [terminator]
      rw [List.length_append] at fits hn
      have added : sofar.add max (dotted sofar.atStart first)
          = ⟨endsLine first, sofar.received + first.length, first :: sofar.pieces⟩ := by
        rw [BodySoFar.add, unstuff_dotted, endsLine_dotted, if_pos (by omega)]
      have shorter : left.length < n := by
        have := List.length_pos_iff.2 some_octets
        omega
      obtain ⟨value, after⟩ := ih left.length shorter
        ⟨endsLine first, sofar.received + first.length, first :: sofar.pieces⟩ whole (by dsimp only; omega) rfl
      rw [readBodyFrom_piece now some_octets cut some_later, added]
      refine ⟨value.trans ?_, after⟩
      simp

/-- **A body comes back as it was sent,** whatever its lines are, and what is written after it is left to read. -/
theorem readBody_stuffed {max : Nat} (now : Instant) {body : Octets} (whole : IsWhole body)
    (fits : body.length ≤ max) (rest : Octets) :
    ((plain ((stuff true body).1 ++ (terminator true ++ rest))).readBody max now).value
        = some (.ok (.complete body)) ∧
      ((plain ((stuff true body).1 ++ (terminator true ++ rest))).readBody max now).rest = plain rest := by
  have begun : body = [] ∧ BodySoFar.initial.atStart = true ∨ endsLine body = true :=
    whole.imp_left fun empty => ⟨empty, rfl⟩
  exact readBodyFrom_stuffed now rest .initial begun (by simpa [BodySoFar.initial] using fits)

end Source
end LmtpRelay
