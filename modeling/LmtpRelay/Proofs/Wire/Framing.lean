/-
What is read off the front of a stream. Lines and bodies end where their octets say so, so what is read does not depend
on what comes after it: `firstLine_front`, `splitBody_front`. Where octets come in order and the stream ends in one way,
a read takes octets off the front, and is ready when the last of them is there or, where they have no end, when the end
of the stream is noticed: `WholeTill.readLine_ready`, `WholeTill.readBody_ready`. So what two streams begin with alike is
read off both at the same moments: `WholeTill.readLine_meets`, `WholeTill.readBody_meets`.
-/
import LmtpRelay.Proofs.Wire.Cutting

namespace LmtpRelay

/-! ## Octets -/

theorem endsLine_splitLine {bs : Octets} (h : endsLine bs = true) : endsLine (splitLine bs).1 = true := by
  by_contra open_end
  have last := splitLine_last (Bool.eq_false_iff.2 open_end)
  apply open_end
  rw [last]
  exact h

/-- a line that has an end is the first line, whatever comes after -/
theorem splitLine_front {front : Octets} (h : endsLine (splitLine front).1 = true) (rest : Octets) :
    splitLine (front ++ rest) = ((splitLine front).1, (splitLine front).2 ++ rest) := by
  induction front with
  | nil => cases h
  | cons b bs ih =>
    rw [List.cons_append, splitLine, splitLine]
    rw [splitLine] at h
    by_cases hb : b = Octets.lf
    · rw [if_pos hb, if_pos hb]
    · rw [if_neg hb] at h
      rw [if_neg hb, if_neg hb, ih ((endsLine_cons_of_ne hb _).symm.trans h)]

theorem firstLine_front {front : Octets} (h : endsLine (splitLine front).1 = true) (rest : Octets)
    (ending : Option Ending) : firstLine ending (front ++ rest) = firstLine ending front := by
  unfold firstLine
  rw [splitLine_front h, if_pos h, if_pos h]

theorem splitLine_fronts {front later later' : Octets} (lines : endsLine front = true ∨ later = [] ∧ later' = []) :
    (splitLine (front ++ later')).1 = (splitLine (front ++ later)).1 ∧
      (splitLine (front ++ later)).1.length ≤ front.length := by
  have part : (splitLine front).1.length ≤ front.length := by
    have all := congrArg List.length (splitLine_append front)
    rw [List.length_append] at all
    omega
  rcases lines with ends | ⟨rfl, rfl⟩
  · have ends := endsLine_splitLine ends
    rw [splitLine_front ends, splitLine_front ends]
    exact ⟨rfl, part⟩
  · rw [List.append_nil]
    exact ⟨rfl, part⟩

theorem splitLine_line (bs : Octets) : splitLine (splitLine bs).1 = ((splitLine bs).1, []) := by
  induction bs with
  | nil => rfl
  | cons b bs ih =>
    rw [splitLine]
    by_cases hb : b = Octets.lf
    · rw [if_pos hb, splitLine, if_pos hb]
    · rw [if_neg hb]
      dsimp only
      rw [splitLine, if_neg hb, ih]

/-- a body that has an end is the same, whatever comes after -/
theorem splitBody_front {bs octets left : Octets} (h : splitBody bs = some (octets, left)) :
    ∃ front, bs = front ++ left ∧ endsLine front = true ∧ ∀ rest, splitBody (front ++ rest) = some (octets, rest) := by
  have line : ∀ {bs : Octets}, endsLine (splitLine bs).1 = true → ∀ rest,
      splitLine ((splitLine bs).1 ++ rest) = ((splitLine bs).1, rest) := by
    intro bs ends rest
    have alone := splitLine_line bs
    rw [splitLine_front (by rw [alone]; exact ends), alone, List.nil_append]
  fun_induction splitBody bs generalizing octets with
  | case1 bs ends terminator =>
    obtain ⟨rfl, rfl⟩ := Prod.mk.inj (Option.some.inj h)
    refine ⟨(splitLine bs).1, (splitLine_append bs).symm, ends, fun rest => ?_⟩
    rw [splitBody, line ends, dif_pos ends, if_pos terminator]
  | case2 bs ends goes_on ih =>
    obtain ⟨⟨octets', left'⟩, body, same⟩ := Option.map_eq_some_iff.1 h
    obtain ⟨rfl, rfl⟩ := Prod.mk.inj same
    obtain ⟨front, split, ended, others⟩ := ih body
    refine ⟨(splitLine bs).1 ++ front, ?_, ?_, fun rest => ?_⟩
    · rw [List.append_assoc, ← split, splitLine_append]
    · rw [endsLine_append (by rintro rfl; cases ended)]
      exact ended
    · rw [List.append_assoc, splitBody, line ends, dif_pos ends, if_neg goes_on, others]
      rfl
  | case3 bs open_end => cases h

/-! ## Moments -/

def latest (octets : List (Instant × UInt8)) : Instant := (octets.map Prod.fst).foldr max 0

@[simp] theorem latest_nil : latest [] = 0 := rfl

@[simp] theorem latest_cons (o : Instant × UInt8) (os : List (Instant × UInt8)) :
    latest (o :: os) = max o.1 (latest os) := rfl

@[simp] theorem latest_append (os os' : List (Instant × UInt8)) :
    latest (os ++ os') = max (latest os) (latest os') := by
  induction os with
  | nil => simp
  | cons o os ih => simp [ih, Nat.max_assoc]

theorem latest_mem {os : List (Instant × UInt8)} (some_octets : os ≠ []) : ∃ o ∈ os, o.1 = latest os := by
  induction os with
  | nil => exact absurd rfl some_octets
  | cons o os ih =>
    rcases Nat.le_total (latest os) o.1 with before | after
    · exact ⟨o, List.mem_cons_self, (Nat.max_eq_left before).symm⟩
    · by_cases alone : os = []
      · refine ⟨o, List.mem_cons_self, ?_⟩
        rw [alone, latest_cons, latest_nil, Nat.max_zero]
      · obtain ⟨o', ho', same⟩ := ih alone
        exact ⟨o', List.mem_cons_of_mem o ho', same.trans (Nat.max_eq_right after).symm⟩

theorem latest_le {os : List (Instant × UInt8)} {t : Instant} : latest os ≤ t ↔ ∀ o ∈ os, o.1 ≤ t := by
  induction os with
  | nil => simp
  | cons o os ih => simp [ih]

theorem InOrder.stamped {arrivals : List Arrival} (h : InOrder arrivals) :
    (LmtpRelay.stamped arrivals).Pairwise fun o o' => o.1 ≤ o'.1 := by
  induction arrivals with
  | nil => exact List.Pairwise.nil
  | cons a rest ih =>
    obtain ⟨first, others⟩ := List.pairwise_cons.1 h
    rw [stamped_cons, List.pairwise_append]
    refine ⟨?_, ih others, ?_⟩
    · rw [Arrival.stamped, List.pairwise_map]
      exact List.pairwise_of_forall fun _ _ => Nat.le_refl _
    · intro o here o' later
      obtain ⟨b, -, rfl⟩ := List.mem_map.1 here
      obtain ⟨c, hc, same⟩ := mem_stamped later
      rw [← same]
      exact first c hc

theorem latest_take {os : List (Instant × UInt8)} (ordered : os.Pairwise fun o o' => o.1 ≤ o'.1) {n : Nat}
    {o : Instant × UInt8} (here : os[n]? = some o) : latest (os.take (n + 1)) = o.1 := by
  have before : latest (os.take n) ≤ o.1 := by
    rw [← List.take_append_drop n os, List.pairwise_append] at ordered
    have after : o ∈ os.drop n := by
      apply List.mem_of_getElem? (i := 0)
      rw [List.getElem?_drop]
      exact here
    exact latest_le.2 fun o' ho' => ordered.2.2 o' ho' o after
  rw [List.take_add_one, here, latest_append]
  simpa using before

namespace Source

/-! ## What is left -/

/-- what is left of a stream when octets are taken off its front -/
structure Leaves (s rest : Source) : Prop where
  ordered : InOrder rest.arrivals
  halts : rest.halts = s.halts
  taken : ∃ os, stamped s.arrivals = os ++ stamped rest.arrivals

theorem Leaves.refl {s : Source} (ordered : InOrder s.arrivals) : s.Leaves s := ⟨ordered, rfl, [], rfl⟩

theorem Leaves.trans {a b c : Source} (h : a.Leaves b) (h' : b.Leaves c) : a.Leaves c := by
  obtain ⟨os, first⟩ := h.taken
  obtain ⟨os', second⟩ := h'.taken
  refine ⟨h'.ordered, h'.halts.trans h.halts, os ++ os', ?_⟩
  rw [first, second, List.append_assoc]

variable {s : Source}

theorem piece_leaves (ordered : InOrder s.arrivals) {limit : Nat} (some_limit : limit ≠ 0) (now : Instant) :
    s.Leaves (s.piece limit now).rest := by
  obtain ⟨left_ordered, left, -⟩ := gather_stamped some_limit (s.noticed? now) ordered
  rw [piece_rest]
  refine ⟨left_ordered, rfl, (stamped s.arrivals).take (gather limit (s.noticed? now) s.arrivals).piece.length, ?_⟩
  rw [left, List.take_append_drop]

theorem discardLine_leaves (ordered : InOrder s.arrivals) (now : Instant) : s.Leaves (s.discardLine now).rest := by
  fun_induction discardLine now s with
  | case5 s r b bs hv goes_on ih =>
    have piece := piece_leaves ordered (by decide : lineLimit ≠ 0) now
    exact piece.trans (ih piece.ordered)
  | _ => exact piece_leaves ordered (by decide) now

theorem readLine_leaves (ordered : InOrder s.arrivals) (now : Instant) : s.Leaves (s.readLine now).rest := by
  have piece := piece_leaves ordered (by decide : lineLimit ≠ 0) now
  unfold readLine
  dsimp only
  split
  · exact piece
  · exact piece
  · exact piece
  · split
    · exact piece
    · exact piece.trans (discardLine_leaves piece.ordered now)

theorem readBodyFrom_leaves (ordered : InOrder s.arrivals) (max : Nat) (now : Instant) (sofar : BodySoFar) :
    s.Leaves (s.readBodyFrom max now sofar).rest := by
  fun_induction readBodyFrom max now sofar s with
  | case5 sofar s r b bs hv goes_on ih =>
    have piece := piece_leaves ordered (by decide : bodyPieceLimit ≠ 0) now
    exact piece.trans (ih piece.ordered)
  | _ => exact piece_leaves ordered (by decide) now

/-! ## When a read is ready -/

variable {ending : Ending}

/-- a read was ready when the last octet that it took was there -/
def ReadyBy (s rest : Source) (ready : Instant) : Prop :=
  ∀ os, stamped s.arrivals = os ++ stamped rest.arrivals → ready = latest os

/-- a read took all there is, and was ready when the end of the stream was noticed -/
def ReadyAtEnd (s rest : Source) (now ready : Instant) : Prop := rest.octets = [] ∧ s.noticed? now = some ready

theorem ReadyBy.trans {a b c : Source} {ready ready' : Instant} (left : a.Leaves b) (left' : b.Leaves c)
    (h : a.ReadyBy b ready) (h' : b.ReadyBy c ready') : a.ReadyBy c (max ready ready') := by
  intro os taken
  obtain ⟨first, hfirst⟩ := left.taken
  obtain ⟨second, hsecond⟩ := left'.taken
  have both : os ++ stamped c.arrivals = (first ++ second) ++ stamped c.arrivals := by
    rw [← taken, hfirst, hsecond, List.append_assoc]
  rw [List.append_cancel_right both, latest_append, h first hfirst, h' second hsecond]

theorem Leaves.noticed {rest : Source} (h : s.Leaves rest) (now : Instant) : rest.noticed? now = s.noticed? now := by
  rw [noticed?, noticed?, h.halts]

/-- nothing is waited for after the end is noticed -/
theorem piece_ready_le {limit : Nat} {now t : Instant} (noticed : s.noticed? now = some t) :
    (s.piece limit now).ready ≤ t := by
  have early := gather_ready limit t s.arrivals
  unfold Source.piece
  rw [noticed]
  dsimp only
  split
  · exact early
  · split
    · exact Nat.max_le.2 ⟨early, Nat.le_refl t⟩
    · exact Nat.max_le.2 ⟨early, Nat.le_refl t⟩

/-- a first piece that is not whole is all there is, and has no end of a line -/
theorem splitLine_partly {limit : Nat} {bs : Octets} (partly : isWhole limit (cutLine limit bs).1 = false) :
    endsLine (splitLine bs).1 = false := by
  have first := splitLine_cut limit bs
  have not_ended := (Bool.or_eq_false_iff.1 partly).1
  rw [cutLine_short partly] at first not_ended
  rw [first, not_ended, if_neg Bool.false_ne_true]
  simpa [splitLine] using not_ended

theorem WholeTill.piece_at_end (whole : s.WholeTill ending) {limit : Nat} {now : Instant}
    (partly : isWhole limit (cutLine limit s.octets).1 = false) {result : Except IoFailure Octets}
    (read : (s.piece limit now).value = some result) :
    s.ReadyAtEnd (s.piece limit now).rest now (s.piece limit now).ready := by
  obtain ⟨-, -, wholeness⟩ := gather_timely limit (s.noticed? now) s.arrivals
  have there : timely (s.noticed? now) s.arrivals = s.octets := whole.there now
  rw [there, partly] at wholeness
  constructor
  · have left := (piece_there limit now s).2.1
    rw [(whole.piece limit now).there, whole.there, cutLine_short partly] at left
    exact left
  · unfold Source.piece at read ⊢
    dsimp only at read ⊢
    rw [wholeness, if_neg Bool.false_ne_true] at read ⊢
    cases noticed : s.noticed? now with
    | none =>
      rw [noticed] at read
      cases read
    | some t =>
      have early := Nat.max_eq_right (gather_ready limit t s.arrivals)
      dsimp only
      cases endingAt t s.halts with
      | closed => exact congrArg some early.symm
      | failure f => exact congrArg some early.symm

/-- a whole piece is ready with its last octet, and another one at the end of the stream -/
theorem WholeTill.piece_ready (whole : s.WholeTill ending) (ordered : InOrder s.arrivals) {limit : Nat}
    (some_limit : limit ≠ 0) {now : Instant} {piece : Octets} (read : (s.piece limit now).value = some (.ok piece)) :
    (isWhole limit piece = true ∧ s.ReadyBy (s.piece limit now).rest (s.piece limit now).ready) ∨
      (isWhole limit piece = false ∧ s.ReadyAtEnd (s.piece limit now).rest now (s.piece limit now).ready) := by
  obtain ⟨-, -, wholeness⟩ := gather_timely limit (s.noticed? now) s.arrivals
  obtain ⟨-, left, ready⟩ := gather_stamped some_limit (s.noticed? now) ordered
  obtain ⟨cut, -⟩ := piece_ok read
  have wholeness : (gather limit (s.noticed? now) s.arrivals).whole = isWhole limit piece := by
    rw [wholeness, cut]
    rfl
  cases partly : isWhole limit piece with
  | true =>
    rw [partly] at wholeness
    refine .inl ⟨rfl, fun os taken => ?_⟩
    have moment : (s.piece limit now).ready = (gather limit (s.noticed? now) s.arrivals).ready := by
      unfold Source.piece
      dsimp only
      rw [if_pos wholeness]
    obtain ⟨b, last⟩ := ready wholeness
    obtain ⟨n, hn⟩ := Nat.exists_eq_add_one_of_ne_zero fun nothing =>
      gather_some some_limit wholeness (List.length_eq_zero_iff.1 nothing)
    rw [hn, Nat.add_sub_cancel] at last
    have front : os ++ (stamped s.arrivals).drop (n + 1)
        = (stamped s.arrivals).take (n + 1) ++ (stamped s.arrivals).drop (n + 1) := by
      rw [arrivals_piece, left, hn] at taken
      rw [← taken, List.take_append_drop]
    rw [moment, List.append_cancel_right front]
    exact (latest_take ordered.stamped last).symm
  | false =>
    rw [whole.there] at cut
    exact .inr ⟨rfl, whole.piece_at_end (cut ▸ partly) read⟩

theorem WholeTill.piece_failed (whole : s.WholeTill ending) {limit : Nat} {now : Instant} {f : IoFailure}
    (failed : (s.piece limit now).value = some (.error f)) : isWhole limit (cutLine limit s.octets).1 = false ∧
      s.ReadyAtEnd (s.piece limit now).rest now (s.piece limit now).ready := by
  have partly : isWhole limit (cutLine limit s.octets).1 = false := by
    have value := (piece_there limit now s).1
    rw [failed, whole.there] at value
    split at value
    · cases value
    · next partly => exact Bool.eq_false_iff.2 partly
  exact ⟨partly, whole.piece_at_end partly failed⟩

theorem ReadyAtEnd.behind {rest : Source} {limit : Nat} {now ready : Instant}
    (h : (s.piece limit now).rest.ReadyAtEnd rest now ready) (left : s.Leaves (s.piece limit now).rest) :
    s.ReadyAtEnd rest now (max (s.piece limit now).ready ready) := by
  obtain ⟨exhausted, noticed⟩ := h
  rw [left.noticed] at noticed
  refine ⟨exhausted, ?_⟩
  rw [noticed]
  exact congrArg some (Nat.max_eq_right (piece_ready_le noticed)).symm

/-- the rest of a line is passed over where it has an end -/
theorem WholeTill.discardLine_ended (whole : s.WholeTill ending) {now : Instant}
    {result : Except ConnectionError Unit} (read : (s.discardLine now).value = some result) :
    result = .ok () ↔ endsLine (splitLine s.octets).1 = true := by
  obtain ⟨value, -⟩ := discardLine_there now s
  rw [whole.there, read] at value
  cases ends : endsLine (splitLine s.octets).1 with
  | true =>
    rw [ends, if_pos rfl] at value
    exact iff_of_true (Option.some.inj value) rfl
  | false =>
    rw [ends, if_neg Bool.false_ne_true] at value
    refine iff_of_false ?_ Bool.false_ne_true
    rintro rfl
    obtain ⟨e, -, failed⟩ := Option.map_eq_some_iff.1 value.symm
    cases failed

/-- the rest of a line is passed over when its last octet is there -/
theorem WholeTill.discardLine_ready (whole : s.WholeTill ending) (ordered : InOrder s.arrivals) {now : Instant}
    {result : Except ConnectionError Unit} (read : (s.discardLine now).value = some result) :
    (result = .ok () ∧ s.ReadyBy (s.discardLine now).rest (s.discardLine now).ready) ∨
      (result ≠ .ok () ∧ s.ReadyAtEnd (s.discardLine now).rest now (s.discardLine now).ready) := by
  fun_induction discardLine now s with
  | case1 s r hv => cases read
  | case2 s r f hv =>
    obtain rfl := Option.some.inj read
    exact .inr ⟨by simp, (whole.piece_failed hv).2⟩
  | case3 s r hv =>
    obtain rfl := Option.some.inj read
    rcases whole.piece_ready ordered (by decide) hv with ⟨long, -⟩ | ⟨-, ready⟩
    · cases long
    · exact .inr ⟨by simp, ready⟩
  | case4 s r b bs hv ends =>
    obtain rfl := Option.some.inj read
    rcases whole.piece_ready ordered (by decide) hv with ⟨-, ready⟩ | ⟨partly, -⟩
    · exact .inl ⟨rfl, ready⟩
    · rw [isWhole, ends] at partly
      cases partly
  | case5 s r b bs hv goes_on ih =>
    have left := piece_leaves ordered (by decide : lineLimit ≠ 0) now
    have whole' := whole.piece lineLimit now
    rcases ih whole' left.ordered read with ⟨done, later⟩ | ⟨undone, at_end⟩
    · refine .inl ⟨done, ?_⟩
      rcases whole.piece_ready ordered (by decide) hv with ⟨-, ready⟩ | ⟨-, none_left, -⟩
      · exact ready.trans left (discardLine_leaves left.ordered now) later
      · -- where nothing is left there is no end of the line
        have ends := (whole'.discardLine_ended read).1 done
        rw [none_left] at ends
        cases ends
    · exact .inr ⟨undone, at_end.behind left⟩

theorem readLine_eq (now : Instant) (s : Source) :
    s.readLine now = match (s.piece lineLimit now).value with
      | none => ⟨none, (s.piece lineLimit now).ready, (s.piece lineLimit now).rest⟩
      | some (.error f) => ⟨some (.error (.io f)), (s.piece lineLimit now).ready, (s.piece lineLimit now).rest⟩
      | some (.ok []) => ⟨some (.error .closed), (s.piece lineLimit now).ready, (s.piece lineLimit now).rest⟩
      | some (.ok (b :: bs)) => match lineOfPiece (b :: bs) with
        | some line => ⟨some (.ok line), (s.piece lineLimit now).ready, (s.piece lineLimit now).rest⟩
        | none => (((s.piece lineLimit now).rest.discardLine now).map fun e =>
            e.bind fun _ => .error (.lineTooLong lineLimit)).after (s.piece lineLimit now).ready := by
  unfold Source.readLine
  dsimp only
  split <;> simp only [*]
  next piece some_octets _ =>
    cases piece with
    | nil => exact absurd rfl some_octets
    | cons b bs => rfl

/-- **When a line has come.** A line with an end has come when its last octet is there, and another one when the end of
the stream is noticed. -/
theorem WholeTill.readLine_ready (whole : s.WholeTill ending) (ordered : InOrder s.arrivals) {now : Instant}
    {result : Except ConnectionError Octets} (read : (s.readLine now).value = some result) :
    (endsLine (splitLine s.octets).1 = true ∧ s.ReadyBy (s.readLine now).rest (s.readLine now).ready) ∨
      (endsLine (splitLine s.octets).1 = false ∧ s.ReadyAtEnd (s.readLine now).rest now (s.readLine now).ready) := by
  have first := splitLine_cut lineLimit s.octets
  have left := piece_leaves ordered (by decide : lineLimit ≠ 0) now
  rw [readLine_eq] at read ⊢
  rcases hv : (s.piece lineLimit now).value with _ | f | piece
  · rw [hv] at read
    cases read
  · obtain ⟨partly, at_end⟩ := whole.piece_failed hv
    exact .inr ⟨splitLine_partly partly, at_end⟩
  · have cut := (piece_ok hv).1
    rw [whole.there] at cut
    rw [hv] at read
    rcases whole.piece_ready ordered (by decide) hv with ⟨full, ready⟩ | ⟨partly, ready⟩
    · cases piece with
      | nil => cases full
      | cons b bs =>
        rw [← cut] at first
        dsimp only at read ⊢
        cases ends : endsLine (b :: bs) with
        | true =>
          rw [first, if_pos ends, lineOfPiece_line (.inl ends), ← cut]
          exact .inl ⟨ends, ready⟩
        | false =>
          -- the line goes on, and is passed over to its end
          have whole' := whole.piece lineLimit now
          rw [lineOfPiece_long full ends] at read ⊢
          obtain ⟨passed, hpassed, -⟩ := Option.map_eq_some_iff.1 read
          have ended := whole'.discardLine_ended hpassed
          have there := (piece_there lineLimit now s).2.1
          rw [whole'.there, whole.there] at there
          rw [there] at ended
          rw [first, ends, if_neg Bool.false_ne_true]
          dsimp only
          rw [endsLine_append_of_not ends]
          rcases whole'.discardLine_ready left.ordered hpassed with ⟨done, later⟩ | ⟨undone, at_end⟩
          · exact .inl ⟨ended.1 done, ready.trans left (discardLine_leaves left.ordered now) later⟩
          · exact .inr ⟨Bool.eq_false_iff.2 fun some_end => undone (ended.2 some_end), at_end.behind left⟩
    · -- the piece is all there is, and has no end
      refine .inr ⟨splitLine_partly (cut ▸ partly), ?_⟩
      cases piece with
      | nil => exact ready
      | cons b bs =>
        dsimp only
        rw [lineOfPiece_line (.inr partly)]
        exact ready

theorem WholeTill.readBodyFrom_ready (whole : s.WholeTill ending) (ordered : InOrder s.arrivals) {max : Nat}
    {now : Instant} {sofar : BodySoFar} {body : Body} (read : (s.readBodyFrom max now sofar).value = some (.ok body)) :
    s.ReadyBy (s.readBodyFrom max now sofar).rest (s.readBodyFrom max now sofar).ready := by
  fun_induction readBodyFrom max now sofar s with
  | case1 sofar s r hv => cases read
  | case2 sofar s r f hv => cases read
  | case3 sofar s r hv => cases read
  | case4 sofar s r b bs hv ended =>
    rcases whole.piece_ready ordered (by decide) hv with ⟨-, ready⟩ | ⟨partly, -⟩
    · exact ready
    · obtain ⟨-, terminator⟩ := Bool.and_eq_true_iff.1 ended
      rcases isTerminator_iff.1 terminator with same | same <;> rw [same] at partly <;> cases partly
  | case5 sofar s r b bs hv goes_on ih =>
    have left := piece_leaves ordered (by decide : bodyPieceLimit ≠ 0) now
    have whole' := whole.piece bodyPieceLimit now
    rcases whole.piece_ready ordered (by decide) hv with ⟨-, ready⟩ | ⟨-, none_left, -⟩
    · exact ready.trans left (readBodyFrom_leaves left.ordered max now _) (ih whole' left.ordered read)
    · -- where nothing is left there is no end of the body
      have value := (readBodyFrom_there max now (sofar.add max (b :: bs)) (s.piece bodyPieceLimit now).rest).1
      have nothing : splitBodyFrom (sofar.add max (b :: bs)).atStart [] = none := by
        unfold splitBodyFrom
        split
        · rw [splitBody]
          rfl
        · rfl
      rw [whole'.there, none_left, nothing] at value
      obtain ⟨e, -, failed⟩ := Option.map_eq_some_iff.1 (value.symm.trans read)
      cases failed

/-- **When a body has come.** It has come when its last octet is there. -/
theorem WholeTill.readBody_ready (whole : s.WholeTill ending) (ordered : InOrder s.arrivals) {max : Nat}
    {now : Instant} {body : Body} (read : (s.readBody max now).value = some (.ok body)) :
    s.ReadyBy (s.readBody max now).rest (s.readBody max now).ready :=
  whole.readBodyFrom_ready ordered read

/-! ## Streams with the same front -/

/-- an octet comes at a moment, or the stream is closed then -/
def Expects (s : Source) (t : Instant) : Prop := (∃ o ∈ stamped s.arrivals, o.1 = t) ∨ ∃ h ∈ s.halts.head?, h.time = t

theorem Leaves.expects {rest : Source} {t : Instant} (h : s.Leaves rest) (expects : rest.Expects t) : s.Expects t := by
  obtain ⟨os, taken⟩ := h.taken
  rcases expects with ⟨o, ho, same⟩ | halted
  · refine .inl ⟨o, ?_, same⟩
    rw [taken]
    exact List.mem_append_right os ho
  · exact .inr (h.halts ▸ halted)

theorem octets_of_stamped {front later : List (Instant × UInt8)} (h : stamped s.arrivals = front ++ later) :
    s.octets = front.map Prod.snd ++ later.map Prod.snd := by
  rw [Source.octets, ← stamped_octets, h, List.map_append]

/-- what is taken off a stream is there before all that is left, and before the end -/
theorem WholeTill.readLine_ready_le (whole : s.WholeTill ending) (ordered : InOrder s.arrivals) {now : Instant}
    {result : Except ConnectionError Octets} (read : (s.readLine now).value = some result) {t : Instant}
    (expects : (s.readLine now).rest.Expects t) : (s.readLine now).ready ≤ max now t := by
  have left := readLine_leaves ordered now
  rcases whole.readLine_ready ordered read with ⟨-, ready⟩ | ⟨-, none_left, noticed⟩
  · obtain ⟨os, taken⟩ := left.taken
    rw [ready os taken]
    apply le_max_of_le_right
    rw [latest_le]
    intro o ho
    rcases expects with ⟨o', ho', rfl⟩ | ⟨h, hh, rfl⟩
    · have order := ordered.stamped
      rw [taken, List.pairwise_append] at order
      exact order.2.2 o ho o' ho'
    · have here : o ∈ stamped s.arrivals := by
        rw [taken]
        exact List.mem_append_left _ ho
      obtain ⟨a, ha, same⟩ := mem_stamped here
      rw [← same]
      exact whole.before h (left.halts ▸ hh) a ha
  · rcases expects with ⟨o, ho, -⟩ | ⟨h, hh, rfl⟩
    · have there : o.2 ∈ (s.readLine now).rest.octets := by
        rw [Source.octets, ← stamped_octets]
        exact List.mem_map_of_mem ho
      rw [none_left] at there
      cases there
    · have here : h ∈ s.halts.head? := left.halts ▸ hh
      unfold noticed? at noticed
      rw [Option.mem_def.1 here] at noticed
      exact Nat.le_of_eq (Option.some.inj noticed).symm

/-- the same octets taken off the front of two streams are there at the same moment -/
theorem ReadyBy.same {s' rest rest' : Source} {ready ready' : Instant} (h : s.ReadyBy rest ready)
    (h' : s'.ReadyBy rest' ready') (left : s.Leaves rest) (left' : s'.Leaves rest')
    {front later later' : List (Instant × UInt8)} (here : stamped s.arrivals = front ++ later)
    (there : stamped s'.arrivals = front ++ later') {taken : Octets} (took : s.octets = taken ++ rest.octets)
    (took' : s'.octets = taken ++ rest'.octets) (short : taken.length ≤ front.length) : ready' = ready := by
  -- what is taken is the beginning of the front
  have among : ∀ {s rest : Source} {later : List (Instant × UInt8)}, s.Leaves rest →
      stamped s.arrivals = front ++ later → s.octets = taken ++ rest.octets →
      stamped s.arrivals = front.take taken.length ++ stamped rest.arrivals := by
    intro s rest later left here took
    obtain ⟨os, hos⟩ := left.taken
    have split := octets_of_stamped hos
    rw [stamped_octets, took] at split
    have size : os.length = taken.length := by
      rw [List.append_cancel_right split, List.length_map]
    have same : os = front.take taken.length := by
      have cut : (front ++ later).take taken.length = front.take taken.length := List.take_append_of_le_length short
      rw [← cut, ← here, hos, ← size, List.take_left]
    rw [← same]
    exact hos
  rw [h _ (among left here took), h' _ (among left' there took')]

/-- streams that end at the same moments are at their ends at the same moment, for readers whose clocks agree then -/
theorem ReadyAtEnd.meets {s' rest rest' : Source} {now now' ready ready' : Instant} (h : s.ReadyAtEnd rest now ready)
    (h' : s'.ReadyAtEnd rest' now' ready') (halts : s'.halts = s.halts)
    (meet : ∀ t, s.Expects t → max now' t = max now t) : max now' ready' = max now ready := by
  obtain ⟨-, noticed⟩ := h
  obtain ⟨-, noticed'⟩ := h'
  unfold noticed? at noticed noticed'
  rw [halts] at noticed'
  obtain ⟨halt, here, rfl⟩ := Option.map_eq_some_iff.1 noticed
  obtain ⟨halt', there, rfl⟩ := Option.map_eq_some_iff.1 noticed'
  obtain rfl := Option.some.inj (here.symm.trans there)
  calc max now' (max now' halt.time)
      _ = max now' halt.time := by rw [← max_assoc, max_self]
      _ = max now halt.time := meet halt.time (.inr ⟨halt, here, rfl⟩)
      _ = max now (max now halt.time) := by rw [← max_assoc, max_self]

/-- streams with the same front lines, each octet with its moment, have the same first line, and it is among them -/
theorem front_line {s' : Source} {front later later' : List (Instant × UInt8)}
    (here : stamped s.arrivals = front ++ later) (there : stamped s'.arrivals = front ++ later')
    (lines : endsLine (front.map Prod.snd) = true ∨ later = [] ∧ later' = []) :
    (splitLine s'.octets).1 = (splitLine s.octets).1 ∧ (splitLine s.octets).1.length ≤ front.length := by
  have fronts := splitLine_fronts (lines.imp_right fun ⟨none_left, none_left'⟩ =>
    And.intro (congrArg (List.map Prod.snd) none_left) (congrArg (List.map Prod.snd) none_left'))
  rw [← octets_of_stamped here, ← octets_of_stamped there, List.length_map] at fronts
  exact fronts

/-- **The front lines of two streams come at the same moments,** to readers whose clocks agree from then on. -/
theorem WholeTill.readLine_meets {s' : Source} (whole : s.WholeTill ending) (whole' : s'.WholeTill ending)
    (ordered : InOrder s.arrivals) (ordered' : InOrder s'.arrivals) {now now' : Instant} {result result' : Except ConnectionError Octets}
    (read : (s.readLine now).value = some result) (read' : (s'.readLine now').value = some result')
    {front later later' : List (Instant × UInt8)} (here : stamped s.arrivals = front ++ later)
    (there : stamped s'.arrivals = front ++ later')
    (lines : endsLine (front.map Prod.snd) = true ∨ later = [] ∧ later' = []) (halts : s'.halts = s.halts)
    (meet : ∀ t, s.Expects t → max now' t = max now t) :
    max now' (s'.readLine now').ready = max now (s.readLine now).ready := by
  obtain ⟨same, short⟩ := front_line here there lines
  have took : ∀ {s : Source} {now : Instant} {result : Except ConnectionError Octets}, s.WholeTill ending →
      (s.readLine now).value = some result → s.octets = (splitLine s.octets).1 ++ (s.readLine now).rest.octets := by
    intro s now result whole read
    rw [(whole.readLine read).2, splitLine_append]
  rcases whole.readLine_ready ordered read with ⟨ends, ready⟩ | ⟨open_end, at_end⟩ <;>
    rcases whole'.readLine_ready ordered' read' with ⟨ends', ready'⟩ | ⟨open_end', at_end'⟩
  · have left := readLine_leaves ordered now
    have took' := took whole' read'
    rw [same] at took'
    rw [ready.same ready' left (readLine_leaves ordered' now') here there (took whole read) took' short]
    apply meet
    obtain ⟨os, taken⟩ := left.taken
    have some_octets : os ≠ [] := by
      rintro rfl
      have nothing := (took whole read).symm.trans (octets_of_stamped taken)
      rw [stamped_octets, List.map_nil] at nothing
      rw [List.append_cancel_right nothing] at ends
      cases ends
    obtain ⟨o, ho, latest⟩ := latest_mem some_octets
    refine .inl ⟨o, ?_, latest.trans (ready os taken).symm⟩
    rw [taken]
    exact List.mem_append_left _ ho
  · rw [same, ends] at open_end'
    cases open_end'
  · rw [same, open_end] at ends'
    cases ends'
  · exact at_end.meets at_end' halts meet

/-- what a line leaves of a stream with a front -/
theorem WholeTill.readLine_rest (whole : s.WholeTill ending) (ordered : InOrder s.arrivals) {now : Instant}
    {result : Except ConnectionError Octets} (read : (s.readLine now).value = some result)
    {front later : List (Instant × UInt8)} (here : stamped s.arrivals = front ++ later)
    (short : (splitLine s.octets).1.length ≤ front.length) :
    stamped (s.readLine now).rest.arrivals = front.drop (splitLine s.octets).1.length ++ later := by
  obtain ⟨os, taken⟩ := (readLine_leaves ordered now).taken
  have split := octets_of_stamped taken
  rw [stamped_octets, ← splitLine_append s.octets, ← (whole.readLine read).2] at split
  have size : os.length = (splitLine s.octets).1.length := by
    rw [List.append_cancel_right split, List.length_map]
  rw [← size] at short ⊢
  rw [← List.drop_append_of_le_length short, ← here, taken, List.drop_left]

/-- what the first line leaves of two streams with the same front lines begins alike -/
theorem WholeTill.readLine_fronts {s' : Source} (whole : s.WholeTill ending) (whole' : s'.WholeTill ending)
    (ordered : InOrder s.arrivals) (ordered' : InOrder s'.arrivals) {now now' : Instant} {result result' : Except ConnectionError Octets}
    (read : (s.readLine now).value = some result) (read' : (s'.readLine now').value = some result')
    {front later later' : List (Instant × UInt8)} (here : stamped s.arrivals = front ++ later)
    (there : stamped s'.arrivals = front ++ later')
    (lines : endsLine (front.map Prod.snd) = true ∨ later = [] ∧ later' = []) :
    ∃ left, stamped (s.readLine now).rest.arrivals = left ++ later ∧
      stamped (s'.readLine now').rest.arrivals = left ++ later' := by
  obtain ⟨same, short⟩ := front_line here there lines
  have left := whole.readLine_rest ordered read here short
  have left' := whole'.readLine_rest ordered' read' there (same ▸ short)
  rw [same] at left'
  exact ⟨_, left, left'⟩

/-- **The same body comes at the same moment,** whatever comes after it. -/
theorem WholeTill.readBody_meets {s' : Source} (whole : s.WholeTill ending) (whole' : s'.WholeTill ending)
    (ordered : InOrder s.arrivals) (ordered' : InOrder s'.arrivals) {max : Nat} {now : Instant} {result result' : Except ConnectionError Body}
    (read : (s.readBody max now).value = some result) (read' : (s'.readBody max now).value = some result')
    {front later later' : List (Instant × UInt8)} (here : stamped s.arrivals = front ++ later)
    (there : stamped s'.arrivals = front ++ later') (halts : s'.halts = s.halts)
    (body : (∃ octets, splitBody s.octets = some (octets, later.map Prod.snd)) ∨ later = [] ∧ later' = []) :
    (s'.readBody max now).ready = (s.readBody max now).ready := by
  have octets := octets_of_stamped here
  have octets' := octets_of_stamped there
  rcases body with ⟨body, split⟩ | ⟨rfl, rfl⟩
  · obtain ⟨among, took, -, others⟩ := splitBody_front split
    obtain rfl := List.append_cancel_right (took.symm.trans octets)
    have split' : splitBody s'.octets = some (body, later'.map Prod.snd) := by rw [octets', others]
    rcases whole.readBody read with ⟨_, same, rfl⟩ | ⟨cut, -⟩
    · rcases whole'.readBody read' with ⟨_, same', rfl⟩ | ⟨cut', -⟩
      · have left := (Prod.mk.inj (Option.some.inj (split.symm.trans same))).2
        have left' := (Prod.mk.inj (Option.some.inj (split'.symm.trans same'))).2
        rw [left] at octets
        rw [left'] at octets'
        exact (whole.readBody_ready ordered read).same (whole'.readBody_ready ordered' read')
          (readBodyFrom_leaves ordered max now .initial) (readBodyFrom_leaves ordered' max now .initial) here there
          octets octets' (by rw [List.length_map])
      · cases cut'.symm.trans split'
    · cases cut.symm.trans split
  · have recut : s.Recut s' := ⟨there.trans here.symm, halts, ordered, ordered'⟩
    apply (recut.readBody max now).ready
    rw [read]
    simp

end Source
end LmtpRelay
