/-
A stream as a list of segments. A stream is split after each line feed, and whoever knows the segments knows what a
reader of bodies makes of the stream: the segments up to the first that is a full stop by itself are the body, each
without the full stop in front of it (`readBody_segments`). How the stream is cut into arrivals does not matter, and
neither does the limit on the pieces in which a long line is read.
-/
import LmtpRelay.Proofs.Wire.Reading

namespace LmtpRelay

/-! ## Segments -/

/-- a stream split after each line feed; only the last segment may do without one -/
def segments : Octets → List Octets
  | [] => []
  | b :: bs =>
    if b = Octets.lf then [b] :: segments bs
    else
      match segments bs with
      | [] => [[b]]
      | first :: rest => (b :: first) :: rest

/-- nothing is lost in splitting a stream -/
theorem flatten_segments (bs : Octets) : (segments bs).flatten = bs := by
  induction bs with
  | nil => rfl
  | cons b bs ih =>
    rw [segments]
    split
    · exact congrArg (b :: ·) ih
    · split
      · next nothing =>
        rw [nothing] at ih
        exact congrArg (b :: ·) ih
      · next first rest split =>
        rw [split] at ih
        exact congrArg (b :: ·) ih

theorem segments_splitLine {bs : Octets} (some_octets : bs ≠ []) :
    segments bs = (splitLine bs).1 :: segments (splitLine bs).2 := by
  induction bs with
  | nil => exact absurd rfl some_octets
  | cons b bs ih =>
    rw [segments, splitLine]
    by_cases hb : b = Octets.lf
    · rw [if_pos hb, if_pos hb]
    · rw [if_neg hb, if_neg hb]
      cases bs with
      | nil => rfl
      | cons c cs => rw [ih (List.cons_ne_nil c cs)]

theorem segments_ne_nil {bs : Octets} {first : Octets} {rest : List Octets} (h : segments bs = first :: rest) :
    bs ≠ [] := by
  rintro rfl
  cases h

theorem endsLine_first {bs first second : Octets} {rest : List Octets} (h : segments bs = first :: second :: rest) :
    endsLine (splitLine bs).1 = true := by
  rw [segments_splitLine (segments_ne_nil h)] at h
  rw [← Bool.not_eq_false]
  intro open_end
  rw [splitLine_last open_end] at h
  cases h

/-! ## Bodies -/

/-- a segment that ends a body: a full stop by itself -/
def EndsBody (segment : Octets) : Prop :=
  segment = [Octets.dot, Octets.cr, Octets.lf] ∨ segment = [Octets.dot, Octets.lf]

instance (segment : Octets) : Decidable (EndsBody segment) := inferInstanceAs (Decidable (_ ∨ _))

/-- a segment without the full stop that was put in front of it -/
def undotted (segment : Octets) : Octets := if segment.head? = some Octets.dot then segment.tail else segment

def message (body : List Octets) : Octets := (body.map undotted).flatten

theorem unstuff_undotted (segment : Octets) : unstuff true segment = undotted segment := by
  cases segment with
  | nil => rfl
  | cons b bs => simp [unstuff, undotted]

/-- a body is ended by the first of its segments that is a full stop -/
theorem splitBody_segments {bs segment : Octets} {before after : List Octets}
    (split : segments bs = before ++ segment :: after) (inside : ∀ line ∈ before, ¬EndsBody line)
    (ended : EndsBody segment) :
    splitBody bs = some (message before, after.flatten) ∧ IsWhole (message before) := by
  induction before generalizing bs with
  | nil =>
    have first := segments_splitLine (segments_ne_nil split)
    obtain ⟨rfl, rfl⟩ := List.cons.inj (split.symm.trans first)
    have ends : endsLine (splitLine bs).1 = true := by rcases ended with h | h <;> rw [h] <;> rfl
    rw [splitBody, dif_pos ends, if_pos (isTerminator_iff.2 ended), flatten_segments]
    exact ⟨rfl, .inl rfl⟩
  | cons line before ih =>
    have first := segments_splitLine (segments_ne_nil split)
    obtain ⟨rfl, rest⟩ := List.cons.inj (split.symm.trans first)
    have ends : endsLine (splitLine bs).1 = true := by
      cases before with
      | nil => exact endsLine_first split
      | cons next before => exact endsLine_first split
    have other : ¬isTerminator (splitLine bs).1 = true := fun h =>
      inside _ List.mem_cons_self (isTerminator_iff.1 h)
    obtain ⟨later, whole⟩ := ih rest.symm fun line hl => inside line (List.mem_cons_of_mem _ hl)
    have joined : message ((splitLine bs).1 :: before) = unstuff true (splitLine bs).1 ++ message before := by
      rw [unstuff_undotted]
      rfl
    rw [splitBody, dif_pos ends, if_neg other, later, joined]
    refine ⟨rfl, .inr ?_⟩
    have line : endsLine (unstuff true (splitLine bs).1) = true := endsLine_unstuff ends (by simpa using other)
    rcases whole with nothing | whole
    · rw [nothing, List.append_nil]
      exact line
    · rw [endsLine_append fun nothing => by rw [nothing] at whole; cases whole]
      exact whole

theorem splitBody_unended {bs : Octets} (inside : ∀ line ∈ segments bs, ¬EndsBody line) : splitBody bs = none := by
  induction hn : bs.length using Nat.strongRecOn generalizing bs with
  | _ n ih =>
    rw [splitBody]
    split
    · next ends =>
      have some_octets : bs ≠ [] := by
        rintro rfl
        cases ends
      rw [segments_splitLine some_octets] at inside
      have other : ¬isTerminator (splitLine bs).1 = true := fun h =>
        inside _ List.mem_cons_self (isTerminator_iff.1 h)
      rw [if_neg other, ih _ (hn ▸ splitLine_shorter ends) (fun line hl => inside line (List.mem_cons_of_mem _ hl)) rfl]
      rfl
    · rfl

/-! ## What a reader leaves -/

/-- the octets that arrive when the end has been noticed already -/
def late (noticed : Option Instant) (arrivals : List Arrival) : Octets :=
  (arrivals.dropWhile fun a => !a.isLate noticed).flatMap Arrival.octets

theorem timely_append_late (noticed : Option Instant) (arrivals : List Arrival) :
    timely noticed arrivals ++ late noticed arrivals = arrivals.flatMap Arrival.octets := by
  rw [timely, late, ← List.flatMap_append, List.takeWhile_append_dropWhile]

theorem late_cons (noticed : Option Instant) (a : Arrival) (rest : List Arrival) (early : a.isLate noticed = false) :
    late noticed (a :: rest) = late noticed rest := by
  rw [late, List.dropWhile_cons_of_pos (by simp [early])]
  rfl

theorem gather_late (limit : Nat) (noticed : Option Instant) (arrivals : List Arrival) :
    late noticed (gather limit noticed arrivals).rest = late noticed arrivals := by
  induction arrivals generalizing limit with
  | nil => rfl
  | cons a rest ih =>
    rw [gather]
    cases early : a.isLate noticed with
    | true => rfl
    | false =>
      have same : ∀ octets, late noticed (⟨a.time, octets⟩ :: rest) = late noticed rest := fun octets =>
        late_cons noticed _ rest early
      rw [if_neg Bool.false_ne_true, late_cons noticed a rest early]
      dsimp only
      split
      · exact same _
      · exact ih _

namespace Source

/-- the octets that come too late for a reader that begins `now` -/
def missed (now : Instant) (s : Source) : Octets := late (s.noticed? now) s.arrivals

theorem there_append_missed (now : Instant) (s : Source) : s.there now ++ s.missed now = s.octets :=
  timely_append_late _ _

theorem piece_missed (limit : Nat) (now : Instant) (s : Source) :
    (s.piece limit now).rest.missed now = s.missed now := by
  have halts := (piece_there limit now s).2.2
  rw [missed, noticed?, halts, arrivals_piece, missed]
  exact gather_late _ _ _

theorem readBody_missed (max : Nat) (now : Instant) (s : Source) :
    (s.readBody max now).rest.missed now = s.missed now := by
  unfold readBody
  fun_induction readBodyFrom max now .initial s with
  | case5 sofar s r b bs hv goes_on ih => exact ih.trans (piece_missed _ _ _)
  | _ => exact piece_missed _ _ _

/-- **A body is read up to the first segment that is a full stop.** The message is made of the segments before it, each
without the full stop in front of it; it is given whole where it is within the limit, and by its size otherwise, and what
comes after that segment is left. A message is empty or ends with a line feed. Where there is no such segment and the
stream is closed, that is what the reader finds. -/
theorem readBody_segments (max : Nat) (now : Instant) (s : Source) :
    (∀ before segment after, segments (s.there now) = before ++ segment :: after →
      (∀ line ∈ before, ¬EndsBody line) → EndsBody segment →
      (s.readBody max now).value = some (.ok (if (message before).length ≤ max then .complete (message before)
        else .tooLarge (message before).length)) ∧
      s.octets = before.flatten ++ segment ++ (s.readBody max now).rest.octets ∧
      (message before = [] ∨ (message before).getLast? = some Octets.lf)) ∧
    ((∀ line ∈ segments (s.there now), ¬EndsBody line) → s.ending? now = some .closed →
      (s.readBody max now).value = some (.error .closed)) := by
  obtain ⟨value, left, -⟩ := readBody_there max now s
  refine ⟨fun before segment after split inside ended => ?_, fun inside closed => ?_⟩
  · obtain ⟨body, whole⟩ := splitBody_segments split inside ended
    rw [body] at value left
    refine ⟨value.trans ?_, ?_, whole.imp_right of_decide_eq_true⟩
    · show some (Except.ok (Body.within max (message before))) = _
      rw [Body.within]
      split
      · next large => rw [if_neg (Nat.not_le.2 large)]
      · next fits => rw [if_pos (Nat.le_of_not_lt fits)]
    · calc s.octets
          = (segments (s.there now)).flatten ++ s.missed now := by rw [flatten_segments, there_append_missed]
        _ = before.flatten ++ segment ++ (after.flatten ++ s.missed now) := by simp [split]
        _ = before.flatten ++ segment ++ (s.readBody max now).rest.octets := by
          rw [← there_append_missed now (s.readBody max now).rest, readBody_missed, left]
          rfl
  · rw [splitBody_unended inside, closed] at value
    exact value

namespace Sample

/-- a message with a full stop in front of a line, cut in the middle of that and of its end, and a command after it -/
def dotted : Source :=
  ⟨[⟨1, Octets.ofText "a\r\n."⟩, ⟨2, Octets.ofText ".b\n.\r"⟩, ⟨3, Octets.ofText "\nNOOP\r\n"⟩], [⟨9, .closed⟩]⟩

end Sample

/-- a message of five octets, read with a limit that it keeps and with one that it does not keep -/
theorem readBody_segments_dotted : ∃ before segment after,
    segments (Sample.dotted.there 0) = before ++ segment :: after ∧ (∀ line ∈ before, ¬EndsBody line) ∧
      EndsBody segment ∧
    (Sample.dotted.readBody 6 0).value = some (.ok (.complete (Octets.ofText "a\r\n.b\n"))) ∧
    (Sample.dotted.readBody 5 0).value = some (.ok (.tooLarge 6)) ∧
    (Sample.dotted.readBody 6 0).rest.octets = Octets.ofText "NOOP\r\n" ∧
    ((⟨[⟨1, Octets.ofText "a\r\n."⟩], [⟨9, .closed⟩]⟩ : Source).readBody 6 0).value = some (.error .closed) := by
  have split : segments (Sample.dotted.there 0)
      = [Octets.ofText "a\r\n", Octets.ofText "..b\n"] ++ Octets.ofText ".\r\n" :: [Octets.ofText "NOOP\r\n"] := by
    decide
  have inside : ∀ line ∈ [Octets.ofText "a\r\n", Octets.ofText "..b\n"], ¬EndsBody line := by decide
  have ended : EndsBody (Octets.ofText ".\r\n") := by decide
  obtain ⟨whole, left, -⟩ := (readBody_segments 6 0 Sample.dotted).1 _ _ _ split inside ended
  obtain ⟨large, -, -⟩ := (readBody_segments 5 0 Sample.dotted).1 _ _ _ split inside ended
  have unended := (readBody_segments 6 0 ⟨[⟨1, Octets.ofText "a\r\n."⟩], [⟨9, .closed⟩]⟩).2 (by decide) (by decide)
  exact ⟨_, _, _, split, inside, ended, whole, large, List.append_cancel_left (left.symm.trans (by decide)), unended⟩

end Source
end LmtpRelay
