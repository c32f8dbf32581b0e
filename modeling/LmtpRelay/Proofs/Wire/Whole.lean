/-
Streams that end in one way, by being closed or by failing. Nothing arrives after that, so a reader finds all octets of
the stream sooner or later, and what it makes of them depends on the octets alone, and at the end on how the stream ends:
`WholeTill.readLine` for a command line, `WholeTill.readBody` for a body.
-/
import LmtpRelay.Proofs.Wire.Reading

namespace LmtpRelay

/-! ## Lines without an end -/

theorem lf_not_mem_dropLineEnd (bs : Octets) : Octets.lf ∉ dropLineEnd (splitLine bs).1 := by
  induction bs with
  | nil => exact List.not_mem_nil
  | cons b bs ih =>
    rw [splitLine]
    split
    · next h => simp [dropLineEnd, isLineEnd, h]
    · next h =>
      unfold dropLineEnd
      split
      · split
        · exact List.not_mem_nil
        · simpa using Ne.symm h
      · next kept =>
        intro hlf
        rcases List.mem_cons.1 hlf with same | hlf
        · exact h same.symm
        · exact ih hlf

theorem lf_not_mem_firstLine {ending : Option Ending} {bs line : Octets}
    (h : firstLine ending bs = some (.ok line)) : Octets.lf ∉ line := by
  unfold firstLine at h
  split at h
  · split at h
    · obtain rfl := Except.ok.inj (Option.some.inj h)
      exact lf_not_mem_dropLineEnd bs
    · cases h
  · next open_end =>
    obtain ⟨e, -, read⟩ := Option.map_eq_some_iff.1 h
    have last := splitLine_last (Bool.eq_false_iff.2 open_end)
    split at read
    · obtain rfl := Except.ok.inj read
      have none_left := lf_not_mem_dropLineEnd bs
      rwa [last] at none_left
    · cases read

theorem firstLine_of_none {bs : Octets} {result : Except ConnectionError Octets} (h : firstLine none bs = some result)
    (ending : Option Ending) : firstLine ending bs = some result := by
  unfold firstLine at h ⊢
  split at h
  · next ends =>
    rw [if_pos ends]
    exact h
  · cases h

namespace Source

/-! ## Whole streams -/

/-- the stream is only ever closed, and nothing arrives after that -/
structure Whole (s : Source) : Prop where
  closed : ∀ h ∈ s.halts, h.ending = .closed
  before : ∀ h ∈ s.halts.head?, ∀ a ∈ s.arrivals, a.time ≤ h.time

/-- the stream ends in one way only, if at all, and nothing arrives after that -/
structure WholeTill (ending : Ending) (s : Source) : Prop where
  uniform : ∀ h ∈ s.halts, h.ending = ending
  before : ∀ h ∈ s.halts.head?, ∀ a ∈ s.arrivals, a.time ≤ h.time

theorem Whole.till {s : Source} (h : s.Whole) : s.WholeTill .closed := ⟨h.closed, h.before⟩

theorem endingAt_uniform {ending : Ending} {halts : List Halt} (h : ∀ halt ∈ halts, halt.ending = ending) {t : Instant}
    (come : ∃ halt ∈ halts, halt.time ≤ t) : endingAt t halts = ending := by
  have step : ∀ {e : Ending} {halt : Halt}, halt.ending = ending → e = .closed ∨ e = ending →
      (if halt.ending = .closed then e else halt.ending) = ending := by
    rintro e halt rfl before
    split
    · next closed => exact before.elim (fun same => same.trans closed.symm) id
    · rfl
  have keeps : ∀ {among : List Halt} {e : Ending}, (∀ halt ∈ among, halt.ending = ending) →
      e = ending ∨ e = .closed ∧ among ≠ [] →
      among.foldl (fun e halt => if halt.ending = .closed then e else halt.ending) e = ending := by
    intro among e each before
    induction among generalizing e with
    | nil => exact before.resolve_right fun none_left => none_left.2 rfl
    | cons halt rest ih =>
      apply ih (fun halt' h' => each halt' (List.mem_cons_of_mem halt h'))
      exact .inl (step (each halt List.mem_cons_self) (before.symm.imp_left And.left))
  obtain ⟨halt, hmem, early⟩ := come
  refine keeps (fun halt hmem => h halt (List.mem_filter.1 hmem).1) (.inr ⟨rfl, ?_⟩)
  exact List.ne_nil_of_mem (List.mem_filter.2 ⟨hmem, decide_eq_true early⟩)

variable {ending : Ending}

/-- a whole stream ends in its way, if its end is noticed -/
theorem WholeTill.noticed {s : Source} (h : s.WholeTill ending) (now : Instant) :
    s.ending? now = none ∨ s.ending? now = some ending := by
  unfold ending? noticed?
  cases hh : s.halts.head? with
  | none => exact .inl rfl
  | some halt =>
    have come : ∃ other ∈ s.halts, other.time ≤ max now halt.time :=
      ⟨halt, List.mem_of_mem_head? hh, Nat.le_max_right _ _⟩
    exact .inr (congrArg some (endingAt_uniform h.uniform come))

/-- nothing of a whole stream comes too late -/
theorem WholeTill.there {s : Source} (h : s.WholeTill ending) (now : Instant) : s.there now = s.octets := by
  have none_late : ∀ a ∈ s.arrivals, a.isLate (s.noticed? now) = false := by
    intro a ha
    unfold noticed?
    cases hh : s.halts.head? with
    | none => rfl
    | some halt =>
      have early := h.before halt (by rw [hh]; rfl) a ha
      simp only [Arrival.isLate, Option.map_some, Option.any_some, decide_eq_false_iff_not, Nat.not_lt]
      exact Nat.le_trans early (Nat.le_max_right _ _)
  rw [Source.there, timely, List.takeWhile_eq_self_iff.2 (by simpa using none_late)]
  rfl

/-- what is gathered leaves arrivals of the moments that were there before -/
theorem gather_times {limit : Nat} {noticed : Option Instant} {arrivals : List Arrival} {a : Arrival}
    (h : a ∈ (gather limit noticed arrivals).rest) : ∃ b ∈ arrivals, b.time = a.time := by
  induction arrivals generalizing limit with
  | nil => cases h
  | cons c rest ih =>
    rw [gather] at h
    split at h
    · exact ⟨a, h, rfl⟩
    · dsimp only at h
      split at h
      · rcases List.mem_cons.1 h with rfl | h
        · exact ⟨c, List.mem_cons_self, rfl⟩
        · exact ⟨a, List.mem_cons_of_mem c h, rfl⟩
      · obtain ⟨b, hb, same⟩ := ih h
        exact ⟨b, List.mem_cons_of_mem c hb, same⟩

/-- **What is left of a whole stream is whole.** -/
theorem WholeTill.piece {s : Source} (h : s.WholeTill ending) (limit : Nat) (now : Instant) :
    (s.piece limit now).rest.WholeTill ending := by
  have halts := (piece_there limit now s).2.2
  refine ⟨by rw [halts]; exact h.uniform, fun halt hhalt a ha => ?_⟩
  rw [halts] at hhalt
  rw [arrivals_piece] at ha
  obtain ⟨b, hb, same⟩ := gather_times ha
  exact same ▸ h.before halt hhalt b hb

theorem WholeTill.discarded {s : Source} (h : s.WholeTill ending) (now : Instant) :
    (s.discardLine now).rest.WholeTill ending := by
  fun_induction discardLine now s with
  | case5 s r b bs hv goes_on ih => exact ih (h.piece _ _)
  | _ => exact h.piece _ _

theorem WholeTill.afterLine {s : Source} (h : s.WholeTill ending) (now : Instant) :
    (s.readLine now).rest.WholeTill ending := by
  unfold readLine
  have piece := h.piece lineLimit now
  dsimp only
  split
  · exact piece
  · exact piece
  · exact piece
  · split
    · exact piece
    · exact piece.discarded now

theorem WholeTill.afterBody {s : Source} (h : s.WholeTill ending) (max : Nat) (now : Instant) :
    (s.readBody max now).rest.WholeTill ending := by
  unfold readBody
  fun_induction readBodyFrom max now .initial s with
  | case5 sofar s r b bs hv goes_on ih => exact ih (h.piece _ _)
  | _ => exact h.piece _ _

/-! ## Reading a whole stream -/

/-- **A command line of a whole stream is its first line,** and what comes after that is left. -/
theorem WholeTill.readLine {s : Source} (h : s.WholeTill ending) {now : Instant}
    {result : Except ConnectionError Octets} (read : (s.readLine now).value = some result) :
    firstLine (some ending) s.octets = some result ∧ (s.readLine now).rest.octets = (splitLine s.octets).2 := by
  obtain ⟨value, left, -⟩ := readLine_there now s
  rw [h.there] at value left
  rw [(h.afterLine now).there] at left
  refine ⟨?_, left⟩
  rw [read] at value
  rcases h.noticed now with he | he <;> rw [he] at value
  · exact firstLine_of_none value.symm _
  · exact value.symm

/-- **A body of a whole stream is what its octets mean;** it has no end only where the stream ends before. -/
theorem WholeTill.readBody {s : Source} (h : s.WholeTill ending) {max : Nat} {now : Instant}
    {result : Except ConnectionError Body} (read : (s.readBody max now).value = some result) :
    (∃ octets, splitBody s.octets = some (octets, (s.readBody max now).rest.octets) ∧
      result = .ok (Body.within max octets)) ∨
    (splitBody s.octets = none ∧ result = .error ending.error) := by
  obtain ⟨value, left, -⟩ := readBody_there max now s
  rw [h.there] at value left
  rw [(h.afterBody max now).there] at left
  rw [read] at value
  cases split : splitBody s.octets with
  | none =>
    rw [split] at value
    rcases h.noticed now with he | he <;> rw [he] at value
    · cases value
    · exact .inr ⟨rfl, Option.some.inj value⟩
  | some r =>
    rw [split] at value left
    exact .inl ⟨r.1, by rw [left]; rfl, Option.some.inj value⟩

end Source
end LmtpRelay
