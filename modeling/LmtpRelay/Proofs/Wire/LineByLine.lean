/-
Lines read one after another. Whoever knows the segments of a stream knows all that a reader of lines ever gets from
it: the k-th read is about the k-th segment and about nothing else (`readLines_segments`). A segment that is too long
is taken as a whole, so that no part of it is ever taken for a line, and once the segments are used up every read says
that the stream is closed. When the reads begin and how the stream is cut into arrivals does not matter.
-/
import LmtpRelay.Proofs.Wire.Segments
import LmtpRelay.Proofs.Wire.Whole

namespace LmtpRelay

/-! ## What a segment stands for -/

/-- a segment without the carriage returns and line feeds at its end -/
def lineText (segment : Octets) : Octets := segment.rdropWhile fun b => b = Octets.cr ∨ b = Octets.lf

/-- what a segment is to a reader of lines: its text, where it is not too long; a last segment that has no end has to be
shorter than a line may be -/
def lineMeant (segment : Octets) : Except ConnectionError Octets :=
  if segment.getLast? = some Octets.lf then
    if segment.length ≤ lineLimit then .ok (lineText segment) else .error (.lineTooLong lineLimit)
  else if segment.length < lineLimit then .ok (lineText segment)
  else .error .closed

/-- what the k-th read is to be, where there are as many segments or not -/
def lineAt (stream : List Octets) (k : Nat) : Except ConnectionError Octets :=
  match stream[k]? with
  | some segment => lineMeant segment
  | none => .error .closed

/-- one more octet at the end is dropped, or ends the text -/
theorem dropLineEnd_concat (bs : Octets) (b : UInt8) :
    dropLineEnd (bs ++ [b]) = if isLineEnd b then dropLineEnd bs else bs ++ [b] := by
  induction bs with
  | nil => rfl
  | cons c cs ih =>
    rw [List.cons_append, dropLineEnd, ih]
    by_cases hb : isLineEnd b = true
    · rw [if_pos hb, if_pos hb, dropLineEnd]
    · rw [if_neg hb, if_neg hb]
      cases cs <;> rfl

theorem dropLineEnd_eq (bs : Octets) : dropLineEnd bs = lineText bs := by
  induction bs using List.reverseRecOn with
  | nil => rfl
  | append_singleton bs b ih =>
    rw [dropLineEnd_concat, ih, lineText, lineText, List.rdropWhile_concat]
    simp [isLineEnd]

theorem firstLine_segments (bs : Octets) : firstLine (some .closed) bs = some (lineAt (segments bs) 0) := by
  by_cases nothing : bs = []
  · rw [nothing]
    rfl
  · rw [segments_splitLine nothing]
    show firstLine _ _ = some (lineMeant (splitLine bs).1)
    rw [firstLine, lineMeant]
    cases ends : endsLine (splitLine bs).1 with
    | true => rw [if_pos rfl, if_pos (of_decide_eq_true ends), dropLineEnd_eq]
    | false =>
      have last : (splitLine bs).1 = bs := congrArg Prod.fst (splitLine_last ends)
      have open_end : ¬(splitLine bs).1.getLast? = some Octets.lf := of_decide_eq_false ends
      rw [if_neg Bool.false_ne_true, if_neg open_end, last, Option.map_some, dropLineEnd_eq]
      by_cases short : bs.length < lineLimit
      · rw [if_pos ⟨rfl, nothing, short⟩, if_pos short]
      · rw [if_neg fun h => short h.2.2, if_neg short]
        rfl

/-- what comes after the first line is the other segments -/
theorem segments_tail (bs : Octets) : segments (splitLine bs).2 = (segments bs).tail := by
  by_cases nothing : bs = []
  · rw [nothing]
    rfl
  · rw [segments_splitLine nothing, List.tail_cons]

/-! ## One read after another -/

namespace Source

/-- lines are read one after another, each from its own moment on: what the reads come to, and what they leave -/
def readLines (s : Source) : List Instant → List (Option (Except ConnectionError Octets)) × Source
  | [] => ([], s)
  | now :: later =>
    let r := s.readLine now
    (r.value :: (r.rest.readLines later).1, (r.rest.readLines later).2)

/-- a stream that ends by being closed -/
structure EndsCleanly (s : Source) : Prop where
  whole : s.Whole
  ends : s.halts ≠ []

theorem EndsCleanly.ending {s : Source} (h : s.EndsCleanly) (now : Instant) : s.ending? now = some .closed := by
  refine (h.whole.till.noticed now).resolve_left fun silent => ?_
  rw [ending?, noticed?, Option.map_map, Option.map_eq_none_iff, List.head?_eq_none_iff] at silent
  exact h.ends silent

theorem EndsCleanly.afterLine {s : Source} (h : s.EndsCleanly) (now : Instant) : (s.readLine now).rest.EndsCleanly := by
  have whole := h.whole.till.afterLine now
  refine ⟨⟨whole.uniform, whole.before⟩, ?_⟩
  rw [(readLine_there now s).2.2]
  exact h.ends

/-- **A read is about the first segment,** and the next begins at the segment after it. -/
theorem EndsCleanly.readLine {s : Source} (h : s.EndsCleanly) (now : Instant) :
    (s.readLine now).value = some (lineAt (segments s.octets) 0) ∧
      segments (s.readLine now).rest.octets = (segments s.octets).tail := by
  obtain ⟨value, left, -⟩ := readLine_there now s
  rw [h.whole.till.there] at value left
  rw [(h.whole.till.afterLine now).there] at left
  rw [h.ending, firstLine_segments] at value
  exact ⟨value, by rw [left, segments_tail]⟩

/-- **Reads and segments correspond one to one.** The k-th of any number of reads, each from any moment on, is what the
k-th segment stands for; where there is no such segment, the stream is closed. What is left is the other segments. -/
theorem readLines_segments {s : Source} (ends : s.EndsCleanly) (moments : List Instant) :
    (s.readLines moments).1 = (List.range moments.length).map (fun k => some (lineAt (segments s.octets) k)) ∧
      segments (s.readLines moments).2.octets = (segments s.octets).drop moments.length ∧
      (s.readLines moments).2.octets = ((segments s.octets).drop moments.length).flatten := by
  suffices both : (s.readLines moments).1
        = (List.range moments.length).map (fun k => some (lineAt (segments s.octets) k)) ∧
      segments (s.readLines moments).2.octets = (segments s.octets).drop moments.length by
    exact ⟨both.1, both.2, by rw [← both.2, flatten_segments]⟩
  induction moments generalizing s with
  | nil => exact ⟨rfl, rfl⟩
  | cons now later ih =>
    obtain ⟨value, left⟩ := ends.readLine now
    obtain ⟨values, rest⟩ := ih (ends.afterLine now)
    rw [left] at values rest
    have others : ∀ k, lineAt (segments s.octets).tail k = lineAt (segments s.octets) (k + 1) := fun k => by
      rw [lineAt, lineAt, List.getElem?_tail]
    refine ⟨?_, ?_⟩
    · show (s.readLine now).value :: _ = _
      rw [value, values, List.length_cons, List.range_succ_eq_map, List.map_cons, List.map_map]
      simp only [others]
      rfl
    · show segments ((s.readLine now).rest.readLines later).2.octets = _
      rw [rest, List.length_cons, ← List.drop_one, List.drop_drop, Nat.add_comm]

namespace Sample

/-- a line of 1001 octets, one of 1000 octets and one without an end, cut within the first line and just in front of the
line feed of the second -/
def lengths : Source :=
  ⟨[⟨1, List.replicate 600 97⟩, ⟨2, List.replicate 400 97 ++ Octets.lf :: List.replicate 998 98 ++ [Octets.cr]⟩,
    ⟨5, Octets.lf :: Octets.ofText "QUIT\r"⟩], [⟨9, .closed⟩]⟩

end Sample

/-- a line that is too long by one octet, one that is just short enough, one that the end of the stream ends, and then
nothing more -/
theorem readLines_segments_lengths : Sample.lengths.EndsCleanly ∧
    (Sample.lengths.readLines [0, 2, 3, 7, 9]).1 = [some (.error (.lineTooLong 1000)),
      some (.ok (List.replicate 998 98)), some (.ok (Octets.ofText "QUIT")), some (.error .closed),
      some (.error .closed)] ∧
    (Sample.lengths.readLines [0, 2]).2.octets = Octets.ofText "QUIT\r" := by
  have ends : Sample.lengths.EndsCleanly := ⟨⟨by decide, by decide⟩, by decide⟩
  refine ⟨ends, (readLines_segments ends [0, 2, 3, 7, 9]).1.trans ?_, (readLines_segments ends [0, 2]).2.2.trans ?_⟩
  · decide +kernel
  · decide +kernel

end Source
end LmtpRelay
