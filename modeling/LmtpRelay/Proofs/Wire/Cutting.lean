/-
Streams that differ in their cuts only. A stream gives each octet at a moment of its own, whatever arrives together with
it (`stamped`). Two streams that give the same octets at the same moments, and end alike, are one stream cut in two ways
(`Recut`). A reader finds the same in both at the same moment, and what it leaves of them differs in its cuts only:
`Recut.readLine`, `Recut.readBody`.
-/
import LmtpRelay.Proofs.Wire.Whole

namespace LmtpRelay

/-! ## Octets and their moments -/

/-- the octets of an arrival, each with its moment -/
def Arrival.stamped (a : Arrival) : List (Instant × UInt8) := a.octets.map fun b => (a.time, b)

def stamped (arrivals : List Arrival) : List (Instant × UInt8) := arrivals.flatMap Arrival.stamped

/-- arrivals come in order of time -/
def InOrder (arrivals : List Arrival) : Prop := arrivals.Pairwise fun a b => a.time ≤ b.time

theorem stamped_cons (a : Arrival) (rest : List Arrival) : stamped (a :: rest) = a.stamped ++ stamped rest := rfl

theorem stamped_length (a : Arrival) : a.stamped.length = a.octets.length := List.length_map _

theorem stamped_octets (arrivals : List Arrival) :
    (stamped arrivals).map Prod.snd = arrivals.flatMap Arrival.octets := by
  induction arrivals with
  | nil => rfl
  | cons a rest ih =>
    have here : a.stamped.map Prod.snd = a.octets := by
      rw [Arrival.stamped, List.map_map]
      exact List.map_id _
    rw [stamped_cons, List.map_append, here, ih, List.flatMap_cons]

theorem mem_stamped {arrivals : List Arrival} {o : Instant × UInt8} (h : o ∈ stamped arrivals) :
    ∃ a ∈ arrivals, a.time = o.1 := by
  obtain ⟨a, ha, here⟩ := List.mem_flatMap.1 h
  obtain ⟨b, -, rfl⟩ := List.mem_map.1 here
  exact ⟨a, ha, rfl⟩

/-- which octets come before the end is noticed depends on their moments alone -/
theorem timely_stamped (noticed : Option Instant) {arrivals : List Arrival} (ordered : InOrder arrivals) :
    timely noticed arrivals = ((stamped arrivals).takeWhile fun o => !noticed.any (· < o.1)).map Prod.snd := by
  induction arrivals with
  | nil => rfl
  | cons a rest ih =>
    obtain ⟨first, others⟩ := List.pairwise_cons.1 ordered
    rw [timely_cons]
    cases late : a.isLate noticed with
    | true =>
      -- all that comes later is late too
      have none_timely : (stamped (a :: rest)).takeWhile (fun o => !noticed.any (· < o.1)) = [] := by
        rw [List.takeWhile_eq_nil_iff]
        intro some_octets timely
        obtain ⟨b, hb, same⟩ := mem_stamped (List.getElem_mem some_octets)
        have after : a.time ≤ b.time := by
          rcases List.mem_cons.1 hb with rfl | hb
          · exact Nat.le_refl _
          · exact first b hb
        cases noticed with
        | none => cases late
        | some t =>
          have ended : t < a.time := by simpa [Arrival.isLate] using late
          have early : ¬t < b.time := by
            rw [same]
            simpa using timely
          exact early (Nat.lt_of_lt_of_le ended after)
      rw [none_timely]
      rfl
    | false =>
      have here : ∀ o ∈ a.stamped, (!noticed.any (· < o.1)) = true := by
        intro o ho
        obtain ⟨b, -, rfl⟩ := List.mem_map.1 ho
        rw [Bool.not_eq_true']
        exact late
      rw [if_neg Bool.false_ne_true, stamped_cons, List.takeWhile_append_of_pos here, List.map_append, ih others]
      congr 1
      rw [Arrival.stamped, List.map_map]
      exact (List.map_id _).symm

/-! ## Pieces -/

theorem gather_some {limit : Nat} (some_limit : limit ≠ 0) {noticed : Option Instant} {arrivals : List Arrival}
    (whole : (gather limit noticed arrivals).whole = true) : (gather limit noticed arrivals).piece ≠ [] := by
  obtain ⟨piece, -, same⟩ := gather_timely limit noticed arrivals
  intro nothing
  rw [same, ← piece, nothing] at whole
  have long : limit ≤ 0 := by simpa [isWhole, endsLine] using whole
  exact some_limit (Nat.le_zero.1 long)

/-- nothing is gathered after the end has been noticed -/
theorem gather_ready (limit : Nat) (t : Instant) (arrivals : List Arrival) :
    (gather limit (some t) arrivals).ready ≤ t := by
  induction arrivals generalizing limit with
  | nil => exact Nat.zero_le t
  | cons a rest ih =>
    rw [gather]
    split
    · exact Nat.zero_le t
    · next early =>
      have here : a.time ≤ t := by simpa [Arrival.isLate] using early
      dsimp only
      split
      · exact here
      · exact Nat.max_le.2 ⟨here, ih _⟩

theorem stamped_cut (limit : Nat) (a : Arrival) (rest : List Arrival) : stamped (a :: rest)
    = (cutLine limit a.octets).1.map (fun b => (a.time, b))
      ++ stamped (⟨a.time, (cutLine limit a.octets).2⟩ :: rest) := by
  have split : a.stamped = (cutLine limit a.octets).1.map (fun b => (a.time, b))
      ++ (cutLine limit a.octets).2.map (fun b => (a.time, b)) := by
    rw [← List.map_append, cutLine_append, Arrival.stamped]
  rw [stamped_cons, stamped_cons, split, List.append_assoc]
  rfl

/-- **A piece takes octets off the front,** and a whole one is ready when its last octet is there. -/
theorem gather_stamped {limit : Nat} (some_limit : limit ≠ 0) (noticed : Option Instant) {arrivals : List Arrival}
    (ordered : InOrder arrivals) : InOrder (gather limit noticed arrivals).rest ∧
      stamped (gather limit noticed arrivals).rest
        = (stamped arrivals).drop (gather limit noticed arrivals).piece.length ∧
      ((gather limit noticed arrivals).whole = true →
        ∃ b, (stamped arrivals)[(gather limit noticed arrivals).piece.length - 1]?
          = some ((gather limit noticed arrivals).ready, b)) := by
  induction arrivals generalizing limit with
  | nil => exact ⟨ordered, rfl, fun whole => absurd (by simpa [gather] using whole) some_limit⟩
  | cons a rest ih =>
    obtain ⟨first, others⟩ := List.pairwise_cons.1 ordered
    rw [gather]
    split
    · exact ⟨ordered, rfl, fun whole => absurd (by simpa using whole) some_limit⟩
    · dsimp only
      split
      · next whole =>
        obtain ⟨n, hn⟩ : ∃ n, (cutLine limit a.octets).1.length = n + 1 := by
          refine Nat.exists_eq_add_one_of_ne_zero fun none_cut => ?_
          rw [List.length_eq_zero_iff.1 none_cut] at whole
          exact some_limit (by simpa [endsLine] using whole)
        refine ⟨List.pairwise_cons.2 ⟨first, others⟩, ?_, fun _ => ?_⟩
        · rw [stamped_cut limit a, List.drop_left' (List.length_map _)]
        · have last : n < (cutLine limit a.octets).1.length := hn ▸ Nat.lt_succ_self n
          refine ⟨(cutLine limit a.octets).1[n], ?_⟩
          rw [stamped_cut limit a, hn, Nat.add_sub_cancel, List.getElem?_append_left (by rwa [List.length_map]),
            List.getElem?_map, List.getElem?_eq_getElem last]
          rfl
      · next partly =>
        have short := cutLine_short (Bool.eq_false_iff.2 partly)
        rw [short] at partly ⊢
        have shorter : a.octets.length < limit := by
          have not_long := (Bool.or_eq_false_iff.1 (Bool.eq_false_iff.2 partly)).2
          simpa using not_long
        have more : limit - a.octets.length ≠ 0 := Nat.sub_ne_zero_of_lt shorter
        obtain ⟨left_ordered, left, ready⟩ := ih more others
        refine ⟨left_ordered, ?_, fun whole => ?_⟩
        · rw [stamped_cons, List.length_append, ← stamped_length, ← List.drop_drop, List.drop_left, stamped_length]
          exact left
        · obtain ⟨b, last⟩ := ready whole
          obtain ⟨n, hn⟩ := Nat.exists_eq_add_one_of_ne_zero
            fun nothing => gather_some more whole (List.length_eq_zero_iff.1 nothing)
          obtain ⟨c, hc, same⟩ := mem_stamped (List.mem_of_getElem? last)
          have after : a.time ≤ (gather (limit - a.octets.length) noticed rest).ready := by
            have later := first c hc
            rwa [same] at later
          refine ⟨b, ?_⟩
          rw [Nat.max_eq_right after, List.length_append, hn, ← Nat.add_assoc, Nat.add_sub_cancel, stamped_cons,
            List.getElem?_append_right (by rw [stamped_length]; exact Nat.le_add_right _ _), stamped_length,
            Nat.add_sub_cancel_left, ← last, hn, Nat.add_sub_cancel]

/-! ## Reads -/

/-- two reads come to the same at the same moment, and what they leave is related -/
structure Read.Agrees {α : Type} (R : Source → Source → Prop) (r r' : Read α) : Prop where
  value : r'.value = r.value
  /-- a read that never ends is never ready -/
  ready : r.value ≠ none → r'.ready = r.ready
  rest : R r.rest r'.rest

namespace Read

variable {α β : Type} {R : Source → Source → Prop} {r r' : Read α}

theorem Agrees.after (h : Agrees R r r') (t : Instant) : Agrees R (r.after t) (r'.after t) :=
  ⟨h.value, fun some_value => congrArg (max t) (h.ready some_value), h.rest⟩

theorem Agrees.map (h : Agrees R r r') (f : α → β) : Agrees R (r.map f) (r'.map f) :=
  ⟨congrArg (Option.map f) h.value, fun some_value => h.ready fun none_value => some_value (by simp [Read.map, none_value]),
    h.rest⟩

theorem Agrees.within (h : Agrees R r r') (now deadline : Instant) : r'.within now deadline = r.within now deadline := by
  unfold Read.within
  rw [h.value]
  cases value : r.value with
  | none => split <;> split <;> rfl
  | some result => rw [h.ready (by simp [value])]

theorem within_some {now deadline : Instant} {result : α} (h : r.within now deadline = some result) :
    r.value = some result := by
  unfold Read.within at h
  split at h
  · exact h
  · cases h

end Read

/-! ## Streams -/

namespace Source

/-- two streams give the same octets at the same moments and end alike -/
structure Recut (s s' : Source) : Prop where
  stamped : stamped s'.arrivals = LmtpRelay.stamped s.arrivals
  halts : s'.halts = s.halts
  ordered : InOrder s.arrivals
  ordered' : InOrder s'.arrivals

variable {s s' : Source}

theorem piece_rest (limit : Nat) (now : Instant) (s : Source) :
    (s.piece limit now).rest = { s with arrivals := (gather limit (s.noticed? now) s.arrivals).rest } := by
  have halts := (piece_there limit now s).2.2
  have arrivals := arrivals_piece limit now s
  cases hr : (s.piece limit now).rest with
  | mk a h =>
    rw [hr] at halts arrivals
    obtain rfl : h = s.halts := halts
    obtain rfl : a = _ := arrivals
    rfl

theorem Recut.octets (h : s.Recut s') : s'.octets = s.octets := by
  rw [Source.octets, Source.octets, ← stamped_octets, ← stamped_octets, h.stamped]

theorem Recut.noticed (h : s.Recut s') (now : Instant) : s'.noticed? now = s.noticed? now := by
  rw [noticed?, noticed?, h.halts]

theorem Recut.there (h : s.Recut s') (now : Instant) : s'.there now = s.there now := by
  rw [Source.there, Source.there, h.noticed, timely_stamped _ h.ordered, timely_stamped _ h.ordered', h.stamped]

theorem Recut.ending (h : s.Recut s') (now : Instant) : s'.ending? now = s.ending? now := by
  rw [ending?, ending?, h.noticed, h.halts]

theorem Recut.gathered (h : s.Recut s') (limit : Nat) (noticed : Option Instant) :
    (gather limit noticed s'.arrivals).piece = (gather limit noticed s.arrivals).piece ∧
      (gather limit noticed s'.arrivals).whole = (gather limit noticed s.arrivals).whole := by
  obtain ⟨piece, -, whole⟩ := gather_timely limit noticed s.arrivals
  obtain ⟨piece', -, whole'⟩ := gather_timely limit noticed s'.arrivals
  rw [timely_stamped noticed h.ordered] at piece whole
  rw [timely_stamped noticed h.ordered', h.stamped] at piece' whole'
  exact ⟨piece'.trans piece.symm, whole'.trans whole.symm⟩

/-- **A piece is the same, however the stream is cut.** -/
theorem Recut.piece (h : s.Recut s') {limit : Nat} (some_limit : limit ≠ 0) (now : Instant) :
    Read.Agrees Recut (s.piece limit now) (s'.piece limit now) := by
  obtain ⟨same, wholes⟩ := h.gathered limit (s.noticed? now)
  obtain ⟨ordered, left, ready⟩ := gather_stamped some_limit (s.noticed? now) h.ordered
  obtain ⟨ordered', left', ready'⟩ := gather_stamped some_limit (s.noticed? now) h.ordered'
  have rest : Recut { s with arrivals := (gather limit (s.noticed? now) s.arrivals).rest }
      { s' with arrivals := (gather limit (s.noticed? now) s'.arrivals).rest } :=
    ⟨by rw [left, left', h.stamped, same], h.halts, ordered, ordered'⟩
  have value := (piece_there limit now s).1
  have value' := (piece_there limit now s').1
  rw [h.there, h.ending] at value'
  refine ⟨value'.trans value.symm, ?_, ?_⟩
  · unfold Source.piece
    dsimp only
    rw [h.noticed, wholes, h.halts]
    cases whole : (gather limit (s.noticed? now) s.arrivals).whole with
    | true =>
      intro _
      obtain ⟨b, last⟩ := ready whole
      obtain ⟨b', last'⟩ := ready' (wholes.trans whole)
      rw [same, h.stamped, last] at last'
      exact (Prod.mk.inj (Option.some.inj last')).1.symm
    | false =>
      cases s.noticed? now with
      | none => exact fun some_value => absurd rfl some_value
      | some t =>
        -- what is not whole is known to be so when the end is noticed
        have early := Nat.max_eq_right (gather_ready limit t s.arrivals)
        have early' := Nat.max_eq_right (gather_ready limit t s'.arrivals)
        intro _
        dsimp only
        cases endingAt t s.halts with
        | closed => exact early'.trans early.symm
        | failure f => exact early'.trans early.symm
  · rw [piece_rest, piece_rest, h.noticed]
    exact rest

/-! ## Lines and bodies -/

theorem discardLine_eq (now : Instant) (s : Source) :
    s.discardLine now = match (s.piece lineLimit now).value with
      | none => ⟨none, (s.piece lineLimit now).ready, (s.piece lineLimit now).rest⟩
      | some (.error f) => ⟨some (.error (.io f)), (s.piece lineLimit now).ready, (s.piece lineLimit now).rest⟩
      | some (.ok []) => ⟨some (.error .closed), (s.piece lineLimit now).ready, (s.piece lineLimit now).rest⟩
      | some (.ok (b :: bs)) =>
        if endsLine (b :: bs) then ⟨some (.ok ()), (s.piece lineLimit now).ready, (s.piece lineLimit now).rest⟩
        else ((s.piece lineLimit now).rest.discardLine now).after (s.piece lineLimit now).ready := by
  rw [discardLine]
  split <;> simp only [*]

theorem readBodyFrom_eq (max : Nat) (now : Instant) (sofar : BodySoFar) (s : Source) :
    s.readBodyFrom max now sofar = match (s.piece bodyPieceLimit now).value with
      | none => ⟨none, (s.piece bodyPieceLimit now).ready, (s.piece bodyPieceLimit now).rest⟩
      | some (.error f) =>
        ⟨some (.error (.io f)), (s.piece bodyPieceLimit now).ready, (s.piece bodyPieceLimit now).rest⟩
      | some (.ok []) =>
        ⟨some (.error .closed), (s.piece bodyPieceLimit now).ready, (s.piece bodyPieceLimit now).rest⟩
      | some (.ok (b :: bs)) =>
        if sofar.atStart && isTerminator (b :: bs) then
          ⟨some (.ok (sofar.body max)), (s.piece bodyPieceLimit now).ready, (s.piece bodyPieceLimit now).rest⟩
        else ((s.piece bodyPieceLimit now).rest.readBodyFrom max now (sofar.add max (b :: bs))).after
          (s.piece bodyPieceLimit now).ready := by
  rw [readBodyFrom]
  split <;> simp only [*]

theorem Recut.discardLine (h : s.Recut s') (now : Instant) :
    Read.Agrees Recut (s.discardLine now) (s'.discardLine now) := by
  induction hn : s.size using Nat.strongRecOn generalizing s s' with
  | _ n ih =>
    obtain ⟨value, ready, rest⟩ := h.piece (by decide : lineLimit ≠ 0) now
    rw [discardLine_eq now s, discardLine_eq now s', value]
    split
    · exact ⟨rfl, fun some_value => absurd rfl some_value, rest⟩
    · next hv => exact ⟨rfl, fun _ => ready (by simp [hv]), rest⟩
    · next hv => exact ⟨rfl, fun _ => ready (by simp [hv]), rest⟩
    · next b bs hv =>
      have same := ready (by simp [hv])
      split
      · exact ⟨rfl, fun _ => same, rest⟩
      · exact same ▸ (ih _ (hn ▸ size_piece_lt hv) rest rfl).after _

theorem Recut.readBodyFrom (h : s.Recut s') (max : Nat) (now : Instant) (sofar : BodySoFar) :
    Read.Agrees Recut (s.readBodyFrom max now sofar) (s'.readBodyFrom max now sofar) := by
  induction hn : s.size using Nat.strongRecOn generalizing s s' sofar with
  | _ n ih =>
    obtain ⟨value, ready, rest⟩ := h.piece (by decide : bodyPieceLimit ≠ 0) now
    rw [readBodyFrom_eq max now sofar s, readBodyFrom_eq max now sofar s', value]
    split
    · exact ⟨rfl, fun some_value => absurd rfl some_value, rest⟩
    · next hv => exact ⟨rfl, fun _ => ready (by simp [hv]), rest⟩
    · next hv => exact ⟨rfl, fun _ => ready (by simp [hv]), rest⟩
    · next b bs hv =>
      have same := ready (by simp [hv])
      split
      · exact ⟨rfl, fun _ => same, rest⟩
      · exact same ▸ (ih _ (hn ▸ size_piece_lt hv) rest (sofar.add max (b :: bs)) rfl).after _

/-- **A command line is the same, however the stream is cut.** -/
theorem Recut.readLine (h : s.Recut s') (now : Instant) :
    Read.Agrees Recut (s.readLine now) (s'.readLine now) := by
  obtain ⟨value, ready, rest⟩ := h.piece (by decide : lineLimit ≠ 0) now
  unfold Source.readLine
  dsimp only
  rw [value]
  split
  · exact ⟨rfl, fun some_value => absurd rfl some_value, rest⟩
  · next hv => exact ⟨rfl, fun _ => ready (by simp [hv]), rest⟩
  · next hv => exact ⟨rfl, fun _ => ready (by simp [hv]), rest⟩
  · next piece _ hv =>
    have same := ready (by simp [hv])
    split
    · exact ⟨rfl, fun _ => same, rest⟩
    · rw [same]
      exact ((rest.discardLine now).map _).after _

/-- **A body is the same, however the stream is cut.** -/
theorem Recut.readBody (h : s.Recut s') (max : Nat) (now : Instant) :
    Read.Agrees Recut (s.readBody max now) (s'.readBody max now) := h.readBodyFrom max now .initial

end Source
end LmtpRelay
