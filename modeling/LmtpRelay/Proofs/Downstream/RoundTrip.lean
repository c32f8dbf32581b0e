/-
A message on its way through the relay and back. The client writes a message in pieces, doubles the full stop at the
start of each line and puts the end after it; where the last line of the message has no end, the one in front of the
end is taken for it. `wireBody` is what is written in all, and does not know the pieces; `delivered` is the message that
a reader makes of it.

- `splitBody_wireBody`: what the octets mean, with anything after them.
- `Client.data_round_trip`: the client's writes, and whoever reads what they come to.
-/
import LmtpRelay.Proofs.Downstream.Synchrony

namespace LmtpRelay

/-! ## A message and what is written of it -/

/-- a message and its end, as they are written -/
def wireBody (message : Octets) : Octets := (stuff true message).1 ++ terminator (stuff true message).2

/-- the message that arrives: its last line has an end -/
def delivered (message : Octets) : Octets :=
  if message = [] ∨ message.getLast? = some Octets.lf then message else message ++ Octets.crlf

/-- after some octets a line begins exactly where they end one -/
theorem stuff_snd (atStart : Bool) {bs : Octets} (some_octets : bs ≠ []) : (stuff atStart bs).2 = endsLine bs := by
  induction bs generalizing atStart with
  | nil => exact absurd rfl some_octets
  | cons b bs ih =>
    cases bs with
    | nil => simp [stuff, endsLine]
    | cons c cs =>
      rw [endsLine_cons b (List.cons_ne_nil c cs)]
      exact ih (decide (b = Octets.lf)) (List.cons_ne_nil c cs)

theorem delivered_whole (message : Octets) : IsWhole (delivered message) := by
  unfold delivered
  split
  · next whole => exact whole.imp_right decide_eq_true
  · exact .inr (endsLine_append (by decide) message)

theorem delivered_length (message : Octets) : (delivered message).length ≤ message.length + 2 := by
  unfold delivered
  split
  · exact Nat.le_add_right _ _
  · exact Nat.le_of_eq List.length_append

/-- **The line feed in front of the end** belongs to the last line of the message, where that has none of its own. -/
theorem wireBody_delivered (message : Octets) :
    wireBody message = (stuff true (delivered message)).1 ++ terminator true := by
  unfold wireBody delivered
  split
  · next whole => rw [stuff_whole (whole.imp_right decide_eq_true)]
  · next open_end =>
    obtain ⟨some_octets, unended⟩ := not_or.1 open_end
    have middle : (stuff true message).2 = false :=
      (stuff_snd true some_octets).trans (decide_eq_false unended)
    calc (stuff true message).1 ++ terminator (stuff true message).2
        = (stuff true message).1 ++ (Octets.crlf ++ terminator true) := by rw [middle]; rfl
      _ = (stuff true message).1 ++ (stuff (stuff true message).2 Octets.crlf).1 ++ terminator true := by
        rw [middle, List.append_assoc]
        rfl
      _ = (stuff true (message ++ Octets.crlf)).1 ++ terminator true := by rw [stuff_append]

/-! ## Reading it back -/

theorem Source.plain_there (now : Instant) (bs : Octets) : (plain bs).there now = bs := List.append_nil bs

/-- **What is written of a message means that message,** and nothing of what comes after it. -/
theorem splitBody_wireBody (message tail : Octets) :
    splitBody (wireBody message ++ tail) = some (delivered message, tail) := by
  have whole := delivered_whole message
  obtain ⟨value, rest⟩ := Source.readBody_stuffed 0 whole (Nat.le_refl _) tail
  obtain ⟨meant, left, -⟩ := Source.readBody_there (delivered message).length 0
    (Source.plain ((stuff true (delivered message)).1 ++ (terminator true ++ tail)))
  rw [value, Source.plain_there, ← List.append_assoc, ← wireBody_delivered] at meant
  rw [rest, Source.plain_there, Source.plain_there, ← List.append_assoc, ← wireBody_delivered] at left
  cases split : splitBody (wireBody message ++ tail) with
  | none =>
    rw [split] at meant
    have unread : Source.bodyRead (Body.within (delivered message).length)
        ((Source.plain (wireBody message ++ tail)).ending? 0) none = none := rfl
    rw [unread] at meant
    cases meant
  | some r =>
    rw [split] at meant left
    have body : Body.complete (delivered message) = Body.within (delivered message).length r.1 :=
      Except.ok.inj (Option.some.inj meant)
    exact congrArg some (Prod.ext (Body.within_complete.1 body.symm).1 left.symm)

namespace Client

variable {π : Type}

/-- **A message comes back from the octets that are written of it.** Let a body come and write it in any pieces, at any
moments; then end it. What is written depends on the message alone and not on its pieces. Whoever finds these octets at
the front of a stream, however that is cut and whatever comes after them, reads the message, with an end of its last
line, and leaves what comes after. -/
theorem data_round_trip {c : Client π} {now : Instant} (letCome : (data now c).value = .ok ())
    (pieces : List (Instant × Octets)) (last : Instant) :
    let message := (pieces.map Prod.snd).flatten
    (finish last ((data now c).next.writeAll pieces)).closed.sent = (data now c).next.sent ++ wireBody message ∧
    (∀ (pieces' : List (Instant × Octets)) (last' : Instant), (pieces'.map Prod.snd).flatten = message →
      (finish last' ((data now c).next.writeAll pieces')).closed.sent
        = (finish last ((data now c).next.writeAll pieces)).closed.sent) ∧
    ∀ (tail : Octets) (max : Nat) (moment : Instant) (s : Source), message.length + 2 ≤ max →
      s.there moment = wireBody message ++ tail →
      (s.readBody max moment).value = some (.ok (.complete (delivered message))) ∧
      (s.readBody max moment).rest.there moment = tail ∧
      s.octets = wireBody message ++ (s.readBody max moment).rest.octets := by
  intro message
  have atStart := (data_ok now c letCome).2
  have opened := (data_able letCome).1
  have written : ∀ (pieces : List (Instant × Octets)) (last : Instant),
      (finish last ((data now c).next.writeAll pieces)).closed.sent
        = (data now c).next.sent ++ wireBody (pieces.map Prod.snd).flatten := by
    intro pieces last
    obtain ⟨kept, sent, middle, -⟩ := writeAll_converses opened pieces
    rw [atStart] at sent middle
    rw [(finish_sent (kept.shut.trans opened) last).1, sent, middle, List.append_assoc]
    rfl
  refine ⟨written pieces last, fun pieces' last' same => ?_, fun tail max moment s fits front => ?_⟩
  · rw [written pieces' last', written pieces last, same]
  · obtain ⟨value, left, -⟩ := Source.readBody_there max moment s
    rw [front, splitBody_wireBody] at value left
    refine ⟨value.trans ?_, left, ?_⟩
    · have within : Body.within max (delivered message) = .complete (delivered message) :=
        Body.within_complete.2 ⟨rfl, Nat.le_trans (delivered_length message) fits⟩
      exact congrArg (some ∘ Except.ok) within
    · calc s.octets
          = wireBody message ++ tail ++ s.missed moment := by rw [← front, Source.there_append_missed]
        _ = wireBody message ++ (tail ++ s.missed moment) := List.append_assoc _ _ _
        _ = wireBody message ++ (s.readBody max moment).rest.octets := by
          rw [← Source.there_append_missed moment (s.readBody max moment).rest, Source.readBody_missed, left]
          rfl

namespace Sample

def named : Client Rehearsal.Server :=
  Opening.Sample.client.performAll [.mail 10 "a@x" .empty, .rcpt 20 "p@f"]

/-- pieces of a message that has a line like the end of a message, and a last line without an end; cut within a line
end, in front of a full stop, and around nothing -/
def cuttings : List (Instant × Octets) :=
  [(40, Octets.ofText "..a\r"), (41, []), (42, Octets.ofText "\n"), (43, Octets.ofText ".\r\n.b")]

/-- what is written of the pieces, in arrivals of its own and with a command after it -/
def arriving : Source :=
  ⟨[⟨1, Octets.ofText "...a\r\n."⟩, ⟨2, Octets.ofText ".\r\n..b\r"⟩, ⟨3, Octets.ofText "\n.\r\nNOOP\r\n"⟩], []⟩

end Sample

/-- the message in pieces, and what a reader makes of it -/
theorem data_round_trip_cuttings :
    (data 30 Sample.named).value = .ok () ∧
    (finish 60 ((data 30 Sample.named).next.writeAll Sample.cuttings)).closed.sent
      = (data 30 Sample.named).next.sent ++ Octets.ofText "...a\r\n..\r\n..b\r\n.\r\n" ∧
    (Sample.arriving.readBody 12 0).value = some (.ok (.complete (Octets.ofText "..a\r\n.\r\n.b\r\n"))) ∧
    (Sample.arriving.readBody 12 0).rest.there 0 = Octets.ofText "NOOP\r\n" := by
  have letCome : (data 30 Sample.named).value = .ok () := by cbv
  have fits : (Sample.cuttings.map Prod.snd).flatten.length + 2 ≤ 12 := by decide
  have front : Sample.arriving.there 0
      = wireBody (Sample.cuttings.map Prod.snd).flatten ++ Octets.ofText "NOOP\r\n" := by decide
  have written : wireBody (Sample.cuttings.map Prod.snd).flatten
      = Octets.ofText "...a\r\n..\r\n..b\r\n.\r\n" := by decide
  have arrives : delivered (Sample.cuttings.map Prod.snd).flatten = Octets.ofText "..a\r\n.\r\n.b\r\n" := by decide
  obtain ⟨sent, -, reads⟩ := data_round_trip letCome Sample.cuttings 60
  obtain ⟨value, left, -⟩ := reads (Octets.ofText "NOOP\r\n") 12 0 Sample.arriving fits front
  rw [written] at sent
  rw [arrives] at value
  exact ⟨letCome, sent, value, left⟩

end Client
end LmtpRelay
