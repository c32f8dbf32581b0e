/-
The answers to a body. After its end the server answers once for each recipient that it accepted. `readAnswers` says
which answers there are, read one after another from what the server sends, and what ends the reading: all have been
read, reading failed, or the wait for the statuses was over first.

What the client reports in time is one status for each of these answers, in order, and where reading failed the same
failure for each recipient that is left: `reported_answers`.
-/
import LmtpRelay.Proofs.Session.Transfer

namespace LmtpRelay

/-- what ends the reading of answers -/
inductive Stop where
  /-- there is an answer for each recipient -/
  | all
  /-- the stream ended, a line was no reply, or an answer took too long -/
  | failed
  /-- the wait for the statuses was over -/
  | waited
  deriving DecidableEq, Repr

/-- when an answer has been read, or given up -/
def answerTime (limit now : Instant) (r : Read (Except DownstreamError Response)) : Instant :=
  if (r.within now (now + limit)).isSome then max now r.ready else now + limit

/-- the answers for `n` recipients, read from `now` on with a limit for each, while the wait for the statuses lasts from
its beginning to its deadline; and what ends the reading -/
def readAnswers (limit opened deadline : Instant) : Nat → Instant → Source → List Response × Stop
  | 0, _, _ => ([], .all)
  | n + 1, now, s =>
    let r := s.readResponse now
    let time := answerTime limit now r
    if inTime opened deadline time then
      match r.within now (now + limit) with
      | some (.ok response) =>
        let (more, stop) := readAnswers limit opened deadline n time r.rest
        (response :: more, stop)
      | _ => ([], .failed)
    else ([], .waited)

/-! ## How many there are -/

theorem readAnswers_length (limit opened deadline : Instant) (n : Nat) (now : Instant) (s : Source) :
    (readAnswers limit opened deadline n now s).1.length ≤ n ∧
      ((readAnswers limit opened deadline n now s).2 = .all ↔
        (readAnswers limit opened deadline n now s).1.length = n) := by
  induction n generalizing now s with
  | zero => simp [readAnswers]
  | succ n ih =>
    rw [readAnswers]
    dsimp only
    split
    · split
      · obtain ⟨short, all⟩ := ih (answerTime limit now (s.readResponse now)) (s.readResponse now).rest
        refine ⟨by simpa using short, ?_⟩
        simpa using all
      · simp
    · simp

/-! ## Time -/

/-- what is not in time for a deadline is not so later either -/
theorem inTime_mono {opened deadline t t' : Instant} (late : inTime opened deadline t = false) (h : t ≤ t') :
    inTime opened deadline t' = false := by
  unfold inTime at *
  simp only [Bool.or_eq_false_iff, decide_eq_false_iff_not, Nat.not_le, Nat.not_lt] at *
  exact ⟨Nat.lt_of_lt_of_le late.1 h, Nat.le_trans late.2 h⟩

namespace Client

variable {π : Type}

/-- waiting for a response takes until the answer has been read, or given up -/
theorem await_time (c : Client π) (now limit : Instant) (step : String) :
    now + (c.await now (now + limit) step).1.took = answerTime limit now (c.source.readResponse now) := by
  unfold await answerTime
  dsimp only
  split
  · next h =>
    rw [h, if_pos (by rfl)]
    calc now + ((c.source.readResponse now).ready - now)
        = (c.source.readResponse now).ready - now + now := Nat.add_comm _ _
      _ = max (c.source.readResponse now).ready now := Nat.sub_add_eq_max _ _
      _ = max now (c.source.readResponse now).ready := Nat.max_comm _ _
  · next h =>
    rw [h, if_neg (by simp)]
    exact congrArg (now + ·) (Nat.add_sub_cancel_left now limit)

theorem await_source (c : Client π) (now deadline : Instant) (step : String) :
    (c.await now deadline step).2.source = (c.source.readResponse now).rest := by
  unfold await
  dsimp only
  split <;> rfl

theorem await_value (c : Client π) (now deadline : Instant) (step : String) :
    (c.await now deadline step).1.value
      = ((c.source.readResponse now).within now deadline).getD (.error (.timeout step)) := by
  unfold await
  dsimp only
  split
  · next h => rw [h]; rfl
  · next h => rw [h]; rfl

/-- no report is made before the reading begins, and none after it ends -/
theorem readStatuses_times (c : Client π) (now : Instant) (recipients : List String) :
    now ≤ (c.readStatuses now recipients).2.1 ∧
      ∀ b ∈ (c.readStatuses now recipients).1, now ≤ b.time ∧ b.time ≤ (c.readStatuses now recipients).2.1 := by
  induction recipients generalizing c now with
  | nil => exact ⟨Nat.le_refl _, nofun⟩
  | cons recipient rest ih =>
    rw [readStatuses]
    dsimp only
    split
    · refine ⟨Nat.le_add_right _ _, ?_⟩
      intro b hb
      obtain rfl := List.mem_singleton.1 hb
      exact ⟨Nat.le_add_right _ _, Nat.le_refl _⟩
    · obtain ⟨later, between⟩ := ih (c.await now (now + seconds c.timeouts.dataSecs) "DATA").2
        (now + (c.await now (now + seconds c.timeouts.dataSecs) "DATA").1.took)
      refine ⟨Nat.le_trans (Nat.le_add_right _ _) later, ?_⟩
      intro b hb
      rcases List.mem_cons.1 hb with rfl | hb
      · exact ⟨Nat.le_add_right _ _, later⟩
      · obtain ⟨lower, upper⟩ := between b hb
        exact ⟨Nat.le_trans (Nat.le_add_right _ _) lower, upper⟩

/-! ## Reports -/

/-- the statuses that answers are worth, and the failure that is left to the other recipients where reading failed -/
def statuses (n : Nat) (answers : List Response × Stop) (detail : String) : List (Except ForwardError Unit) :=
  answers.1.map (fun response => judged (.ok response)) ++
    if answers.2 = .failed then List.replicate (n - answers.1.length) (.error (.unavailable detail)) else []

/-- a status for each recipient, as far as there are any -/
def events (recipients : List String) (results : List (Except ForwardError Unit)) : List StatusEvent :=
  List.zipWith StatusEvent.mk recipients results

theorem events_nil (recipients : List String) : events recipients [] = [] := List.zipWith_nil_right

theorem events_replicate (recipients : List String) (result : Except ForwardError Unit) :
    events recipients (List.replicate recipients.length result) = recipients.map (⟨·, result⟩) := by
  induction recipients with
  | nil => rfl
  | cons recipient rest ih =>
    rw [List.map_cons, ← ih]
    rfl

/-- where an answer comes too late, so does every one after it -/
theorem readStatuses_late (c : Client π) {opened deadline now : Instant} (recipient : String) (rest : List String)
    (late : inTime opened deadline (now + (c.await now (now + seconds c.timeouts.dataSecs) "DATA").1.took) = false) :
    ((c.readStatuses now (recipient :: rest)).1.filter fun b => inTime opened deadline b.time) = [] := by
  rw [List.filter_eq_nil_iff]
  intro b hb
  rw [Bool.not_eq_true]
  refine inTime_mono late ?_
  rw [readStatuses] at hb
  dsimp only at hb
  split at hb
  · obtain rfl := List.mem_singleton.1 hb
    exact Nat.le_refl _
  · rcases List.mem_cons.1 hb with rfl | hb
    · exact Nat.le_refl _
    · exact ((readStatuses_times _ _ rest).2 b hb).1

/-- **What is reported in time.** One status for each answer, in order, and where reading failed the failure for each
recipient that is left. -/
theorem readStatuses_answers (c : Client π) {opened now : Instant} (began : opened ≤ now) (deadline : Instant)
    (recipients : List String) : ∃ detail,
      ((c.readStatuses now recipients).1.filter fun b => inTime opened deadline b.time).flatMap Burst.events
        = events recipients (statuses recipients.length (readAnswers (seconds c.timeouts.dataSecs) opened deadline
            recipients.length now c.source) detail) := by
  induction recipients generalizing c now with
  | nil => exact ⟨"", rfl⟩
  | cons recipient rest ih =>
    have time := c.await_time now (seconds c.timeouts.dataSecs) "DATA"
    have value := c.await_value now (now + seconds c.timeouts.dataSecs) "DATA"
    rw [List.length_cons, readAnswers]
    dsimp only
    rw [← time]
    cases timely : inTime opened deadline
        (now + (c.await now (now + seconds c.timeouts.dataSecs) "DATA").1.took) with
    | false =>
      refine ⟨"", ?_⟩
      rw [readStatuses_late c recipient rest timely]
      rfl
    | true =>
      rw [if_pos rfl, readStatuses]
      dsimp only
      rw [value]
      cases read : (c.source.readResponse now).within now (now + seconds c.timeouts.dataSecs) with
      | none =>
        refine ⟨DownstreamError.message (.timeout "DATA"), ?_⟩
        simp only [Option.getD_none, List.filter_cons, timely]
        exact (List.append_nil _).trans (events_replicate (recipient :: rest) _).symm
      | some result =>
        cases result with
        | error e =>
          refine ⟨e.message, ?_⟩
          simp only [Option.getD_some, List.filter_cons, timely]
          exact (List.append_nil _).trans (events_replicate (recipient :: rest) _).symm
        | ok response =>
          have k := await_kept c now (now + seconds c.timeouts.dataSecs) "DATA"
          obtain ⟨detail, hd⟩ := ih (c.await now (now + seconds c.timeouts.dataSecs) "DATA").2
            (Nat.le_trans began (Nat.le_add_right _ _))
          rw [k.timeouts, await_source] at hd
          refine ⟨detail, ?_⟩
          simp only [Option.getD_some, List.filter_cons, timely, if_true, List.flatMap_cons]
          rw [hd, statuses, statuses]
          simp only [List.length_cons, Nat.add_sub_add_right]
          rfl

end Client
end LmtpRelay
