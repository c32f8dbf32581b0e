/-
What becomes of a body in a session over a client. There are three ways: the server does not let the body come, the body
is lost on the way, or it is passed on and the statuses are collected (`data_cases`). A finishing call that is cut off
leaves those statuses that were reported in time, so that both its outcomes are one collection (`finish_eq`).

Whichever way it goes, the transaction is over and the session aligned with the client again: `data_aligned`.
-/
import LmtpRelay.Proofs.Session.Aligned

namespace LmtpRelay

/-! ## Pieces -/

theorem flatten_cut {limit : Nat} (h : limit ≠ 0) (bs : Octets) : (cut limit bs).flatten = bs := by
  fun_induction cut limit bs with
  | case1 bs nothing =>
    rcases nothing with rfl | zero
    · rfl
    · exact absurd zero h
  | case2 bs some_left ih => rw [List.flatten_cons, ih, List.take_append_drop]

/-- however a body comes, it is made up of its pieces -/
theorem BodyInput.flatten_ofChunks (chunks : List Octets) (failure : Option IoFailure) :
    (BodyInput.ofChunks chunks failure).pieces.flatten = chunks.flatten := by
  have parts : ∀ chunk, (cut copyLimit chunk).flatten = chunk := flatten_cut (by decide)
  induction chunks with
  | nil => rfl
  | cons chunk rest ih =>
    have here : (BodyInput.ofChunks (chunk :: rest) failure).pieces
        = cut copyLimit chunk ++ (BodyInput.ofChunks rest failure).pieces := List.flatMap_cons
    rw [here, List.flatten_append, parts, ih, List.flatten_cons]

theorem BodyInput.flatten_pieces (octets : Octets) : (BodyInput.ofChunks [octets] none).pieces.flatten = octets :=
  (flatten_ofChunks [octets] none).trans List.flatten_singleton

namespace Session

variable {π σ : Type}

/-! ## Copying -/

theorem copyPieces_aside (s : Session σ) (pieces : List Octets) : Aside s (s.copyPieces pieces).2 := by
  induction pieces generalizing s with
  | nil => exact Aside.refl s
  | cons piece rest ih =>
    have k := note_heard_aside s (.write piece (s.forwarder.write s.now s.downstream piece).value) rfl rfl
      (s.forwarder.write s.now s.downstream piece)
    rw [copyPieces]
    split
    · exact k.trans (ih _)
    · exact k

theorem copyBody_snd (s : Session σ) (body : BodyInput) : (s.copyBody body).2 = (s.copyPieces body.pieces).2 := by
  unfold copyBody
  dsimp only
  split <;> rfl

theorem copyBody_whole (s : Session σ) (octets : Octets) : s.copyBody (.ofChunks [octets] none)
    = s.copyPieces (BodyInput.ofChunks [octets] none).pieces := by
  refine Prod.ext ?_ (copyBody_snd s _)
  unfold copyBody BodyInput.ofChunks
  dsimp only
  split
  · next h => cases h
  · rfl

theorem copyBody_aside (s : Session σ) (body : BodyInput) : Aside s (s.copyBody body).2 := by
  rw [copyBody_snd]
  exact copyPieces_aside s _

theorem copyPieces_kept {s : Session (Client π)} (h : s.OverClient) (pieces : List Octets) :
    s.downstream.Kept (s.copyPieces pieces).2.downstream := by
  induction pieces generalizing s with
  | nil => exact Client.Kept.refl _
  | cons piece rest ih =>
    have k := Client.writePiece_kept s.now s.downstream piece
    have steady := note_heard_steady s (.write piece (s.forwarder.write s.now s.downstream piece).value) rfl
      (s.forwarder.write s.now s.downstream piece)
    rw [copyPieces]
    have same : ((s.note (.write piece (s.forwarder.write s.now s.downstream piece).value)).heard
        (s.forwarder.write s.now s.downstream piece)).downstream
        = (Client.writePiece s.now s.downstream piece).next := by
      rw [h.forwarder]; rfl
    split
    · have k' := ih (h.steady steady)
      rw [same] at k'
      exact k.trans k'
    · rw [same]; exact k

/-! ## The queue -/

/-- the reports of bursts that find room while nothing is taken out -/
def queued (room : Nat) : List Burst → List StatusEvent
  | [] => []
  | b :: rest => b.events.take room ++ queued (room - b.events.length) rest

theorem queueBursts_fst (s : Session σ) (room : Nat) (bursts : List Burst) :
    (s.queueBursts room bursts).1 = queued room bursts := by
  induction bursts generalizing s room with
  | nil => rfl
  | cons b rest ih => rw [queueBursts, queued, ← ih (s.noteBurst b room)]

theorem noteBurst_aside (s : Session σ) (b : Burst) (room : Nat) : Aside s (s.noteBurst b room) :=
  enter_aside s ((Journal.onlyReports_map b.time _ true).append (Journal.onlyReports_map b.time _ false))

theorem queueBursts_aside (s : Session σ) (room : Nat) (bursts : List Burst) :
    Aside s (s.queueBursts room bursts).2 := by
  induction bursts generalizing s room with
  | nil => exact Aside.refl s
  | cons b rest ih => exact (noteBurst_aside s b room).trans (ih _ _)

/-- all reports find room where there is enough of it -/
theorem queued_all {room : Nat} {bursts : List Burst} (h : (bursts.flatMap Burst.events).length ≤ room) :
    queued room bursts = bursts.flatMap Burst.events := by
  induction bursts generalizing room with
  | nil => rfl
  | cons b rest ih =>
    rw [List.flatMap_cons, List.length_append] at h
    rw [queued, List.flatMap_cons, List.take_of_length_le (by omega), ih (by omega)]

/-! ## Finishing -/

/-- whether finishing the body ends before the wait for the statuses does -/
def finishesInTime (s : Session (Client π)) : Bool :=
  (Client.finish s.now s.downstream).took.any fun took => inTime s.now (s.now + s.statusWait) (s.now + took)

/-- what the client reports of the body before the wait for the statuses ends -/
def reported (s : Session (Client π)) : List Burst :=
  if s.finishesInTime then (Client.finish s.now s.downstream).direct
  else (Client.finish s.now s.downstream).direct.filter fun b => inTime s.now (s.now + s.statusWait) b.time

def finished (s : Session (Client π)) : Client π :=
  if s.finishesInTime then (Client.finish s.now s.downstream).closed
  else (Client.finish s.now s.downstream).cut (s.now + s.statusWait)

def collected (s : Session (Client π)) : Collected :=
  Collected.drain ⟨s.recipients, []⟩ (queued (max 1 s.recipients.size) s.reported)

theorem finished_kept (s : Session (Client π)) : Client.Kept { s.downstream with owed := [] } s.finished := by
  unfold finished
  split
  · exact Client.finish_closed_kept _ _
  · exact Client.finish_cut_kept _ _ _

/-- the session when a finishing call that ended in time has ended -/
def closedAfter (s : Session σ) (closing : Closing σ) (took : Nat) : Session σ :=
  { (s.queueBursts (max 1 s.recipients.size) closing.direct).2.pass took with downstream := closing.closed }

/-- the session when a finishing call was cut off -/
def cutAt (s : Session σ) (closing : Closing σ) (deadline : Nat) : Session σ :=
  { (s.queueBursts (max 1 s.recipients.size)
      (closing.direct.filter fun b => inTime s.now deadline b.time)).2.waitUntil deadline with
    downstream := closing.cut deadline }.note .abandon

theorem closedAfter_aside (s : Session σ) (closing : Closing σ) (took : Nat) :
    Aside s (s.closedAfter closing took) := by
  have queue := queueBursts_aside s (max 1 s.recipients.size) closing.direct
  have waited := queue.trans
    (waitUntil_aside _ ((s.queueBursts (max 1 s.recipients.size) closing.direct).2.now + took))
  exact waited.downstream closing.closed

theorem cutAt_aside (s : Session σ) (closing : Closing σ) (deadline : Nat) :
    Aside s (s.cutAt closing deadline) := by
  have queue := queueBursts_aside s (max 1 s.recipients.size)
    (closing.direct.filter fun b => inTime s.now deadline b.time)
  have waited := (queue.trans (waitUntil_aside _ deadline)).downstream (closing.cut deadline)
  exact waited.trans (note_aside _ .abandon rfl rfl)

/-- where nobody reports later, all that is left is to wait for the queue to be let go of -/
theorem collectLater_nil (s : Session σ) (c : Collected) (room deadline : Nat) (released : Option Instant) :
    ∃ s', Aside s s' ∧ s'.downstream = s.downstream ∧ s.collectLater c room deadline released [] = (c, s') := by
  unfold collectLater
  split
  · exact ⟨s, Aside.refl s, rfl, rfl⟩
  · split
    · exact ⟨_, waitUntil_aside s _, waitUntil_downstream s _, rfl⟩
    · exact ⟨_, waitUntil_aside s _, waitUntil_downstream s _, rfl⟩

/-- the outcome of a body for which these statuses were collected -/
def outcome (s : Session σ) (c : Collected) : Transfer σ :=
  (c.result, c.statuses, { s with recipients := c.outstanding })

theorem settle_ok (s : Session σ) {closing : Closing σ} (took deadline : Nat) (result : closing.result = .ok ()) :
    s.settle closing took deadline =
      let r := (s.closedAfter closing took).collectLater
        (Collected.drain ⟨(s.closedAfter closing took).recipients, []⟩
          (s.queueBursts (max 1 s.recipients.size) closing.direct).1)
        (max 1 s.recipients.size) deadline closing.released closing.later
      r.2.outcome r.1 := by
  unfold settle
  simp only [result]
  rfl

/-- taking what a finishing call reported, where it went well and nobody reports later -/
theorem settle_eq (s : Session σ) {closing : Closing σ} (took deadline : Nat) (result : closing.result = .ok ())
    (later : closing.later = []) :
    ∃ s', Aside s s' ∧ s'.downstream = closing.closed ∧ s.settle closing took deadline =
      s'.outcome (Collected.drain ⟨s.recipients, []⟩ (queued (max 1 s.recipients.size) closing.direct)) := by
  have aside := closedAfter_aside s closing took
  obtain ⟨s', hs, hd, hc⟩ := collectLater_nil (s.closedAfter closing took)
    (Collected.drain ⟨s.recipients, []⟩ (queued (max 1 s.recipients.size) closing.direct)) (max 1 s.recipients.size)
    deadline closing.released
  refine ⟨s', aside.trans hs, hd, ?_⟩
  rw [settle_ok s took deadline result, queueBursts_fst, aside.recipients, later, hc]

theorem settleCut_eq (s : Session σ) (closing : Closing σ) (deadline : Nat) :
    s.settleCut closing deadline = (s.cutAt closing deadline).outcome
      (Collected.drain ⟨s.recipients, []⟩ (queued (max 1 s.recipients.size)
        (closing.direct.filter fun b => inTime s.now deadline b.time))) := by
  have settled : s.settleCut closing deadline = (s.cutAt closing deadline).outcome
      (Collected.drain ⟨(s.cutAt closing deadline).recipients, []⟩ (s.queueBursts (max 1 s.recipients.size)
        (closing.direct.filter fun b => inTime s.now deadline b.time)).1) := rfl
  rw [settled, queueBursts_fst, (cutAt_aside s closing deadline).recipients]

/-- a call that ends the body is waited for, or cut off -/
theorem finish_calls (s : Session σ) : s.finish = match (s.forwarder.finish s.now s.downstream).took with
    | some took =>
      if inTime s.now (s.now + s.statusWait) (s.now + took) then
        (s.note .finish).settle (s.forwarder.finish s.now s.downstream) took (s.now + s.statusWait)
      else (s.note .finish).settleCut (s.forwarder.finish s.now s.downstream) (s.now + s.statusWait)
    | none => (s.note .finish).settleCut (s.forwarder.finish s.now s.downstream) (s.now + s.statusWait) := rfl

/-- **Finishing a body.** The session collects what the client reports before the wait for the statuses ends. -/
theorem finish_eq {s : Session (Client π)} (h : s.OverClient) :
    ∃ s', Aside s s' ∧ s'.downstream = s.finished ∧ s.finish = s'.outcome s.collected := by
  have noted : Aside s (s.note .finish) := note_aside s _ rfl rfl
  obtain ⟨took, ht⟩ : ∃ took, (Client.finish s.now s.downstream).took = some took := by
    rcases Client.finish_cases s.now s.downstream with ⟨f, -, ht, -⟩ | ⟨-, bursts, last, c', -, ht, -⟩
    · exact ⟨_, ht⟩
    · exact ⟨_, ht⟩
  have closing : s.forwarder.finish s.now s.downstream = Client.finish s.now s.downstream := by
    rw [h.forwarder]
    rfl
  have finish := finish_calls s
  rw [closing, ht] at finish
  dsimp only at finish
  by_cases hi : inTime s.now (s.now + s.statusWait) (s.now + took) = true
  · have inTime : s.finishesInTime = true := by simp [finishesInTime, ht, hi]
    obtain ⟨s', hs, hd, hc⟩ := settle_eq (s.note .finish) took (s.now + s.statusWait)
      (Client.finish_result s.now s.downstream) (Client.finish_later _ _)
    refine ⟨s', noted.trans hs, by rw [hd, finished, if_pos inTime], ?_⟩
    rw [finish, if_pos hi, hc, collected, reported, if_pos inTime]
    rfl
  · have late : ¬ s.finishesInTime = true := by simp [finishesInTime, ht, hi]
    refine ⟨(s.note .finish).cutAt (Client.finish s.now s.downstream) (s.now + s.statusWait),
      noted.trans (cutAt_aside _ _ _), ?_, ?_⟩
    · rw [finished, if_neg late]
      rfl
    · rw [finish, if_neg hi, settleCut_eq, collected, reported, if_neg late]
      rfl

/-! ## The whole transfer -/

def dataHeard (s : Session σ) : Session σ :=
  (s.note (.data (s.forwarder.data s.now s.downstream).value)).heard (s.forwarder.data s.now s.downstream)

theorem dataHeard_steady (s : Session σ) : Steady s s.dataHeard := note_heard_steady s _ rfl _

theorem dataHeard_downstream {s : Session (Client π)} (h : s.OverClient) :
    s.dataHeard.downstream = (Client.data s.now s.downstream).next := by
  have answered : s.dataHeard.downstream = (s.forwarder.data s.now s.downstream).next := rfl
  rw [answered, h.forwarder]
  rfl

/-- the session when a body has been let come and copied -/
def bodyCopied (s : Session σ) (body : BodyInput) : Session σ := (s.dataHeard.copyBody body).2

theorem bodyCopied_steady (s : Session σ) (body : BodyInput) : Steady s (s.bodyCopied body) :=
  (dataHeard_steady s).trans (copyBody_aside _ _).toSteady

theorem abandon_steady (s : Session σ) : Steady s s.abandon :=
  (note_steady s .abandon rfl).downstream _

theorem abandon_downstream {s : Session (Client π)} (h : s.OverClient) :
    s.abandon.downstream = Client.abandon s.now s.downstream := by
  have abandoned : s.abandon.downstream = s.forwarder.abandon s.now s.downstream := rfl
  rw [abandoned, h.forwarder]
  rfl

theorem transfer_eq (s : Session σ) (body : BodyInput) :
    s.transfer body = match (s.forwarder.data s.now s.downstream).value with
      | .error e => (.error (.forward e), [], s.dataHeard)
      | .ok _ => match (s.dataHeard.copyBody body).1 with
        | .error f => (.error (.dataCopy f), [], (s.bodyCopied body).abandon)
        | .ok _ => (s.bodyCopied body).finish := rfl

/-- a body is refused, lost while it is copied, or finished -/
theorem transfer_cases (s : Session σ) (body : BodyInput) :
    (∃ e, (s.forwarder.data s.now s.downstream).value = .error e ∧
      s.transfer body = (.error (.forward e), [], s.dataHeard)) ∨
    ((s.forwarder.data s.now s.downstream).value = .ok () ∧
      ((∃ f, (s.dataHeard.copyBody body).1 = .error f ∧
          s.transfer body = (.error (.dataCopy f), [], (s.bodyCopied body).abandon)) ∨
        ((s.dataHeard.copyBody body).1 = .ok () ∧ s.transfer body = (s.bodyCopied body).finish))) := by
  cases hv : (s.forwarder.data s.now s.downstream).value with
  | error e => exact .inl ⟨e, rfl, by rw [transfer_eq, hv]⟩
  | ok _ =>
    cases hc : (s.dataHeard.copyBody body).1 with
    | error f => exact .inr ⟨rfl, .inl ⟨f, rfl, by rw [transfer_eq, hv, hc]⟩⟩
    | ok _ => exact .inr ⟨rfl, .inr ⟨rfl, by rw [transfer_eq, hv, hc]⟩⟩

namespace Collected

theorem result_outstanding {c : Collected} (h : c.outstanding.isEmpty = false) :
    c.result = .error (.statusTimeout c.outstanding.names) := by
  simp [result, h]

theorem result_settled {c : Collected} (h : c.outstanding.isEmpty = true) :
    c.result = if (c.statuses.filter fun e => !e.isSuccess) = [] then .ok ()
      else .error (.delivery ((c.statuses.filter fun e => !e.isSuccess).map StatusEvent.recipient)) := by
  simp [result, h]

theorem result_eq_ok {c : Collected} :
    c.result = .ok () ↔ c.outstanding.isEmpty = true ∧ ∀ e ∈ c.statuses, e.isSuccess = true := by
  have none_failed : (c.statuses.filter fun e => !e.isSuccess) = [] ↔ ∀ e ∈ c.statuses, e.isSuccess = true := by
    simp [List.filter_eq_nil_iff]
  cases all : c.outstanding.isEmpty with
  | false =>
    rw [result_outstanding all]
    exact ⟨nofun, fun h => absurd h.1 Bool.false_ne_true⟩
  | true =>
    rw [result_settled all, ← none_failed]
    split
    · next nothing => exact ⟨fun _ => ⟨rfl, nothing⟩, fun _ => rfl⟩
    · next something => exact ⟨nofun, fun h => absurd h.2 something⟩

theorem result_eq_delivery {c : Collected} {failed : List String} :
    c.result = .error (.delivery failed) ↔ c.outstanding.isEmpty = true ∧ failed ≠ [] ∧
      failed = (c.statuses.filter fun e => !e.isSuccess).map StatusEvent.recipient := by
  cases all : c.outstanding.isEmpty with
  | false =>
    rw [result_outstanding all]
    exact ⟨nofun, fun h => absurd h.1 Bool.false_ne_true⟩
  | true =>
    rw [result_settled all]
    split
    · next nothing =>
      rw [nothing]
      exact ⟨nofun, fun h => absurd h.2.2 h.2.1⟩
    · next something =>
      constructor
      · intro same
        obtain rfl := SessionError.delivery.inj (Except.error.inj same)
        exact ⟨rfl, mt List.map_eq_nil_iff.1 something, rfl⟩
      · rintro ⟨-, -, rfl⟩
        rfl

theorem result_eq_statusTimeout {c : Collected} {missing : List String} :
    c.result = .error (.statusTimeout missing) ↔ missing ≠ [] ∧ missing = c.outstanding.names := by
  have nobody : c.outstanding.isEmpty = true ↔ c.outstanding.names = [] := by
    simp [Recipients.isEmpty, Recipients.names]
  cases all : c.outstanding.isEmpty with
  | false =>
    have somebody : c.outstanding.names ≠ [] := fun h => absurd (all.symm.trans (nobody.2 h)) Bool.false_ne_true
    rw [result_outstanding all]
    constructor
    · intro same
      obtain rfl := SessionError.statusTimeout.inj (Except.error.inj same)
      exact ⟨somebody, rfl⟩
    · rintro ⟨-, rfl⟩
      rfl
  | true =>
    rw [result_settled all]
    refine ⟨fun same => ?_, fun h => absurd (h.2.trans (nobody.1 all)) h.1⟩
    split at same <;> cases same

theorem result_not_forward (c : Collected) (e : ForwardError) : c.result ≠ .error (.forward e) := by
  unfold result
  dsimp only
  split
  · simp
  · split <;> simp

end Collected

theorem data_transfer {s : Session σ} (some_recipient : s.recipients.isEmpty = false) (body : BodyInput) :
    s.data body = match s.transfer body with
      | (result, statuses, s) => match result with
        | .error (.forward e) => (.error (.forward e), statuses, s.reset.2)
        | _ => (result, statuses, s.clear) := by
  rcases ht : s.transfer body with ⟨error | done, statuses, s'⟩
  · cases error <;> simp [Session.data, some_recipient, ht, reset]
  · simp [Session.data, some_recipient, ht]

/-- what is collected is no failure of the forwarder, so it is not reset -/
theorem data_of_outcome {s s' : Session σ} (some_recipient : s.recipients.isEmpty = false) {body : BodyInput}
    {c : Collected} (transferred : s.transfer body = s'.outcome c) : s.data body = (c.result, c.statuses, s'.clear) := by
  rw [data_transfer some_recipient, transferred, outcome]
  dsimp only
  split
  · next e he => exact absurd he (Collected.result_not_forward _ e)
  · rfl

/-- **What becomes of a body in a session over a client.** -/
theorem data_cases {s : Session (Client π)} (h : s.OverClient) (some_recipient : s.recipients.isEmpty = false)
    (body : BodyInput) :
    (∃ e, (Client.data s.now s.downstream).value = .error e ∧
      s.data body = (.error (.forward e), [], s.dataHeard.reset.2)) ∨
    ((Client.data s.now s.downstream).value = .ok () ∧
      ((∃ f, (s.dataHeard.copyBody body).1 = .error f ∧
          s.data body = (.error (.dataCopy f), [], (s.bodyCopied body).abandon.clear)) ∨
        ((s.dataHeard.copyBody body).1 = .ok () ∧ ∃ s', Aside (s.bodyCopied body) s' ∧
          s'.downstream = (s.bodyCopied body).finished ∧
          s.data body
            = ((s.bodyCopied body).collected.result, (s.bodyCopied body).collected.statuses, s'.clear)))) := by
  have client : s.forwarder.data s.now s.downstream = Client.data s.now s.downstream := by
    rw [h.forwarder]
    rfl
  have begun := data_transfer some_recipient body
  rw [← client]
  rcases transfer_cases s body with ⟨e, hv, ht⟩ | ⟨hv, ⟨f, hc, ht⟩ | ⟨hc, ht⟩⟩
  · refine .inl ⟨e, hv, ?_⟩
    rw [begun, ht]
  · refine .inr ⟨hv, .inl ⟨f, hc, ?_⟩⟩
    rw [begun, ht]
  · obtain ⟨s', hs, hd, hf⟩ := finish_eq (h.steady (bodyCopied_steady s body))
    exact .inr ⟨hv, .inr ⟨hc, s', hs, hd, data_of_outcome some_recipient (ht.trans hf)⟩⟩

/-! ## Afterwards -/

/-- whatever becomes of a body, the transaction is over -/
theorem data_cleared {s : Session σ} (some_recipient : s.recipients.isEmpty = false) (body : BodyInput) :
    (s.data body).2.2.sender = none ∧ (s.data body).2.2.recipients = .empty := by
  rw [data, if_neg (by simp [some_recipient])]
  dsimp only
  split
  · exact reset_cleared _
  · exact ⟨rfl, rfl⟩

/-- once a body is let come, the client holds nothing but what it is owed -/
theorem bodyCopied_kept {s : Session (Client π)} (h : s.OverClient)
    (letCome : (Client.data s.now s.downstream).value = .ok ()) (body : BodyInput) :
    Client.Kept { s.downstream with owed := s.downstream.accepted, accepted := [] }
      (s.bodyCopied body).downstream := by
  have k := (Client.data_ok s.now s.downstream letCome).1
  rw [← dataHeard_downstream h] at k
  rw [bodyCopied, copyBody_snd]
  exact k.trans (copyPieces_kept (h.steady (dataHeard_steady s)) _)

theorem data_said {s : Session (Client π)} (h : s.OverClient) (some_recipient : s.recipients.isEmpty = false)
    (body : BodyInput) : (s.data body).2.2.journal.said = s.journal.said := by
  rcases data_cases h some_recipient body with ⟨e, -, hd⟩ | ⟨-, ⟨f, -, hd⟩ | ⟨-, s', hs, -, hd⟩⟩
  · rw [hd]
    exact (note_heard_steady s.dataHeard.clear _ rfl _).said.trans (dataHeard_steady s).said
  · rw [hd]
    exact ((bodyCopied_steady s body).trans (abandon_steady _)).said
  · rw [hd]
    exact ((bodyCopied_steady s body).trans hs.toSteady).said

/-- however a body that was let come ends, the client is owed nothing and the session aligned once it is cleared -/
theorem bodyEnded_aligned {s s' : Session (Client π)} (h : s.Aligned)
    (letCome : (Client.data s.now s.downstream).value = .ok ()) {body : BodyInput}
    (steady : Steady (s.bodyCopied body) s')
    (ended : Client.Kept { (s.bodyCopied body).downstream with owed := [] } s'.downstream) : s'.clear.Aligned := by
  have k := bodyCopied_kept h.toOverClient letCome body
  have client := h.toOverClient.steady ((bodyCopied_steady s body).trans steady)
  refine ⟨⟨client.forwarder, client.quiet⟩, ?_, ended.owed, ?_⟩
  · exact ended.accepted.trans k.accepted
  · exact ended.shut.trans (k.shut.trans h.shut)

theorem data_aligned {s : Session (Client π)} (h : s.Aligned) (some_recipient : s.recipients.isEmpty = false)
    (body : BodyInput) : (s.data body).2.2.Aligned := by
  rcases data_cases h.toOverClient some_recipient body with
    ⟨e, hv, hd⟩ | ⟨letCome, ⟨f, -, hd⟩ | ⟨-, s', hs, hds, hd⟩⟩
  · have k := Client.data_error s.now s.downstream hv
    have steady := dataHeard_steady s
    rw [← dataHeard_downstream h.toOverClient] at k
    have heard : s.dataHeard.Aligned := by
      refine ⟨h.toOverClient.steady steady, ?_, k.owed.trans h.owed, k.shut.trans h.shut⟩
      rw [k.accepted, h.accepted, steady.recipients]
    rw [hd]
    exact reset_aligned heard
  · have copied := h.toOverClient.steady (bodyCopied_steady s body)
    rw [hd]
    refine bodyEnded_aligned h letCome (abandon_steady _) ?_
    rw [abandon_downstream copied]
    exact Client.abandon_kept _ _
  · rw [hd]
    refine bodyEnded_aligned h letCome hs.toSteady ?_
    rw [hds]
    exact finished_kept _

end Session
end LmtpRelay
