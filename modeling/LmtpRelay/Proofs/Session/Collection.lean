/-
Collecting the statuses of a body, over any forwarder. The reports of a body come at their own times while the body is
being ended and afterwards, and wait in a queue of their own; reports on earlier bodies never get into it. What the
session makes of them depends only on those that came in time and found room (`arrivals`).

- `finish_spec`: ending a body fails, or its statuses are collected, within the wait for them.
- `statuses_aggregated`: the statuses are the first reports for the recipients, the result says how many were told what,
  and it is there in time.
-/
import LmtpRelay.Proofs.Session.Reports
import LmtpRelay.Proofs.Session.Transfer
import LmtpRelay.Rehearsal.Forwarder

namespace LmtpRelay

namespace Session

variable {σ : Type}

/-! ## The schedule of a body -/

def closing (s : Session σ) : Closing σ := s.forwarder.finish s.now s.downstream

/-- when the wait for the statuses of a body that begins now is over -/
def deadline (s : Session σ) : Instant := s.now + s.statusWait

/-- whether the call that ends the body does so before the wait is over -/
def endsInTime (s : Session σ) : Bool := s.closing.took.any fun took => inTime s.now s.deadline (s.now + took)

/-- the bursts of reports that come before the wait is over: those made while the body is being ended, and those made
afterwards -/
def timelyBursts (s : Session σ) : List Burst × List Burst :=
  if s.endsInTime then (s.closing.direct, s.closing.later.takeWhile fun b => b.time < s.deadline)
  else (s.closing.direct.filter fun b => inTime s.now s.deadline b.time, [])

/-- how many reports can wait at once -/
def room (s : Session σ) : Nat := max 1 s.recipients.size

/-- the reports that come in time and find room: nothing is taken out of the queue while the body is being ended, and
everything at each burst afterwards -/
def arrivals (s : Session σ) : List StatusEvent :=
  queued s.room s.timelyBursts.1 ++ s.timelyBursts.2.flatMap fun b => b.events.take s.room

/-- the reports that come in time, whether they find room or not -/
def reports (s : Session σ) : List StatusEvent := (s.timelyBursts.1 ++ s.timelyBursts.2).flatMap Burst.events

/-! ## What was queued -/

theorem queued_strays (bursts : List Burst) :
    Journal.queued (bursts.flatMap fun b => b.events.map (⟨b.time, .report · false⟩)) = [] := by
  rw [Journal.queued, List.filterMap_eq_nil_iff]
  intro entry h
  obtain ⟨b, -, h⟩ := List.mem_flatMap.1 h
  obtain ⟨event, -, rfl⟩ := List.mem_map.1 h
  rfl

theorem queued_letReport (s : Session σ) (t : Instant) : (s.letReport t).journal.queued = s.journal.queued := by
  refine (congrArg Journal.queued (journal_enter s _)).trans ?_
  rw [Journal.queued_append, queued_strays, List.append_nil]

theorem queued_waitUntil (s : Session σ) (t : Instant) : (s.waitUntil t).journal.queued = s.journal.queued := by
  unfold waitUntil
  split
  · exact queued_letReport s t
  · rfl

theorem queued_noteBurst (s : Session σ) (b : Burst) (room : Nat) :
    (s.noteBurst b room).journal.queued = s.journal.queued ++ b.events.take room := by
  have entered : ∀ events : List StatusEvent,
      Journal.queued (events.map (⟨b.time, .report · true⟩)) = events := by
    intro events
    rw [Journal.queued, List.filterMap_map]
    exact List.filterMap_some
  have stray := queued_strays [⟨b.time, b.events.drop room⟩]
  rw [List.flatMap_singleton] at stray
  rw [noteBurst, journal_enter, Journal.queued_append, Journal.queued_append, entered, stray, List.append_nil]

theorem queued_queueBursts (s : Session σ) (room : Nat) (bursts : List Burst) :
    (s.queueBursts room bursts).2.journal.queued = s.journal.queued ++ queued room bursts := by
  induction bursts generalizing s room with
  | nil => exact (List.append_nil _).symm
  | cons b rest ih =>
    refine (ih _ _).trans ?_
    rw [queued_noteBurst, queued, List.append_assoc]

/-! ## Collecting -/

theorem le_of_inTime {now deadline ready : Instant} (early : now ≤ deadline) (h : inTime now deadline ready = true) :
    ready ≤ deadline := by
  rcases Bool.or_eq_true_iff.1 h with already | before
  · exact Nat.le_trans (of_decide_eq_true already) early
  · exact Nat.le_of_lt (of_decide_eq_true before)

/-- the session waits, no longer than to the deadline, and the reports in `received` reach it meanwhile -/
structure Listens (deadline : Instant) (s s' : Session σ) (received : List StatusEvent) : Prop where
  waits : Waits s s'
  downstream : s'.downstream = s.downstream
  now : s'.now ≤ deadline
  queued : s'.journal.queued = s.journal.queued ++ received

theorem Listens.refl {s : Session σ} {deadline : Instant} (early : s.now ≤ deadline) : Listens deadline s s [] :=
  ⟨Waits.refl s, rfl, early, (List.append_nil _).symm⟩

theorem Listens.trans {a b c : Session σ} {deadline : Instant} {received later : List StatusEvent}
    (h : Listens deadline a b received) (h' : Listens deadline b c later) :
    Listens deadline a c (received ++ later) := by
  refine ⟨h.waits.trans h'.waits, h'.downstream.trans h.downstream, h'.now, ?_⟩
  rw [h'.queued, h.queued, List.append_assoc]

theorem Listens.leave {s s' : Session σ} {deadline : Instant} {received : List StatusEvent}
    (h : Listens deadline s s' received) (bursts : List Burst) : Listens deadline s (s'.leave bursts) received :=
  ⟨h.waits.leave bursts, h.downstream, h.now, h.queued⟩

theorem waitUntil_listens {s : Session σ} {t deadline : Instant} (early : s.now ≤ deadline) (soon : t ≤ deadline) :
    Listens deadline s (s.waitUntil t) [] := by
  refine ⟨waitUntil_waits s t, waitUntil_downstream s t, ?_, ?_⟩
  · rw [waitUntil_now]
    exact Nat.max_le.2 ⟨early, soon⟩
  · rw [queued_waitUntil, List.append_nil]

theorem noteBurst_listens {s : Session σ} {b : Burst} {deadline : Instant} (early : s.now ≤ deadline)
    (soon : b.time ≤ deadline) (room : Nat) :
    Listens deadline s (((s.letReport b.time).waitUntil b.time).noteBurst b room) (b.events.take room) := by
  have now : (((s.letReport b.time).waitUntil b.time).noteBurst b room).now = max s.now b.time :=
    waitUntil_now (s.letReport b.time) b.time
  refine ⟨(letReport_waits s b.time).trans ((waitUntil_waits _ _).trans (noteBurst_waits _ b room)),
    waitUntil_downstream (s.letReport b.time) b.time, now ▸ Nat.max_le.2 ⟨early, soon⟩, ?_⟩
  rw [queued_noteBurst, queued_waitUntil, queued_letReport]

/-- **Collecting ends in time, with every report that came before.** -/
theorem collectLater_spec {s : Session σ} {c : Collected} (room : Nat) {deadline : Instant}
    (released : Option Instant) (later : List Burst) (early : s.now ≤ deadline) :
    ∃ c' s' received, s.collectLater c room deadline released later = (c', s') ∧ c' = c.drain received ∧
      Listens deadline s s' received ∧
      ∃ missed, (later.takeWhile fun b => b.time < deadline).flatMap (fun b => b.events.take room)
        = received ++ missed ∧ (c'.outstanding.isEmpty = true ∨ missed = []) := by
  induction later generalizing s c with
  | nil =>
    unfold collectLater
    split
    · exact ⟨c, s, [], rfl, rfl, .refl early, [], rfl, .inr rfl⟩
    · split
      · next t =>
        have soon : (if inTime s.now deadline t then t else deadline) ≤ deadline := by
          split
          · next h => exact le_of_inTime early h
          · exact Nat.le_refl _
        exact ⟨c, _, [], rfl, rfl, waitUntil_listens early soon, [], rfl, .inr rfl⟩
      · exact ⟨c, _, [], rfl, rfl, waitUntil_listens early (Nat.le_refl _), [], rfl, .inr rfl⟩
  | cons b rest ih =>
    unfold collectLater
    split
    · next nobody => exact ⟨c, _, [], rfl, rfl, (Listens.refl early).leave _, _, rfl, .inl nobody⟩
    · split
      · next timely =>
        have first := noteBurst_listens early (Nat.le_of_lt timely) room
        obtain ⟨c', s', received, hc, drained, listens, missed, split, ended⟩ :=
          ih (c := c.drain (b.events.take room)) first.now
        refine ⟨c', s', b.events.take room ++ received, hc, ?_, first.trans listens, missed, ?_, ended⟩
        · rw [drained, Collected.drain_append]
        · rw [List.takeWhile_cons_of_pos (by simpa using timely), List.flatMap_cons, split, List.append_assoc]
      · next late =>
        refine ⟨c, _, [], rfl, rfl, (waitUntil_listens early (Nat.le_refl _)).leave _, [], ?_, .inr rfl⟩
        rw [List.takeWhile_cons_of_neg (by simpa using late)]
        rfl

/-- the reports that were received, as far as they matter: all that came, or enough to settle every recipient -/
def Hears (m : Recipients) (received came : List StatusEvent) : Prop :=
  ∃ missed, came = received ++ missed ∧ ((m.unreported received).isEmpty = true ∨ missed = [])

theorem closedAfter_waits (s : Session σ) (closing : Closing σ) (took : Nat) : Waits s (s.closedAfter closing took) :=
  ((queueBursts_waits s _ closing.direct).trans (waitUntil_waits _ _)).downstream closing.closed

/-- a call that ends in time leaves the session in time -/
theorem closedAfter_now {s : Session σ} (closing : Closing σ) {took deadline : Nat}
    (early : s.now + took ≤ deadline) : (s.closedAfter closing took).now ≤ deadline := by
  have reached : (s.closedAfter closing took).now
      = max (s.queueBursts s.room closing.direct).2.now ((s.queueBursts s.room closing.direct).2.now + took) :=
    waitUntil_now _ _
  rw [reached, queueBursts_now]
  exact Nat.max_le.2 ⟨Nat.le_trans (Nat.le_add_right _ _) early, early⟩

theorem settle_error (s : Session σ) {closing : Closing σ} (took deadline : Nat) {e : ForwardError}
    (result : closing.result = .error e) : s.settle closing took deadline
      = (.error (.forward e), [], (s.closedAfter closing took).leave closing.later) := by
  unfold settle
  simp only [result]
  rfl

/-- what remains when a body has been ended: nothing is left of it but its statuses -/
theorem settle_spec {s : Session σ} {closing : Closing σ} {took deadline : Nat} (distinct : s.recipients.Distinct)
    (result : closing.result = .ok ()) (early : s.now + took ≤ deadline) :
    ∃ s' received, Waits s s' ∧ s'.now ≤ deadline ∧ s'.downstream = closing.closed ∧
      s'.journal.queued = s.journal.queued ++ received ∧
      Hears s.recipients received (queued s.room closing.direct ++
        (closing.later.takeWhile fun b => b.time < deadline).flatMap fun b => b.events.take s.room) ∧
      s.settle closing took deadline
        = s'.outcome ⟨s.recipients.unreported received, s.recipients.statuses received⟩ := by
  have closed := closedAfter_waits s closing took
  have now := closedAfter_now closing early
  have held : (s.closedAfter closing took).journal.queued = s.journal.queued ++ queued s.room closing.direct :=
    (queued_waitUntil _ _).trans (queued_queueBursts s s.room closing.direct)
  obtain ⟨c', s', received, hc, drained, listens, missed, split, ended⟩ :=
    collectLater_spec (c := Collected.drain ⟨s.recipients, []⟩ (queued s.room closing.direct)) s.room
      closing.released closing.later now
  rw [← Collected.drain_append, Collected.drain_eq _ distinct, List.nil_append] at drained
  refine ⟨s', queued s.room closing.direct ++ received, closed.trans listens.waits, listens.now,
    listens.downstream, ?_, ⟨missed, ?_, ?_⟩, ?_⟩
  · rw [listens.queued, held, List.append_assoc]
  · rw [split, List.append_assoc]
  · rw [drained] at ended
    exact ended
  · rw [settle_ok s took deadline result, queueBursts_fst, closed.recipients]
    dsimp only [room] at hc ⊢
    rw [hc, drained]
    rfl

/-- what remains when the call that ends the body was cut off -/
theorem settleCut_spec {s : Session σ} (closing : Closing σ) {deadline : Nat} (distinct : s.recipients.Distinct)
    (early : s.now ≤ deadline) :
    ∃ s' : Session σ, Waits s s' ∧ s'.now ≤ deadline ∧ s'.downstream = closing.cut deadline ∧
      s'.journal.queued = s.journal.queued
        ++ queued s.room (closing.direct.filter fun b => inTime s.now deadline b.time) ∧
      s.settleCut closing deadline = (s'.note .abandon).outcome
        ⟨s.recipients.unreported (queued s.room (closing.direct.filter fun b => inTime s.now deadline b.time)),
          s.recipients.statuses (queued s.room (closing.direct.filter fun b => inTime s.now deadline b.time))⟩ := by
  have queue := queueBursts_waits s s.room (closing.direct.filter fun b => inTime s.now deadline b.time)
  refine ⟨_, (queue.trans (waitUntil_waits _ deadline)).downstream (closing.cut deadline), ?_, rfl, ?_, ?_⟩
  · refine (waitUntil_now _ deadline).symm ▸ Nat.max_le.2 ⟨?_, Nat.le_refl _⟩
    exact (queueBursts_now s s.room _).symm ▸ early
  · exact (queued_waitUntil _ _).trans (queued_queueBursts s s.room _)
  · rw [settleCut_eq, Collected.drain_eq _ distinct, List.nil_append]
    rfl

/-- a call that ends the body in time is waited for -/
theorem finish_inTime {s : Session σ} (ends : s.endsInTime = true) : ∃ took, s.now + took ≤ s.deadline ∧
    s.finish = (s.note .finish).settle s.closing took s.deadline := by
  obtain ⟨took, ht, soon⟩ : ∃ took, s.closing.took = some took ∧
      inTime s.now s.deadline (s.now + took) = true := (Option.any_eq_true _ _).1 ends
  have finish := finish_calls s
  rw [← closing, ← deadline, ht] at finish
  dsimp only at finish
  rw [if_pos soon] at finish
  exact ⟨took, le_of_inTime (Nat.le_add_right _ _) soon, finish⟩

theorem finish_late {s : Session σ} (late : ¬s.endsInTime = true) :
    s.finish = (s.note .finish).settleCut s.closing s.deadline := by
  have finish := finish_calls s
  rw [← closing, ← deadline] at finish
  rw [finish]
  split
  · next took ht =>
    refine if_neg fun soon => late ?_
    rw [endsInTime, ht]
    exact soon
  · rfl

/-- the call that ends the body fails, or the statuses are collected: all that came in time, whether the call was
waited for or cut off -/
theorem finish_spec {s : Session σ} (distinct : s.recipients.Distinct) :
    (∃ e s', s.endsInTime = true ∧ s.closing.result = .error e ∧ Waits (s.note .finish) s' ∧
      s.finish = (.error (.forward e), [], s')) ∨
    (∃ s₁ s' received, (s.endsInTime = true → s.closing.result = .ok ()) ∧ Waits (s.note .finish) s₁ ∧
      s' = (if s.endsInTime then s₁ else s₁.note .abandon) ∧ s'.now ≤ s.deadline ∧
      s'.journal.queued = s.journal.queued ++ received ∧ Hears s.recipients received s.arrivals ∧
      s.finish = s'.outcome ⟨s.recipients.unreported received, s.recipients.statuses received⟩) := by
  have noted : (s.note .finish).journal.queued = s.journal.queued := by
    rw [journal_note, Journal.queued_append]
    exact List.append_nil _
  by_cases ends : s.endsInTime = true
  · obtain ⟨took, within, finish⟩ := finish_inTime ends
    cases result : s.closing.result with
    | error e =>
      exact .inl ⟨e, _, ends, rfl, (closedAfter_waits _ s.closing took).leave _,
        finish.trans (settle_error _ took s.deadline result)⟩
    | ok done =>
      obtain ⟨s', received, waits, now, -, journal, hears, settled⟩ :=
        settle_spec (s := s.note .finish) distinct result within
      refine .inr ⟨s', s', received, fun _ => rfl, waits, (if_pos ends).symm, now, ?_, ?_, ?_⟩
      · rw [journal, noted]
      · rw [arrivals, timelyBursts, if_pos ends]
        exact hears
      · rw [finish, settled]
        rfl
  · have early : s.now ≤ s.deadline := Nat.le_add_right _ _
    obtain ⟨s', waits, now, -, journal, settled⟩ :=
      settleCut_spec (s := s.note .finish) s.closing distinct early
    refine .inr ⟨s', s'.note .abandon, _, fun h => absurd h ends, waits, (if_neg ends).symm, now, ?_, ?_,
      (finish_late ends).trans settled⟩
    · rw [journal_note, Journal.queued_append, journal, noted]
      exact List.append_nil _
    · refine ⟨[], ?_, .inr rfl⟩
      rw [arrivals, timelyBursts, if_neg ends]
      rfl

theorem queued_heard {α : Type} (s : Session σ) (deed : Deed) (other : Journal.queued [⟨s.now, deed⟩] = [])
    (a : Answer σ α) : ((s.note deed).heard a).journal.queued = s.journal.queued := by
  refine (queued_waitUntil (s.note deed) _).trans ?_
  rw [journal_note, Journal.queued_append, other, List.append_nil]

theorem queued_copyPieces (s : Session σ) (pieces : List Octets) :
    (s.copyPieces pieces).2.journal.queued = s.journal.queued := by
  induction pieces generalizing s with
  | nil => rfl
  | cons piece rest ih =>
    have first := queued_heard s (.write piece (s.forwarder.write s.now s.downstream piece).value) rfl
      (s.forwarder.write s.now s.downstream piece)
    rw [copyPieces]
    split
    · exact (ih _).trans first
    · exact first

theorem queued_bodyCopied (s : Session σ) (body : BodyInput) :
    (s.bodyCopied body).journal.queued = s.journal.queued := by
  rw [bodyCopied, copyBody_snd, queued_copyPieces]
  exact queued_heard s _ rfl _

end Session

/-! ## The result -/

/-- what a session makes of the reports that it received -/
structure Aggregates (m : Recipients) (received : List StatusEvent) (result : Except SessionError Unit)
    (statuses : List StatusEvent) : Prop where
  /-- each report that counts is a status, under the recipient's name -/
  statuses : statuses = (m.counted received).map m.rename
  /-- the statuses come in the order of the reports -/
  order : (m.counted received).Sublist received
  /-- no recipient has two -/
  once : ((m.counted received).map StatusEvent.recipient).Nodup
  /-- the first report for an address in use counts, and no other -/
  first : ∀ e, e ∈ m.counted received ↔ e.recipient ∈ m.resolved ∧ firstFor? received e.recipient = some e
  /-- a status has the name that the address stands for, and the result of the report -/
  named : ∀ e ∈ m.counted received, ∃ name, (e.recipient, name) ∈ m.entries ∧ m.rename e = ⟨name, e.result⟩
  ok : result = .ok () ↔
    ∀ resolved ∈ m.resolved, ∃ e, firstFor? received resolved = some e ∧ e.isSuccess = true
  delivery : ∀ failed, result = .error (.delivery failed) ↔
    (∀ resolved ∈ m.resolved, (firstFor? received resolved).isSome = true) ∧ failed ≠ [] ∧
      failed = ((m.counted received).filter fun e => !e.isSuccess).map fun e => (m.rename e).recipient
  timeout : ∀ missing, result = .error (.statusTimeout missing) ↔ missing ≠ [] ∧
    missing = (m.entries.filter fun entry => (firstFor? received entry.1).isNone).map Prod.snd

theorem Recipients.rename_counted {m : Recipients} {received : List StatusEvent} {e : StatusEvent}
    (h : e ∈ m.counted received) : ∃ name, (e.recipient, name) ∈ m.entries ∧ m.rename e = ⟨name, e.result⟩ := by
  obtain ⟨used, -⟩ := mem_counted.1 h
  obtain ⟨name, hname⟩ := Option.isSome_iff_exists.1 ((m.named?_isSome e.recipient).trans (contains_iff.2 used))
  refine ⟨name, ?_, by rw [rename, hname]; rfl⟩
  obtain ⟨entry, found, rfl⟩ := Option.map_eq_some_iff.1 hname
  have same : entry.1 = e.recipient := by simpa using List.find?_some found
  rw [← same]
  exact List.mem_of_find?_eq_some found

theorem Recipients.statuses_failed (m : Recipients) (received : List StatusEvent) :
    ((m.statuses received).filter fun e => !e.isSuccess).map StatusEvent.recipient
      = ((m.counted received).filter fun e => !e.isSuccess).map fun e => (m.rename e).recipient := by
  rw [statuses, List.filter_map, List.map_map]
  rfl

/-- nobody is left without a report and no status is a failure where each address in use has a first report, which is a
success -/
theorem Recipients.statuses_succeed {m : Recipients} {received : List StatusEvent} :
    ((m.unreported received).isEmpty = true ∧ ∀ e ∈ m.statuses received, e.isSuccess = true) ↔
      ∀ resolved ∈ m.resolved, ∃ e, firstFor? received resolved = some e ∧ e.isSuccess = true := by
  constructor
  · rintro ⟨all, good⟩ resolved used
    obtain ⟨e, he⟩ := Option.isSome_iff_exists.1 (unreported_isEmpty.1 all resolved used)
    have same := firstFor?_recipient he
    have counts : e ∈ m.counted received := mem_counted.2 ⟨same ▸ used, same ▸ he⟩
    exact ⟨e, he, good (m.rename e) (List.mem_map_of_mem counts)⟩
  · intro good
    refine ⟨unreported_isEmpty.2 fun resolved used => ?_, fun status h => ?_⟩
    · obtain ⟨e, he, -⟩ := good resolved used
      rw [he]
      rfl
    · obtain ⟨e, counts, rfl⟩ := List.mem_map.1 h
      obtain ⟨used, first⟩ := mem_counted.1 counts
      obtain ⟨e', first', success⟩ := good e.recipient used
      obtain rfl := Option.some.inj (first.symm.trans first')
      exact success

theorem Aggregates.of_collected (m : Recipients) (received : List StatusEvent) :
    Aggregates m received (Session.Collected.result ⟨m.unreported received, m.statuses received⟩)
      (m.statuses received) where
  statuses := rfl
  order := List.filter_sublist.trans (firstReports_sublist _)
  once := (List.filter_sublist.map _).nodup (firstReports_once received)
  first _ := Recipients.mem_counted
  named _ := Recipients.rename_counted
  ok := Session.Collected.result_eq_ok.trans Recipients.statuses_succeed
  delivery failed := by
    rw [Session.Collected.result_eq_delivery, ← Recipients.unreported_isEmpty, ← Recipients.statuses_failed]
  timeout _ := Session.Collected.result_eq_statusTimeout

/-! ## Room for every report -/

namespace Session

variable {σ : Type}

/-- no report is lost where each is about another recipient -/
theorem arrivals_eq_reports {s : Session σ} (about : ∀ e ∈ s.reports, e.recipient ∈ s.recipients.resolved)
    (once : (s.reports.map StatusEvent.recipient).Nodup) : s.arrivals = s.reports := by
  have few : s.reports.length ≤ s.room := by
    have within : s.reports.map StatusEvent.recipient ⊆ s.recipients.resolved := by
      intro resolved h
      obtain ⟨e, he, rfl⟩ := List.mem_map.1 h
      exact about e he
    have short := (List.subperm_of_subset once within).length_le
    rw [List.length_map, Recipients.length_resolved] at short
    exact Nat.le_trans short (Nat.le_max_right _ _)
  unfold reports at few ⊢
  rw [List.flatMap_append, List.length_append] at few
  rw [arrivals, List.flatMap_append, queued_all (Nat.le_trans (Nat.le_add_right _ _) few)]
  congr 1
  refine List.flatMap_congr fun b hb => List.take_of_length_le ?_
  have part : b.events.length ≤ (s.timelyBursts.2.flatMap Burst.events).length := by
    obtain ⟨before, after, split⟩ := List.append_of_mem hb
    rw [split]
    simp
    omega
  exact Nat.le_trans part (Nat.le_trans (Nat.le_add_left _ _) few)

/-- where each report is about another recipient, all are received -/
theorem Hears.all {m : Recipients} {received came : List StatusEvent} (h : Hears m received came)
    (about : ∀ e ∈ came, e.recipient ∈ m.resolved) (once : (came.map StatusEvent.recipient).Nodup) :
    received = came := by
  obtain ⟨missed, rfl, settled | rfl⟩ := h
  · cases missed with
    | nil => exact (List.append_nil _).symm
    | cons e missed =>
      -- the recipient of a report that was missed has another one, which was received
      have used := about e (List.mem_append_right _ List.mem_cons_self)
      obtain ⟨e', he'⟩ := Option.isSome_iff_exists.1 (Recipients.unreported_isEmpty.1 settled e.recipient used)
      have same := firstFor?_recipient he'
      rw [List.map_append, List.nodup_append] at once
      exact absurd same (once.2.2 e'.recipient (List.mem_map_of_mem (List.mem_of_find?_eq_some he')) e.recipient
        (List.mem_map_of_mem List.mem_cons_self))
  · exact (List.append_nil _).symm

/-! ## The statuses of a body -/

/-- what can become of a body -/
inductive Fate (s : Session σ) (body : BodyInput) : Transfer σ → Prop where
  /-- the forwarder does not let it come -/
  | refused {e : ForwardError} (refused : (s.forwarder.data s.now s.downstream).value = .error e) :
      Fate s body (.error (.forward e), [], s.dataHeard.reset.2)
  /-- it is lost while it is passed on -/
  | lost {f : IoFailure} (letCome : (s.forwarder.data s.now s.downstream).value = .ok ())
      (lost : (s.dataHeard.copyBody body).1 = .error f) :
      Fate s body (.error (.dataCopy f), [], (s.bodyCopied body).abandon.clear)
  /-- the call that ends it fails -/
  | failed {e : ForwardError} {s' : Session σ} (letCome : (s.forwarder.data s.now s.downstream).value = .ok ())
      (copied : (s.dataHeard.copyBody body).1 = .ok ()) (ends : (s.bodyCopied body).endsInTime = true)
      (failed : (s.bodyCopied body).closing.result = .error e)
      (waits : Waits ((s.bodyCopied body).note .finish) s') : Fate s body (.error (.forward e), [], s'.reset.2)
  /-- its statuses are collected: the reports that came in time, or enough of them to settle every recipient -/
  | collected {s₁ s' : Session σ} {received : List StatusEvent}
      (letCome : (s.forwarder.data s.now s.downstream).value = .ok ())
      (copied : (s.dataHeard.copyBody body).1 = .ok ())
      (closes : (s.bodyCopied body).endsInTime = true → (s.bodyCopied body).closing.result = .ok ())
      (waits : Waits ((s.bodyCopied body).note .finish) s₁)
      (after : s' = if (s.bodyCopied body).endsInTime then s₁ else s₁.note .abandon)
      (now : s'.now ≤ (s.bodyCopied body).deadline)
      (journal : s'.journal.queued = s.journal.queued ++ received)
      (hears : Hears s.recipients received (s.bodyCopied body).arrivals) :
      Fate s body (Collected.result ⟨s.recipients.unreported received, s.recipients.statuses received⟩,
        s.recipients.statuses received, s'.clear)

/-- **What becomes of a body,** over any forwarder. -/
theorem data_fate {s : Session σ} (distinct : s.recipients.Distinct) (some_recipient : s.recipients.isEmpty = false)
    (body : BodyInput) : Fate s body (s.data body) := by
  have begun := data_transfer some_recipient body
  have same : (s.bodyCopied body).recipients = s.recipients := (bodyCopied_steady s body).recipients
  rcases transfer_cases s body with ⟨e, hv, ht⟩ | ⟨hv, ⟨f, hc, ht⟩ | ⟨hc, ht⟩⟩
  · rw [begun, ht]
    exact .refused hv
  · rw [begun, ht]
    exact .lost hv hc
  · rcases finish_spec (s := s.bodyCopied body) (same ▸ distinct) with
      ⟨e, s', ends, failed, waits, finish⟩ | ⟨s₁, s', received, closes, waits, after, now, journal, hears, finish⟩
    · rw [begun, ht, finish]
      exact .failed hv hc ends failed waits
    · rw [queued_bodyCopied] at journal
      rw [same] at hears finish
      rw [data_of_outcome some_recipient (ht.trans finish)]
      exact .collected hv hc closes waits after now journal hears

/-- **Statuses of a body.** Where the forwarder lets a body come and takes all of it, and the call that ends it does not
fail in time, the session aggregates the reports that found room in the queue of this body: all that came in time, or
enough of them to settle every recipient. It is done when the wait for the statuses is over, however many reports there
are. Where each report is about another recipient, none is lost. -/
theorem statuses_aggregated {s : Session σ} {body : BodyInput} (distinct : s.recipients.Distinct)
    (some_recipient : s.recipients.isEmpty = false) (letCome : (s.forwarder.data s.now s.downstream).value = .ok ())
    (copied : (s.dataHeard.copyBody body).1 = .ok ())
    (closes : (s.bodyCopied body).endsInTime = true → (s.bodyCopied body).closing.result = .ok ()) :
    ∃ received, (s.data body).2.2.journal.queued = s.journal.queued ++ received ∧
      Hears s.recipients received (s.bodyCopied body).arrivals ∧
      Aggregates s.recipients received (s.data body).1 (s.data body).2.1 ∧
      (s.bodyCopied body).now ≤ (s.data body).2.2.now ∧
      (s.data body).2.2.now ≤ (s.bodyCopied body).now + s.statusWait ∧
      ((∀ e ∈ (s.bodyCopied body).reports, e.recipient ∈ s.recipients.resolved) →
        ((s.bodyCopied body).reports.map StatusEvent.recipient).Nodup → received = (s.bodyCopied body).reports) := by
  have steady := bodyCopied_steady s body
  have fate := data_fate distinct some_recipient body
  generalize s.data body = transfer at fate ⊢
  cases fate with
  | refused refused => exact absurd (letCome.symm.trans refused) nofun
  | lost _ lost => exact absurd (copied.symm.trans lost) nofun
  | failed _ _ ends failed => exact absurd ((closes ends).symm.trans failed) nofun
  | @collected s₁ s' received _ _ _ waits after now journal hears =>
    have began : (s.bodyCopied body).now ≤ s'.now := by
      rw [after]
      split
      · exact waits.now
      · exact waits.now
    refine ⟨received, journal, hears, Aggregates.of_collected s.recipients received, began, ?_, fun about once => ?_⟩
    · exact steady.statusWait ▸ now
    · have all := arrivals_eq_reports (steady.recipients.symm ▸ about) once
      rw [← all] at about once ⊢
      exact hears.all about once

/-- a session with two recipients whose forwarder makes these reports after it has taken a body -/
def Sample.awaiting (cues : List Rehearsal.Cue) : Session Rehearsal.Script :=
  let plan := { Rehearsal.Plan.plain with closeDelay := 1, cues := some cues, background := true }
  let s := Session.start 1 (.ofTable [("p", "p@f"), ("q", "q@f")]) Rehearsal.forwarder
    { Rehearsal.Script.plain with plans := [plan] } 100 0
  ((s.mail "a@x" .empty).2.rcpt "p@h").2.rcpt "q@h" |>.2

/-- reports out of order, one about nobody, and two about one recipient: the first of these counts -/
def Sample.cues : List Rehearsal.Cue :=
  [⟨0, ⟨"x@f", .ok ()⟩⟩, ⟨2, ⟨"q@f", .error (.unavailable "full")⟩⟩, ⟨0, ⟨"q@f", .ok ()⟩⟩, ⟨5, ⟨"p@f", .ok ()⟩⟩]

theorem statuses_aggregated_mixed : ∃ received,
    Hears (Sample.awaiting Sample.cues).recipients received
      ((Sample.awaiting Sample.cues).bodyCopied (.ofChunks [Octets.ofText "hi\r\n"] none)).arrivals ∧
    Aggregates (Sample.awaiting Sample.cues).recipients received (.error (.delivery ["q@h"]))
      ((Sample.awaiting Sample.cues).data (.ofChunks [Octets.ofText "hi\r\n"] none)).2.1 := by
  have distinct : (Sample.awaiting Sample.cues).recipients.Distinct := by
    have names : (Sample.awaiting Sample.cues).recipients.resolved = ["p@f", "q@f"] := by cbv
    rw [Recipients.Distinct, names]
    decide
  have result : ((Sample.awaiting Sample.cues).data (.ofChunks [Octets.ofText "hi\r\n"] none)).1
      = .error (.delivery ["q@h"]) := by cbv
  obtain ⟨received, -, hears, aggregates, -⟩ := @statuses_aggregated _ (Sample.awaiting Sample.cues)
    (.ofChunks [Octets.ofText "hi\r\n"] none) distinct (by cbv) (by cbv) (by cbv) (fun _ => by cbv)
  exact ⟨received, hears, result ▸ aggregates⟩

end Session
end LmtpRelay
