/-
Statuses keep their recipients. The client reports by forwarding address, in the order in which it was owed answers; the
session takes each report under the name of the recipient that the address stands for; the engine puts each status into
the first free place of its recipient. Because all three go by the order of acceptance, the i-th answer becomes the i-th
reply, also where one recipient was named twice.
-/
import LmtpRelay.Proofs.Delivery.Answers
import LmtpRelay.Proofs.Engine.Agreement

namespace LmtpRelay

open Client (events statuses)

/-! ## In order -/

theorem Session.Collected.drain_in_order (entries : List (String × String)) (taken : List StatusEvent)
    (results : List (Except ForwardError Unit)) :
    Session.Collected.drain ⟨⟨entries⟩, taken⟩ (events (entries.map Prod.fst) results)
      = ⟨⟨entries.drop results.length⟩, taken ++ events (entries.map Prod.snd) results⟩ := by
  induction entries generalizing taken results with
  | nil => simp [events, drain]
  | cons entry entries ih =>
    cases results with
    | nil => simp [events, drain]
    | cons result results =>
      have first : Collected.take ⟨⟨entry :: entries⟩, taken⟩ ⟨entry.1, result⟩
          = ⟨⟨entries⟩, taken ++ [⟨entry.2, result⟩]⟩ := by
        simp [take, Recipients.named?, Recipients.erase]
      show drain _ (⟨entry.1, result⟩ :: events (entries.map Prod.fst) results) = _
      rw [drain, if_neg (by simp [Recipients.isEmpty]), first, ih]
      simp [events]

namespace Outcomes

/-- a status goes to the first place that is free when all before it are taken -/
theorem set_first_free (filled : Outcomes) (full : ∀ slot ∈ filled, slot.reply ≠ none) (e : StatusEvent)
    (rest : Outcomes) : set e (filled ++ ⟨e.recipient, none⟩ :: rest)
      = filled ++ ⟨e.recipient, some (replyOf e)⟩ :: rest := by
  induction filled with
  | nil => simp [set]
  | cons slot filled ih =>
    have taken := full slot List.mem_cons_self
    rw [List.cons_append, set, if_neg (fun h => taken h.2),
      ih fun slot h => full slot (List.mem_cons_of_mem _ h)]
    rfl

/-- statuses in the order of the recipients fill the places from the front -/
theorem foldl_in_order (filled : Outcomes) (full : ∀ slot ∈ filled, slot.reply ≠ none) (names : List String)
    (results : List (Except ForwardError Unit)) :
    (events names results).foldl (fun o e => set e o) (filled ++ ofRecipients names)
      = filled ++ (events names results).map (fun e => ⟨e.recipient, some (replyOf e)⟩)
        ++ ofRecipients (names.drop results.length) := by
  induction names generalizing filled results with
  | nil => simp [events, ofRecipients]
  | cons name names ih =>
    cases results with
    | nil => simp [events]
    | cons result results =>
      have first := set_first_free filled full ⟨name, result⟩ (ofRecipients names)
      have full' : ∀ slot ∈ filled ++ [⟨name, some (replyOf ⟨name, result⟩)⟩], slot.reply ≠ none := by
        intro slot h
        rcases List.mem_append.1 h with h | h
        · exact full slot h
        · obtain rfl := List.mem_singleton.1 h
          exact Option.some_ne_none _
      have next := ih (filled ++ [⟨name, some (replyOf ⟨name, result⟩)⟩]) full' results
      show (events names results).foldl _ (set ⟨name, result⟩ (filled ++ ⟨name, none⟩ :: ofRecipients names)) = _
      rw [first]
      simpa [events] using next

/-- **Replies in order.** The i-th recipient gets the reply for the i-th status, or the one for a failure -/
theorem ofStatuses_in_order (names : List String) (results : List (Except ForwardError Unit))
    (fallback : Option Reply) : ofStatuses names (events names results) fallback
      = (events names results).map replyOf ++ (names.drop results.length).map fun _ => fallback.getD noStatus := by
  have filled := foldl_in_order [] nofun names results
  rw [List.nil_append, List.nil_append] at filled
  rw [ofStatuses, filled, replies, List.map_append, List.map_map, ofRecipients, List.map_map]
  congr 1

end Outcomes

/-! ## The reply for each recipient -/

/-- the reply that the `i`-th recipient gets: by its own answer, or by what ended the reading before it -/
def answerReply (answers : List Response × Stop) (i : Nat) (recipient : String) : Reply :=
  match answers.1[i]? with
  | some response => if response.isSuccess then .done s!"<{recipient}> delivered" else response.reply
  | none =>
    if answers.2 = .waited then (SessionError.statusTimeout []).reply else (ForwardError.unavailable "").reply

def answerLine (answers : List Response × Stop) (i : Nat) (recipient : String) : String :=
  match answers.1[i]? with
  | some response =>
    if response.isSuccess then s!"250 2.0.0 <{recipient}> delivered\r\n" else response.reply.line
  | none =>
    if answers.2 = .waited then "451 4.4.2 Timed out waiting for delivery status\r\n"
    else "451 4.4.0 Downstream unavailable\r\n"

theorem done_line (message : String) : (Reply.done message).line = s!"250 2.0.0 {message}\r\n" := by
  have status : Status.done.text = "250" := by decide
  have enhanced : EnhancedCode.success.text = "2.0.0" := by decide
  have text : (Reply.done message).text = s!"{Status.done.text} {EnhancedCode.success.text} {message}" := rfl
  rw [Reply.line, text, status, enhanced]
  apply String.ext
  simp [toString]

theorem answerReply_line (answers : List Response × Stop) (i : Nat) (recipient : String) :
    (answerReply answers i recipient).line = answerLine answers i recipient := by
  have timedOut : (SessionError.statusTimeout []).reply.line
      = "451 4.4.2 Timed out waiting for delivery status\r\n" := by decide
  have unavailable : (ForwardError.unavailable "").reply.line = "451 4.4.0 Downstream unavailable\r\n" := by decide
  unfold answerReply answerLine
  cases answers.1[i]? with
  | none =>
    dsimp only
    split
    · exact timedOut
    · exact unavailable
  | some response =>
    dsimp only
    split
    · refine (done_line _).trans ?_
      apply String.ext
      simp [toString]
    · rfl

theorem replyOf_judged (recipient : String) (response : Response) :
    Outcomes.replyOf ⟨recipient, Client.judged (.ok response)⟩
      = if response.isSuccess then .done s!"<{recipient}> delivered" else response.reply := by
  unfold Client.judged
  dsimp only
  split <;> rfl

theorem mapIdx_const {α β : Type} {f : Nat → α → β} {b : β} (h : ∀ i a, f i a = b) (l : List α) :
    l.mapIdx f = l.map fun _ => b :=
  List.ext_getElem (by simp) fun i _ _ => by simp [h]

/-- where no answer is left, every recipient gets the same reply -/
theorem replies_without_answers (names : List String) {stop : Stop} (left : stop ≠ .all) (detail : String)
    (fallback : Option Reply)
    (waited : stop = .waited → fallback = some (SessionError.statusTimeout []).reply) :
    Outcomes.ofStatuses names (events names (statuses names.length ([], stop) detail)) fallback
      = names.mapIdx (answerReply ([], stop)) := by
  rw [Outcomes.ofStatuses_in_order]
  cases stop with
  | all => exact absurd rfl left
  | failed =>
    have all_failed : statuses names.length ([], .failed) detail
        = List.replicate names.length (.error (.unavailable detail)) := rfl
    have same := mapIdx_const (f := answerReply ([], .failed)) (b := (ForwardError.unavailable "").reply)
      (fun _ _ => rfl) names
    rw [same, all_failed, Client.events_replicate, List.length_replicate, List.drop_length, List.map_map, List.map_nil,
      List.append_nil]
    rfl
  | waited =>
    have no_status : statuses names.length ([], .waited) detail = [] := rfl
    have same := mapIdx_const (f := answerReply ([], .waited)) (b := (SessionError.statusTimeout []).reply)
      (fun _ _ => rfl) names
    rw [same, no_status, waited rfl, Client.events_nil]
    rfl

/-- statuses in order, one for each answer, make the replies to the recipients in order -/
theorem replies_in_order (names : List String) (answers : List Response) (stop : Stop) (detail : String)
    (fallback : Option Reply) (short : answers.length ≤ names.length)
    (all : stop = .all ↔ answers.length = names.length)
    (waited : stop = .waited → fallback = some (SessionError.statusTimeout []).reply) :
    Outcomes.ofStatuses names (events names (statuses names.length (answers, stop) detail)) fallback
      = names.mapIdx (answerReply (answers, stop)) := by
  induction names generalizing answers with
  | nil => rfl
  | cons name names ih =>
    cases answers with
    | nil =>
      refine replies_without_answers (name :: names) ?_ detail fallback waited
      simpa using all
    | cons answer answers =>
      have here := replyOf_judged name answer
      have rest := ih answers (by simpa using short) (by simpa using all)
      rw [Outcomes.ofStatuses_in_order] at rest ⊢
      have one_more : statuses (name :: names).length (answer :: answers, stop) detail
          = Client.judged (.ok answer) :: statuses names.length (answers, stop) detail := by
        simp [statuses]
      rw [one_more, List.mapIdx_cons]
      show Outcomes.replyOf ⟨name, Client.judged (.ok answer)⟩ :: _ = _
      rw [here]
      exact congrArg _ rest

/-! ## The session -/

namespace Session

variable {π : Type}

/-- the session when a body has been copied to the client -/
def copied (s : Session (Client π)) (octets : Octets) : Session (Client π) :=
  s.bodyCopied (.ofChunks [octets] none)

def ending (s : Session (Client π)) (octets : Octets) : Answer (Client π) (Except IoFailure Unit) :=
  Client.writeRaw (s.copied octets).now (s.copied octets).downstream (terminator (s.copied octets).downstream.atStart)

/-- the server lets a body come and takes all of it, with its end -/
structure Takes (s : Session (Client π)) (octets : Octets) : Prop where
  letCome : ∃ response, (s.downstream.command s.now "DATA" Command.data.text).1.value = .ok response ∧
    response.code = Status.startMailInput.code
  taken : (s.dataHeard.copyBody (.ofChunks [octets] none)).1 = .ok ()
  ended : (s.ending octets).value = .ok ()

/-- whether the server takes a body, by running the operations -/
def takesBody (s : Session (Client π)) (octets : Octets) : Bool :=
  (Client.data s.now s.downstream).value.isOk && (s.dataHeard.copyBody (.ofChunks [octets] none)).1.isOk &&
    (s.ending octets).value.isOk

/-- the answers to a body that the server takes, and what ends the reading -/
def answers (s : Session (Client π)) (octets : Octets) : List Response × Stop :=
  readAnswers (seconds (s.copied octets).downstream.timeouts.dataSecs) (s.copied octets).now
    ((s.copied octets).now + s.statusWait) s.recipients.size ((s.copied octets).now + (s.ending octets).took)
    (s.ending octets).next.source

theorem Takes.data_ok {s : Session (Client π)} {octets : Octets} (h : s.Takes octets) :
    (Client.data s.now s.downstream).value = .ok () :=
  (Client.data_ok_iff _ _).2 h.letCome

theorem Takes.of_takesBody {s : Session (Client π)} {octets : Octets} (h : s.takesBody octets = true) :
    s.Takes octets := by
  have done : ∀ {ε : Type} {r : Except ε Unit}, r.isOk = true → r = .ok () := by
    intro ε r hr
    cases r with
    | ok _ => rfl
    | error _ => cases hr
  unfold takesBody at h
  simp only [Bool.and_eq_true] at h
  obtain ⟨⟨letCome, taken⟩, ended⟩ := h
  exact ⟨(Client.data_ok_iff _ _).1 (done letCome), done taken, done ended⟩

theorem reported_in_time {s : Session (Client π)} {took : Nat} {bursts : List Burst}
    (ht : (Client.finish s.now s.downstream).took = some took)
    (hb : (Client.finish s.now s.downstream).direct = bursts)
    (between : ∀ b ∈ bursts, b.time ≤ s.now + took) :
    s.reported = bursts.filter fun b => inTime s.now (s.now + s.statusWait) b.time := by
  unfold reported
  rw [hb]
  split
  · next inTime =>
    refine (List.filter_eq_self.2 fun b h => ?_).symm
    rw [← Bool.not_eq_false]
    intro late
    have later := inTime_mono late (between b h)
    simp [finishesInTime, ht, later] at inTime
  · rfl

/-- **What is collected.** The session has a status for each answer, under the name of its recipient and in order -/
theorem collected_answers {s : Session (Client π)} (h : s.Aligned) {octets : Octets} (takes : s.Takes octets) :
    ∃ detail, (s.copied octets).collected =
      ⟨⟨s.recipients.entries.drop (statuses s.recipients.size (s.answers octets) detail).length⟩,
        events s.recipients.names (statuses s.recipients.size (s.answers octets) detail)⟩ := by
  have steady : s.Steady (s.copied octets) := bodyCopied_steady s _
  have kept := bodyCopied_kept h.toOverClient takes.data_ok (.ofChunks [octets] none)
  have owed : (s.copied octets).downstream.owed = s.recipients.resolved := kept.owed.trans h.accepted
  have written := Client.writeRaw_kept (s.copied octets).now (s.copied octets).downstream
    (terminator (s.copied octets).downstream.atStart)
  have size := s.recipients.length_resolved
  rcases Client.finish_cases (s.copied octets).now (s.copied octets).downstream with
    ⟨f, hf, -⟩ | ⟨-, bursts, last, c', hread, ht, hb⟩
  · exact absurd (takes.ended.symm.trans hf) nofun
  · rw [owed] at hread
    have times := Client.readStatuses_times (s.ending octets).next
      ((s.copied octets).now + (s.ending octets).took) s.recipients.resolved
    have began : (s.copied octets).now ≤ (s.copied octets).now + (s.ending octets).took := Nat.le_add_right _ _
    obtain ⟨detail, reports⟩ := Client.readStatuses_answers (s.ending octets).next began
      ((s.copied octets).now + s.statusWait) s.recipients.resolved
    replace hread : (s.ending octets).next.readStatuses ((s.copied octets).now + (s.ending octets).took)
      s.recipients.resolved = (bursts, last, c') := hread
    have timeouts : (s.ending octets).next.timeouts = (s.copied octets).downstream.timeouts := written.timeouts
    rw [hread] at times reports
    rw [size, timeouts] at reports
    -- all bursts come before the reading ends, so those in time are reported either way
    have reported : (s.copied octets).reported
        = bursts.filter fun b => inTime (s.copied octets).now ((s.copied octets).now + s.statusWait) b.time := by
      rw [← steady.statusWait]
      refine reported_in_time ht hb fun b hmem => ?_
      rw [Nat.add_sub_of_le (Nat.le_trans began times.1)]
      exact (times.2 b hmem).2
    have room : ((s.copied octets).reported.flatMap Burst.events).length ≤ max 1 (s.copied octets).recipients.size := by
      rw [reported, reports, steady.recipients]
      refine Nat.le_trans ?_ (Nat.le_max_right _ _)
      rw [events, List.length_zipWith, size]
      exact Nat.min_le_left _ _
    refine ⟨detail, ?_⟩
    rw [collected, queued_all room, reported, reports, steady.recipients]
    exact Collected.drain_in_order s.recipients.entries [] _

theorem answers_length (s : Session (Client π)) (octets : Octets) :
    (s.answers octets).1.length ≤ s.recipients.names.length ∧
      ((s.answers octets).2 = .all ↔ (s.answers octets).1.length = s.recipients.names.length) := by
  rw [s.recipients.length_names]
  exact readAnswers_length _ _ _ _ _ _

/-- where the wait for the statuses was over first, some recipient is left without one -/
theorem collected_waited {s : Session (Client π)} {octets : Octets} {detail : String}
    (h : (s.copied octets).collected =
      ⟨⟨s.recipients.entries.drop (statuses s.recipients.size (s.answers octets) detail).length⟩,
        events s.recipients.names (statuses s.recipients.size (s.answers octets) detail)⟩)
    (waited : (s.answers octets).2 = .waited) :
    ∃ missing, (s.copied octets).collected.result = .error (.statusTimeout missing) := by
  obtain ⟨short, all⟩ := s.answers_length octets
  have fewer : (s.answers octets).1.length < s.recipients.names.length := by
    refine Nat.lt_of_le_of_ne short fun full => ?_
    rw [waited] at all
    exact absurd (all.2 full) nofun
  refine ⟨_, Collected.result_outstanding ?_⟩
  rw [h, Recipients.isEmpty, List.isEmpty_eq_false_iff, Ne, List.drop_eq_nil_iff, statuses, waited]
  simpa [Recipients.names] using fewer

end Session

/-! ## The engine -/

namespace Engine

variable {π : Type}

/-- the replies after a body that the server takes -/
theorem deliver_taken {e : Engine (Client π)} (h : e.Agreement) (stage : e.dialogue.stage = .recipients)
    {octets : Octets} (takes : e.session.Takes octets) :
    (e.deliver (.complete octets)).1
      = e.dialogue.envelope.recipients.mapIdx (answerReply (e.session.answers octets)) := by
  rcases Session.data_cases h.aligned.toOverClient (h.some_recipient stage) (.ofChunks [octets] none) with
    ⟨error, refused, -⟩ | ⟨-, ⟨f, lost, -⟩ | ⟨-, s', -, -, data⟩⟩
  · exact absurd (takes.data_ok.symm.trans refused) nofun
  · exact absurd (takes.taken.symm.trans lost) nofun
  · obtain ⟨detail, collected⟩ := Session.collected_answers h.aligned takes
    obtain ⟨short, all⟩ := e.session.answers_length octets
    have statuses : (e.session.copied octets).collected.statuses = events e.session.recipients.names
        (statuses e.session.recipients.names.length (e.session.answers octets) detail) := by
      rw [collected, e.session.recipients.length_names]
    rw [← Session.copied] at data
    rw [deliver_of_data data, h.recipients, statuses]
    refine replies_in_order e.session.recipients.names (e.session.answers octets).1 (e.session.answers octets).2 detail
      _ short all fun waited => ?_
    obtain ⟨missing, result⟩ := Session.collected_waited collected waited
    rw [result]
    rfl

/-- nothing is said to the peer while a body is delivered -/
theorem deliver_said {e : Engine (Client π)} (h : e.Agreement) (stage : e.dialogue.stage = .recipients) (body : Body) :
    (e.deliver body).2.session.journal.said = e.session.journal.said := by
  cases body with
  | tooLarge length => exact e.session.reset_said
  | complete octets => exact Session.data_said h.aligned.toOverClient (h.some_recipient stage) _

theorem bodyCome_agreement {e : Engine (Client π)} (h : e.Agreement) (s : Source) : (e.bodyCome s).Agreement :=
  act_agreement (.wait _ _ (e.saying startBody.line).turns) (act_agreement (.say e startBody.line) h)

/-- **Answers reach their recipients.** Where a run comes to carry out DATA, the body comes in time and whole, and the
server takes it, the peer is told to send the body and then gets one line for each recipient that it had accepted, in
that order and nothing else: the i-th by the i-th answer of the server, or by what ended the reading before it. All that
the run says begins so. -/
theorem answers_reach_recipients {hostname : String} {e₀ e : Engine (Client π)} {s₀ s : Source} {l : List Heard}
    {octets : Octets} (begins : e₀.Begins hostname) (sends : ∀ t, e₀.surroundings.outageAt t = none)
    (carries : e₀.Carries s₀ l .data e s) (body : e.awaitedBody s = some (.ok (.complete octets)))
    (takes : (e.bodyCome s).session.Takes octets) :
    ∃ e' rest, e.perform .data s = .next e' rest ∧ e₀.Reaches s₀ (l ++ e.heardIn s .data) e' rest ∧
      0 < (Heard.recipients l).length ∧
      e'.session.journal.said = e.session.journal.said ++ startBody.line ::
        (Heard.recipients l).mapIdx (answerLine ((e.bodyCome s).session.answers octets)) ∧
      e'.session.journal.said <+: (e₀.run s₀).2.session.journal.said := by
  have agreement := carries.agreement begins
  have stage := carries.stage
  have calm : ∀ t, e.surroundings.outageAt t = none := by
    rw [carries.acts.setup.2]
    exact sends
  have come := bodyCome_agreement agreement s
  have lines : ((e.bodyCome s).deliver (.complete octets)).1.map Reply.line
      = e.dialogue.envelope.recipients.mapIdx (answerLine ((e.bodyCome s).session.answers octets)) := by
    rw [deliver_taken come stage takes]
    exact List.ext_getElem (by simp; rfl) fun i _ _ => by simp [answerReply_line]; rfl
  have deliver : Act (e.bodyCome s) [.body (.complete octets)] ((e.bodyCome s).deliver (.complete octets)).2 :=
    @Act.deliver _ (e.bodyCome s) s e.now (.complete octets) (awaitedBody_value body) stage
  have free : ((e.bodyCome s).deliver (.complete octets)).2.surroundings.outageAt
      ((e.bodyCome s).deliver (.complete octets)).2.now = none := by
    rw [deliver.setup.2]
    exact calm _
  have perform : e.perform .data s = .next
      (((e.bodyCome s).deliver (.complete octets)).2.sayingAll
        (((e.bodyCome s).deliver (.complete octets)).1.map Reply.line))
      (s.readBody e.settings.maxMessageSize e.now).rest := by
    show e.data s = _
    rw [data_of_body (calm _) body, sendAll_eq free]
    rfl
  refine ⟨_, _, perform, carries.next perform, ?_, ?_, (carries.next perform).said begins.sound⟩
  · have orderly := agreement.orderly
    rw [Dialogue.Orderly, stage] at orderly
    rw [← carries.recipients begins]
    exact List.length_pos_iff.2 orderly.2.2
  · rw [sayingAll_said, deliver_said come stage, bodyCome_said, lines, ← carries.recipients begins, List.append_assoc]
    rfl

/-- whether the next turn carries out DATA with a body that the server takes -/
def Sample.takesNext (e : Engine (Client Rehearsal.Server)) (s : Source) : Bool :=
  match e.heeds s with
  | some (e, .ok .data, s) =>
    e.dialogue.stage.allows .data && match e.awaitedBody s with
      | some (.ok (.complete octets)) => (e.bodyCome s).session.takesBody octets
      | _ => false
  | _ => false

theorem Sample.of_takesNext {e₀ e : Engine (Client Rehearsal.Server)} {s₀ s : Source} {l : List Heard}
    (reaches : e₀.Reaches s₀ l e s) (h : takesNext e s = true) :
    ∃ e' s' octets, e₀.Carries s₀ l .data e' s' ∧ e'.awaitedBody s' = some (.ok (.complete octets)) ∧
      (e'.bodyCome s').session.Takes octets := by
  unfold takesNext at h
  split at h
  · next e' s' heeds =>
    rw [Bool.and_eq_true] at h
    obtain ⟨allowed, h⟩ := h
    split at h
    · next octets come => exact ⟨e', s', octets, ⟨e, s, reaches, heeds, allowed⟩, come, .of_takesBody h⟩
    · cases h
  · cases h

/-- two recipients, of which the server takes the body for one -/
theorem answers_reach_two : ∃ l e s octets,
    (Sample.engine ["220 ready", "250 hello", "250 sender", "250 first", "250 second", "354 go on",
      "250 stored\r\n550 full"]).Carries
      (Sample.source ["LHLO peer", "MAIL FROM:<a@x>", "RCPT TO:<p@h>", "RCPT TO:<q@h>", "DATA", "hi", "."])
      l .data e s ∧
    ∃ e' rest, e.perform .data s = .next e' rest ∧
      e'.session.journal.said = e.session.journal.said ++ startBody.line ::
        (Heard.recipients l).mapIdx (answerLine ((e.bodyCome s).session.answers octets)) := by
  have begins : (Sample.engine ["220 ready", "250 hello", "250 sender", "250 first", "250 second", "354 go on",
      "250 stored\r\n550 full"]).Begins "relay" := Sample.begins (by cbv) (by cbv)
  obtain ⟨l, e, s, reaches, next⟩ := Sample.reaches
    ["220 ready", "250 hello", "250 sender", "250 first", "250 second", "354 go on", "250 stored\r\n550 full"]
    ["LHLO peer", "MAIL FROM:<a@x>", "RCPT TO:<p@h>", "RCPT TO:<q@h>", "DATA", "hi", "."] 4 Sample.takesNext (by cbv)
  obtain ⟨e', s', octets, carries, come, takes⟩ := Sample.of_takesNext reaches next
  obtain ⟨after, rest, perform, -, -, said, -⟩ := answers_reach_recipients begins (fun _ => rfl) carries come takes
  exact ⟨l, e', s', octets, carries, after, rest, perform, said⟩

end Engine
end LmtpRelay
