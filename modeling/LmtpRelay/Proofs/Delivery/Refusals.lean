/-
How failures are told. A failure of the relay's own is told with a negative reply. A refusal of the server is passed
on as it came, and any response is a refusal that is not the one the command needs: every code outside 200 to 299, and
for DATA every code but 354. So a failure is told with a negative reply exactly when the response taken as a refusal,
if there was one, is negative itself.

- `failures_told`: for every command of a run that fails, and for every recipient of a body, in terms of the response.
- `rejection_told_as_success`: a server that answers DATA with 250 gets its peer told that the message was delivered.
-/
import LmtpRelay.Proofs.Delivery.Correlation

namespace LmtpRelay

/-! ## Negative replies -/

def IsNegativeCode (code : Nat) : Prop := 400 ≤ code ∧ code < 600

instance (code : Nat) : Decidable (IsNegativeCode code) := inferInstanceAs (Decidable (_ ∧ _))

namespace Reply

def IsNegative (r : Reply) : Prop := IsNegativeCode r.status.code

/-- the reply says that something was done -/
def IsDone (r : Reply) : Prop := 200 ≤ r.status.code ∧ r.status.code < 300

instance (r : Reply) : Decidable r.IsNegative := inferInstanceAs (Decidable (IsNegativeCode _))

instance (r : Reply) : Decidable r.IsDone := inferInstanceAs (Decidable (_ ∧ _))

end Reply

theorem Reply.IsNegative.coded {status : Status} (h : IsNegativeCode status.code) {code : EnhancedCode}
    {text : String} : (Reply.coded status code text).IsNegative := h

theorem Reply.IsNegative.not_isDone {r : Reply} (h : r.IsNegative) : ¬ r.IsDone :=
  fun done => absurd (Nat.lt_of_le_of_lt h.1 done.2) (by decide)

theorem Reply.done_isDone (message : String) : (Reply.done message).IsDone := by
  have code : (Reply.done message).status.code = Status.done.code := rfl
  rw [Reply.IsDone, code]
  decide

theorem Response.reply_code (r : Response) : r.reply.status.code = r.code := by
  unfold Response.reply
  dsimp only
  split <;> rfl

theorem Response.isSuccess_iff (r : Response) : r.isSuccess = true ↔ r.reply.IsDone := by
  rw [Reply.IsDone, r.reply_code]
  simp [Response.isSuccess]

/-! ## Refusals -/

namespace SessionError

/-- the refusal of the server that a failure passes on -/
def refusal? : SessionError → Option Reply
  | forward (.rejected reply) => some reply
  | _ => none

/-- a failure is told with the refusal it passes on, or else with a negative reply -/
theorem reply_cases (error : SessionError) :
    error.refusal? = some error.reply ∨ (error.refusal? = none ∧ error.reply.IsNegative) := by
  cases error with
  | forward error =>
    cases error with
    | rejected reply => exact .inl rfl
    | downstream error => cases error <;> exact .inr ⟨rfl, .coded (by decide)⟩
    | unavailable detail => exact .inr ⟨rfl, .coded (by decide)⟩
  | resolution identifier cause => cases cause <;> exact .inr ⟨rfl, .coded (by decide)⟩
  | _ => exact .inr ⟨rfl, .coded (by decide)⟩

theorem reply_isNegative_iff (error : SessionError) :
    error.reply.IsNegative ↔ ∀ reply, error.refusal? = some reply → reply.IsNegative := by
  rcases error.reply_cases with passed | ⟨none_passed, negative⟩
  · rw [passed]
    exact ⟨fun negative _ same => Option.some.inj same ▸ negative, fun all => all _ rfl⟩
  · rw [none_passed]
    exact ⟨nofun, fun _ => negative⟩

theorem reply_isDone_iff (error : SessionError) :
    error.reply.IsDone ↔ ∃ reply, error.refusal? = some reply ∧ reply.IsDone := by
  rcases error.reply_cases with passed | ⟨none_passed, negative⟩
  · rw [passed]
    exact ⟨fun done => ⟨_, rfl, done⟩, fun ⟨_, same, done⟩ => Option.some.inj same ▸ done⟩
  · rw [none_passed]
    constructor
    · exact fun done => absurd done negative.not_isDone
    · rintro ⟨_, same, -⟩
      cases same

end SessionError

/-- a failure passes on the refusal of a response, if there was one -/
def PassesOn (error : SessionError) (response? : Option Response) : Prop :=
  error.refusal? = response?.map Response.reply

theorem PassesOn.isNegative_iff {error : SessionError} {response? : Option Response} (h : PassesOn error response?) :
    error.reply.IsNegative ↔ ∀ response, response? = some response → IsNegativeCode response.code := by
  rw [error.reply_isNegative_iff, h]
  constructor
  · intro all response hr
    rw [← response.reply_code]
    exact all _ (by rw [hr]; rfl)
  · intro all reply hr
    obtain ⟨response, hs, rfl⟩ := Option.map_eq_some_iff.1 hr
    rw [Reply.IsNegative, response.reply_code]
    exact all response hs

theorem PassesOn.isDone_iff {error : SessionError} {response? : Option Response} (h : PassesOn error response?) :
    error.reply.IsDone ↔ ∃ response, response? = some response ∧ response.isSuccess = true := by
  rw [error.reply_isDone_iff, h]
  constructor
  · rintro ⟨reply, hr, done⟩
    obtain ⟨response, hs, rfl⟩ := Option.map_eq_some_iff.1 hr
    exact ⟨response, hs, response.isSuccess_iff.2 done⟩
  · rintro ⟨response, hs, success⟩
    exact ⟨response.reply, by rw [hs]; rfl, response.isSuccess_iff.1 success⟩

theorem Client.judged_passesOn {r : Except DownstreamError Response} {e : ForwardError} (h : judged r = .error e) :
    PassesOn (.forward e) r.toOption := by
  cases r with
  | error failure =>
    obtain rfl := Except.error.inj h
    rfl
  | ok response =>
    unfold judged at h
    dsimp only at h
    split at h
    · cases h
    · obtain rfl := Except.error.inj h
      rfl

/-! ## The responses to commands -/

namespace Session

variable {π : Type}

/-- the server's response to a sender that is passed on -/
def mailResponse? (s : Session (Client π)) (sender : String) (params : Parameters) : Option Response :=
  ({ s.downstream with accepted := [] }.command s.now "MAIL" (Command.mail sender params).text).1.value.toOption

def rcptResponse? (s : Session (Client π)) (recipient : String) : Option Response :=
  match localPart? recipient with
  | none => none
  | some identifier =>
    match (s.resolve identifier).1 with
    | .error _ => none
    | .ok resolved =>
      if s.recipients.contains resolved then none
      else
        let s := (s.resolve identifier).2
        (s.downstream.command s.now "RCPT" (Command.rcpt resolved .empty).text).1.value.toOption

/-- the server's response to giving the transaction up -/
def resetResponse? (s : Session (Client π)) : Option Response :=
  ({ s.downstream with accepted := [] }.command s.now "RSET" Command.rset.text).1.value.toOption

/-- the server's response to DATA -/
def dataResponse? (s : Session (Client π)) : Option Response :=
  (s.downstream.command s.now "DATA" Command.data.text).1.value.toOption

theorem mail_passesOn {s : Session (Client π)} (h : s.OverClient) {sender : String} {params : Parameters}
    {error : SessionError} (failed : (s.mail sender params).1 = .error error) :
    PassesOn error (s.mailResponse? sender params) := by
  rcases mail_cases s sender params with ⟨-, hm⟩ | ⟨e, hv, hm⟩ <;> rw [hm] at failed
  · cases failed
  · obtain rfl := Except.error.inj failed
    rw [h.forwarder] at hv
    exact Client.judged_passesOn hv

theorem rcpt_passesOn {s : Session (Client π)} (h : s.OverClient) {recipient : String} {error : SessionError}
    (failed : (s.rcpt recipient).1 = .error error) : PassesOn error (s.rcptResponse? recipient) := by
  unfold rcptResponse?
  rcases rcpt_cases s recipient with
    ⟨hl, hr⟩ | ⟨identifier, hl, ⟨cause, ha, hr⟩ | ⟨resolved, ha, ⟨used, hr⟩ | ⟨new, hr⟩⟩⟩ <;>
      rw [hr] at failed <;> rw [hl]
  · obtain rfl := Except.error.inj failed
    rfl
  · obtain rfl := Except.error.inj failed
    simp only [ha]
    rfl
  · obtain rfl := Except.error.inj failed
    simp only [ha, used, if_true]
    rfl
  · simp only [ha, new]
    rw [← (resolve_steady s identifier).recipients] at new
    rcases accept_cases new recipient with ⟨-, hc⟩ | ⟨e, hv, hc⟩ <;> rw [hc] at failed
    · cases failed
    · obtain rfl := Except.error.inj failed
      rw [(h.steady (resolve_steady s identifier)).forwarder] at hv
      exact Client.judged_passesOn ((Client.rcpt_value _ _ _).symm.trans hv)

theorem reset_passesOn {s : Session (Client π)} (h : s.OverClient) {error : SessionError}
    (failed : s.reset.1 = .error error) : PassesOn error s.resetResponse? := by
  have value : s.reset.1 = forwarded (s.forwarder.reset s.now s.downstream).value := rfl
  rw [value, h.forwarder] at failed
  cases hv : ((Client.forwarder π).reset s.now s.downstream).value with
  | ok _ =>
    rw [hv] at failed
    cases failed
  | error e =>
    rw [hv] at failed
    obtain rfl := Except.error.inj failed
    exact Client.judged_passesOn hv

/-! ## Bodies -/

/-- what becomes of a body as a whole: a failure, or the answers of the server and what ends the reading -/
def bodyOutcome (s : Session (Client π)) (octets : Octets) : Except SessionError (List Response × Stop) :=
  match (Client.data s.now s.downstream).value with
  | .error e => .error (.forward e)
  | .ok _ =>
    match (s.dataHeard.copyBody (.ofChunks [octets] none)).1 with
    | .error f => .error (.dataCopy f)
    | .ok _ =>
      match (s.ending octets).value with
      | .error _ => .ok ([], .waited)
      | .ok _ => .ok (s.answers octets)

/-- the server has answered for the `i`-th recipient after the end of the body, and accepted it -/
def Delivered (s : Session (Client π)) (octets : Octets) (i : Nat) : Prop :=
  match s.bodyOutcome octets with
  | .error _ => False
  | .ok answers => ∃ response, answers.1[i]? = some response ∧ response.isSuccess = true

/-- the response by which the body is not delivered to the `i`-th recipient: the one to DATA, or its own answer after
the end of the body -/
def bodyRefusal? (s : Session (Client π)) (octets : Octets) (i : Nat) : Option Response :=
  match s.bodyOutcome octets with
  | .error (.forward _) => s.dataResponse?
  | .error _ => none
  | .ok answers => answers.1[i]?

theorem data_passesOn {s : Session (Client π)} {e : ForwardError}
    (refused : (Client.data s.now s.downstream).value = .error e) :
    PassesOn (.forward e) s.dataResponse? := by
  rw [Client.data_eq] at refused
  unfold dataResponse?
  cases hr : (s.downstream.command s.now "DATA" Command.data.text).1.value with
  | error failure =>
    rw [hr] at refused
    obtain rfl := Except.error.inj refused
    rfl
  | ok response =>
    rw [hr] at refused
    dsimp only at refused
    split at refused
    · cases refused
    · obtain rfl := Except.error.inj refused
      rfl

/-- the server answered DATA as if the message were delivered -/
def DataDone (s : Session (Client π)) : Prop := ∃ response, s.dataResponse? = some response ∧ response.isSuccess = true

/-- DATA is refused, or else the body does not get through or has answers -/
theorem bodyOutcome_cases (s : Session (Client π)) (octets : Octets) :
    (∃ e, (Client.data s.now s.downstream).value = .error e ∧ s.bodyOutcome octets = .error (.forward e)) ∨
    (¬ s.DataDone ∧ ((∃ f, s.bodyOutcome octets = .error (.dataCopy f)) ∨
      ∃ answers, s.bodyOutcome octets = .ok answers)) := by
  unfold bodyOutcome
  cases letCome : (Client.data s.now s.downstream).value with
  | error e => exact .inl ⟨e, rfl, rfl⟩
  | ok _ =>
    refine .inr ⟨?_, ?_⟩
    · obtain ⟨response, hr, code⟩ := (Client.data_ok_iff _ _).1 letCome
      rintro ⟨_, same, success⟩
      rw [dataResponse?, hr] at same
      obtain rfl := Option.some.inj same
      rw [Response.isSuccess, code] at success
      exact absurd success (by decide)
    · cases (s.dataHeard.copyBody (.ofChunks [octets] none)).1 with
      | error f => exact .inl ⟨f, rfl⟩
      | ok _ =>
        cases (s.ending octets).value with
        | error _ => exact .inr ⟨_, rfl⟩
        | ok _ => exact .inr ⟨_, rfl⟩

/-- a body whose end could not be written has no reports, so that every recipient is left without a status -/
theorem collected_unended {s : Session (Client π)} {octets : Octets} {f : IoFailure}
    (unended : (s.ending octets).value = .error f) (some_recipient : s.recipients.isEmpty = false) :
    (s.copied octets).collected.statuses = [] ∧
      ∃ missing, (s.copied octets).collected.result = .error (.statusTimeout missing) := by
  have nothing : (s.copied octets).reported = [] := by
    rcases Client.finish_cases (s.copied octets).now (s.copied octets).downstream with ⟨_, -, -, hb⟩ | ⟨ended, -⟩
    · unfold reported
      rw [hb]
      split <;> rfl
    · exact absurd (ended.symm.trans unended) nofun
  have steady : Steady s (s.copied octets) := bodyCopied_steady s _
  have collected : (s.copied octets).collected = ⟨(s.copied octets).recipients, []⟩ := by
    unfold Session.collected
    rw [nothing]
    rfl
  rw [collected]
  refine ⟨rfl, _, Collected.result_outstanding ?_⟩
  rw [steady.recipients]
  exact some_recipient

end Session

namespace Engine

variable {π : Type}

/-- the reply to the `i`-th recipient of a body -/
def bodyReply (outcome : Except SessionError (List Response × Stop)) (i : Nat) (recipient : String) : Reply :=
  match outcome with
  | .error error => error.reply
  | .ok answers => answerReply answers i recipient

theorem deliver_tooLarge {σ : Type} (e : Engine σ) (length : Nat) : (e.deliver (.tooLarge length)).1
    = List.replicate e.dialogue.envelope.recipients.length messageTooBig := rfl

theorem ofStatuses_failed (names : List String) (reply : Reply) :
    Outcomes.ofStatuses names [] (some reply) = names.map fun _ => reply := by
  have h := Outcomes.ofStatuses_in_order names [] (some reply)
  rw [Client.events_nil] at h
  exact h

/-- **The replies after a body,** whatever becomes of it. -/
theorem deliver_replies {e : Engine (Client π)} (h : e.Agreement) (stage : e.dialogue.stage = .recipients)
    (octets : Octets) : (e.deliver (.complete octets)).1
      = e.dialogue.envelope.recipients.mapIdx (bodyReply (e.session.bodyOutcome octets)) := by
  have known := h.some_recipient stage
  rcases Session.data_cases h.aligned.toOverClient known (.ofChunks [octets] none) with
    ⟨error, refused, data⟩ | ⟨letCome, ⟨f, lost, data⟩ | ⟨taken, s', -, -, data⟩⟩
  · have outcome : e.session.bodyOutcome octets = .error (.forward error) := by
      unfold Session.bodyOutcome
      rw [refused]
    rw [deliver_of_data data, outcome]
    exact (ofStatuses_failed _ _).trans (mapIdx_const (fun _ _ => rfl) _).symm
  · have outcome : e.session.bodyOutcome octets = .error (.dataCopy f) := by
      unfold Session.bodyOutcome
      rw [letCome, lost]
    rw [deliver_of_data data, outcome]
    exact (ofStatuses_failed _ _).trans (mapIdx_const (fun _ _ => rfl) _).symm
  · cases ended : (e.session.ending octets).value with
    | ok _ =>
      have takes : e.session.Takes octets := ⟨(Client.data_ok_iff _ _).1 letCome, taken, ended⟩
      have outcome : e.session.bodyOutcome octets = .ok (e.session.answers octets) := by
        unfold Session.bodyOutcome
        rw [letCome, taken, ended]
      rw [outcome]
      exact deliver_taken h stage takes
    | error f =>
      have outcome : e.session.bodyOutcome octets = .ok ([], .waited) := by
        unfold Session.bodyOutcome
        rw [letCome, taken, ended]
      obtain ⟨statuses, missing, result⟩ := Session.collected_unended ended known
      rw [← Session.copied, statuses, result] at data
      rw [deliver_of_data data, outcome]
      exact (ofStatuses_failed _ _).trans (mapIdx_const (fun _ _ => rfl) _).symm

/-- the reply by an answer says that something was done exactly where the answer does -/
theorem answerReply_isDone_iff (answers : List Response × Stop) (i : Nat) (recipient : String) :
    (answerReply answers i recipient).IsDone ↔
      ∃ response, answers.1[i]? = some response ∧ response.isSuccess = true := by
  unfold answerReply
  cases answers.1[i]? with
  | none =>
    dsimp only
    constructor
    · intro done
      split at done <;> exact absurd done (by decide)
    · rintro ⟨response, hr, -⟩
      cases hr
  | some response =>
    dsimp only
    split
    · next success => exact ⟨fun _ => ⟨response, rfl, success⟩, fun _ => Reply.done_isDone _⟩
    · next refused =>
      rw [← response.isSuccess_iff]
      exact ⟨fun success => ⟨response, rfl, success⟩, fun ⟨_, hr, success⟩ => Option.some.inj hr ▸ success⟩

theorem answerReply_isNegative_iff {answers : List Response × Stop} {i : Nat}
    (refused : ¬ ∃ response, answers.1[i]? = some response ∧ response.isSuccess = true) (recipient : String) :
    (answerReply answers i recipient).IsNegative ↔
      ∀ response, answers.1[i]? = some response → IsNegativeCode response.code := by
  unfold answerReply
  cases ha : answers.1[i]? with
  | none =>
    refine ⟨nofun, fun _ => ?_⟩
    dsimp only
    split <;> decide
  | some response =>
    have failed : response.isSuccess = false := by
      rw [← Bool.not_eq_true]
      exact fun success => refused ⟨response, ha, success⟩
    dsimp only
    rw [failed, if_neg Bool.false_ne_true, Reply.IsNegative, response.reply_code]
    exact ⟨fun negative _ hr => Option.some.inj hr ▸ negative, fun all => all response rfl⟩

/-- the failure of the operation on the session that a command leads to -/
def failure? {σ : Type} (e : Engine σ) : Command → Option SessionError
  | .mail sender params =>
    if e.declaredTooBig params then none
    else match (e.session.mail sender params).1 with
      | .error error => some error
      | .ok _ => none
  | .rcpt recipient _ =>
    match (e.session.rcpt recipient).1 with
    | .error error => some error
    | .ok _ => none
  | .rset =>
    match e.session.reset.1 with
    | .error error => some error
    | .ok _ => none
  | _ => none

def response? (e : Engine (Client π)) : Command → Option Response
  | .mail sender params => e.session.mailResponse? sender params
  | .rcpt recipient _ => e.session.rcptResponse? recipient
  | .rset => e.session.resetResponse?
  | _ => none

/-- a command that fails is answered with the reply for the failure, which passes on the refusal of the server if there
was one -/
theorem failure_told {e : Engine (Client π)} (h : e.Agreement) {command : Command} {error : SessionError}
    (failed : e.failure? command = some error) (s : Source) :
    (∃ e' : Engine (Client π), e.perform command s = e'.answer error.reply s ∧
        e'.session.journal.said = e.session.journal.said) ∧
      PassesOn error (e.response? command) := by
  have client := h.aligned.toOverClient
  cases command with
  | mail sender params =>
    rcases e.mail_cases sender params with ⟨big, -⟩ | ⟨small, ⟨ok, -⟩ | ⟨_, hm, told⟩⟩
    · simp [failure?, big] at failed
    · simp [failure?, small, ok] at failed
    · obtain rfl : _ = error := by simpa [failure?, small, hm] using failed
      refine ⟨⟨{ e with session := (e.session.mail sender params).2 }, ?_, e.session.mail_said sender params⟩,
        Session.mail_passesOn client hm⟩
      rw [perform, told]
  | rcpt recipient params =>
    rcases e.rcpt_cases recipient with ⟨ok, -⟩ | ⟨_, hr, told⟩
    · simp [failure?, ok] at failed
    · obtain rfl : _ = error := by simpa [failure?, hr] using failed
      refine ⟨⟨{ e with session := (e.session.rcpt recipient).2 }, ?_, e.session.rcpt_said recipient⟩,
        Session.rcpt_passesOn client hr⟩
      rw [perform, told]
  | rset =>
    cases hr : e.session.reset.1 with
    | ok _ => simp [failure?, hr] at failed
    | error _ =>
      obtain rfl : _ = error := by simpa [failure?, hr] using failed
      refine ⟨⟨e.rset.2, ?_, e.session.reset_said⟩, Session.reset_passesOn client hr⟩
      simp [perform, rset, hr, replyTo]
  | _ => cases failed

/-- **The reply to a recipient.** It says that the message was delivered where that is so, and where the server answered
DATA as if it were; where it is not so the reply is negative as the response is that refused the body. -/
theorem bodyReply_told (s : Session (Client π)) (octets : Octets) (i : Nat) (recipient : String) :
    ((bodyReply (s.bodyOutcome octets) i recipient).IsDone ↔ s.Delivered octets i ∨ s.DataDone) ∧
    (¬ s.Delivered octets i → ((bodyReply (s.bodyOutcome octets) i recipient).IsNegative ↔
      ∀ response, s.bodyRefusal? octets i = some response → IsNegativeCode response.code)) := by
  unfold Session.Delivered Session.bodyRefusal?
  rcases s.bodyOutcome_cases octets with ⟨e, refused, outcome⟩ | ⟨undone, ⟨f, outcome⟩ | ⟨answers, outcome⟩⟩ <;>
    rw [outcome]
  · have passes := Session.data_passesOn refused
    exact ⟨passes.isDone_iff.trans (false_or _).to_iff.symm, fun _ => passes.isNegative_iff⟩
  · have passes : PassesOn (.dataCopy f) none := rfl
    refine ⟨passes.isDone_iff.trans ?_, fun _ => passes.isNegative_iff⟩
    simp [undone]
  · rw [or_iff_left undone]
    exact ⟨answerReply_isDone_iff answers i recipient, fun refused => answerReply_isNegative_iff refused recipient⟩

/-- **How failures are told.** Where a run comes to carry out a command:

- if the command fails, all that is said to the peer is the reply for the failure. It is negative exactly if the
  response that is passed on, if there is one, is negative;
- a body that comes in time gets one reply for each recipient. One that is too large gets negative replies. Otherwise
  the reply says that something was done exactly if the server answered so for this recipient after the end of the
  body, or already to DATA; and if the body is not delivered, the reply is negative exactly if the response that
  refuses it is, where there is one. -/
theorem failures_told {hostname : String} {e₀ e : Engine (Client π)} {s₀ s : Source} {l : List Heard}
    {command : Command} (begins : e₀.Begins hostname) (carries : e₀.Carries s₀ l command e s) :
    (∀ error, e.failure? command = some error →
      (∃ e' : Engine (Client π), e.perform command s = e'.answer error.reply s ∧
        e'.session.journal.said = e.session.journal.said) ∧
      (error.reply.IsNegative ↔ ∀ response, e.response? command = some response → IsNegativeCode response.code)) ∧
    (∀ body, command = .data → e.surroundings.outageAt e.now = none → e.awaitedBody s = some (.ok body) →
      ∃ replies e' rest, e.perform command s = goOn (sendAll e' replies) rest ∧
        e'.session.journal.said = e.session.journal.said ++ [startBody.line] ∧
        replies.length = (Heard.recipients l).length ∧
        ∀ i reply, replies[i]? = some reply →
          match body with
          | .tooLarge _ => reply.IsNegative
          | .complete octets =>
            (reply.IsDone ↔ (e.bodyCome s).session.Delivered octets i ∨ (e.bodyCome s).session.DataDone) ∧
            (¬ (e.bodyCome s).session.Delivered octets i → (reply.IsNegative ↔
              ∀ response, (e.bodyCome s).session.bodyRefusal? octets i = some response →
                IsNegativeCode response.code))) := by
  have agreement := carries.agreement begins
  refine ⟨fun error failed => ?_, ?_⟩
  · obtain ⟨answered, passes⟩ := failure_told agreement failed s
    exact ⟨answered, passes.isNegative_iff⟩
  · rintro body rfl free come
    have stage := carries.stage
    have names : (e.bodyCome s).dialogue.envelope.recipients = Heard.recipients l := by
      show e.dialogue.envelope.recipients = _
      exact carries.recipients begins
    have ready := bodyCome_agreement agreement s
    refine ⟨_, _, _, data_of_body free come, (deliver_said ready stage body).trans (bodyCome_said e s), ?_⟩
    cases body with
    | tooLarge length =>
      rw [deliver_tooLarge, names]
      refine ⟨List.length_replicate, fun i reply hr => ?_⟩
      rw [(List.mem_replicate.1 (List.mem_of_getElem? hr)).2]
      exact .coded (by decide)
    | complete octets =>
      rw [deliver_replies ready stage, names]
      refine ⟨List.length_mapIdx, fun i reply hr => ?_⟩
      rw [List.getElem?_mapIdx] at hr
      obtain ⟨recipient, -, rfl⟩ := Option.map_eq_some_iff.1 hr
      exact bodyReply_told _ octets i recipient

/-- whether the next turn carries out a command that fails, and any response that is passed on is negative -/
def Sample.failsNext (e : Engine (Client Rehearsal.Server)) (s : Source) : Bool :=
  match e.heeds s with
  | some (e, .ok command, _) =>
    e.dialogue.stage.allows command.verb && (e.failure? command).isSome &&
      (e.response? command).all fun response => IsNegativeCode response.code
  | _ => false

theorem failures_told_sender : ∃ l command e s, ∃ error : SessionError, ∃ e' : Engine (Client Rehearsal.Server),
    (Sample.engine ["220 ready", "250 hello", "550 no"]).Carries (Sample.source ["LHLO peer", "MAIL FROM:<a@x>"])
      l command e s ∧
    e.failure? command = some error ∧ e.perform command s = e'.answer error.reply s ∧ error.reply.IsNegative := by
  have begins : (Sample.engine ["220 ready", "250 hello", "550 no"]).Begins "relay" :=
    Sample.begins (by cbv) (by cbv)
  obtain ⟨l, e, s, reaches, next⟩ := Sample.reaches ["220 ready", "250 hello", "550 no"]
    ["LHLO peer", "MAIL FROM:<a@x>"] 1 Sample.failsNext (by cbv)
  unfold Sample.failsNext at next
  split at next
  · next e₁ command s₁ heeds =>
    simp only [Bool.and_eq_true, Option.all_eq_true, decide_eq_true_eq] at next
    obtain ⟨⟨allowed, fails⟩, negative⟩ := next
    obtain ⟨error, failed⟩ := Option.isSome_iff_exists.1 fails
    have carries : (Sample.engine ["220 ready", "250 hello", "550 no"]).Carries
        (Sample.source ["LHLO peer", "MAIL FROM:<a@x>"]) l command e₁ s₁ := ⟨e, s, reaches, heeds, allowed⟩
    obtain ⟨⟨e', told, -⟩, negative_iff⟩ := (failures_told begins carries).1 error failed
    exact ⟨l, command, e₁, s₁, error, e', carries, failed, told, negative_iff.2 negative⟩
  · cases next

/-- whether the next turn carries out DATA, the body cannot be delivered, and the only reply says that it was -/
def Sample.misleadsNext (e : Engine (Client Rehearsal.Server)) (s : Source) : Bool :=
  match e.heeds s with
  | some (e, .ok .data, s) =>
    e.dialogue.stage.allows .data && match e.awaitedBody s with
      | some (.ok (.complete octets)) =>
        !((e.bodyCome s).session.data (.ofChunks [octets] none)).1.isOk &&
          ((e.bodyCome s).deliver (.complete octets)).1.map (·.status.code) == [Status.done.code]
      | _ => false
  | _ => false

/-- a server that answers DATA with 250 never gets the body, and the peer is told that it was delivered -/
theorem rejection_told_as_success : ∃ l e s octets,
    (Sample.engine ["220 ready", "250 hello", "250 sender", "250 recipient", "250 go on"]).Carries
      (Sample.source ["LHLO peer", "MAIL FROM:<a@x>", "RCPT TO:<p@h>", "DATA", "hi", "."]) l .data e s ∧
    e.awaitedBody s = some (.ok (.complete octets)) ∧
    ((e.bodyCome s).session.data (.ofChunks [octets] none)).1.isOk = false ∧
    ((e.bodyCome s).deliver (.complete octets)).1.map (·.status.code) = [Status.done.code] := by
  obtain ⟨l, e, s, reaches, next⟩ := Sample.reaches
    ["220 ready", "250 hello", "250 sender", "250 recipient", "250 go on"]
    ["LHLO peer", "MAIL FROM:<a@x>", "RCPT TO:<p@h>", "DATA", "hi", "."] 3 Sample.misleadsNext (by cbv)
  unfold Sample.misleadsNext at next
  split at next
  · next e₁ s₁ heeds =>
    rw [Bool.and_eq_true] at next
    obtain ⟨allowed, next⟩ := next
    split at next
    · next octets come =>
      simp only [Bool.and_eq_true, Bool.not_eq_true', beq_iff_eq] at next
      exact ⟨l, e₁, s₁, octets, ⟨e, s, reaches, heeds, allowed⟩, come, next⟩
    · cases next
  · cases next

end Engine
end LmtpRelay
