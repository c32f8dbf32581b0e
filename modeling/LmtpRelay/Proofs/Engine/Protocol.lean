/-
The calls to a forwarder in a whole run. Whatever the peer sends and whenever, whatever resolver and forwarder answer and
whatever comes from outside, the calls keep the protocol of a forwarder, and the last of them closes it:
`calls_obey_protocol`. The bodies that are begun are those that were heard whole, each when it has been heard.

Every act keeps to the protocol (`act_keeps`): the stage of the dialogue allows a command only where the session is in a
state in which its call may come.
-/
import LmtpRelay.Proofs.Engine.Accord
import LmtpRelay.Proofs.Session.Protocol
import LmtpRelay.Proofs.Wire.Reading

namespace LmtpRelay.Engine

variable {σ : Type}

/-! ## Acts -/

theorem doing_keeps {e : Engine σ} (h : e.Sound) {bodies : List Octets} (keeps : e.session.Keeps bodies)
    {command : Command} (allowed : e.dialogue.stage.allows command.verb = true) :
    (e.doing command).session.Keeps bodies := by
  rcases e.doing_session command with same | ⟨sender, params, rfl, mail⟩ | ⟨recipient, params, rfl, rcpt⟩ | reset
  · rw [same]; exact keeps
  · have ready : e.dialogue.stage = .ready := by simpa [Stage.allows, Command.verb] using allowed
    obtain ⟨no_sender, no_recipients⟩ := h.none_known ready
    rw [mail]
    exact Session.mail_keeps keeps no_sender no_recipients sender params
  · have inside : e.dialogue.stage.inTransaction = true := by
      simpa [Stage.allows, Command.verb, Stage.inTransaction] using allowed
    rw [rcpt]
    exact Session.rcpt_keeps keeps (h.has_sender inside) recipient
  · rw [reset]; exact Session.reset_keeps keeps

theorem deliver_keeps {e : Engine σ} (h : e.Sound) {bodies : List Octets} (keeps : e.session.Keeps bodies)
    (stage : e.dialogue.stage = .recipients) (body : Body) :
    (e.deliver body).2.session.Keeps (bodies ++ Heard.messages [.body body]) := by
  rcases e.deliver_session body with ⟨⟨size, rfl⟩, reset⟩ | ⟨octets, rfl, data⟩
  · have none_whole : Heard.messages [.body (.tooLarge size)] = [] := rfl
    rw [reset, none_whole, List.append_nil]
    exact Session.reset_keeps keeps
  · rw [data]
    exact Session.data_keeps keeps (h.has_sender (by rw [stage]; rfl)) h.resolved.distinct (h.some_recipient stage)
      octets

/-- **Every act keeps to the protocol.** -/
theorem act_keeps {e e' : Engine σ} {l : List Heard} (act : Act e l e') (h : e.Sound) {bodies : List Octets}
    (keeps : e.session.Keeps bodies) : e'.session.Keeps (bodies ++ Heard.messages l) := by
  have nothing : Heard.messages [] = [] := rfl
  cases act with
  | wait t turns =>
    rw [nothing, List.append_nil]
    exact keeps.waits (Session.waitUntil_waits e.session t)
  | say text =>
    have calls : (e.saying text).session.journal.calls = e.session.journal.calls := by
      rw [saying, Session.journal_note, Journal.calls_append]
      exact List.append_nil _
    rw [nothing, List.append_nil, Session.Keeps, calls]
    exact keeps
  | @perform line command parsed allowed =>
    have none_whole : Heard.messages [.command command (e.accepts command)] = [] := rfl
    rw [none_whole, List.append_nil]
    exact doing_keeps h keeps allowed
  | deliver read stage => exact deliver_keeps h keeps stage _

theorem Acts.keeps_protocol {e e' : Engine σ} {l : List Heard} (acts : Acts e l e') (h : e.Sound)
    {bodies : List Octets} (keeps : e.session.Keeps bodies) : e'.session.Keeps (bodies ++ Heard.messages l) := by
  induction acts generalizing bodies with
  | done e => exact (List.append_nil bodies).symm ▸ keeps
  | step act _ ih =>
    rw [Heard.messages_append, ← List.append_assoc]
    exact ih (act_sound act h) (act_keeps act h keeps)

/-! ## Bodies that are heard -/

/-- a body comes whole where it ends in what is there, is within the limit and ends in time -/
theorem awaitedBody_complete {e : Engine σ} {s : Source} {octets : Octets} :
    e.awaitedBody s = some (.ok (.complete octets)) ↔
      (∃ rest, splitBody (s.there e.now) = some (octets, rest)) ∧ octets.length ≤ e.settings.maxMessageSize ∧
      inTime e.now (e.now + seconds e.settings.timeouts.dataSecs)
        (s.readBody e.settings.maxMessageSize e.now).ready = true := by
  have value := (Source.readBody_there e.settings.maxMessageSize e.now s).1
  unfold awaitedBody Read.within
  rw [value]
  cases splitBody (s.there e.now) with
  | none => cases s.ending? e.now <;> simp [Source.bodyRead]
  | some r =>
    have ends : (∃ rest, some r = some (octets, rest)) ↔ r.1 = octets :=
      ⟨fun ⟨_, h⟩ => congrArg Prod.fst (Option.some.inj h), fun h => ⟨r.2, congrArg some (Prod.ext h rfl)⟩⟩
    rw [ends]
    simp [Source.bodyRead, Body.within_complete, and_assoc, and_comm]

/-- nothing is heard whole but a body in carrying out DATA -/
theorem messages_heardIn (e : Engine σ) (s : Source) (command : Command) :
    Heard.messages (e.heardIn s command)
      = if command = .data ∧ e.surroundings.outageAt e.now = none then
          match e.awaitedBody s with
          | some (.ok (.complete octets)) => [octets]
          | _ => []
        else [] := by
  have one : ∀ l : List Heard, Heard.messages (.command command (e.accepts command) :: l) = Heard.messages l :=
    fun _ => rfl
  rw [heardIn, one]
  by_cases data : command = .data
  · rw [if_pos data, heardAfterData]
    cases e.surroundings.outageAt e.now with
    | some failure => simp [Heard.messages]
    | none =>
      rw [if_pos ⟨data, rfl⟩]
      cases e.awaitedBody s with
      | none => rfl
      | some result =>
        rcases result with _ | body
        · rfl
        · cases body <;> rfl
  · rw [if_neg data, if_neg fun h => data h.1]
    rfl

/-! ## Runs -/

theorem logout_calls (s : Session σ) : ∃ result,
    s.logout.2.journal.calls = s.journal.calls ++ [.close result] :=
  ⟨_, Session.note_heard_calls s.clear rfl _⟩

/-- **The calls to a forwarder keep its protocol,** in every run over every forwarder. Whenever the dialogue comes to read
a line, or to carry out a command, the calls so far obey the protocol and have begun exactly the bodies that were heard
whole until then; a body is heard whole exactly if DATA is carried out and the octets that come then, in time, end with
a line that is a full stop, with no more before it than allowed. At the end of the run the forwarder is closed, once,
when no body is left to be ended. -/
theorem calls_obey_protocol (settings : EngineSettings) (surroundings : Surroundings) (id : Nat) (resolver : Resolver)
    (forwarder : Forwarder σ) (downstream : σ) (statusWait : Nat) (now : Instant) (s₀ : Source) :
    let e₀ := start settings surroundings (Session.start id resolver forwarder downstream statusWait now)
    (∀ l e s, e₀.Reaches s₀ l e s → Obeys (Heard.messages l) e.session.journal.calls e.session.standing) ∧
    (∀ l command e s, e₀.Carries s₀ l command e s →
      Obeys (Heard.messages l) e.session.journal.calls e.session.standing ∧
      (command = .data → ∃ accepted, e.session.standing = .open accepted ∧ accepted ≠ []) ∧
      (Heard.messages (e.heardIn s command)).length ≤ 1 ∧
      ∀ octets, octets ∈ Heard.messages (e.heardIn s command) ↔
        command = .data ∧ e.surroundings.outageAt e.now = none ∧
        (∃ rest, splitBody (s.there e.now) = some (octets, rest)) ∧ octets.length ≤ settings.maxMessageSize ∧
        inTime e.now (e.now + seconds settings.timeouts.dataSecs)
          (s.readBody settings.maxMessageSize e.now).ready = true) ∧
    ∃ calls standing result, (e₀.run s₀).2.session.journal.calls = calls ++ [.close result] ∧
      Obeys (Heard.messages (e₀.heardInRun s₀)) calls standing ∧
      (standing = .idle ∨ ∃ accepted, standing = .open accepted) ∧ ∀ result, .close result ∉ calls := by
  intro e₀
  have sound : e₀.Sound := Fresh.sound .intro
  have begun : e₀.session.Keeps [] := Session.start_keeps id resolver forwarder downstream statusWait now
  have keeps : ∀ {l e}, Acts e₀ l e → e.session.Keeps (Heard.messages l) := fun acts => acts.keeps_protocol sound begun
  refine ⟨fun l e s reaches => keeps reaches.acts, fun l command e s carries => ⟨keeps carries.acts, ?_, ?_, ?_⟩, ?_⟩
  · rintro rfl
    have here := carries.acts.sound sound
    obtain ⟨sender, hsender⟩ := Option.isSome_iff_exists.1 (here.has_sender (by rw [carries.stage]; rfl))
    have some_recipient := here.some_recipient carries.stage
    refine ⟨e.session.recipients.resolved, ?_, ?_⟩
    · rw [Session.standing, hsender]
    · simpa [Recipients.isEmpty, Recipients.resolved] using some_recipient
  · rw [messages_heardIn]
    split
    · split <;> simp
    · simp
  · intro octets
    have same : e.settings = settings := carries.acts.setup.1
    rw [← same, ← awaitedBody_complete, messages_heardIn]
    by_cases data : command = .data ∧ e.surroundings.outageAt e.now = none
    · rw [if_pos data]
      split
      · next whole come =>
        simp [data, come, eq_comm]
      · next other =>
        simp [data]
        exact other octets
    · rw [if_neg data]
      simp only [List.not_mem_nil, false_iff]
      exact fun h => data ⟨h.1, h.2.1⟩
  · obtain ⟨result, closed⟩ := logout_calls (e₀.greetAndServe s₀).2.session
    have obeys := keeps (greetAndServe_acts e₀ s₀)
    exact ⟨_, _, result, closed, obeys, Session.standing_between _, obeys.not_closed⟩

end LmtpRelay.Engine
