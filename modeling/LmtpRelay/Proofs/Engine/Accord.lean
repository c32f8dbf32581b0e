/-
Dialogue and session. The dialogue keeps an envelope, the session a sender and a map of recipients; each is changed by
code of its own, on its own outcomes. `Accord` says that they tell the same of the transaction. Every act keeps it
(`act_accord`), so it holds throughout a run, whatever the peer, the resolver and the forwarder do.

- `Accord.phase`: the stage of the dialogue is where the session is in its transaction.
- `Acts.lists`: in a transaction the envelope holds the recipients that were accepted since the sender was.
- `Reaches.goes_on`: a dialogue that goes on to read another line is not over.
- `Acts.sound`: besides, the recipients of the session stay resolved.
- `Reaches.said`: what is said in a state of a run is said in the run.
-/
import LmtpRelay.Proofs.Dialogue.Sequence
import LmtpRelay.Proofs.Engine.Acts
import LmtpRelay.Proofs.Session.Resolved

namespace LmtpRelay

/-- the phase of a session whose dialogue has come to a stage -/
def Stage.phase : Stage → Phase
  | .sender => .open
  | .recipients => .dataPending
  | _ => .idle

/-! ## Accord -/

namespace Engine

variable {σ : Type}

/-- the dialogue and the session give the same account of the transaction -/
structure Accord (e : Engine σ) : Prop where
  orderly : e.dialogue.Orderly
  sender : e.dialogue.envelope.sender = e.session.sender
  recipients : e.dialogue.envelope.recipients = e.session.recipients.names

/-- where the dialogue knows no recipient, the session has none -/
theorem Accord.no_recipients {e : Engine σ} (h : e.Accord) (none_known : e.dialogue.envelope.recipients = []) :
    e.session.recipients = .empty := by
  have names := h.recipients.symm.trans none_known
  rcases hr : e.session.recipients with ⟨entries⟩
  rw [hr] at names
  simp [Recipients.names] at names
  rw [names]
  rfl

theorem Accord.some_recipient {e : Engine σ} (h : e.Accord) (stage : e.dialogue.stage = .recipients) :
    e.session.recipients.isEmpty = false := by
  have orderly := h.orderly
  rw [Dialogue.Orderly, stage] at orderly
  obtain ⟨-, -, known⟩ := orderly
  rw [h.recipients] at known
  simpa [Recipients.isEmpty, Recipients.names] using known

theorem Accord.has_sender {e : Engine σ} (h : e.Accord) (inside : e.dialogue.stage.inTransaction = true) :
    e.session.sender.isSome = true := by
  have orderly := h.orderly
  rw [← h.sender]
  unfold Dialogue.Orderly at orderly
  cases hs : e.dialogue.stage <;> rw [hs] at orderly inside
  case sender => exact orderly.2.1
  case recipients => exact orderly.2.1
  all_goals cases inside

/-- a dialogue that is ready knows neither sender nor recipient -/
theorem Accord.none_known {e : Engine σ} (h : e.Accord) (ready : e.dialogue.stage = .ready) :
    e.session.sender = none ∧ e.session.recipients = .empty := by
  have orderly := h.orderly
  rw [Dialogue.Orderly, ready] at orderly
  exact ⟨h.sender.symm.trans orderly.2.1, h.no_recipients orderly.2.2⟩

/-- what moves the dialogue by one event, and keeps sender and recipients the same on both sides -/
theorem Accord.advance {e : Engine σ} (h : e.Accord) {s : Session σ} {event : Event}
    (sender : (e.dialogue.apply event).envelope.sender = s.sender)
    (recipients : (e.dialogue.apply event).envelope.recipients = s.recipients.names) :
    ({ e with session := s }.advance event).Accord :=
  ⟨Dialogue.apply_orderly h.orderly event, sender, recipients⟩

/-! ## Commands -/

theorem lhlo_dialogue (e : Engine σ) (client : String) :
    (e.doing (.lhlo client)).dialogue = e.dialogue.apply (.lhlo client) := by
  unfold doing
  dsimp only
  split <;> rfl

theorem deliver_dialogue (e : Engine σ) (body : Body) :
    (e.deliver body).2.dialogue = e.dialogue.apply .dataComplete := by
  unfold deliver
  dsimp only
  split <;> rfl

theorem lhlo_accord {e : Engine σ} (h : e.Accord) (stage : e.dialogue.stage ≠ .closed) (client : String) :
    (e.doing (.lhlo client)).Accord := by
  unfold doing
  dsimp only
  by_cases inside : e.dialogue.stage.inTransaction = true
  · rw [if_pos inside]
    obtain ⟨sender, recipients⟩ := e.session.reset_cleared
    refine h.advance ?_ ?_
    · rw [Dialogue.apply_lhlo stage, sender]
      rfl
    · rw [Dialogue.apply_lhlo stage, recipients]
      rfl
  · rw [if_neg inside]
    -- outside a transaction there is nothing to forget
    have idle : e.dialogue.envelope.sender = none ∧ e.dialogue.envelope.recipients = [] := by
      have orderly := h.orderly
      unfold Dialogue.Orderly at orderly
      cases hs : e.dialogue.stage <;> rw [hs] at orderly inside stage <;>
        simp_all [Stage.inTransaction, Envelope.empty]
    refine h.advance ?_ ?_
    · rw [Dialogue.apply_lhlo stage, ← h.sender, idle.1]
      rfl
    · rw [Dialogue.apply_lhlo stage, ← h.recipients, idle.2]
      rfl

theorem mail_accord {e : Engine σ} (h : e.Accord) (stage : e.dialogue.stage = .ready) (sender : String)
    (params : Parameters) : (e.mail sender params).2.Accord := by
  have names := congrArg Recipients.names (e.session.mail_recipients sender params)
  have kept := e.session.mail_sender sender params
  rcases e.mail_cases sender params with ⟨-, hm⟩ | ⟨-, ⟨ok, hm⟩ | ⟨error, failed, hm⟩⟩ <;> rw [hm]
  · exact h
  · rw [ok] at kept
    refine h.advance ?_ ?_
    · rw [Dialogue.apply_mail stage, kept]
      rfl
    · rw [Dialogue.apply_mail stage, names]
      exact h.recipients
  · rw [failed] at kept
    exact ⟨h.orderly, h.sender.trans kept.symm, h.recipients.trans names.symm⟩

theorem rcpt_accord {e : Engine σ} (h : e.Accord)
    (stage : e.dialogue.stage = .sender ∨ e.dialogue.stage = .recipients) (recipient : String) :
    (e.rcpt recipient).2.Accord := by
  have sender := e.session.rcpt_sender recipient
  have names := e.session.rcpt_names recipient
  rcases e.rcpt_cases recipient with ⟨ok, hr⟩ | ⟨error, failed, hr⟩ <;> rw [hr]
  · rw [ok] at names
    refine h.advance ?_ ?_
    · rw [Dialogue.apply_rcpt stage, sender]
      exact h.sender
    · rw [Dialogue.apply_rcpt stage, names, h.recipients]
      rfl
  · rw [failed] at names
    exact ⟨h.orderly, h.sender.trans sender.symm, h.recipients.trans names.symm⟩

/-- the transaction is over in both accounts -/
theorem clear_accord {e : Engine σ} (h : e.Accord) (stage : e.dialogue.stage ≠ .closed) {s : Session σ}
    (cleared : s.sender = none ∧ s.recipients = .empty) {event : Event}
    (ended : event = .reset ∨ event = .dataComplete) : ({ e with session := s }.advance event).Accord := by
  refine h.advance ?_ ?_
  · rw [Dialogue.apply_clear stage ended, cleared.1]
    rfl
  · rw [Dialogue.apply_clear stage ended, cleared.2]
    rfl

theorem deliver_accord {e : Engine σ} (h : e.Accord) (stage : e.dialogue.stage = .recipients) (body : Body) :
    (e.deliver body).2.Accord := by
  have here : e.dialogue.stage ≠ .closed := by rw [stage]; decide
  cases body with
  | tooLarge size => exact clear_accord h here e.session.reset_cleared (.inr rfl)
  | complete octets => exact clear_accord h here (Session.data_cleared (h.some_recipient stage) _) (.inr rfl)

theorem doing_accord {e : Engine σ} (h : e.Accord) {command : Command}
    (allowed : e.dialogue.stage.allows command.verb = true) : (e.doing command).Accord := by
  cases command with
  | lhlo client => exact lhlo_accord h (by simpa [Stage.allows, Command.verb] using allowed) client
  | mail sender params => exact mail_accord h (by simpa [Stage.allows, Command.verb] using allowed) sender params
  | rcpt recipient _ => exact rcpt_accord h (by simpa [Stage.allows, Command.verb] using allowed) recipient
  | rset =>
    exact clear_accord h (by simpa [Stage.allows, Command.verb] using allowed) e.session.reset_cleared (.inl rfl)
  | quit =>
    refine h.advance ?_ ?_
    · rw [Dialogue.apply_quit]
      exact h.sender
    · rw [Dialogue.apply_quit]
      exact h.recipients
  | _ => exact h

/-- **Every act keeps dialogue and session in accord.** -/
theorem act_accord {e e' : Engine σ} {l : List Heard} (act : Act e l e') (h : e.Accord) : e'.Accord := by
  cases act with
  | wait t turns =>
    have k := Session.waitUntil_steady e.session t
    exact ⟨h.orderly, h.sender.trans k.sender.symm, h.recipients.trans (congrArg Recipients.names k.recipients.symm)⟩
  | say text => exact ⟨h.orderly, h.sender, h.recipients⟩
  | perform _ allowed => exact doing_accord h allowed
  | deliver _ stage => exact deliver_accord h stage _

theorem Acts.accord {e e' : Engine σ} {l : List Heard} (acts : Acts e l e') (h : e.Accord) : e'.Accord :=
  acts.keeps act_accord h

/-- a dialogue that is about to begin over a session that has just begun -/
inductive Fresh : Engine σ → Prop where
  | intro {settings : EngineSettings} {surroundings : Surroundings} {id : Nat} {resolver : Resolver}
      {forwarder : Forwarder σ} {downstream : σ} {statusWait : Nat} {now : Instant} :
      Fresh (start settings surroundings (Session.start id resolver forwarder downstream statusWait now))

theorem Fresh.accord {e : Engine σ} (h : e.Fresh) : e.Accord := by
  obtain ⟨⟩ := h
  exact ⟨Dialogue.initial_orderly, rfl, rfl⟩

/-! ## What the peer had accepted -/

/-- the envelope lists these recipients, where a transaction is open -/
def Lists (e : Engine σ) (recipients : List String) : Prop :=
  e.dialogue.stage.inTransaction = true → e.dialogue.envelope.recipients = recipients

theorem idle_not_inTransaction (envelope : Envelope) : (Dialogue.idle envelope).inTransaction = false := by
  unfold Dialogue.idle
  split <;> rfl

/-- where no transaction is open any recipients will do -/
theorem Lists.of_outside {e : Engine σ} (h : e.dialogue.stage.inTransaction = false)
    (recipients : List String) : e.Lists recipients := by
  intro inside
  rw [h] at inside
  cases inside

theorem doing_lists {e : Engine σ} (h : e.Accord) {recipients : List String} (lists : e.Lists recipients)
    {command : Command} (allowed : e.dialogue.stage.allows command.verb = true) :
    (e.doing command).Lists (Heard.note recipients (.command command (e.accepts command))) := by
  cases command with
  | lhlo client =>
    have here : e.dialogue.stage ≠ .closed := by simpa [Stage.allows, Command.verb] using allowed
    refine Lists.of_outside ?_ _
    rw [lhlo_dialogue]
    unfold Dialogue.apply
    cases hs : e.dialogue.stage <;> first | rfl | exact absurd hs here
  | mail sender params =>
    have stage : e.dialogue.stage = .ready := by simpa [Stage.allows, Command.verb] using allowed
    have outside : e.dialogue.stage.inTransaction = false := by rw [stage]; rfl
    rw [doing]
    rcases e.mail_cases sender params with ⟨-, hm⟩ | ⟨small, ⟨ok, hm⟩ | ⟨error, -, hm⟩⟩ <;> rw [hm]
    · exact Lists.of_outside outside _
    · have accepts : e.accepts (.mail sender params) = true := by
        simp [accepts, small, ok, Except.isOk, Except.toBool]
      have orderly := h.orderly
      rw [Dialogue.Orderly, stage] at orderly
      rw [accepts]
      intro _
      have moved := congrArg (·.envelope.recipients) (Dialogue.apply_mail stage sender)
      exact moved.trans orderly.2.2
    · exact Lists.of_outside outside _
  | rcpt recipient params =>
    have stage : e.dialogue.stage = .sender ∨ e.dialogue.stage = .recipients := by
      simpa [Stage.allows, Command.verb] using allowed
    have known : e.dialogue.envelope.recipients = recipients :=
      lists (by rcases stage with hs | hs <;> rw [hs] <;> rfl)
    have accepts : e.accepts (.rcpt recipient params) = (e.session.rcpt recipient).1.isOk := rfl
    rw [doing, accepts]
    rcases e.rcpt_cases recipient with ⟨ok, hr⟩ | ⟨error, failed, hr⟩ <;> rw [hr]
    · rw [ok]
      intro _
      have moved := congrArg (·.envelope.recipients) (Dialogue.apply_rcpt stage recipient)
      exact moved.trans (congrArg (· ++ [recipient]) known)
    · rw [failed]
      exact lists
  | rset =>
    have here : e.dialogue.stage ≠ .closed := by simpa [Stage.allows, Command.verb] using allowed
    refine Lists.of_outside ?_ _
    show (e.dialogue.apply .reset).stage.inTransaction = false
    rw [Dialogue.apply_clear here (.inl rfl)]
    exact idle_not_inTransaction _
  | quit =>
    refine Lists.of_outside ?_ _
    show (e.dialogue.apply .quit).stage.inTransaction = false
    unfold Dialogue.apply
    cases hs : e.dialogue.stage <;> simp [hs, Stage.inTransaction]
  | _ => exact lists

theorem act_lists {e e' : Engine σ} {l : List Heard} (act : Act e l e') (h : e.Accord)
    {recipients : List String} (lists : e.Lists recipients) : e'.Lists (l.foldl Heard.note recipients) := by
  cases act with
  | wait t turns => exact lists
  | say text => exact lists
  | perform _ allowed => exact doing_lists h lists allowed
  | @deliver s now body read stage =>
    have here : e.dialogue.stage ≠ .closed := by rw [stage]; decide
    refine Lists.of_outside ?_ _
    rw [deliver_dialogue, Dialogue.apply_clear here (.inr rfl)]
    exact idle_not_inTransaction _

theorem Acts.lists {e e' : Engine σ} {l : List Heard} (acts : Acts e l e') (h : e.Accord)
    {recipients : List String} (lists : e.Lists recipients) : e'.Lists (l.foldl Heard.note recipients) := by
  induction acts generalizing recipients with
  | done e => exact lists
  | step act _ ih =>
    rw [List.foldl_append]
    exact ih (act_accord act h) (act_lists act h lists)

theorem Carries.stage {e₀ e : Engine σ} {s₀ s : Source} {l : List Heard} (h : e₀.Carries s₀ l .data e s) :
    e.dialogue.stage = .recipients := by
  obtain ⟨_, _, _, _, allowed⟩ := h
  simpa [Stage.allows, Command.verb] using allowed

/-! ## Between commands -/

/-- an act moves the dialogue by one event at most, and only QUIT by the last -/
theorem act_dialogue {e e' : Engine σ} {l : List Heard} (act : Act e l e') :
    e'.dialogue = e.dialogue ∨
      ∃ event, e'.dialogue = e.dialogue.apply event ∧ (event = .quit → ∃ accepted, .command .quit accepted ∈ l) := by
  cases act with
  | wait t turns => exact .inl rfl
  | say text => exact .inl rfl
  | deliver read stage => exact .inr ⟨.dataComplete, deliver_dialogue e _, fun quit => by cases quit⟩
  | @perform line command parsed allowed =>
    cases command with
    | lhlo client => exact .inr ⟨.lhlo client, lhlo_dialogue e client, fun quit => by cases quit⟩
    | mail sender params =>
      rw [doing]
      rcases e.mail_cases sender params with ⟨-, h⟩ | ⟨-, ⟨-, h⟩ | ⟨error, -, h⟩⟩ <;> rw [h]
      · exact .inl rfl
      · exact .inr ⟨.mail sender, rfl, fun quit => by cases quit⟩
      · exact .inl rfl
    | rcpt recipient params =>
      rw [doing]
      rcases e.rcpt_cases recipient with ⟨-, h⟩ | ⟨error, -, h⟩ <;> rw [h]
      · exact .inr ⟨.rcpt recipient, rfl, fun quit => by cases quit⟩
      · exact .inl rfl
    | rset => exact .inr ⟨.reset, rfl, fun quit => by cases quit⟩
    | quit => exact .inr ⟨.quit, rfl, fun _ => ⟨_, List.mem_singleton.2 rfl⟩⟩
    | _ => exact .inl rfl

/-- a dialogue is over only after QUIT -/
theorem Acts.closed {e e' : Engine σ} {l : List Heard} (acts : Acts e l e')
    (ended : e'.dialogue.stage = .closed) : e.dialogue.stage = .closed ∨ ∃ accepted, .command .quit accepted ∈ l := by
  induction acts with
  | done e => exact .inl ended
  | @step e e₁ e₂ l ls act _ ih =>
    rcases ih ended with here | ⟨accepted, later⟩
    · rcases act_dialogue act with same | ⟨event, moved, quit⟩
      · exact .inl (same ▸ here)
      · rw [moved] at here
        rcases Dialogue.apply_closed event here with before | rfl
        · exact .inl before
        · obtain ⟨accepted, now⟩ := quit rfl
          exact .inr ⟨accepted, List.mem_append_left ls now⟩
    · exact .inr ⟨accepted, List.mem_append_right l later⟩

/-- a turn after which the dialogue goes on hears no QUIT -/
theorem next_no_quit {e e' : Engine σ} {s s' : Source} (next : e.turn s = .next e' s') (accepted : Bool) :
    .command .quit accepted ∉ e.turnHeard s := by
  intro heard
  unfold turnHeard at heard
  split at heard
  · next e₁ command rest h =>
    split at heard
    · next allowed =>
      have quit : command = .quit := by
        unfold heardIn heardAfterData at heard
        rcases List.mem_cons.1 heard with same | body
        · exact (Heard.command.inj same).1.symm
        · split at body
          · split at body <;> simp at body
          · simp at body
      rw [turn_of_heeds h, quit] at next
      rw [quit] at allowed
      unfold handle at next
      dsimp only at next
      have verb : verbOf (.ok .quit) = Command.quit.verb := rfl
      rw [verb, if_pos allowed] at next
      simp [perform, leave] at next
    · simp at heard
  · simp at heard

theorem Comes.no_quit {e e' : Engine σ} {s s' : Source} {l : List Heard} (h : Comes e s l e' s')
    (accepted : Bool) : .command .quit accepted ∉ l := by
  induction h with
  | here e s => exact List.not_mem_nil
  | turn next _ ih =>
    intro heard
    rcases List.mem_append.1 heard with now | later
    · exact next_no_quit next accepted now
    · exact ih later

/-- a dialogue that goes on to read another line is not over -/
theorem Reaches.goes_on {e₀ e : Engine σ} {s₀ s : Source} {l : List Heard}
    (begun : e₀.dialogue.stage ≠ .closed) (h : e₀.Reaches s₀ l e s) : e.dialogue.stage ≠ .closed := by
  intro ended
  rcases h.acts.closed ended with before | ⟨accepted, heard⟩
  · exact begun before
  · obtain ⟨e₁, -, comes⟩ := h
    exact comes.no_quit accepted heard

/-- the session is in the phase that the stage calls for -/
theorem Accord.phase {e : Engine σ} (h : e.Accord) (here : e.dialogue.stage ≠ .closed) :
    e.session.phase = Stage.phase e.dialogue.stage := by
  have orderly := h.orderly
  unfold Session.phase
  rw [← h.sender]
  unfold Dialogue.Orderly at orderly
  cases hs : e.dialogue.stage <;> rw [hs] at orderly
  case connected =>
    rw [orderly]
    rfl
  case ready =>
    rw [orderly.2.1]
    rfl
  case sender =>
    obtain ⟨-, known, no_recipients⟩ := orderly
    obtain ⟨sender, hsender⟩ := Option.isSome_iff_exists.1 known
    rw [hsender, h.no_recipients no_recipients]
    rfl
  case recipients =>
    obtain ⟨-, known, -⟩ := orderly
    obtain ⟨sender, hsender⟩ := Option.isSome_iff_exists.1 known
    rw [hsender, h.some_recipient hs]
    rfl
  case closed => exact absurd hs here

/-- the peer has given its name exactly where the stage says so -/
theorem Accord.connected_iff {e : Engine σ} (h : e.Accord) (here : e.dialogue.stage ≠ .closed) :
    e.dialogue.stage = .connected ↔ e.dialogue.envelope.client = none := (h.orderly.client_iff here).symm

/-! ## Sound dialogues -/

/-- dialogue and session are in accord, and the recipients are resolved -/
structure Sound (e : Engine σ) : Prop extends Accord e where
  resolved : e.session.Resolved

theorem Fresh.sound {e : Engine σ} (h : e.Fresh) : e.Sound := by
  refine ⟨h.accord, .of_empty ?_⟩
  obtain ⟨⟩ := h
  rfl

/-- what a command does to the session is one operation, if it does anything -/
theorem doing_session (e : Engine σ) (command : Command) :
    (e.doing command).session = e.session ∨
    (∃ sender params, command = .mail sender params ∧
      (e.doing command).session = (e.session.mail sender params).2) ∨
    (∃ recipient params, command = .rcpt recipient params ∧
      (e.doing command).session = (e.session.rcpt recipient).2) ∨
    ((e.doing command).session = e.session.reset.2) := by
  cases command with
  | lhlo client =>
    unfold doing
    dsimp only
    split
    · exact .inr (.inr (.inr rfl))
    · exact .inl rfl
  | mail sender params =>
    rw [doing]
    rcases e.mail_cases sender params with ⟨-, h⟩ | ⟨-, ⟨-, h⟩ | ⟨error, -, h⟩⟩ <;> rw [h]
    · exact .inl rfl
    · exact .inr (.inl ⟨sender, params, rfl, rfl⟩)
    · exact .inr (.inl ⟨sender, params, rfl, rfl⟩)
  | rcpt recipient params =>
    rw [doing]
    rcases e.rcpt_cases recipient with ⟨-, h⟩ | ⟨error, -, h⟩ <;> rw [h]
    · exact .inr (.inr (.inl ⟨recipient, params, rfl, rfl⟩))
    · exact .inr (.inr (.inl ⟨recipient, params, rfl, rfl⟩))
  | rset => exact .inr (.inr (.inr rfl))
  | _ => exact .inl rfl

/-- what becomes of a body is for the session to settle, unless it is too large -/
theorem deliver_session (e : Engine σ) (body : Body) :
    ((∃ size, body = .tooLarge size) ∧ (e.deliver body).2.session = e.session.reset.2) ∨
    ∃ octets, body = .complete octets ∧
      (e.deliver body).2.session = (e.session.data (.ofChunks [octets] none)).2.2 := by
  cases body with
  | tooLarge size => exact .inl ⟨⟨size, rfl⟩, rfl⟩
  | complete octets => exact .inr ⟨octets, rfl, rfl⟩

/-- **Every act keeps a dialogue sound.** -/
theorem act_sound {e e' : Engine σ} {l : List Heard} (act : Act e l e') (h : e.Sound) : e'.Sound := by
  refine ⟨act_accord act h.toAccord, ?_⟩
  cases act with
  | wait t turns => exact h.resolved.steady (Session.waitUntil_steady e.session t)
  | say text => exact ⟨h.resolved.distinct, h.resolved.answered⟩
  | @perform line command parsed allowed =>
    rcases e.doing_session command with same | ⟨sender, params, -, mail⟩ | ⟨recipient, params, -, rcpt⟩ | reset
    · rw [same]; exact h.resolved
    · rw [mail]; exact Session.mail_resolved h.resolved sender params
    · rw [rcpt]; exact Session.rcpt_resolved h.resolved recipient
    · rw [reset]; exact Session.reset_resolved e.session
  | @deliver s now body read stage =>
    rcases e.deliver_session body with ⟨-, reset⟩ | ⟨octets, -, data⟩
    · rw [reset]; exact Session.reset_resolved e.session
    · rw [data]; exact Session.data_resolved (h.some_recipient stage) _

theorem Acts.sound {e e' : Engine σ} {l : List Heard} (acts : Acts e l e') (h : e.Sound) : e'.Sound :=
  acts.keeps act_sound h

/-- forwarder and resolver of a sound dialogue stay the same -/
theorem act_tools {e e' : Engine σ} {l : List Heard} (act : Act e l e') (h : e.Sound) :
    e'.session.forwarder = e.session.forwarder ∧ e'.session.resolver = e.session.resolver := by
  have given := e.session.reset_steady
  cases act with
  | wait t turns => exact ⟨Session.waitUntil_forwarder e.session t, Session.waitUntil_resolver e.session t⟩
  | say text => exact ⟨rfl, rfl⟩
  | @perform line command parsed allowed =>
    rcases e.doing_session command with same | ⟨sender, params, -, mail⟩ | ⟨recipient, params, -, rcpt⟩ | reset
    · rw [same]; exact ⟨rfl, rfl⟩
    · rw [mail]; exact e.session.mail_tools sender params
    · rw [rcpt]; exact e.session.rcpt_tools recipient
    · rw [reset]; exact ⟨given.forwarder, given.resolver⟩
  | @deliver s now body read stage =>
    rcases e.deliver_session body with ⟨-, reset⟩ | ⟨octets, -, data⟩
    · rw [reset]; exact ⟨given.forwarder, given.resolver⟩
    · rw [data]
      have frame := Session.data_frame h.resolved.distinct (h.some_recipient stage) (.ofChunks [octets] none)
      exact ⟨frame.1, frame.2.1⟩

theorem Acts.tools {e e' : Engine σ} {l : List Heard} (acts : Acts e l e') (h : e.Sound) :
    e'.session.forwarder = e.session.forwarder ∧ e'.session.resolver = e.session.resolver := by
  induction acts with
  | done e => exact ⟨rfl, rfl⟩
  | step act _ ih =>
    obtain ⟨forwarder, resolver⟩ := ih (act_sound act h)
    exact ⟨forwarder.trans (act_tools act h).1, resolver.trans (act_tools act h).2⟩

/-- nothing is said to the peer while a command is carried out -/
theorem doing_said (e : Engine σ) (command : Command) :
    (e.doing command).session.journal.said = e.session.journal.said := by
  rcases e.doing_session command with same | ⟨sender, params, -, mail⟩ | ⟨recipient, params, -, rcpt⟩ | reset
  · rw [same]
  · rw [mail]; exact e.session.mail_said sender params
  · rw [rcpt]; exact e.session.rcpt_said recipient
  · rw [reset]; exact e.session.reset_said

/-! ## Bodies -/

/-- the reply to a recipient that is left without a status -/
def fallback? : Except SessionError Unit → Option Reply
  | .ok _ => none
  | .error error => some error.reply

/-- the replies after a body, from what the session makes of it -/
theorem deliver_of_data {e : Engine σ} {octets : Octets} {result : Except SessionError Unit}
    {statuses : List StatusEvent} {s : Session σ}
    (data : e.session.data (.ofChunks [octets] none) = (result, statuses, s)) :
    (e.deliver (.complete octets)).1
      = Outcomes.ofStatuses e.dialogue.envelope.recipients statuses (fallback? result) := by
  unfold deliver
  dsimp only
  rw [data]
  rfl

/-- nothing is said to the peer while a body is delivered -/
theorem Sound.deliver_said {e : Engine σ} (h : e.Sound) (stage : e.dialogue.stage = .recipients) (body : Body) :
    (e.deliver body).2.session.journal.said = e.session.journal.said := by
  rcases e.deliver_session body with ⟨-, reset⟩ | ⟨octets, -, data⟩
  · rw [reset]; exact e.session.reset_said
  · rw [data]; exact (Session.data_frame h.resolved.distinct (h.some_recipient stage) _).2.2

theorem bodyCome_said (e : Engine σ) (s : Source) :
    (e.bodyCome s).session.journal.said = e.session.journal.said ++ [startBody.line] := by
  refine (Session.waitUntil_steady _ _).said.trans ?_
  rw [saying, Session.journal_note, Journal.said_append]
  rfl

theorem bodyCome_sound {e : Engine σ} (h : e.Sound) (s : Source) : (e.bodyCome s).Sound :=
  act_sound (.wait _ _ (e.saying startBody.line).turns) (act_sound (.say e startBody.line) h)

/-! ## What a run says -/

theorem act_said {e e' : Engine σ} {l : List Heard} (act : Act e l e') (h : e.Sound) :
    e.session.journal.said <+: e'.session.journal.said := by
  cases act with
  | wait t turns => exact (Session.waitUntil_steady e.session t).said ▸ List.prefix_refl _
  | say text =>
    rw [saying, Session.journal_note, Journal.said_append]
    exact List.prefix_append _ _
  | perform parsed allowed => rw [doing_said]
  | deliver read stage => rw [h.deliver_said stage]

theorem Acts.said {e e' : Engine σ} {l : List Heard} (acts : Acts e l e') (h : e.Sound) :
    e.session.journal.said <+: e'.session.journal.said := by
  induction acts with
  | done e => exact List.prefix_refl _
  | step act _ ih => exact (act_said act h).trans (ih (act_sound act h))

/-- nothing is said when a session is logged out -/
theorem logout_said (s : Session σ) : s.logout.2.journal.said = s.journal.said :=
  (Session.note_heard_steady s.clear _ rfl _).said

/-- **What is said in a state of a run** is said in the run. -/
theorem Reaches.said {e₀ e : Engine σ} {s₀ s : Source} {l : List Heard} (h : e₀.Reaches s₀ l e s) (sound : e₀.Sound) :
    e.session.journal.said <+: (e₀.run s₀).2.session.journal.said := by
  have served := (serve_acts e s).said (h.acts.sound sound)
  rw [h.run]
  exact (logout_said (e.serve s).2.session).symm ▸ served

end Engine
end LmtpRelay
