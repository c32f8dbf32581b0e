/-
The three accounts of a transaction. Beside the envelope of the dialogue and the map of the session, the client keeps the
forwarding addresses that the server accepted. `Agreement` says that they tell the same; every act keeps it
(`act_agreement`), so it holds throughout a run, whatever the peer, the resolver and the server do.
-/
import LmtpRelay.Proofs.Engine.Accord
import LmtpRelay.Rehearsal.Downstream

namespace LmtpRelay

/-! ## Agreement -/

namespace Engine

variable {π : Type}

/-- the dialogue, the session and the client give the same account of the transaction -/
structure Agreement (e : Engine (Client π)) : Prop where
  orderly : e.dialogue.Orderly
  sender : e.dialogue.envelope.sender = e.session.sender
  recipients : e.dialogue.envelope.recipients = e.session.recipients.names
  aligned : e.session.Aligned

theorem Agreement.accord {e : Engine (Client π)} (h : e.Agreement) : e.Accord := ⟨h.orderly, h.sender, h.recipients⟩

theorem Accord.agreement {e : Engine (Client π)} (h : e.Accord) (aligned : e.session.Aligned) : e.Agreement :=
  ⟨h.orderly, h.sender, h.recipients, aligned⟩

theorem Agreement.some_recipient {e : Engine (Client π)} (h : e.Agreement) (stage : e.dialogue.stage = .recipients) :
    e.session.recipients.isEmpty = false :=
  h.accord.some_recipient stage

/-! ## Commands -/

theorem doing_aligned {e : Engine (Client π)} (h : e.Agreement) {command : Command}
    (allowed : e.dialogue.stage.allows command.verb = true) : (e.doing command).session.Aligned := by
  cases command with
  | lhlo client =>
    unfold doing
    dsimp only
    split
    · exact Session.reset_aligned h.aligned
    · exact h.aligned
  | mail sender params =>
    have stage : e.dialogue.stage = .ready := by simpa [Stage.allows, Command.verb] using allowed
    have orderly := h.orderly
    rw [Dialogue.Orderly, stage] at orderly
    have aligned := Session.mail_aligned h.aligned (h.accord.no_recipients orderly.2.2) sender params
    rw [doing]
    rcases e.mail_cases sender params with ⟨-, hm⟩ | ⟨-, ⟨-, hm⟩ | ⟨error, -, hm⟩⟩ <;> rw [hm]
    · exact h.aligned
    · exact aligned
    · exact aligned
  | rcpt recipient _ =>
    have aligned := Session.rcpt_aligned h.aligned recipient
    rw [doing]
    rcases e.rcpt_cases recipient with ⟨-, hr⟩ | ⟨error, -, hr⟩ <;> rw [hr]
    · exact aligned
    · exact aligned
  | rset => exact Session.reset_aligned h.aligned
  | _ => exact h.aligned

theorem deliver_aligned {e : Engine (Client π)} (h : e.Agreement) (stage : e.dialogue.stage = .recipients)
    (body : Body) : (e.deliver body).2.session.Aligned := by
  cases body with
  | tooLarge size => exact Session.reset_aligned h.aligned
  | complete octets => exact Session.data_aligned h.aligned (h.some_recipient stage) _

/-- **Every act keeps the three accounts in agreement.** -/
theorem act_agreement {e e' : Engine (Client π)} {l : List Heard} (act : Act e l e') (h : e.Agreement) :
    e'.Agreement := by
  refine (act_accord act h.accord).agreement ?_
  cases act with
  | wait t turns => exact Session.waitUntil_aligned h.aligned t
  | say text => exact ⟨⟨h.aligned.forwarder, h.aligned.quiet⟩, h.aligned.accepted, h.aligned.owed, h.aligned.shut⟩
  | perform _ allowed => exact doing_aligned h allowed
  | deliver _ stage => exact deliver_aligned h stage _

/-! ## Runs -/

/-- a dialogue that is about to begin over a client that has just connected under a name -/
inductive Begins (hostname : String) : Engine (Client π) → Prop where
  | intro {settings : EngineSettings} {surroundings : Surroundings} {id : Nat} {resolver : Resolver} {client : Client π}
      {statusWait : Nat} {now : Instant} {path : String} {timeouts : ClientTimeouts} {peer : Peer π} {t : Instant}
      {dial : Dial π} (accepted : (Opening.connect path hostname timeouts peer t dial).result = .ok ())
      (connected : (Opening.connect path hostname timeouts peer t dial).client = some client) :
      Begins hostname
        (start settings surroundings (Session.start id resolver (Client.forwarder π) client statusWait now))

theorem Begins.agreement {hostname : String} {e : Engine (Client π)} (h : e.Begins hostname) : e.Agreement := by
  obtain ⟨accepted, connected⟩ := h
  have fresh := Opening.connect_fresh accepted connected
  exact ⟨Dialogue.initial_orderly, rfl, rfl, Session.start_aligned _ _ _ _ fresh.accepted fresh.owed fresh.shut⟩

theorem Begins.sound {hostname : String} {e : Engine (Client π)} (h : e.Begins hostname) : e.Sound := by
  obtain ⟨-, -⟩ := h
  exact Fresh.sound .intro

theorem Acts.agreement {e e' : Engine (Client π)} {l : List Heard} (acts : Acts e l e') (h : e.Agreement) :
    e'.Agreement :=
  acts.keeps act_agreement h

theorem Reaches.agreement {hostname : String} {e₀ e : Engine (Client π)} {s₀ s : Source} {l : List Heard}
    (begins : e₀.Begins hostname) (h : e₀.Reaches s₀ l e s) : e.Agreement :=
  h.acts.agreement begins.agreement

theorem Carries.agreement {hostname : String} {e₀ e : Engine (Client π)} {s₀ s : Source} {l : List Heard}
    {command : Command} (begins : e₀.Begins hostname) (h : e₀.Carries s₀ l command e s) : e.Agreement :=
  h.acts.agreement begins.agreement

/-- **The envelope lists what was accepted.** Where a run comes to carry out DATA, the envelope holds the recipients
that the peer's commands had accepted since its sender was, in order. -/
theorem Carries.recipients {hostname : String} {e₀ e : Engine (Client π)} {s₀ s : Source} {l : List Heard}
    (begins : e₀.Begins hostname) (h : e₀.Carries s₀ l .data e s) :
    e.dialogue.envelope.recipients = Heard.recipients l := by
  have start : e₀.Lists [] := by
    obtain ⟨-, -⟩ := begins
    exact fun _ => rfl
  exact h.acts.lists begins.agreement.accord start (by rw [h.stage]; rfl)

/-! ## Between commands -/

/-- a dialogue that goes on to read another line is not over -/
theorem Reaches.not_closed {hostname : String} {e₀ e : Engine (Client π)} {s₀ s : Source} {l : List Heard}
    (begins : e₀.Begins hostname) (h : e₀.Reaches s₀ l e s) : e.dialogue.stage ≠ .closed := by
  refine h.goes_on ?_
  obtain ⟨-, -⟩ := begins
  exact nofun

/-- a dialogue that is ready holds nothing of an earlier transaction -/
theorem Agreement.ready {e : Engine (Client π)} (h : e.Agreement) (ready : e.dialogue.stage = .ready) :
    (∃ name, e.dialogue = Dialogue.initial.apply (.lhlo name)) ∧
    e.session = { Session.start e.session.id e.session.resolver (Client.forwarder π) e.session.downstream
      e.session.statusWait e.session.now with asked := e.session.asked, log := e.session.log } ∧
    e.session.downstream.accepted = [] ∧ e.session.downstream.owed = [] := by
  have orderly := h.orderly
  rw [Dialogue.Orderly, ready] at orderly
  obtain ⟨known, no_sender, no_recipients⟩ := orderly
  obtain ⟨name, hname⟩ := Option.isSome_iff_exists.1 known
  have empty := h.accord.no_recipients no_recipients
  refine ⟨⟨name, ?_⟩, ?_, ?_, h.aligned.owed⟩
  · rcases hd : e.dialogue with ⟨stage, client, sender, recipients⟩
    rw [hd] at ready hname no_sender no_recipients
    obtain rfl : stage = .ready := ready
    obtain rfl : client = some name := hname
    obtain rfl : sender = none := no_sender
    obtain rfl : recipients = [] := no_recipients
    rfl
  · have forwarder := h.aligned.forwarder
    have quiet : e.session.pending = [] := h.aligned.quiet
    have sender : e.session.sender = none := h.sender.symm.trans no_sender
    rcases hs : e.session with ⟨id, resolver, asked, f, downstream, s, recipients, statusWait, now, pending, log⟩
    rw [hs] at forwarder quiet sender empty
    obtain rfl : f = _ := forwarder
    obtain rfl : pending = [] := quiet
    obtain rfl : s = none := sender
    obtain rfl : recipients = .empty := empty
    rfl
  · rw [h.aligned.accepted, empty]
    rfl

/-! ## A sample dialogue -/

namespace Sample

/-- reaching a server that gives these replies, one after another -/
def opening (replies : List String) : Opening Rehearsal.Server :=
  Opening.connect "/lmtp" "relay" ⟨9, 9, 9⟩ Rehearsal.Server.peer 0
    (Rehearsal.Server.dial 0 (replies.map fun reply => ⟨Octets.ofText (reply ++ "\r\n"), false⟩))

def client (replies : List String) : Client Rehearsal.Server :=
  (opening replies).client.getD (Client.start ⟨9, 9, 9⟩ Rehearsal.Server.peer ⟨[], false, []⟩ ⟨[], []⟩)

/-- a dialogue over such a client, with addresses for two local parts -/
def engine (replies : List String) : Engine (Client Rehearsal.Server) :=
  start ⟨"relay", 1024, ⟨9, 9, 9⟩⟩ .calm
    (Session.start 1 (.ofTable [("p", "p@f"), ("q", "q@f")]) (Client.forwarder Rehearsal.Server)
      (client replies) 9000 5)

/-- a peer that sends these lines and ends its side -/
def source (lines : List String) : Source :=
  ⟨[⟨0, Octets.ofText (String.join (lines.map (· ++ "\r\n")))⟩], [⟨0, .closed⟩]⟩

theorem begins {replies : List String} (ok : (opening replies).result.isOk = true)
    (some_client : (opening replies).client.isSome = true) : (engine replies).Begins "relay" := by
  obtain ⟨c, hc⟩ := Option.isSome_iff_exists.1 some_client
  have accepted : (opening replies).result = .ok () := by
    cases h : (opening replies).result with
    | ok _ => rfl
    | error e => simp [h, Except.isOk, Except.toBool] at ok
  exact .intro accepted (hc.trans (congrArg some (by rw [client, hc]; rfl)))

theorem reaches (replies lines : List String) (n : Nat) (P : Engine (Client Rehearsal.Server) → Source → Bool)
    (h : (((engine replies).saying (greeting (engine replies).settings).line).after (source lines) n).any
      (fun r => P r.1 r.2) = true) :
    ∃ l e s, (engine replies).Reaches (source lines) l e s ∧ P e s = true :=
  reaches_after rfl (source lines) n P h

end Sample

/-- **Three accounts agree.** Whenever a dialogue over a client goes on to read another command, its stage is where
the session is in its transaction, the envelope is the session's, and the client holds the forwarding addresses of the
session's recipients, all in order. A dialogue that is ready is as one whose peer has just given its name, over a
session that has just begun; only questions to the resolver and the journal tell of what was before. The run goes on
from there, and is logged out in the end. -/
theorem accounts_agree {hostname : String} {e₀ e : Engine (Client π)} {s₀ s : Source} {l : List Heard}
    (begins : e₀.Begins hostname) (reaches : e₀.Reaches s₀ l e s) :
    ((e.dialogue.stage = .connected ∨ e.dialogue.stage = .ready) ↔ e.session.phase = .idle) ∧
    (e.dialogue.stage = .sender ↔ e.session.phase = .open) ∧
    (e.dialogue.stage = .recipients ↔ e.session.phase = .dataPending) ∧
    (e.dialogue.stage = .connected ↔ e.dialogue.envelope.client = none) ∧
    e.dialogue.envelope.sender = e.session.sender ∧
    e.dialogue.envelope.recipients = e.session.recipients.names ∧
    e.session.downstream.accepted = e.session.recipients.resolved ∧
    (e.dialogue.stage = .ready →
      (∃ name, e.dialogue = Dialogue.initial.apply (.lhlo name)) ∧
      e.session = { Session.start e.session.id e.session.resolver (Client.forwarder π) e.session.downstream
        e.session.statusWait e.session.now with asked := e.session.asked, log := e.session.log } ∧
      e.session.downstream.accepted = [] ∧ e.session.downstream.owed = []) ∧
    e₀.run s₀ = ((e.serve s).1, { (e.serve s).2 with session := (e.serve s).2.session.logout.2 }) := by
  have agreement := reaches.agreement begins
  have phase := agreement.accord.phase (reaches.not_closed begins)
  refine ⟨?_, ?_, ?_, agreement.accord.connected_iff (reaches.not_closed begins), agreement.sender,
    agreement.recipients, agreement.aligned.accepted, agreement.ready, reaches.run⟩
  · rw [phase]
    cases hs : e.dialogue.stage <;> simp [Stage.phase]
    exact reaches.not_closed begins hs
  · rw [phase]
    cases e.dialogue.stage <;> simp [Stage.phase]
  · rw [phase]
    cases e.dialogue.stage <;> simp [Stage.phase]

theorem accounts_agree_recipients : ∃ l e s,
    (Sample.engine ["220 ready", "250 hello", "250 sender", "250 recipient"]).Reaches
      (Sample.source ["LHLO peer", "MAIL FROM:<a@x>", "RCPT TO:<p@h>"]) l e s ∧
    e.dialogue.stage = .recipients ∧ e.session.phase = .dataPending ∧
    e.session.downstream.accepted = e.session.recipients.resolved := by
  have begins : (Sample.engine ["220 ready", "250 hello", "250 sender", "250 recipient"]).Begins "relay" :=
    Sample.begins (by cbv) (by cbv)
  obtain ⟨l, e, s, reaches, stage⟩ := Sample.reaches ["220 ready", "250 hello", "250 sender", "250 recipient"]
    ["LHLO peer", "MAIL FROM:<a@x>", "RCPT TO:<p@h>"] 3 (fun e _ => e.dialogue.stage = .recipients) (by cbv)
  obtain ⟨-, -, third, -, -, -, accepted, -⟩ := accounts_agree begins reaches
  exact ⟨l, e, s, reaches, of_decide_eq_true stage, third.1 (of_decide_eq_true stage), accepted⟩

end Engine
end LmtpRelay
