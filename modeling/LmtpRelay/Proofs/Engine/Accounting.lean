/-
What a peer is told for what it sends. `Told` says what one line of the peer is answered, given how far the dialogue has
come: one reply, except that LHLO is answered in several lines, that DATA is answered by a prompt and, after its body, by
one reply for each recipient, and that nothing is said where the stream ends. `Accounted` goes through a whole stream.

`serve_accounted` is the main result: over a stream that is closed in the end, whatever the resolver and the forwarder
answer, an undisturbed dialogue tells the peer what `Accounted` says.
-/
import LmtpRelay.Proofs.Engine.Turns
import LmtpRelay.Proofs.Session.Supplied

namespace LmtpRelay

open Engine

variable {σ : Type}

/-! ## Replies after a body -/

/-- the replies that a recipient may get after a body -/
inductive Settled (f : Forwarder σ) (recipient : String) : Reply → Prop where
  | delivered : Settled f recipient (.done s!"<{recipient}> delivered")
  /-- the forwarder reported a failure -/
  | refused {error : ForwardError} (supplied : f.Supplies error) : Settled f recipient error.reply
  /-- the body failed as a whole -/
  | failed {error : SessionError} (supplied : error.From f) : Settled f recipient error.reply
  | tooBig : Settled f recipient messageTooBig
  | unreported : Settled f recipient Outcomes.noStatus

namespace Outcomes

/-- a place is this recipient's, and the reply in it, if there is one, is fit for it -/
def Fits (P : String → Reply → Prop) (recipient : String) (slot : Slot) : Prop :=
  slot.recipient = recipient ∧ ∀ reply, slot.reply = some reply → P recipient reply

variable {P : String → Reply → Prop} {recipients : List String}

theorem set_fits {e : StatusEvent} (worth : P e.recipient (replyOf e)) {o : Outcomes}
    (h : List.Forall₂ (Fits P) recipients o) : List.Forall₂ (Fits P) recipients (set e o) := by
  induction h with
  | nil => exact .nil
  | @cons r slot rs rest first others ih =>
    unfold set
    split
    · next here =>
      refine .cons ⟨first.1, fun reply hr => ?_⟩ others
      obtain rfl := Option.some.inj hr
      rw [← first.1, here.1]
      exact worth
    · exact .cons first ih

theorem foldl_fits {statuses : List StatusEvent} (worth : ∀ e ∈ statuses, P e.recipient (replyOf e)) {o : Outcomes}
    (h : List.Forall₂ (Fits P) recipients o) :
    List.Forall₂ (Fits P) recipients (statuses.foldl (fun o e => set e o) o) := by
  induction statuses generalizing o with
  | nil => exact h
  | cons e rest ih =>
    exact ih (fun e' he' => worth e' (List.mem_cons_of_mem e he')) (set_fits (worth e List.mem_cons_self) h)

/-- **One reply for each recipient,** in order, and each for a status of that recipient, for what went wrong with the
body as a whole, or for want of either. -/
theorem ofStatuses_fit (recipients : List String) {statuses : List StatusEvent} {fallback : Option Reply}
    (worth : ∀ e ∈ statuses, P e.recipient (replyOf e)) (whole : ∀ r reply, fallback = some reply → P r reply)
    (neither : ∀ r, P r noStatus) : List.Forall₂ P recipients (ofStatuses recipients statuses fallback) := by
  have begun : List.Forall₂ (Fits P) recipients (ofRecipients recipients) := by
    rw [ofRecipients, List.forall₂_map_right_iff, List.forall₂_same]
    exact fun r _ => ⟨rfl, fun _ => nofun⟩
  rw [ofStatuses, replies, List.forall₂_map_right_iff]
  refine (foldl_fits worth begun).imp fun r slot fits => ?_
  cases hs : slot.reply with
  | some reply => exact fits.2 reply hs
  | none =>
    cases hf : fallback with
    | some reply => exact whole r reply hf
    | none => exact neither r

end Outcomes

/-! ## Accounts -/

/-- what a command that may come now is answered, and how far the dialogue has come then; DATA and QUIT apart -/
inductive Answers (f : Forwarder σ) (settings : EngineSettings) (d : Dialogue) : Command → String → Dialogue → Prop where
  /-- one reply of five lines -/
  | lhlo (client : String) : Answers f settings d (.lhlo client) (Status.done.lines (capabilities settings))
      (d.apply (.lhlo client))
  | helo (host : String) : Answers f settings d (.helo host) wrongGreeting.line d
  | tooBig (sender : String) {params : Parameters} (declared : params.size?.any (settings.maxMessageSize < ·) = true) :
      Answers f settings d (.mail sender params) messageTooBig.line d
  | mail (sender : String) {params : Parameters} (fits : params.size?.any (settings.maxMessageSize < ·) = false) :
      Answers f settings d (.mail sender params) senderAccepted.line (d.apply (.mail sender))
  | mailRefused (sender : String) {params : Parameters}
      (fits : params.size?.any (settings.maxMessageSize < ·) = false) {error : SessionError}
      (supplied : error.From f) : Answers f settings d (.mail sender params) error.reply.line d
  | rcpt (recipient : String) (params : Parameters) : Answers f settings d (.rcpt recipient params)
      recipientAccepted.line (d.apply (.rcpt recipient))
  | rcptRefused (recipient : String) (params : Parameters) {error : SessionError} (supplied : error.From f) :
      Answers f settings d (.rcpt recipient params) error.reply.line d
  | rset : Answers f settings d .rset resetDone.line (d.apply .reset)
  /-- the transaction is given up all the same -/
  | rsetRefused {error : SessionError} (supplied : error.From f) :
      Answers f settings d .rset error.reply.line (d.apply .reset)
  | noop : Answers f settings d .noop nothingDone.line d
  | vrfy (argument : String) : Answers f settings d (.vrfy argument) cannotVerify.line d
  | help : Answers f settings d .help help.line d
  | auth (argument : String) : Answers f settings d (.auth argument) SessionError.authUnsupported.reply.line d

/-- what is told for the first line of a stream, and then how far the dialogue has come and what is left of the stream,
or that the dialogue is over -/
inductive Told (f : Forwarder σ) (settings : EngineSettings) (d : Dialogue) (bs : Octets) :
    List String → Option (Dialogue × Octets) → Prop where
  /-- nothing is said at the end of the stream, also where a line that is too long is cut off there -/
  | ended (none_left : firstLine (some .closed) bs = some (.error .closed)) : Told f settings d bs [] none
  | tooLong {limit : Nat} (long : firstLine (some .closed) bs = some (.error (.lineTooLong limit))) :
      Told f settings d bs [lineTooLong.line] (some (d, (splitLine bs).2))
  | refused {line : Octets} (first : firstLine (some .closed) bs = some (.ok line))
      (refused : d.stage.allows (verbOf (Command.parse line)) = false) :
      Told f settings d bs [(outOfSequence d.stage (verbOf (Command.parse line))).line] (some (d, (splitLine bs).2))
  /-- a line that is no command, or no text -/
  | invalid {line : Octets} (first : firstLine (some .closed) bs = some (.ok line)) {fault : CommandFault}
      (parsed : Command.parse line = .error fault) (allowed : d.stage.allows .invalid = true) :
      Told f settings d bs [(syntaxError fault).line] (some (d, (splitLine bs).2))
  | answered {line : Octets} (first : firstLine (some .closed) bs = some (.ok line)) {command : Command}
      (parsed : Command.parse line = .ok command) (allowed : d.stage.allows command.verb = true) {text : String}
      {d' : Dialogue} (answers : Answers f settings d command text d') :
      Told f settings d bs [text] (some (d', (splitLine bs).2))
  | quit {line : Octets} (first : firstLine (some .closed) bs = some (.ok line))
      (parsed : Command.parse line = .ok .quit) (allowed : d.stage.allows .quit = true) :
      Told f settings d bs [(farewell settings).line] none
  /-- nothing is said inside a body that has no end -/
  | bodyCut {line : Octets} (first : firstLine (some .closed) bs = some (.ok line))
      (parsed : Command.parse line = .ok .data) (allowed : d.stage.allows .data = true)
      (cut : splitBody (splitLine bs).2 = none) : Told f settings d bs [startBody.line] none
  /-- a body is followed by one reply for each recipient -/
  | body {line : Octets} (first : firstLine (some .closed) bs = some (.ok line))
      (parsed : Command.parse line = .ok .data) (allowed : d.stage.allows .data = true) {octets left : Octets}
      (split : splitBody (splitLine bs).2 = some (octets, left)) {replies : List Reply}
      (settled : List.Forall₂ (Settled f) d.envelope.recipients replies) :
      Told f settings d bs (startBody.line :: replies.map Reply.line) (some (d.apply .dataComplete, left))

/-- what is told for a whole stream, line by line -/
inductive Accounted (f : Forwarder σ) (settings : EngineSettings) : Dialogue → Octets → List String → Prop where
  | last {d : Dialogue} {bs : Octets} {texts : List String} (told : Told f settings d bs texts none) :
      Accounted f settings d bs texts
  | more {d d' : Dialogue} {bs left : Octets} {texts later : List String}
      (told : Told f settings d bs texts (some (d', left))) (rest : Accounted f settings d' left later) :
      Accounted f settings d bs (texts ++ later)

/-- how far a turn brings the dialogue, and what it leaves of the stream; nothing where the dialogue is over -/
def Turn.left : Turn σ → Option (Dialogue × Octets)
  | .ended _ _ => none
  | .next e s => some (e.dialogue, s.octets)

namespace Engine

/-! ## Commands -/

theorem textFor_answers {command : Command} (not_data : command ≠ .data) (not_quit : command ≠ .quit) (e : Engine σ) :
    Answers e.session.forwarder e.settings e.dialogue command (e.textFor command) (e.doing command).dialogue := by
  cases command with
  | data => exact absurd rfl not_data
  | quit => exact absurd rfl not_quit
  | lhlo client =>
    rw [lhlo_dialogue]
    exact .lhlo client
  | helo host => exact .helo host
  | mail sender params =>
    rw [textFor, doing]
    rcases e.mail_cases sender params with ⟨big, hm⟩ | ⟨fits, ⟨-, hm⟩ | ⟨error, failed, hm⟩⟩ <;> rw [hm]
    · exact .tooBig sender big
    · exact .mail sender fits
    · exact .mailRefused sender fits (Session.mail_from failed)
  | rcpt recipient params =>
    rw [textFor, doing]
    rcases e.rcpt_cases recipient with ⟨-, hr⟩ | ⟨error, failed, hr⟩ <;> rw [hr]
    · exact .rcpt recipient params
    · exact .rcptRefused recipient params (Session.rcpt_from failed)
  | rset =>
    show Answers _ _ _ _ (replyTo resetDone e.session.reset.1).line (e.dialogue.apply .reset)
    cases hr : e.session.reset.1 with
    | ok done => exact .rset
    | error error => exact .rsetRefused (Session.reset_from hr)
  | noop => exact .noop
  | vrfy argument => exact .vrfy argument
  | help => exact .help
  | auth argument => exact .auth argument

/-- **After a body there is one reply for each recipient.** -/
theorem Sound.deliver_settled {e : Engine σ} (h : e.Sound) (stage : e.dialogue.stage = .recipients) (body : Body) :
    List.Forall₂ (Settled e.session.forwarder) e.dialogue.envelope.recipients (e.deliver body).1 := by
  cases body with
  | tooLarge size =>
    show List.Forall₂ _ _ (List.replicate e.dialogue.envelope.recipients.length messageTooBig)
    rw [← List.map_const', List.forall₂_map_right_iff, List.forall₂_same]
    exact fun _ _ => .tooBig
  | complete octets =>
    obtain ⟨whole, each⟩ := Session.data_from h.resolved.distinct (h.some_recipient stage) (.ofChunks [octets] none)
    rcases hd : e.session.data (.ofChunks [octets] none) with ⟨result, statuses, session⟩
    rw [hd] at whole each
    rw [deliver_of_data hd]
    refine Outcomes.ofStatuses_fit _ (fun status hs => ?_) (fun recipient reply hf => ?_) fun _ => .unreported
    · unfold Outcomes.replyOf
      cases hr : status.result with
      | ok done => exact .delivered
      | error error => exact .refused (each status hs error hr)
    · cases result with
      | ok done => cases hf
      | error error =>
        obtain rfl := Option.some.inj hf
        exact .failed (whole error rfl)

/-! ## Turns -/

variable {e : Engine σ} {s : Source}

/-- what is told for a line that has been heeded, with what it leaves of the stream -/
theorem Handled.told {line : Except CommandFault Command} {turn : Turn σ} (handled : Handled .closed e s line turn)
    (sound : e.Sound) {bs octets : Octets} (first : firstLine (some .closed) bs = some (.ok octets))
    (parsed : Command.parse octets = line) (rest : s.octets = (splitLine bs).2) :
    ∃ texts, Told e.session.forwarder e.settings e.dialogue bs texts turn.left ∧ Tells e turn.engine texts := by
  cases handled with
  | refused refused =>
    subst parsed
    refine ⟨_, ?_, saying_tells e _⟩
    rw [Turn.left, rest]
    exact .refused first refused
  | invalid allowed =>
    refine ⟨_, ?_, saying_tells e _⟩
    rw [Turn.left, rest]
    exact .invalid first parsed allowed
  | @performed command allowed not_data not_quit =>
    refine ⟨_, ?_, (doing_tells e command).trans (saying_tells _ _)⟩
    rw [Turn.left, rest]
    exact .answered first parsed allowed (textFor_answers not_data not_quit e)
  | quit allowed => exact ⟨_, .quit first parsed allowed, (doing_tells e .quit).trans (saying_tells _ _)⟩
  | bodyCut allowed cut => exact ⟨_, .bodyCut first parsed allowed (rest ▸ cut), bodyCome_said e s⟩
  | @body allowed octets split =>
    have stage : e.dialogue.stage = .recipients := by simpa [Stage.allows] using allowed
    have settled := (bodyCome_sound sound s).deliver_settled stage (Body.within e.settings.maxMessageSize octets)
    have same : (e.bodyCome s).session.forwarder = e.session.forwarder := Session.waitUntil_forwarder _ _
    rw [same] at settled
    refine ⟨_, ?_, sound.body_tells stage s _ _⟩
    rw [Turn.left, sayingAll_dialogue, deliver_dialogue]
    exact .body first parsed allowed (rest ▸ split) settled

/-- **What is told in a turn.** -/
theorem turn_told (h : Unhindered .closed e s) : ∃ texts,
    Told e.session.forwarder e.settings e.dialogue s.octets texts (e.turn s).left ∧ Tells e (e.turn s).engine texts := by
  have turned := h.turned
  generalize e.turn s = turn at turned
  cases turned with
  | ended none_left => exact ⟨[], .ended none_left, e.lineCome_tells _⟩
  | tooLong long =>
    refine ⟨_, ?_, (e.lineCome_tells _).trans (saying_tells _ _)⟩
    rw [Turn.left, h.line_left]
    exact .tooLong long
  | heeded first parsed heeds handled =>
    have come := act_sound (e.lineCome_act (e.lineTime s)) h.sound
    have same : (e.lineCome (e.lineTime s)).session.forwarder = e.session.forwarder :=
      (act_tools (e.lineCome_act _) h.sound).1
    obtain ⟨texts, told, said⟩ := handled.told come first parsed h.line_left
    rw [same] at told
    exact ⟨texts, told, (e.lineCome_tells _).trans said⟩

/-- **An undisturbed dialogue tells the peer what its stream calls for.** -/
theorem serve_accounted (h : Unhindered .closed e s) : ∃ texts,
    Accounted e.session.forwarder e.settings e.dialogue s.octets texts ∧ Tells e (e.serve s).2 texts := by
  induction e, s using serve.induct with
  | case1 e s result e' hturn =>
    obtain ⟨texts, told, said⟩ := turn_told h
    rw [(serve_ended hturn).1]
    rw [hturn] at told said
    exact ⟨texts, .last told, said⟩
  | case2 e s e' rest hturn ih =>
    obtain ⟨texts, told, said⟩ := turn_told h
    have acts := next_acts hturn
    rw [(serve_next hturn).1]
    rw [hturn] at told said
    obtain ⟨later, accounted, said'⟩ := ih (h.next hturn)
    rw [(acts.tools h.sound).1, acts.setup.1] at accounted
    exact ⟨texts ++ later, .more told accounted, said.trans said'⟩

end Engine
end LmtpRelay
