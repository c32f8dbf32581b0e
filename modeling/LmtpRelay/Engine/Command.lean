/-
Carrying out one command. Most commands are answered by one line and leave what the peer still sends alone; a body is
read from it. A command that may not come at this stage is refused and changes nothing.
-/
import LmtpRelay.Engine.Basic

namespace LmtpRelay

/-- what one turn of a dialogue comes to -/
inductive Turn (σ : Type) where
  /-- the dialogue is over -/
  | ended (result : Except ConnectionError Unit) (e : Engine σ)
  /-- the dialogue goes on with what the peer still sends -/
  | next (e : Engine σ) (s : Source)

namespace Engine

variable {σ : Type}

/-! ## Ends of a turn -/

/-- something was said: go on, unless it could not be sent -/
def goOn (said : Except ConnectionError Unit × Engine σ) (s : Source) : Turn σ :=
  match said with
  | (.ok _, e) => .next e s
  | (.error error, e) => .ended (.error error) e

/-- send a reply and go on -/
def answer (e : Engine σ) (reply : Reply) (s : Source) : Turn σ := goOn (e.send reply) s

/-- send a last reply -/
def leave (e : Engine σ) (reply : Reply) : Turn σ :=
  let (result, e) := e.send reply
  .ended result e

/-! ## Commands -/

/-- the peer gives its name: an open transaction is given up -/
def lhlo (e : Engine σ) (client : String) (s : Source) : Turn σ :=
  let e := if e.dialogue.stage.inTransaction then { e with session := e.session.reset.2 } else e
  let e := e.advance (.lhlo client)
  goOn (e.say (Status.done.lines (capabilities e.settings))) s

/-- whether a message is declared to be too large -/
def declaredTooBig (e : Engine σ) (params : Parameters) : Bool := params.size?.any (e.settings.maxMessageSize < ·)

def mail (e : Engine σ) (sender : String) (params : Parameters) : Reply × Engine σ :=
  if e.declaredTooBig params then (messageTooBig, e)
  else
    let (result, session) := e.session.mail sender params
    let e := { e with session }
    (replyTo senderAccepted result, if result.isOk then e.advance (.mail sender) else e)

def rcpt (e : Engine σ) (recipient : String) : Reply × Engine σ :=
  let (result, session) := e.session.rcpt recipient
  let e := { e with session }
  (replyTo recipientAccepted result, if result.isOk then e.advance (.rcpt recipient) else e)

def rset (e : Engine σ) : Reply × Engine σ :=
  let (result, session) := e.session.reset
  (replyTo resetDone result, { e with session }.advance .reset)

/-- what follows a body: one reply for each recipient -/
def deliver (e : Engine σ) (body : Body) : List Reply × Engine σ :=
  let recipients := e.dialogue.envelope.recipients
  match body with
  | .tooLarge _ =>
    (List.replicate recipients.length messageTooBig, { e with session := e.session.reset.2 }.advance .dataComplete)
  | .complete octets =>
    let (result, statuses, session) := e.session.data (.ofChunks [octets] none)
    let fallback := match result with
      | .ok _ => none
      | .error error => some error.reply
    (Outcomes.ofStatuses recipients statuses fallback, { e with session }.advance .dataComplete)

/-- a body is let come, read and delivered -/
def data (e : Engine σ) (s : Source) : Turn σ :=
  match e.send startBody with
  | (.error error, e) => .ended (.error error) e
  | (.ok _, e) =>
    let deadline := e.now + seconds e.settings.timeouts.dataSecs
    let r := s.readBody e.settings.maxMessageSize e.now
    match r.within e.now deadline with
    | none => (e.waitUntil deadline).leave bodyTimedOut
    | some (.error error) => .ended (.error error) (e.waitUntil r.ready)
    | some (.ok body) =>
      let (replies, e) := (e.waitUntil r.ready).deliver body
      goOn (e.sendAll replies) r.rest

def verbOf (line : Except CommandFault Command) : Verb :=
  match line with
  | .ok command => command.verb
  | .error _ => .invalid

/-- carry out a command that may come now -/
def perform (e : Engine σ) (command : Command) (s : Source) : Turn σ :=
  match command with
  | .lhlo client => e.lhlo client s
  | .helo _ => e.answer wrongGreeting s
  | .mail sender params => let (reply, e) := e.mail sender params; e.answer reply s
  | .rcpt recipient _ => let (reply, e) := e.rcpt recipient; e.answer reply s
  | .data => e.data s
  | .rset => let (reply, e) := e.rset; e.answer reply s
  | .noop => e.answer nothingDone s
  | .quit => (e.advance .quit).leave (farewell e.settings)
  | .vrfy _ => e.answer cannotVerify s
  | .help => e.answer help s
  | .auth _ => e.answer SessionError.authUnsupported.reply s

def handle (e : Engine σ) (line : Except CommandFault Command) (s : Source) : Turn σ :=
  let stage := e.dialogue.stage
  if stage.allows (verbOf line) then
    match line with
    | .ok command => e.perform command s
    | .error fault => e.answer (syntaxError fault) s
  else e.answer (outOfSequence stage (verbOf line)) s

/-! ## Nothing comes back -/

theorem goOn_rest {said : Except ConnectionError Unit × Engine σ} {s t : Source} {e : Engine σ}
    (h : goOn said s = .next e t) : t = s := by
  unfold goOn at h
  split at h
  · simp_all
  · simp at h

theorem data_rest {e e' : Engine σ} {s t : Source} (h : e.data s = .next e' t) : t.size ≤ s.size := by
  unfold data at h
  split at h
  · simp at h
  · dsimp only at h
    split at h
    · simp [leave] at h
    · simp at h
    · rw [goOn_rest h]
      exact Source.size_readBody_le _ _ _

/-- a command leaves no more to read than there was -/
theorem handle_rest {e e' : Engine σ} {line : Except CommandFault Command} {s t : Source}
    (h : e.handle line s = .next e' t) : t.size ≤ s.size := by
  have same : ∀ {said : Except ConnectionError Unit × Engine σ}, goOn said s = .next e' t → t.size ≤ s.size :=
    fun h => Nat.le_of_eq (congrArg Source.size (goOn_rest h))
  unfold handle at h
  dsimp only at h
  by_cases ha : e.dialogue.stage.allows (verbOf line) = true
  · rw [if_pos ha] at h
    clear ha
    cases line with
    | error fault => exact same h
    | ok command =>
      cases command with
      | data => exact data_rest h
      | quit => simp [perform, leave] at h
      | _ => exact same h
  · rw [if_neg ha] at h
    exact same h

end Engine
end LmtpRelay
