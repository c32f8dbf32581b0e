/-
The engine of one dialogue with a peer: its settings, its state and the replies that it gives. Every reply is entered
in the journal of the session at the moment at which it is sent.
-/
import LmtpRelay.Command.Parser
import LmtpRelay.Config.Timeouts
import LmtpRelay.Dialogue.Stage
import LmtpRelay.Engine.Outcomes
import LmtpRelay.Session.Data
import LmtpRelay.Wire.Body
import LmtpRelay.Wire.Line
import LmtpRelay.Wire.Sending

namespace LmtpRelay

/-! ## State -/

/-- what all dialogues have in common -/
structure EngineSettings where
  hostname : String
  /-- the largest body accepted -/
  maxMessageSize : Nat
  timeouts : ServerTimeouts
  deriving DecidableEq, Repr

/-- what comes from outside during a dialogue, apart from what the peer sends -/
structure Surroundings where
  /-- when the server is told to shut down, if ever -/
  signal : Option Instant
  /-- from when on nothing can be sent to the peer, and why, in order of time; the last reason holds -/
  outages : List (Instant × IoFailure)
  /-- which comes first when a line and the signal to shut down are there at once, by turns -/
  signalFirst : Nat → Bool

/-- nothing but the peer -/
def Surroundings.calm : Surroundings := ⟨none, [], fun _ => true⟩

/-- why nothing can be sent to the peer at a moment, if that is so -/
def Surroundings.outageAt (s : Surroundings) (t : Instant) : Option IoFailure :=
  ((s.outages.filter fun o => o.1 ≤ t).getLast?).map Prod.snd

/-- a dialogue with a peer over a session -/
structure Engine (σ : Type) where
  settings : EngineSettings
  surroundings : Surroundings
  dialogue : Dialogue
  session : Session σ
  started : Instant
  /-- how many lines have been awaited -/
  turns : Nat

namespace Engine

variable {σ : Type}

def start (settings : EngineSettings) (surroundings : Surroundings) (session : Session σ) : Engine σ :=
  ⟨settings, surroundings, .initial, session, session.now, 0⟩

def now (e : Engine σ) : Instant := e.session.now

def waitUntil (e : Engine σ) (t : Instant) : Engine σ := { e with session := e.session.waitUntil t }

/-- an accepted command moves the dialogue -/
def advance (e : Engine σ) (event : Event) : Engine σ := { e with dialogue := e.dialogue.apply event }

/-! ## Sending -/

def say (e : Engine σ) (text : String) : Except ConnectionError Unit × Engine σ :=
  match e.surroundings.outageAt e.now with
  | some failure => (.error (.io failure), e)
  | none => (.ok (), { e with session := e.session.note (.said text) })

def send (e : Engine σ) (reply : Reply) : Except ConnectionError Unit × Engine σ := e.say reply.line

/-- send replies until one cannot be sent -/
def sendAll (e : Engine σ) : List Reply → Except ConnectionError Unit × Engine σ
  | [] => (.ok (), e)
  | reply :: rest =>
    match e.send reply with
    | (.ok _, e) => sendAll e rest
    | (.error error, e) => (.error error, e)

/-! ## Replies -/

def greeting (s : EngineSettings) : Reply := ⟨.serviceReady, none, s!"{s.hostname} LMTP bridge ready"⟩

/-- the lines after a peer's greeting -/
def capabilities (s : EngineSettings) : List String :=
  [s.hostname, "PIPELINING", "ENHANCEDSTATUSCODES", "8BITMIME", s!"SIZE {s.maxMessageSize}"]

/-- the last thing said to a peer that takes its leave -/
def farewell (s : EngineSettings) : Reply := .coded .goodbye .success s!"{s.hostname} closing connection"

def lifetimeExceeded : Reply := .coded .unavailable .timeout "Connection time limit exceeded"
def shuttingDown : Reply := .coded .unavailable .systemNotAccepting "Server shutting down"
def commandTimedOut : Reply := .coded .unavailable .timeout "Timed out waiting for command"
def bodyTimedOut : Reply := .coded .unavailable .timeout "Timed out waiting for message data"
def lineTooLong : Reply := .coded .syntaxError .syntaxError "Line too long"
def messageTooBig : Reply :=
  .coded .exceededStorage .messageTooBig "Message size exceeds fixed maximum message size"
def senderAccepted : Reply := .coded .done .otherAddress "Sender OK"
def recipientAccepted : Reply := .coded .done ⟨2, 1, 5⟩ "Recipient OK"
def resetDone : Reply := .done "Reset OK"
def nothingDone : Reply := .done "OK"
def wrongGreeting : Reply := .coded .syntaxError .invalidCommand "This is LMTP, use LHLO"
def cannotVerify : Reply :=
  .coded .cannotVerify ⟨2, 5, 0⟩ "Cannot VRFY user, but will accept message and attempt delivery"
def help : Reply := .coded .helpMessage .success "LHLO MAIL RCPT DATA RSET NOOP QUIT VRFY HELP"
def startBody : Reply := ⟨.startMailInput, none, "Start mail input; end with <CRLF>.<CRLF>"⟩

def syntaxError (fault : CommandFault) : Reply :=
  .coded .syntaxError .syntaxError s!"Syntax error: {fault.message}"

def outOfSequence (stage : Stage) (verb : Verb) : Reply :=
  if verb = .data ∧ stage = .sender then SessionError.noRecipients.reply
  else .coded .badSequence .invalidCommand s!"Bad sequence of commands: {verb.word} not allowed here"

/-- the reply to an operation of the session: `done` where it went well -/
def replyTo (done : Reply) (result : Except SessionError Unit) : Reply :=
  match result with
  | .ok _ => done
  | .error error => error.reply

end Engine
end LmtpRelay
