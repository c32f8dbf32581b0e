/-
Sessions. A session holds one mail transaction at a time: it resolves each recipient, passes the rewritten envelope on
to its forwarder and remembers which recipient each forwarding address stands for. Its clock moves on by the time that
the resolver and the forwarder take, and all that is asked of the forwarder goes into its journal.

Someone may still report on a transaction that is over. Nobody takes such a report; it is made when the session next
waits, since nobody else acts before that.
-/
import LmtpRelay.Journal
import LmtpRelay.Session.Error
import LmtpRelay.Session.Recipients

namespace LmtpRelay

/-! ## State -/

inductive Phase where
  /-- there is no sender -/
  | idle
  /-- there is a sender, and no recipient -/
  | open
  /-- there is a recipient, and the body is awaited -/
  | dataPending
  deriving DecidableEq, Repr

/-- a session with a forwarder -/
structure Session (σ : Type) where
  id : Nat
  resolver : Resolver
  /-- how many questions the resolver has answered -/
  asked : Nat
  forwarder : Forwarder σ
  /-- the state of the forwarder -/
  downstream : σ
  sender : Option String
  recipients : Recipients
  /-- how long the statuses of a body may take, in milliseconds -/
  statusWait : Nat
  now : Instant
  /-- reports that are still to be made on transactions that are over -/
  pending : List Burst
  /-- the entries of the journal, last first -/
  log : List Entry

namespace Session

variable {σ : Type}

def start (id : Nat) (resolver : Resolver) (forwarder : Forwarder σ) (downstream : σ) (statusWait : Nat)
    (now : Instant) : Session σ :=
  ⟨id, resolver, 0, forwarder, downstream, none, .empty, statusWait, now, [], []⟩

def phase (s : Session σ) : Phase :=
  match s.sender, s.recipients.isEmpty with
  | none, _ => .idle
  | some _, true => .open
  | some _, false => .dataPending

/-! ## The journal and the time -/

/-- the journal so far, in the order in which entries were made -/
def journal (s : Session σ) : Journal := s.log.reverse

def enter (s : Session σ) (entries : List Entry) : Session σ := { s with log := entries.reverseAux s.log }

def note (s : Session σ) (deed : Deed) : Session σ := s.enter [⟨s.now, deed⟩]

/-- the journal so far, and the session with a new one -/
def takeJournal (s : Session σ) : Journal × Session σ := (s.journal, { s with log := [] })

/-- reports will be made when nobody takes them any more -/
def leave (s : Session σ) (bursts : List Burst) : Session σ := { s with pending := s.pending ++ bursts }

/-- whoever has to report on a transaction that is over by a moment does so -/
def letReport (s : Session σ) (t : Instant) : Session σ :=
  let (made, pending) := s.pending.partition fun b => b.time ≤ t
  { s.enter (made.flatMap fun b => b.events.map (⟨b.time, .report · false⟩)) with pending }

/-- wait until a moment, unless it has come already -/
def waitUntil (s : Session σ) (t : Instant) : Session σ :=
  if s.now < t then { s.letReport t with now := t } else s

def pass (s : Session σ) (span : Nat) : Session σ := s.waitUntil (s.now + span)

/-- the forwarder has answered: its state and the time move on -/
def heard {α : Type} (s : Session σ) (a : Answer σ α) : Session σ := { s.pass a.took with downstream := a.next }

def clear (s : Session σ) : Session σ := { s with sender := none, recipients := .empty }

/-- a failure of the forwarder is one of the session -/
def forwarded (r : Except ForwardError Unit) : Except SessionError Unit := r.mapError SessionError.forward

/-! ## Operations -/

/-- begin a transaction; the sender is passed on as it is -/
def mail (s : Session σ) (sender : String) (params : Parameters) : Except SessionError Unit × Session σ :=
  let a := s.forwarder.mail s.now s.downstream sender params
  let s := (s.note (.mail sender params a.value)).heard a
  match a.value with
  | .ok _ => (.ok (), { s with sender := some sender })
  | .error e => (.error (.forward e), s)

/-- what stands before the last `mark` -/
def beforeLast (mark : Char) : List Char → Option (List Char)
  | [] => none
  | c :: cs =>
    match beforeLast mark cs with
    | some before => some (c :: before)
    | none => if c = mark then some [] else none

/-- the local part of a recipient, which is not empty -/
def localPart? (recipient : String) : Option String :=
  match beforeLast '@' recipient.toList with
  | some (c :: cs) => some (String.ofList (c :: cs))
  | _ => none

def resolve (s : Session σ) (identifier : String) : Except ResolveError String × Session σ :=
  let answer := s.resolver.resolve s.asked identifier
  (answer.value, { s.pass answer.took with asked := s.asked + 1 })

/-- pass a resolved recipient on, and remember it when it is accepted -/
def accept (s : Session σ) (recipient resolved : String) : Except SessionError Unit × Session σ :=
  let a := s.forwarder.rcpt s.now s.downstream resolved
  let s := (s.note (.rcpt resolved a.value)).heard a
  match a.value with
  | .ok _ => (.ok (), { s with recipients := (s.recipients.insert? resolved recipient).getD s.recipients })
  | .error e => (.error (.forward e), s)

/-- resolve a recipient and pass it on; a forwarding address serves one recipient only -/
def rcpt (s : Session σ) (recipient : String) : Except SessionError Unit × Session σ :=
  match localPart? recipient with
  | none => (.error (.invalidAddress recipient), s)
  | some identifier =>
    let (answer, s) := s.resolve identifier
    match answer with
    | .error cause => (.error (.resolution identifier cause), s)
    | .ok resolved =>
      if s.recipients.contains resolved then (.error (.collision recipient resolved), s)
      else s.accept recipient resolved

def resetForwarder (s : Session σ) : Except ForwardError Unit × Session σ :=
  let a := s.forwarder.reset s.now s.downstream
  (a.value, (s.note (.reset a.value)).heard a)

/-- give the transaction up, here and downstream -/
def reset (s : Session σ) : Except SessionError Unit × Session σ :=
  let (result, s) := s.clear.resetForwarder
  (forwarded result, s)

def logout (s : Session σ) : Except SessionError Unit × Session σ :=
  let s := s.clear
  let a := s.forwarder.close s.now s.downstream
  (forwarded a.value, (s.note (.close a.value)).heard a)

/-- nobody can authenticate -/
def authPlain (_ : Session σ) (_response : Option String) : Except SessionError Empty := .error .authUnsupported

end Session
end LmtpRelay
