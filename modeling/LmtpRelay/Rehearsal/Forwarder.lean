/-
A forwarder that follows a script, for rehearsing a session without a downstream server. Commands are answered from
lists, and each body that is accepted has a plan: which write fails, how long the end takes, and what is reported about
whom and when.
-/
import LmtpRelay.Forward.Forwarder

namespace LmtpRelay.Rehearsal

/-- a report that follows a pause -/
structure Cue where
  pause : Nat
  event : StatusEvent
  deriving Repr

structure Plan where
  /-- which write fails, counted from zero, and how -/
  writeFailure : Option (Nat × IoFailure)
  /-- how long the end of the body takes before anything is reported -/
  closeDelay : Nat
  /-- the reports; where none are given, every accepted recipient is reported as delivered -/
  cues : Option (List Cue)
  /-- what the end of the body comes to -/
  result : Except ForwardError Unit
  /-- whether someone holds on to the queue for ever -/
  hold : Bool
  /-- whether the reports are made after the end of the body -/
  background : Bool
  deriving Repr

/-- nothing out of the ordinary -/
def Plan.plain : Plan := ⟨none, 0, none, .ok (), false, false⟩

/-- a body on its way -/
structure Delivery where
  plan : Plan
  /-- the recipients that were accepted for it -/
  recipients : List String
  /-- how many pieces were written -/
  written : Nat
  deriving Repr

/-- what is still to happen -/
structure Script where
  mail : List (Except ForwardError Unit)
  /-- the recipients that get a particular answer -/
  rcpt : List (String × Except ForwardError Unit)
  data : List (Except ForwardError Unit)
  reset : List (Except ForwardError Unit)
  close : List (Except ForwardError Unit)
  plans : List Plan
  /-- the recipients accepted in the open transaction -/
  accepted : List String
  delivery : Delivery
  deriving Repr

namespace Script

def plain : Script := ⟨[], [], [], [], [], [], [], ⟨.plain, [], 0⟩⟩

/-- the next answer of a list; when it is used up all goes well -/
def nextOf (answers : List (Except ForwardError Unit)) : Except ForwardError Unit := answers.headD (.ok ())

def atOnce {α : Type} (value : α) (next : Script) : Answer Script α := ⟨0, value, next⟩

def onMail (s : Script) : Answer Script (Except ForwardError Unit) :=
  atOnce (nextOf s.mail) { s with mail := s.mail.drop 1, accepted := [] }

def onRcpt (s : Script) (recipient : String) : Answer Script (Except ForwardError Unit) :=
  match (s.rcpt.lookup recipient).getD (.ok ()) with
  | .ok _ => atOnce (.ok ()) { s with accepted := s.accepted ++ [recipient] }
  | .error e => atOnce (.error e) s

/-- begin a body: the next plan is taken up -/
def onData (s : Script) : Answer Script (Except ForwardError Unit) :=
  let rest := { s with data := s.data.drop 1 }
  match nextOf s.data with
  | .error e => atOnce (.error e) rest
  | .ok _ =>
    let delivery := ⟨s.plans.headD .plain, s.accepted, 0⟩
    atOnce (.ok ()) { rest with plans := s.plans.drop 1, accepted := [], delivery }

def onWrite (s : Script) : Answer Script (Except IoFailure Unit) :=
  let n := s.delivery.written
  let next := { s with delivery := { s.delivery with written := n + 1 } }
  match s.delivery.plan.writeFailure with
  | some (k, failure) => atOnce (if n = k then .error failure else .ok ()) next
  | none => atOnce (.ok ()) next

def cues (d : Delivery) : List Cue := d.plan.cues.getD (d.recipients.map fun r => ⟨0, ⟨r, .ok ()⟩⟩)

/-- reports as bursts: those that follow without a pause are made together -/
def bursts (time : Instant) : List Cue → List Burst
  | [] => []
  | c :: rest =>
    let time := time + c.pause
    match rest, bursts time rest with
    | next :: _, b :: more =>
      if next.pause = 0 then ⟨time, c.event :: b.events⟩ :: more else ⟨time, [c.event]⟩ :: b :: more
    | _, more => ⟨time, [c.event]⟩ :: more

/-- how long a list of reports takes -/
def span (cs : List Cue) : Nat := cs.foldr (fun cue rest => cue.pause + rest) 0

def onFinish (now : Instant) (s : Script) : Closing Script :=
  let plan := s.delivery.plan
  let reports := bursts (now + plan.closeDelay) (cues s.delivery)
  let last := now + plan.closeDelay + span (cues s.delivery)
  let took := if plan.background then plan.closeDelay else last - now
  { took := some took
    result := plan.result
    direct := if plan.background then [] else reports
    later := if !plan.background then [] else if reports.isEmpty then [⟨last, []⟩] else reports
    released := if plan.hold then none else some last
    closed := s
    cut := fun _ => s }

def onReset (s : Script) : Answer Script (Except ForwardError Unit) :=
  atOnce (nextOf s.reset) { s with reset := s.reset.drop 1, accepted := [] }

def onClose (s : Script) : Answer Script (Except ForwardError Unit) :=
  atOnce (nextOf s.close) { s with close := s.close.drop 1 }

end Script

def forwarder : Forwarder Script where
  mail _ s _ _ := s.onMail
  rcpt _ s recipient := s.onRcpt recipient
  data _ s := s.onData
  write _ s _ := s.onWrite
  finish now s := s.onFinish now
  abandon _ s := s
  reset _ s := s.onReset
  close _ s := s.onClose

end LmtpRelay.Rehearsal
