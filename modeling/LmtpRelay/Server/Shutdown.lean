/-
Serving and closing. Any number of calls may serve and any number may close, and their steps may come in any order. A
serving call first subscribes to the signals, then looks whether the server is closed, and then accepts connections
until it receives a signal. A closing call first marks the server as closed and then sends a signal to all who have
subscribed. A call whose signals have piled up beyond what is kept for it learns that it has missed some, which means
the same to it as a signal.
-/
import LmtpRelay.Server.Error

namespace LmtpRelay

/-- how many signals are kept for one subscriber -/
def signalRoom : Nat := 16

/-- how far a serving call has come -/
inductive ServeStage where
  /-- nothing has been done -/
  | begun
  | subscribed
  /-- the server was open; connections are accepted -/
  | accepting
  | returned (result : Except ServerError Unit)

/-- a serving call -/
structure ServeCall where
  stage : ServeStage
  /-- the signals that wait for it -/
  signals : Nat
  /-- whether it has missed signals because too many waited -/
  lagging : Bool
  /-- how many connections it has accepted -/
  accepted : Nat

/-- how far a closing call has come -/
inductive CloseStage where
  | begun
  /-- the server is marked as closed -/
  | marked
  | finished
  deriving DecidableEq, Repr

/-- the server, and the calls that serve and close it -/
structure Shutdown where
  closed : Bool
  serving : List ServeCall
  closing : List CloseStage

/-- one step of one call -/
inductive ServerStep where
  /-- a serving call subscribes to the signals -/
  | subscribe (i : Nat)
  /-- a serving call looks whether the server is closed -/
  | check (i : Nat)
  /-- a serving call accepts a connection -/
  | accept (i : Nat)
  /-- a serving call receives a signal, or learns that it has missed some -/
  | receive (i : Nat)
  /-- a closing call marks the server as closed -/
  | mark (j : Nat)
  /-- a closing call sends a signal -/
  | signal (j : Nat)
  deriving DecidableEq, Repr

namespace ServeCall

/-- a call that has done nothing -/
def begun : ServeCall := ⟨.begun, 0, false, 0⟩

/-- whether a signal, or the news of missed ones, waits for the call -/
def isSignalled (c : ServeCall) : Bool := 0 < c.signals || c.lagging

def subscribe (c : ServeCall) : ServeCall :=
  match c.stage with
  | .begun => { c with stage := .subscribed }
  | _ => c

def check (closed : Bool) (c : ServeCall) : ServeCall :=
  match c.stage with
  | .subscribed => { c with stage := if closed then .returned (.error .closed) else .accepting }
  | _ => c

def accept (c : ServeCall) : ServeCall :=
  match c.stage with
  | .accepting => { c with accepted := c.accepted + 1 }
  | _ => c

def receive (c : ServeCall) : ServeCall :=
  match c.stage with
  | .accepting => if c.isSignalled then { c with stage := .returned (.ok ()) } else c
  | _ => c

/-- a signal is sent: it waits for the call while that is subscribed -/
def signal (c : ServeCall) : ServeCall :=
  match c.stage with
  | .subscribed | .accepting =>
    if c.signals < signalRoom then { c with signals := c.signals + 1 } else { c with lagging := true }
  | _ => c

end ServeCall

namespace Shutdown

/-- an open server with calls that have done nothing -/
def initial (serving closing : Nat) : Shutdown :=
  ⟨false, List.replicate serving .begun, List.replicate closing .begun⟩

def atCall (s : Shutdown) (i : Nat) (f : ServeCall → ServeCall) : Shutdown :=
  { s with serving := s.serving.modify i f }

/-- one step; a call does nothing when the step is not its next one -/
def step (s : Shutdown) : ServerStep → Shutdown
  | .subscribe i => s.atCall i ServeCall.subscribe
  | .check i => s.atCall i (ServeCall.check s.closed)
  | .accept i => s.atCall i ServeCall.accept
  | .receive i => s.atCall i ServeCall.receive
  | .mark j =>
    match s.closing[j]? with
    | some .begun => { s with closed := true, closing := s.closing.set j .marked }
    | _ => s
  | .signal j =>
    match s.closing[j]? with
    | some .marked => { s with serving := s.serving.map ServeCall.signal, closing := s.closing.set j .finished }
    | _ => s

def run (s : Shutdown) (steps : List ServerStep) : Shutdown := steps.foldl step s

/-- what a serving call has returned -/
def result? (s : Shutdown) (i : Nat) : Option (Except ServerError Unit) :=
  match (s.serving[i]?).map ServeCall.stage with
  | some (.returned result) => some result
  | _ => none

end Shutdown
end LmtpRelay
