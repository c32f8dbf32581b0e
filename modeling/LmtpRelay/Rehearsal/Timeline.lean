/-
Peers that follow a script. A dialogue is rehearsed as a list of steps, each of which begins when the one before has had
a moment to take effect; together they say what the peer sends and when, and what else happens to the dialogue. Its
journal is then cut into what happened during each step.
-/
import LmtpRelay.Engine.Run

namespace LmtpRelay.Rehearsal

inductive PeerStep where
  | send (chunks : List Octets)
  /-- the peer ends its side -/
  | close
  /-- from now on reading fails when all that was sent is read -/
  | failReads (failure : IoFailure)
  /-- from now on writing fails -/
  | failWrites (failure : IoFailure)
  | wait (span : Nat)
  /-- the server is told to shut down -/
  | signal
  deriving DecidableEq, Repr

/-- what the steps add up to -/
structure Timeline where
  /-- when the next step begins -/
  now : Instant
  source : Source
  signal : Option Instant
  outages : List (Instant × IoFailure)
  /-- when each step began, last first -/
  starts : List Instant
  deriving Repr

namespace Timeline

/-- nothing has happened but the start, at moment zero -/
def initial : Timeline := ⟨1, ⟨[], []⟩, none, [], [0]⟩

/-- how long a step takes: time passes only where that is asked for, apart from the moment for its effect -/
def span : PeerStep → Nat
  | .wait n => n + 1
  | _ => 1

def halt (t : Timeline) (ending : Ending) : Source := { t.source with halts := t.source.halts ++ [⟨t.now, ending⟩] }

def add (t : Timeline) (step : PeerStep) : Timeline :=
  let after := { t with now := t.now + span step, starts := t.now :: t.starts }
  match step with
  | .send chunks =>
    { after with source := { t.source with arrivals := t.source.arrivals ++ chunks.map (⟨t.now, ·⟩) } }
  | .close => { after with source := t.halt .closed }
  | .failReads failure => { after with source := t.halt (.failure failure) }
  | .failWrites failure => { after with outages := t.outages ++ [(t.now, failure)] }
  | .wait _ => after
  | .signal => { after with signal := t.signal.or (some t.now) }

def ofSteps (steps : List PeerStep) : Timeline := steps.foldl add initial

/-- the surroundings of the dialogue; the signal to shut down comes before a line that is there at the same moment -/
def surroundings (t : Timeline) : Surroundings := ⟨t.signal, t.outages, fun _ => true⟩

/-- the beginning and the end of each step -/
def windows (t : Timeline) : List (Instant × Instant) :=
  let starts := t.starts.reverse
  starts.zip (starts.drop 1 ++ [t.now])

end Timeline

/-- how a dialogue stands at the end of a step -/
inductive Standing where
  | running
  /-- it ended during the step -/
  | ended (result : Except ConnectionError Unit)
  /-- it had ended before -/
  | finished

structure StepReport where
  deeds : List Deed
  standing : Standing

/-- a dialogue with a peer that follows a script: what happened during each step -/
def reports {σ : Type} (settings : EngineSettings) (session : Session σ) (t : Timeline) : List StepReport :=
  let (result, e) := (Engine.start settings t.surroundings session).run t.source
  let journal := (e.session.letReport t.now).journal
  t.windows.map fun (first, last) =>
    let standing := if last ≤ e.now then .running else if first ≤ e.now then .ended result else .finished
    ⟨journal.window first last, standing⟩

end LmtpRelay.Rehearsal
