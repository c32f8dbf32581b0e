/-
Running a dialogue. In each turn the engine waits for a line, for the signal to shut down or for the end of its
patience, whichever comes first, and deals with it. However the dialogue ends, the session is logged out.
-/
import LmtpRelay.Engine.Command

namespace LmtpRelay.Engine

variable {σ : Type}

/-! ## Waiting for a line -/

/-- what waiting for a line comes to -/
inductive Waited where
  | signal
  | timedOut
  | line (result : Except ConnectionError Octets)

/-- the line that comes in time, or the end of the patience for it, and when that is -/
def awaitLine (e : Engine σ) (r : Read (Except ConnectionError Octets)) : Waited × Instant :=
  let deadline := e.now + seconds e.settings.timeouts.commandSecs
  match r.within e.now deadline with
  | some result => (.line result, max e.now r.ready)
  | none => (.timedOut, deadline)

/-- what comes first, and when -/
def awaitTurn (e : Engine σ) (r : Read (Except ConnectionError Octets)) : Waited × Instant :=
  let (waited, time) := e.awaitLine r
  match e.surroundings.signal with
  | none => (waited, time)
  | some signal =>
    let signal := max e.now signal
    if signal < time || (signal = time && e.surroundings.signalFirst e.turns) then (.signal, signal)
    else (waited, time)

/-! ## Turns -/

/-- whether the dialogue has lasted as long as it may -/
def isSpent (e : Engine σ) : Bool := e.started + seconds e.settings.timeouts.connectionSecs ≤ e.now

def turn (e : Engine σ) (s : Source) : Turn σ :=
  if e.isSpent then e.leave lifetimeExceeded
  else
    let r := s.readLine e.now
    let (waited, time) := e.awaitTurn r
    let e := { e.waitUntil time with turns := e.turns + 1 }
    match waited with
    | .signal => e.leave shuttingDown
    | .timedOut => e.leave commandTimedOut
    | .line (.error .closed) => .ended (.ok ()) e
    | .line (.error (.lineTooLong _)) => e.answer lineTooLong r.rest
    | .line (.error error) => .ended (.error error) e
    | .line (.ok line) => e.handle (Command.parse line) r.rest

theorem awaitTurn_line {e : Engine σ} {r : Read (Except ConnectionError Octets)}
    {result : Except ConnectionError Octets} {time : Instant} (h : e.awaitTurn r = (.line result, time)) :
    r.value = some result := by
  have within_value : ∀ {d}, r.within e.now d = some result → r.value = some result := by
    intro d hd
    unfold Read.within at hd
    split at hd
    · exact hd
    · simp at hd
  have line_value : ∀ {t}, e.awaitLine r = (.line result, t) → r.value = some result := by
    intro t ht
    unfold awaitLine at ht
    dsimp only at ht
    split at ht
    · next hw =>
      simp only [Prod.mk.injEq, Waited.line.injEq] at ht
      exact within_value (ht.1 ▸ hw)
    · simp at ht
  unfold awaitTurn at h
  dsimp only at h
  split at h
  · exact line_value h
  · split at h
    · simp at h
    · exact line_value h

/-- each turn leaves less to read -/
theorem turn_rest {e e' : Engine σ} {s t : Source} (h : e.turn s = .next e' t) : t.size < s.size := by
  unfold turn at h
  split at h
  · simp [leave] at h
  · dsimp only at h
    split at h
    · simp [leave] at h
    · simp [leave] at h
    · simp at h
    · next n hw =>
      have hv := awaitTurn_line (Prod.ext hw rfl)
      rw [goOn_rest h]
      exact Source.size_readLine_lt hv (by simp) (by simp)
    · simp at h
    · next line hw =>
      have hv := awaitTurn_line (Prod.ext hw rfl)
      exact Nat.lt_of_le_of_lt (handle_rest h) (Source.size_readLine_lt hv (by simp) (by simp))

/-! ## The dialogue -/

/-- turn after turn until the dialogue is over -/
def serve (e : Engine σ) (s : Source) : Except ConnectionError Unit × Engine σ :=
  match _h : e.turn s with
  | .ended result e => (result, e)
  | .next e rest => serve e rest
termination_by s.size
decreasing_by exact turn_rest _h

def greetAndServe (e : Engine σ) (s : Source) : Except ConnectionError Unit × Engine σ :=
  match e.send (greeting e.settings) with
  | (.ok _, e) => e.serve s
  | (.error error, e) => (.error error, e)

/-- a whole dialogue; the session is logged out in any case -/
def run (e : Engine σ) (s : Source) : Except ConnectionError Unit × Engine σ :=
  let (result, e) := e.greetAndServe s
  (result, { e with session := e.session.logout.2 })

end LmtpRelay.Engine
