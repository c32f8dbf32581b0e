/-
A dialogue does not depend on how its stream is cut. Where the same octets come at the same moments, alone or with
others, a turn comes to the same and leaves streams that differ in their cuts only (`turn_recut`), so that the whole
run comes to the same, with the same journal: `run_recut`. This holds of every dialogue, also of one that a timeout, a
failure or the signal to shut down ends.
-/
import LmtpRelay.Proofs.Engine.Acts
import LmtpRelay.Proofs.Wire.Cutting

namespace LmtpRelay

variable {σ : Type}

open Source

/-- two turns come to the same, and what they leave to read differs in its cuts only -/
abbrev Turn.Recut : Turn σ → Turn σ → Prop := Turn.InStep (fun e s e' s' => e' = e ∧ s.Recut s') fun r r' => r' = r

namespace Engine

variable {s s' : Source}

theorem goOn_recut (said : Except ConnectionError Unit × Engine σ) (cut : s.Recut s') :
    (goOn said s).Recut (goOn said s') := by
  obtain ⟨result, e⟩ := said
  cases result with
  | ok _ => exact .next ⟨rfl, cut⟩
  | error error => exact .ended rfl

/-- what comes first depends on what is read and when -/
theorem awaitTurn_recut {r r' : Read (Except ConnectionError Octets)} (h : Read.Agrees Recut r r') (e : Engine σ) :
    e.awaitTurn r' = e.awaitTurn r := by
  have line : e.awaitLine r' = e.awaitLine r := by
    unfold awaitLine
    dsimp only
    rw [h.within]
    cases hw : r.within e.now (e.now + seconds e.settings.timeouts.commandSecs) with
    | none => rfl
    | some result =>
      have value := Read.within_some hw
      rw [h.ready (by simp [value])]
  rw [awaitTurn, awaitTurn, line]

theorem data_recut (e : Engine σ) (cut : s.Recut s') : (e.data s).Recut (e.data s') := by
  rw [data_eq, data_eq e s']
  split
  · exact .ended rfl
  · next e _ =>
    have read := cut.readBody e.settings.maxMessageSize e.now
    have awaited : e.awaitedBody s' = e.awaitedBody s := read.within _ _
    rw [awaited]
    cases hb : e.awaitedBody s with
    | none => exact .ended rfl
    | some result =>
      have value := awaitedBody_value hb
      have ready := read.ready (by simp [value])
      cases result with
      | error error =>
        dsimp only
        rw [ready]
        exact .ended rfl
      | ok body =>
        dsimp only
        rw [ready]
        exact goOn_recut _ read.rest

theorem handle_recut (e : Engine σ) (line : Except CommandFault Command) (cut : s.Recut s') :
    (e.handle line s).Recut (e.handle line s') := by
  unfold handle
  dsimp only
  split
  · cases line with
    | error fault => exact goOn_recut _ cut
    | ok command =>
      cases command with
      | data => exact data_recut e cut
      | quit => exact .ended rfl
      | _ => exact goOn_recut _ cut
  · exact goOn_recut _ cut

/-- **A turn comes to the same, however the stream is cut.** -/
theorem turn_recut (e : Engine σ) (cut : s.Recut s') : (e.turn s).Recut (e.turn s') := by
  have read := cut.readLine e.now
  unfold turn
  split
  · exact .ended rfl
  · dsimp only
    rw [awaitTurn_recut read]
    split
    · exact .ended rfl
    · exact .ended rfl
    · exact .ended rfl
    · exact goOn_recut _ read.rest
    · exact .ended rfl
    · exact handle_recut _ _ read.rest

theorem serve_recut (e : Engine σ) (cut : s.Recut s') : e.serve s' = e.serve s := by
  have step : ∀ {e e' : Engine σ} {s s' : Source}, e' = e ∧ s.Recut s' → (e.turn s).Recut (e'.turn s') := by
    rintro e _ s s' ⟨rfl, cut⟩
    exact turn_recut _ cut
  exact serve_inStep step ⟨rfl, cut⟩

/-- **A run comes to the same, however its stream is cut.** -/
theorem run_recut (e : Engine σ) (cut : s.Recut s') : e.run s' = e.run s := by
  have same : e.greetAndServe s' = e.greetAndServe s := by
    unfold greetAndServe
    split
    · exact serve_recut _ cut
    · rfl
  rw [run, run, same]

end Engine
end LmtpRelay
