/-
What an exchange with the downstream server does to the client. A command touches nothing of the transaction: only the
connection itself and the broken flag (`command_kept`, `command_broken`). A client that is not broken writes exactly the
command's line, and a broken one writes nothing and refuses (`command_sent`, `command_refused_iff`).

From these follow, command by command, which recipients the client holds as accepted afterwards.
-/
import Mathlib
import LmtpRelay.Downstream.Connect

namespace LmtpRelay

theorem Source.readResponseFrom_ne_broken (limit : Nat) (now : Instant) (sofar : Option Response) (s : Source) :
    (s.readResponseFrom limit now sofar).value ≠ some (.error .broken) := by
  fun_induction Source.readResponseFrom limit now sofar s with
  | case8 sofar s r b bs h text ht line hl response hp hn ih => exact ih
  | _ => simp_all [ResponseFault.error]

namespace Client

variable {π : Type}

/-! ## What an exchange leaves alone -/

/-- the parts of a client that belong to its transaction or never change -/
structure Kept (c c' : Client π) : Prop where
  timeouts : c'.timeouts = c.timeouts
  peer : c'.peer = c.peer
  accepted : c'.accepted = c.accepted
  owed : c'.owed = c.owed
  shut : c'.shut = c.shut

theorem Kept.refl (c : Client π) : Kept c c := ⟨rfl, rfl, rfl, rfl, rfl⟩

theorem Kept.trans {a b c : Client π} (h1 : Kept a b) (h2 : Kept b c) : Kept a c :=
  ⟨h2.timeouts.trans h1.timeouts, h2.peer.trans h1.peer, h2.accepted.trans h1.accepted, h2.owed.trans h1.owed,
    h2.shut.trans h1.shut⟩

theorem write_kept (c : Client π) (now deadline : Instant) (octets : Octets) :
    Kept c (c.write now deadline octets).2 := by
  unfold write
  split
  · exact Kept.refl c
  · split
    · exact Kept.refl c
    · dsimp only
      split <;> exact ⟨rfl, rfl, rfl, rfl, rfl⟩

theorem await_kept (c : Client π) (now deadline : Instant) (step : String) : Kept c (c.await now deadline step).2 := by
  unfold await
  dsimp only
  split <;> exact ⟨rfl, rfl, rfl, rfl, rfl⟩

theorem exchange_kept (c : Client π) (now deadline : Instant) (step line : String) :
    Kept c (c.exchange now deadline step line).2 := by
  have hw := write_kept c now deadline (Octets.ofText (line ++ "\r\n"))
  unfold exchange
  split
  · next h => rw [h] at hw; exact hw
  · next h => rw [h] at hw; exact hw
  · next h => rw [h] at hw; exact hw.trans (await_kept _ _ _ _)

theorem settle_fst {α : Type} (r : Timed (Except DownstreamError α) × Client π) : (settle r).1 = r.1 := by
  unfold settle
  split <;> rfl

theorem settle_kept {α : Type} {c : Client π} {r : Timed (Except DownstreamError α) × Client π} (h : Kept c r.2) :
    Kept c (settle r).2 := by
  unfold settle
  split
  · exact h
  · exact h.trans ⟨rfl, rfl, rfl, rfl, rfl⟩

/-- **A command touches nothing of the transaction.** -/
theorem command_kept (c : Client π) (now : Instant) (step line : String) : Kept c (c.command now step line).2 := by
  unfold command
  split
  · exact Kept.refl c
  · exact settle_kept (exchange_kept c _ _ _ _)

/-! ## What is written -/

theorem write_broken (c : Client π) (now deadline : Instant) (octets : Octets) :
    (c.write now deadline octets).2.broken = c.broken := by
  unfold write
  split
  · rfl
  · split
    · rfl
    · dsimp only
      split <;> rfl

/-- a write reaches the server whole, as long as the client's side is open -/
theorem write_sent {c : Client π} (h : c.shut = false) (now deadline : Instant) (octets : Octets) :
    (c.write now deadline octets).2.sent = c.sent ++ octets := by
  unfold write
  split
  · next he => rw [List.isEmpty_iff.1 he, List.append_nil]
  · rw [if_neg (by simp [h])]
    dsimp only
    split <;> simp [sent]

theorem await_sent (c : Client π) (now deadline : Instant) (step : String) :
    (c.await now deadline step).2.sent = c.sent := by
  unfold await
  dsimp only
  split <;> rfl

theorem exchange_sent {c : Client π} (h : c.shut = false) (now deadline : Instant) (step line : String) :
    (c.exchange now deadline step line).2.sent = c.sent ++ Octets.ofText (line ++ "\r\n") := by
  have hw := write_sent h now deadline (Octets.ofText (line ++ "\r\n"))
  unfold exchange
  split
  · next e => rw [e] at hw; exact hw
  · next e => rw [e] at hw; exact hw
  · next e => rw [e] at hw; exact (await_sent _ _ _ _).trans hw

theorem settle_sent {α : Type} (r : Timed (Except DownstreamError α) × Client π) : (settle r).2.sent = r.2.sent := by
  unfold settle
  split <;> rfl

/-- **A client that is not broken writes exactly the line of the command; a broken one writes nothing.** -/
theorem command_sent {c : Client π} (h : c.shut = false) (now : Instant) (step line : String) :
    (c.command now step line).2.sent
      = c.sent ++ if c.broken then [] else Octets.ofText (line ++ "\r\n") := by
  unfold command
  split
  · exact (List.append_nil _).symm
  · rw [settle_sent, exchange_sent h]

/-! ## When a client is broken -/

theorem await_ne_broken (c : Client π) (now deadline : Instant) (step : String) :
    (c.await now deadline step).1.value ≠ .error .broken := by
  unfold await
  dsimp only
  split
  · next result h =>
    intro e
    unfold Read.within at h
    split at h
    · exact Source.readResponseFrom_ne_broken _ _ _ _ (h.trans (congrArg some e))
    · simp at h
  · simp

theorem exchange_ne_broken (c : Client π) (now deadline : Instant) (step line : String) :
    (c.exchange now deadline step line).1.value ≠ .error .broken := by
  unfold exchange
  split
  · simp
  · simp
  · exact await_ne_broken _ _ _ _

theorem await_broken (c : Client π) (now deadline : Instant) (step : String) :
    (c.await now deadline step).2.broken = c.broken := by
  unfold await
  dsimp only
  split <;> rfl

theorem exchange_broken (c : Client π) (now deadline : Instant) (step line : String) :
    (c.exchange now deadline step line).2.broken = c.broken := by
  have hw := write_broken c now deadline (Octets.ofText (line ++ "\r\n"))
  unfold exchange
  split
  · next e => rw [e] at hw; exact hw
  · next e => rw [e] at hw; exact hw
  · next e => rw [e] at hw; exact (await_broken _ _ _ _).trans hw

/-- a command is refused exactly when the client is broken -/
theorem command_refused_iff (c : Client π) (now : Instant) (step line : String) :
    (c.command now step line).1.value = .error .broken ↔ c.broken = true := by
  unfold command
  split
  · next h => exact ⟨fun _ => h, fun _ => rfl⟩
  · next h =>
    rw [settle_fst]
    exact ⟨fun e => absurd e (exchange_ne_broken c now _ step line), fun e => absurd e h⟩

/-- a command breaks the client exactly when it gets no response -/
theorem command_broken (c : Client π) (now : Instant) (step line : String) :
    (c.command now step line).2.broken = true ↔ ∃ e, (c.command now step line).1.value = .error e := by
  unfold command
  split
  · next h => exact ⟨fun _ => ⟨_, rfl⟩, fun _ => h⟩
  · next h =>
    unfold settle
    split
    · next hv => rw [exchange_broken]; simp [h, hv]
    · next hv => simp [hv]

end Client
end LmtpRelay
