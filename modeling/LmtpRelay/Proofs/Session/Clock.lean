/-
The clock of a session never goes back: not while it waits, and not in any of its operations, whatever the resolver and
the forwarder answer and however long they take: `mail_later`, `rcpt_later`, `reset_later`, `data_later`.
-/
import LmtpRelay.Proofs.Session.Alike

namespace LmtpRelay.Session

variable {σ : Type}

/-- a session does not come before another -/
def Later (s s' : Session σ) : Prop := s.now ≤ s'.now

theorem Later.refl (s : Session σ) : Later s s := Nat.le_refl _

theorem Later.trans {a b c : Session σ} (h : Later a b) (h' : Later b c) : Later a c := Nat.le_trans h h'

theorem waitUntil_later (s : Session σ) (t : Instant) : Later s (s.waitUntil t) := (waitUntil_waits s t).now

theorem heard_later {α : Type} (s : Session σ) (a : Answer σ α) : Later s (s.heard a) :=
  waitUntil_later s (s.now + a.took)

theorem note_heard_later {α : Type} (s : Session σ) (deed : Deed) (a : Answer σ α) : Later s ((s.note deed).heard a) :=
  heard_later (s.note deed) a

theorem resolve_later (s : Session σ) (identifier : String) : Later s (s.resolve identifier).2 :=
  (resolve_waits s identifier).now

/-! ## Envelopes -/

theorem mail_later (s : Session σ) (sender : String) (params : Parameters) : Later s (s.mail sender params).2 := by
  have heard : Later s (s.mailHeard sender params) := note_heard_later s _ _
  rcases mail_cases s sender params with ⟨-, h⟩ | ⟨e, -, h⟩ <;> rw [h] <;> exact heard

theorem accept_later (s : Session σ) (recipient resolved : String) : Later s (s.accept recipient resolved).2 := by
  have heard : Later s (s.rcptHeard resolved) := note_heard_later s _ _
  rw [accept_eq]
  split <;> exact heard

theorem rcpt_later (s : Session σ) (recipient : String) : Later s (s.rcpt recipient).2 := by
  rcases rcpt_cases s recipient with
    ⟨-, h⟩ | ⟨identifier, -, ⟨cause, -, h⟩ | ⟨resolved, -, ⟨-, h⟩ | ⟨-, h⟩⟩⟩ <;> rw [h]
  · exact .refl s
  · exact resolve_later s identifier
  · exact resolve_later s identifier
  · exact (resolve_later s identifier).trans (accept_later _ recipient resolved)

theorem reset_later (s : Session σ) : Later s s.reset.2 := note_heard_later s.clear _ _

/-! ## Bodies -/

theorem copyPieces_later (s : Session σ) (pieces : List Octets) : Later s (s.copyPieces pieces).2 := by
  induction pieces generalizing s with
  | nil => exact .refl s
  | cons piece rest ih =>
    have heard := note_heard_later s (.write piece (s.forwarder.write s.now s.downstream piece).value)
      (s.forwarder.write s.now s.downstream piece)
    rw [copyPieces]
    split
    · exact heard.trans (ih _)
    · exact heard

theorem bodyCopied_later (s : Session σ) (body : BodyInput) : Later s (s.bodyCopied body) := by
  rw [bodyCopied, copyBody_snd]
  exact (note_heard_later s _ _).trans (copyPieces_later s.dataHeard body.pieces)

theorem settle_later (s : Session σ) (closing : Closing σ) (took deadline : Nat) :
    Later s (s.settle closing took deadline).2.2 := by
  have closed : Later s (s.closedAfter closing took) := (closedAfter_waits s closing took).now
  cases result : closing.result with
  | error e =>
    rw [settle_error s took deadline result]
    exact closed
  | ok done =>
    rw [settle_ok s took deadline result]
    exact closed.trans (collectLater_bides _ _ _ _ _ _).now

theorem settleCut_later (s : Session σ) (closing : Closing σ) (deadline : Nat) :
    Later s (s.settleCut closing deadline).2.2 := by
  rw [settleCut_eq]
  exact (queueBursts_waits s _ _).now.trans (waitUntil_later _ deadline)

theorem finish_later (s : Session σ) : Later s s.finish.2.2 := by
  rw [finish_calls]
  split
  · split
    · exact settle_later (s.note .finish) _ _ _
    · exact settleCut_later (s.note .finish) _ _
  · exact settleCut_later (s.note .finish) _ _

theorem transfer_later (s : Session σ) (body : BodyInput) : Later s (s.transfer body).2.2 := by
  have copied := bodyCopied_later s body
  rcases transfer_cases s body with ⟨e, -, ht⟩ | ⟨-, ⟨f, -, ht⟩ | ⟨-, ht⟩⟩ <;> rw [ht]
  · exact note_heard_later s _ _
  · exact copied
  · exact copied.trans (finish_later _)

/-- **No operation sets the clock back.** -/
theorem data_later (s : Session σ) (body : BodyInput) : Later s (s.data body).2.2 := by
  have transferred := transfer_later s body
  unfold Session.data
  split
  · exact .refl s
  · dsimp only
    split
    · exact transferred.trans (note_heard_later (s.transfer body).2.2.clear _ _)
    · exact transferred

end LmtpRelay.Session
