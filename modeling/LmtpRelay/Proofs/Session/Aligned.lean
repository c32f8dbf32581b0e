/-
Sessions over a client. Session and client each keep their own account of the transaction: the session maps forwarding
addresses to recipients, the client lists what the server accepted. They are aligned when the two accounts name the same
addresses in the same order, no body is open and nobody is left to report on an earlier one.

Each operation keeps a session aligned, whatever the server does and whether the operation succeeds or not:
`mail_aligned`, `rcpt_aligned`, `reset_aligned`, `data_aligned`. The lemmas beside them say what becomes of the sender
and the recipients.
-/
import LmtpRelay.Proofs.Downstream.Operations
import LmtpRelay.Proofs.Session.Frame

namespace LmtpRelay.Session

variable {π σ : Type}

/-! ## Alignment -/

/-- the forwarder is a client, and nobody is left to report on a transaction that is over -/
structure OverClient (s : Session (Client π)) : Prop where
  forwarder : s.forwarder = Client.forwarder π
  quiet : s.Quiet

theorem OverClient.steady {s s' : Session (Client π)} (h : s.OverClient) (k : Steady s s') : s'.OverClient :=
  ⟨k.forwarder.trans h.forwarder, k.quiet h.quiet⟩

/-- session and client agree on the transaction, and nothing is left of an earlier one -/
structure Aligned (s : Session (Client π)) : Prop extends OverClient s where
  accepted : s.downstream.accepted = s.recipients.resolved
  owed : s.downstream.owed = []
  shut : s.downstream.shut = false

/-- a session that has just begun is aligned with a client that has just been connected -/
theorem start_aligned (id : Nat) (resolver : Resolver) {c : Client π} (statusWait : Nat) (now : Instant)
    (accepted : c.accepted = []) (owed : c.owed = []) (shut : c.shut = false) :
    (Session.start id resolver (Client.forwarder π) c statusWait now).Aligned :=
  ⟨⟨rfl, rfl⟩, accepted, owed, shut⟩

theorem Aligned.steady {s s' : Session (Client π)} (h : s.Aligned) (k : Steady s s')
    (same : s'.downstream = s.downstream) : s'.Aligned :=
  ⟨h.toOverClient.steady k, by rw [same, k.recipients]; exact h.accepted, same ▸ h.owed, same ▸ h.shut⟩

theorem waitUntil_aligned {s : Session (Client π)} (h : s.Aligned) (t : Instant) : (s.waitUntil t).Aligned :=
  h.steady (waitUntil_steady s t) (waitUntil_downstream s t)

theorem resolve_aligned {s : Session (Client π)} (h : s.Aligned) (identifier : String) :
    (s.resolve identifier).2.Aligned :=
  h.steady (resolve_steady s identifier) (waitUntil_downstream s _)

/-! ## MAIL -/

/-- the session when the forwarder has answered MAIL -/
def mailHeard (s : Session σ) (sender : String) (params : Parameters) : Session σ :=
  (s.note (.mail sender params (s.forwarder.mail s.now s.downstream sender params).value)).heard
    (s.forwarder.mail s.now s.downstream sender params)

theorem mailHeard_steady (s : Session σ) (sender : String) (params : Parameters) :
    Steady s (s.mailHeard sender params) :=
  note_heard_steady s _ rfl _

theorem mail_cases (s : Session σ) (sender : String) (params : Parameters) :
    ((s.forwarder.mail s.now s.downstream sender params).value = .ok () ∧
      s.mail sender params = (.ok (), { s.mailHeard sender params with sender := some sender })) ∨
    ∃ e, (s.forwarder.mail s.now s.downstream sender params).value = .error e ∧
      s.mail sender params = (.error (.forward e), s.mailHeard sender params) := by
  unfold mail mailHeard
  dsimp only
  cases hv : (s.forwarder.mail s.now s.downstream sender params).value with
  | ok _ => exact .inl ⟨rfl, by simp⟩
  | error e => exact .inr ⟨e, rfl, by simp⟩

theorem mail_sender (s : Session σ) (sender : String) (params : Parameters) :
    (s.mail sender params).2.sender = if (s.mail sender params).1.isOk then some sender else s.sender := by
  rcases mail_cases s sender params with ⟨-, h⟩ | ⟨e, -, h⟩
  · rw [h]; rfl
  · rw [h]; exact (mailHeard_steady s sender params).sender

theorem mail_recipients (s : Session σ) (sender : String) (params : Parameters) :
    (s.mail sender params).2.recipients = s.recipients := by
  rcases mail_cases s sender params with ⟨-, h⟩ | ⟨e, -, h⟩ <;> rw [h] <;>
    exact (mailHeard_steady s sender params).recipients

theorem mail_said (s : Session σ) (sender : String) (params : Parameters) :
    (s.mail sender params).2.journal.said = s.journal.said := by
  rcases mail_cases s sender params with ⟨-, h⟩ | ⟨e, -, h⟩ <;> rw [h] <;>
    exact (mailHeard_steady s sender params).said

theorem mail_tools (s : Session σ) (sender : String) (params : Parameters) :
    (s.mail sender params).2.forwarder = s.forwarder ∧ (s.mail sender params).2.resolver = s.resolver := by
  have k := mailHeard_steady s sender params
  rcases mail_cases s sender params with ⟨-, h⟩ | ⟨e, -, h⟩ <;> rw [h] <;> exact ⟨k.forwarder, k.resolver⟩

theorem mail_aligned {s : Session (Client π)} (h : s.Aligned) (none_yet : s.recipients = .empty) (sender : String)
    (params : Parameters) : (s.mail sender params).2.Aligned := by
  have k := Client.mail_kept s.now s.downstream sender params
  have accepted : (Client.mail s.now s.downstream sender params).next.accepted = s.recipients.resolved := by
    rw [k.accepted, none_yet]
    rfl
  have heard : (s.mailHeard sender params).Aligned := by
    rw [mailHeard, note_heard_quiet h.quiet, h.forwarder]
    exact ⟨⟨rfl, h.quiet⟩, accepted, k.owed.trans h.owed, k.shut.trans h.shut⟩
  rcases mail_cases s sender params with ⟨-, hm⟩ | ⟨e, -, hm⟩
  · rw [hm]
    exact ⟨⟨heard.forwarder, heard.quiet⟩, heard.accepted, heard.owed, heard.shut⟩
  · rw [hm]; exact heard

/-! ## RCPT -/

def rcptHeard (s : Session σ) (resolved : String) : Session σ :=
  (s.note (.rcpt resolved (s.forwarder.rcpt s.now s.downstream resolved).value)).heard
    (s.forwarder.rcpt s.now s.downstream resolved)

theorem rcptHeard_steady (s : Session σ) (resolved : String) : Steady s (s.rcptHeard resolved) :=
  note_heard_steady s _ rfl _

theorem accept_eq (s : Session σ) (recipient resolved : String) : s.accept recipient resolved
    = match (s.forwarder.rcpt s.now s.downstream resolved).value with
      | .ok _ => (.ok (), { s.rcptHeard resolved with
          recipients := ((s.rcptHeard resolved).recipients.insert? resolved recipient).getD
            (s.rcptHeard resolved).recipients })
      | .error e => (.error (.forward e), s.rcptHeard resolved) := rfl

/-- a recipient whose forwarding address is new is remembered at the end when the forwarder accepts it -/
theorem accept_cases {s : Session σ} {resolved : String} (new : s.recipients.contains resolved = false)
    (recipient : String) :
    ((s.forwarder.rcpt s.now s.downstream resolved).value = .ok () ∧
      s.accept recipient resolved = (.ok (), { s.rcptHeard resolved with
        recipients := ⟨s.recipients.entries ++ [(resolved, recipient)]⟩ })) ∨
    ∃ e, (s.forwarder.rcpt s.now s.downstream resolved).value = .error e ∧
      s.accept recipient resolved = (.error (.forward e), s.rcptHeard resolved) := by
  have insert : ((s.rcptHeard resolved).recipients.insert? resolved recipient).getD (s.rcptHeard resolved).recipients
      = ⟨s.recipients.entries ++ [(resolved, recipient)]⟩ := by
    rw [(rcptHeard_steady s resolved).recipients]
    simp [Recipients.insert?, new]
  unfold rcptHeard at insert ⊢
  unfold accept
  dsimp only
  cases hv : (s.forwarder.rcpt s.now s.downstream resolved).value with
  | ok _ => exact .inl ⟨rfl, by rw [hv] at insert; simp [insert]⟩
  | error e => exact .inr ⟨e, rfl, by simp⟩

/-- what becomes of a recipient: it may be refused before the forwarder hears of it, or be passed on -/
theorem rcpt_cases (s : Session σ) (recipient : String) :
    (localPart? recipient = none ∧ s.rcpt recipient = (.error (.invalidAddress recipient), s)) ∨
    ∃ identifier, localPart? recipient = some identifier ∧
      ((∃ cause, (s.resolve identifier).1 = .error cause ∧
          s.rcpt recipient = (.error (.resolution identifier cause), (s.resolve identifier).2)) ∨
        ∃ resolved, (s.resolve identifier).1 = .ok resolved ∧
          ((s.recipients.contains resolved = true ∧
              s.rcpt recipient = (.error (.collision recipient resolved), (s.resolve identifier).2)) ∨
            (s.recipients.contains resolved = false ∧
              s.rcpt recipient = (s.resolve identifier).2.accept recipient resolved))) := by
  unfold rcpt
  cases hl : localPart? recipient with
  | none => exact .inl ⟨rfl, rfl⟩
  | some identifier =>
    refine .inr ⟨identifier, rfl, ?_⟩
    dsimp only
    cases hr : (s.resolve identifier).1 with
    | error cause => exact .inl ⟨cause, rfl, rfl⟩
    | ok resolved =>
      refine .inr ⟨resolved, rfl, ?_⟩
      dsimp only
      rw [(resolve_steady s identifier).recipients]
      cases s.recipients.contains resolved with
      | true => exact .inl ⟨rfl, rfl⟩
      | false => exact .inr ⟨rfl, rfl⟩

/-- whatever becomes of a recipient, the session stays as it is but for one more recipient where it is accepted -/
theorem rcpt_outcome (s : Session σ) (recipient : String) : ∃ s', Steady s s' ∧
    ((∃ error, s.rcpt recipient = (.error error, s')) ∨
      ∃ resolved, s.rcpt recipient
        = (.ok (), { s' with recipients := ⟨s.recipients.entries ++ [(resolved, recipient)]⟩ })) := by
  rcases rcpt_cases s recipient with ⟨-, h⟩ | ⟨identifier, -, ⟨cause, -, h⟩ | ⟨resolved, -, ⟨-, h⟩ | ⟨new, h⟩⟩⟩
  · exact ⟨s, Steady.refl s, .inl ⟨_, h⟩⟩
  · exact ⟨_, resolve_steady s identifier, .inl ⟨_, h⟩⟩
  · exact ⟨_, resolve_steady s identifier, .inl ⟨_, h⟩⟩
  · have same := (resolve_steady s identifier).recipients
    have heard := (resolve_steady s identifier).trans (rcptHeard_steady _ resolved)
    rw [← same] at new
    rcases accept_cases new recipient with ⟨-, ha⟩ | ⟨e, -, ha⟩
    · rw [same] at ha
      exact ⟨_, heard, .inr ⟨resolved, h.trans ha⟩⟩
    · exact ⟨_, heard, .inl ⟨_, h.trans ha⟩⟩

theorem rcpt_sender (s : Session σ) (recipient : String) : (s.rcpt recipient).2.sender = s.sender := by
  obtain ⟨s', k, outcome⟩ := rcpt_outcome s recipient
  rcases outcome with ⟨error, h⟩ | ⟨resolved, h⟩
  · rw [h]; exact k.sender
  · rw [h]; exact k.sender

theorem rcpt_said (s : Session σ) (recipient : String) : (s.rcpt recipient).2.journal.said = s.journal.said := by
  obtain ⟨s', k, outcome⟩ := rcpt_outcome s recipient
  rcases outcome with ⟨error, h⟩ | ⟨resolved, h⟩
  · rw [h]; exact k.said
  · rw [h]; exact k.said

theorem rcpt_tools (s : Session σ) (recipient : String) :
    (s.rcpt recipient).2.forwarder = s.forwarder ∧ (s.rcpt recipient).2.resolver = s.resolver := by
  obtain ⟨s', k, outcome⟩ := rcpt_outcome s recipient
  rcases outcome with ⟨error, h⟩ | ⟨resolved, h⟩
  · rw [h]; exact ⟨k.forwarder, k.resolver⟩
  · rw [h]; exact ⟨k.forwarder, k.resolver⟩

/-- a recipient joins those before it when it is accepted, and nothing changes otherwise -/
theorem rcpt_names (s : Session σ) (recipient : String) : (s.rcpt recipient).2.recipients.names =
    if (s.rcpt recipient).1.isOk then s.recipients.names ++ [recipient] else s.recipients.names := by
  obtain ⟨s', k, outcome⟩ := rcpt_outcome s recipient
  rcases outcome with ⟨error, h⟩ | ⟨resolved, h⟩
  · rw [h]; exact congrArg Recipients.names k.recipients
  · rw [h]; simp [Recipients.names, Except.isOk, Except.toBool]

theorem accept_aligned {s : Session (Client π)} (h : s.Aligned) {resolved : String}
    (new : s.recipients.contains resolved = false) (recipient : String) : (s.accept recipient resolved).2.Aligned := by
  rcases accept_cases new recipient with ⟨hv, ha⟩ | ⟨e, hv, ha⟩
  · rw [h.forwarder] at hv
    have k := Client.rcpt_ok s.now s.downstream resolved hv
    rw [ha, rcptHeard, note_heard_quiet h.quiet, h.forwarder]
    refine ⟨⟨rfl, h.quiet⟩, k.accepted.trans ?_, k.owed.trans h.owed, k.shut.trans h.shut⟩
    simp [h.accepted, Recipients.resolved]
  · rw [h.forwarder] at hv
    have k := Client.rcpt_error s.now s.downstream resolved hv
    rw [ha, rcptHeard, note_heard_quiet h.quiet, h.forwarder]
    exact ⟨⟨rfl, h.quiet⟩, k.accepted.trans h.accepted, k.owed.trans h.owed, k.shut.trans h.shut⟩

theorem rcpt_aligned {s : Session (Client π)} (h : s.Aligned) (recipient : String) : (s.rcpt recipient).2.Aligned := by
  rcases rcpt_cases s recipient with ⟨-, hc⟩ | ⟨identifier, -, ⟨cause, -, hc⟩ | ⟨resolved, -, ⟨-, hc⟩ | ⟨new, hc⟩⟩⟩
  · rw [hc]; exact h
  · rw [hc]; exact resolve_aligned h identifier
  · rw [hc]; exact resolve_aligned h identifier
  · rw [hc]
    rw [← (resolve_steady s identifier).recipients] at new
    exact accept_aligned (resolve_aligned h identifier) new recipient

/-! ## RSET -/

theorem reset_steady (s : Session σ) : Steady s.clear s.reset.2 := note_heard_steady s.clear _ rfl _

theorem reset_cleared (s : Session σ) : (s.reset).2.sender = none ∧ (s.reset).2.recipients = .empty :=
  ⟨(reset_steady s).sender, (reset_steady s).recipients⟩

theorem reset_said (s : Session σ) : s.reset.2.journal.said = s.journal.said := (reset_steady s).said

/-- the client forgets its transaction whatever the server says, so a cleared session is aligned afterwards -/
theorem resetForwarder_aligned {s : Session (Client π)} (forwarder : s.forwarder = Client.forwarder π) (q : s.Quiet)
    (none_left : s.recipients = .empty) (owed : s.downstream.owed = []) (shut : s.downstream.shut = false) :
    s.resetForwarder.2.Aligned := by
  have k := Client.reset_kept s.now s.downstream
  unfold resetForwarder
  dsimp only
  rw [note_heard_quiet q, forwarder]
  refine ⟨⟨rfl, q⟩, ?_, k.owed.trans owed, k.shut.trans shut⟩
  exact k.accepted.trans (congrArg Recipients.resolved none_left).symm

theorem reset_aligned {s : Session (Client π)} (h : s.Aligned) : s.reset.2.Aligned :=
  resetForwarder_aligned (s := s.clear) h.forwarder h.quiet rfl h.owed h.shut

end LmtpRelay.Session
