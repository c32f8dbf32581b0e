/-
What each operation of the client leaves of its transaction. Only MAIL and RSET forget the accepted recipients, only
RCPT adds one, and only a body that was let come turns them into recipients that are owed an answer; however the body
ends, nobody is owed anything afterwards. A client that has connected holds nothing: `connect_fresh`.
-/
import LmtpRelay.Proofs.Downstream.Exchange

namespace LmtpRelay
namespace Client

variable {π : Type}

/-! ## Commands -/

theorem mail_kept (now : Instant) (c : Client π) (sender : String) (params : Parameters) :
    Kept { c with accepted := [] } (mail now c sender params).next :=
  command_kept { c with accepted := [] } now "MAIL" _

theorem reset_kept (now : Instant) (c : Client π) : Kept { c with accepted := [] } (reset now c).next :=
  command_kept { c with accepted := [] } now "RSET" _

theorem rcpt_value (now : Instant) (c : Client π) (recipient : String) : (rcpt now c recipient).value
    = judged (c.command now "RCPT" (Command.rcpt recipient .empty).text).1.value := by
  unfold rcpt
  cases h : judged (c.command now "RCPT" (Command.rcpt recipient .empty).text).1.value <;> simp [h]

/-- a recipient is remembered when the server accepts it -/
theorem rcpt_ok (now : Instant) (c : Client π) (recipient : String)
    (h : (rcpt now c recipient).value = .ok ()) :
    Kept { c with accepted := c.accepted ++ [recipient] } (rcpt now c recipient).next := by
  have k := command_kept c now "RCPT" (Command.rcpt recipient .empty).text
  unfold rcpt at h ⊢
  dsimp only at h ⊢
  split at h
  · exact ⟨k.timeouts, k.peer, by rw [k.accepted], k.owed, k.shut⟩
  · simp at h

theorem rcpt_error (now : Instant) (c : Client π) (recipient : String) {e : ForwardError}
    (h : (rcpt now c recipient).value = .error e) : Kept c (rcpt now c recipient).next := by
  unfold rcpt at h ⊢
  dsimp only at h ⊢
  split at h
  · simp at h
  · exact command_kept c now "RCPT" _

theorem data_eq (now : Instant) (c : Client π) : data now c =
    match (c.command now "DATA" Command.data.text).1.value with
    | .error e => ⟨(c.command now "DATA" Command.data.text).1.took, .error (.downstream e),
        (c.command now "DATA" Command.data.text).2⟩
    | .ok response =>
      if response.code = Status.startMailInput.code then
        ⟨(c.command now "DATA" Command.data.text).1.took, .ok (),
          { (c.command now "DATA" Command.data.text).2 with
            owed := (c.command now "DATA" Command.data.text).2.accepted, accepted := [], atStart := true }⟩
      else ⟨(c.command now "DATA" Command.data.text).1.took, .error (rejected response),
        (c.command now "DATA" Command.data.text).2⟩ := rfl

/-- a body is let come by one response only -/
theorem data_ok_iff (now : Instant) (c : Client π) : (data now c).value = .ok () ↔
    ∃ response, (c.command now "DATA" Command.data.text).1.value = .ok response ∧
      response.code = Status.startMailInput.code := by
  rw [data_eq]
  cases (c.command now "DATA" Command.data.text).1.value with
  | error e => simp
  | ok response =>
    by_cases code : response.code = Status.startMailInput.code
    · simp [code]
    · simp [code]

/-- a body that is let come leaves the accepted recipients owed an answer -/
theorem data_ok (now : Instant) (c : Client π) (h : (data now c).value = .ok ()) :
    Kept { c with owed := c.accepted, accepted := [] } (data now c).next ∧ (data now c).next.atStart = true := by
  have k := command_kept c now "DATA" Command.data.text
  unfold data at h ⊢
  dsimp only at h ⊢
  split at h
  · simp at h
  · split at h
    · next code =>
      rw [if_pos code]
      exact ⟨⟨k.timeouts, k.peer, rfl, k.accepted, k.shut⟩, rfl⟩
    · simp at h

theorem data_error (now : Instant) (c : Client π) {e : ForwardError} (h : (data now c).value = .error e) :
    Kept c (data now c).next := by
  have k := command_kept c now "DATA" Command.data.text
  unfold data at h ⊢
  dsimp only at h ⊢
  split at h
  · exact k
  · split at h
    · simp at h
    · next code =>
      rw [if_neg code]
      exact k

/-! ## Bodies -/

theorem writeRaw_kept (now : Instant) (c : Client π) (octets : Octets) : Kept c (writeRaw now c octets).next := by
  have k := write_kept c now (now + seconds c.timeouts.dataSecs) octets
  unfold writeRaw
  dsimp only
  split <;> next h => rw [h] at k; exact k

theorem writePiece_kept (now : Instant) (c : Client π) (piece : Octets) : Kept c (writePiece now c piece).next := by
  have k := writeRaw_kept now { c with atStart := (stuff c.atStart piece).2 } (stuff c.atStart piece).1
  exact ⟨k.timeouts, k.peer, k.accepted, k.owed, k.shut⟩

theorem readStatuses_kept (c : Client π) (now : Instant) (recipients : List String) :
    Kept c (c.readStatuses now recipients).2.2 := by
  induction recipients generalizing c now with
  | nil => exact Kept.refl c
  | cons recipient rest ih =>
    have k := await_kept c now (now + seconds c.timeouts.dataSecs) "DATA"
    rw [readStatuses]
    dsimp only
    split
    · exact k.trans ⟨rfl, rfl, rfl, rfl, rfl⟩
    · exact k.trans (ih _ _)

/-- what ending a body comes to, whether the end could be written or not -/
theorem finish_cases (now : Instant) (c : Client π) :
    (∃ f, (writeRaw now c (terminator c.atStart)).value = .error f ∧
      (finish now c).took = some (writeRaw now c (terminator c.atStart)).took ∧ (finish now c).direct = []) ∨
    ((writeRaw now c (terminator c.atStart)).value = .ok () ∧
      ∃ bursts last c', (writeRaw now c (terminator c.atStart)).next.readStatuses
          (now + (writeRaw now c (terminator c.atStart)).took) c.owed = (bursts, last, c') ∧
        (finish now c).took = some (last - now) ∧ (finish now c).direct = bursts) := by
  have k := writeRaw_kept now c (terminator c.atStart)
  unfold finish
  cases hw : (writeRaw now c (terminator c.atStart)).value with
  | error f => exact .inl ⟨f, rfl, by simp [hw], by simp [hw]⟩
  | ok _ =>
    refine .inr ⟨rfl, _, _, _, rfl, ?_, ?_⟩ <;> simp [hw, k.owed]

theorem finish_result (now : Instant) (c : Client π) : (finish now c).result = .ok () := by
  unfold finish
  dsimp only
  split <;> rfl

/-- nobody reports after the finishing call -/
theorem finish_later (now : Instant) (c : Client π) : (finish now c).later = [] := by
  unfold finish
  dsimp only
  split <;> rfl

/-- writing octets and reading the statuses that are owed leaves the transaction alone -/
theorem writeRaw_readStatuses_kept (now : Instant) (c : Client π) (octets : Octets) (t : Instant) :
    Kept c ((writeRaw now c octets).next.readStatuses t (writeRaw now c octets).next.owed).2.2 :=
  (writeRaw_kept now c octets).trans (readStatuses_kept _ t _)

theorem finish_closed_kept (now : Instant) (c : Client π) : Kept { c with owed := [] } (finish now c).closed := by
  have k := writeRaw_kept now c (terminator c.atStart)
  unfold finish
  dsimp only
  split
  · exact ⟨k.timeouts, k.peer, k.accepted, rfl, k.shut⟩
  · have k' := writeRaw_readStatuses_kept now c (terminator c.atStart)
      (now + (writeRaw now c (terminator c.atStart)).took)
    exact ⟨k'.timeouts, k'.peer, k'.accepted, rfl, k'.shut⟩

theorem finish_cut_kept (now : Instant) (c : Client π) (t : Instant) :
    Kept { c with owed := [] } ((finish now c).cut t) := by
  have k := writeRaw_kept now c (terminator c.atStart)
  unfold finish
  dsimp only
  split
  · exact ⟨k.timeouts, k.peer, k.accepted, rfl, k.shut⟩
  · have k' := writeRaw_readStatuses_kept now c (terminator c.atStart)
      (now + (writeRaw now c (terminator c.atStart)).took)
    exact ⟨k'.timeouts, k'.peer, k'.accepted, rfl, k'.shut⟩

theorem abandon_kept (now : Instant) (c : Client π) : Kept { c with owed := [] } (abandon now c) :=
  ⟨rfl, rfl, rfl, rfl, rfl⟩

end Client

/-! ## Connecting -/

/-- a client that has connected: it has given its name, and nothing else has happened -/
structure Client.Fresh {π : Type} (hostname : String) (c : Client π) : Prop where
  accepted : c.accepted = []
  owed : c.owed = []
  shut : c.shut = false
  broken : c.broken = false
  sent : c.sent = Octets.ofText (s!"LHLO {hostname}" ++ "\r\n")

namespace Opening

variable {π : Type}

theorem greeting_snd (c : Client π) (now : Instant) :
    (greeting c now).2 = (Client.settle (c.await now (now + seconds c.timeouts.commandSecs) "greeting")).2 := by
  unfold greeting
  dsimp only
  split
  · rfl
  · split <;> rfl

theorem greeting_kept (c : Client π) (now : Instant) : c.Kept (greeting c now).2 := by
  rw [greeting_snd]
  exact Client.settle_kept (Client.await_kept c now (now + seconds c.timeouts.commandSecs) "greeting")

theorem greeting_sent (c : Client π) (now : Instant) : (greeting c now).2.sent = c.sent := by
  rw [greeting_snd, Client.settle_sent, Client.await_sent]

/-- a greeting that is as it should be does not break the client -/
theorem greeting_broken {c : Client π} (h : c.broken = false) {now : Instant}
    (ok : (greeting c now).1.value = .ok ()) : (greeting c now).2.broken = false := by
  have settled : ∃ response,
      (c.await now (now + seconds c.timeouts.commandSecs) "greeting").1.value = .ok response := by
    rw [← Client.settle_fst]
    unfold greeting at ok
    dsimp only at ok
    split at ok
    · simp at ok
    · next response hr => exact ⟨response, hr⟩
  obtain ⟨response, hr⟩ := settled
  rw [greeting_snd, Client.settle, hr]
  exact (Client.await_broken c now _ "greeting").trans h

theorem introduce_snd (c : Client π) (now : Instant) (hostname : String) :
    (introduce c now hostname).2 = (c.command now "LHLO" (Command.lhlo hostname).text).2 := by
  unfold introduce
  dsimp only
  split
  · rfl
  · split <;> rfl

theorem introduce_ok {c : Client π} {now : Instant} {hostname : String}
    (ok : (introduce c now hostname).1.value = .ok ()) :
    ∃ response, (c.command now "LHLO" (Command.lhlo hostname).text).1.value = .ok response := by
  unfold introduce at ok
  dsimp only at ok
  split at ok
  · simp at ok
  · next response h => exact ⟨response, h⟩

/-- a client that was accepted has written its name and nothing else -/
theorem greet_fresh {c : Client π} {now : Instant} {hostname : String} (accepted : c.accepted = []) (owed : c.owed = [])
    (shut : c.shut = false) (broken : c.broken = false) (sent : c.sent = [])
    (ok : (greet c now hostname).1.value = .ok ()) : (greet c now hostname).2.Fresh hostname := by
  unfold greet at ok ⊢
  dsimp only at ok ⊢
  cases hg : (greeting c now).1.value with
  | error e => simp [hg] at ok
  | ok _ =>
    rw [hg] at ok
    dsimp only at ok ⊢
    have k := greeting_kept c now
    have whole := greeting_broken broken hg
    have k' := Client.command_kept (greeting c now).2 (now + (greeting c now).1.took) "LHLO"
      (Command.lhlo hostname).text
    have hs := Client.command_sent (k.shut.trans shut) (now + (greeting c now).1.took) "LHLO"
      (Command.lhlo hostname).text
    obtain ⟨response, hr⟩ := introduce_ok ok
    rw [introduce_snd]
    have both := k.trans k'
    refine ⟨both.accepted.trans accepted, both.owed.trans owed, both.shut.trans shut, ?_, ?_⟩
    · rw [Bool.eq_false_iff]
      intro hb
      obtain ⟨e, he⟩ := (Client.command_broken _ _ _ _).1 hb
      rw [hr] at he
      cases he
    · rw [hs, greeting_sent, sent, whole]
      rfl

theorem connect_fresh {path hostname : String} {timeouts : ClientTimeouts} {peer : Peer π} {now : Instant}
    {dial : Dial π} {c : Client π} (ok : (connect path hostname timeouts peer now dial).result = .ok ())
    (client : (connect path hostname timeouts peer now dial).client = some c) : c.Fresh hostname := by
  unfold connect at ok client
  cases ht : dial.took with
  | none => simp [ht] at ok
  | some took =>
    rw [ht] at ok client
    dsimp only at ok client
    by_cases inTime : inTime now (now + seconds timeouts.connectSecs) (now + took) = true
    · rw [if_pos inTime] at ok client
      rcases hd : dial.result with failure | ⟨server, source⟩
      · simp [hd] at ok
      · rw [hd] at ok client
        obtain rfl := Option.some.inj client
        exact greet_fresh rfl rfl rfl rfl rfl ok
    · simp [inTime] at ok

end Opening
end LmtpRelay
