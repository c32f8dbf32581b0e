/-
The protocol of a forwarder. `Obeys` says which calls may follow which, from the calls alone: it knows nothing of
sessions. A transaction is open from a sender that is accepted until the next body or reset; recipients are added to an
open transaction, each address once; a body is begun for an open transaction with a recipient, is written from its
beginning on, and is ended when all of it was written.

Every operation of a session keeps to the protocol, whatever the forwarder answers: `mail_keeps`, `rcpt_keeps`,
`reset_keeps`, `data_keeps`.
-/
import LmtpRelay.Proofs.Session.Resolved

namespace LmtpRelay

/-! ## Calls -/

/-- whether something is asked of the forwarder -/
def Deed.isCall : Deed → Bool
  | .said _ | .report _ _ => false
  | _ => true

namespace Journal

/-- all that was asked of the forwarder, in order -/
def calls (j : Journal) : List Deed := (j.map Entry.deed).filter Deed.isCall

@[simp] theorem calls_append (a b : Journal) : calls (a ++ b) = calls a ++ calls b := by
  rw [calls, List.map_append, List.filter_append]
  rfl

theorem OnlyReports.calls {j : Journal} (h : OnlyReports j) : calls j = [] := by
  rw [Journal.calls, List.filter_eq_nil_iff]
  intro deed hdeed
  obtain ⟨entry, hentry, rfl⟩ := List.mem_map.1 hdeed
  obtain ⟨event, queued, same⟩ := h entry hentry
  rw [same]
  exact Bool.false_ne_true

end Journal

/-! ## The protocol -/

/-- what the calls so far have come to -/
inductive Standing where
  /-- no transaction is open -/
  | idle
  /-- a transaction is open, in which these addresses were accepted -/
  | open (accepted : List String)
  /-- a body is being passed on, of which so much was written -/
  | feeding (body written : Octets)
  /-- the body could not be written -/
  | spoilt
  /-- the body was ended -/
  | ended
  deriving DecidableEq, Repr

/-- calls that keep the protocol, with the bodies that were begun, in order, and what the calls have come to -/
inductive Obeys : List Octets → List Deed → Standing → Prop where
  | start : Obeys [] [] .idle
  /-- a sender is named when no transaction is open, and opens one if it is accepted -/
  | mail {bodies : List Octets} {calls : List Deed} (h : Obeys bodies calls .idle) (sender : String)
      (params : Parameters) (result : Except ForwardError Unit) :
      Obeys bodies (calls ++ [.mail sender params result]) (if result.isOk then .open [] else .idle)
  /-- an address is named in an open transaction, if it was not accepted in it before -/
  | rcpt {bodies : List Octets} {calls : List Deed} {accepted : List String} (h : Obeys bodies calls (.open accepted))
      {address : String} (new : address ∉ accepted) (result : Except ForwardError Unit) :
      Obeys bodies (calls ++ [.rcpt address result]) (.open (if result.isOk then accepted ++ [address] else accepted))
  /-- a body is begun in an open transaction with a recipient, and closes it -/
  | data {bodies : List Octets} {calls : List Deed} {accepted : List String} (h : Obeys bodies calls (.open accepted))
      (some_accepted : accepted ≠ []) (body : Octets) (result : Except ForwardError Unit) :
      Obeys (bodies ++ [body]) (calls ++ [.data result]) (if result.isOk then .feeding body [] else .idle)
  /-- what is written continues the body -/
  | write {bodies : List Octets} {calls : List Deed} {body written : Octets}
      (h : Obeys bodies calls (.feeding body written)) {piece : Octets} (part : written ++ piece <+: body)
      (result : Except IoFailure Unit) :
      Obeys bodies (calls ++ [.write piece result]) (if result.isOk then .feeding body (written ++ piece) else .spoilt)
  /-- a body is ended when all of it was written -/
  | finish {bodies : List Octets} {calls : List Deed} {body : Octets} (h : Obeys bodies calls (.feeding body body)) :
      Obeys bodies (calls ++ [.finish]) .ended
  /-- a body that could not be written is given up, and the end of one may be cut off -/
  | abandon {bodies : List Octets} {calls : List Deed} {standing : Standing} (h : Obeys bodies calls standing)
      (begun : standing = .spoilt ∨ standing = .ended) : Obeys bodies (calls ++ [.abandon]) .idle
  /-- a body that was ended is over -/
  | done {bodies : List Octets} {calls : List Deed} (h : Obeys bodies calls .ended) : Obeys bodies calls .idle
  /-- a transaction is given up, if there is one -/
  | reset {bodies : List Octets} {calls : List Deed} {standing : Standing} (h : Obeys bodies calls standing)
      (between : standing = .idle ∨ ∃ accepted, standing = .open accepted) (result : Except ForwardError Unit) :
      Obeys bodies (calls ++ [.reset result]) .idle

/-- the end of the dialogue is no part of the protocol -/
theorem Obeys.not_closed {bodies : List Octets} {calls : List Deed} {standing : Standing}
    (h : Obeys bodies calls standing) (result : Except ForwardError Unit) : .close result ∉ calls := by
  induction h with
  | start => exact List.not_mem_nil
  | done _ ih => exact ih
  | _ => simp_all

namespace Session

variable {σ : Type}

/-- what the calls of a session that waits for another operation have come to -/
def standing (s : Session σ) : Standing :=
  match s.sender with
  | none => .idle
  | some _ => .open s.recipients.resolved

/-- the calls of a session obey the protocol, and have come to where the session is -/
def Keeps (bodies : List Octets) (s : Session σ) : Prop := Obeys bodies s.journal.calls s.standing

theorem standing_between (s : Session σ) : s.standing = .idle ∨ ∃ accepted, s.standing = .open accepted := by
  unfold standing
  cases s.sender with
  | none => exact .inl rfl
  | some sender => exact .inr ⟨_, rfl⟩

/-! ## What an operation asks -/

theorem Waits.calls {s s' : Session σ} (h : Waits s s') : s'.journal.calls = s.journal.calls := by
  obtain ⟨reports, only, journal⟩ := h.journal
  rw [journal, Journal.calls_append, only.calls, List.append_nil]

theorem note_calls (s : Session σ) {deed : Deed} (call : deed.isCall = true) :
    (s.note deed).journal.calls = s.journal.calls ++ [deed] := by
  rw [journal_note, Journal.calls_append]
  simp [Journal.calls, call]

theorem note_heard_calls {α : Type} (s : Session σ) {deed : Deed} (call : deed.isCall = true) (a : Answer σ α) :
    ((s.note deed).heard a).journal.calls = s.journal.calls ++ [deed] :=
  (waitUntil_waits (s.note deed) _).calls.trans (note_calls s call)

theorem Keeps.waits {bodies : List Octets} {s s' : Session σ} (h : s.Keeps bodies) (waits : Waits s s') :
    s'.Keeps bodies := by
  unfold Keeps standing at *
  rw [waits.calls, waits.sender, waits.recipients]
  exact h

/-! ## Operations -/

/-- a session that has just begun has asked nothing -/
theorem start_keeps (id : Nat) (resolver : Resolver) (forwarder : Forwarder σ) (downstream : σ) (statusWait : Nat)
    (now : Instant) : (Session.start id resolver forwarder downstream statusWait now).Keeps [] := .start

theorem mail_keeps {bodies : List Octets} {s : Session σ} (h : s.Keeps bodies) (idle : s.sender = none)
    (none_yet : s.recipients = .empty) (sender : String) (params : Parameters) :
    (s.mail sender params).2.Keeps bodies := by
  have steady := mailHeard_steady s sender params
  have calls : (s.mailHeard sender params).journal.calls = s.journal.calls
      ++ [.mail sender params (s.forwarder.mail s.now s.downstream sender params).value] := note_heard_calls s rfl _
  unfold Keeps standing at h
  rw [idle] at h
  have asked := h.mail sender params (s.forwarder.mail s.now s.downstream sender params).value
  rw [← calls] at asked
  unfold Keeps standing
  rcases mail_cases s sender params with ⟨value, hm⟩ | ⟨e, value, hm⟩ <;> rw [hm] <;> rw [value] at asked
  · have none_accepted : (s.mailHeard sender params).recipients.resolved = [] := by
      rw [steady.recipients, none_yet]
      rfl
    dsimp only
    rw [none_accepted]
    exact asked
  · rw [steady.sender, idle]
    exact asked

theorem accept_keeps {bodies : List Octets} {s : Session σ} (h : s.Keeps bodies) (inside : s.sender.isSome = true)
    {resolved : String} (new : s.recipients.contains resolved = false) (recipient : String) :
    (s.accept recipient resolved).2.Keeps bodies := by
  obtain ⟨sender, hsender⟩ := Option.isSome_iff_exists.1 inside
  have steady := rcptHeard_steady s resolved
  have calls : (s.rcptHeard resolved).journal.calls = s.journal.calls
      ++ [.rcpt resolved (s.forwarder.rcpt s.now s.downstream resolved).value] := note_heard_calls s rfl _
  have unused : resolved ∉ s.recipients.resolved := fun used => by
    rw [Recipients.contains_iff.2 used] at new
    cases new
  unfold Keeps standing at h
  rw [hsender] at h
  have asked := h.rcpt unused (s.forwarder.rcpt s.now s.downstream resolved).value
  rw [← calls] at asked
  unfold Keeps standing
  rcases accept_cases new recipient with ⟨value, ha⟩ | ⟨e, value, ha⟩ <;> rw [ha] <;> rw [value] at asked
  · have joined : Recipients.resolved ⟨s.recipients.entries ++ [(resolved, recipient)]⟩
        = s.recipients.resolved ++ [resolved] := List.map_append
    dsimp only
    rw [steady.sender, hsender, joined]
    exact asked
  · rw [steady.sender, hsender, steady.recipients]
    exact asked

theorem rcpt_keeps {bodies : List Octets} {s : Session σ} (h : s.Keeps bodies) (inside : s.sender.isSome = true)
    (recipient : String) : (s.rcpt recipient).2.Keeps bodies := by
  have resolve : ∀ identifier, (s.resolve identifier).2.Keeps bodies := fun identifier =>
    h.waits (resolve_waits s identifier)
  rcases rcpt_cases s recipient with ⟨-, hr⟩ | ⟨identifier, -, ⟨cause, -, hr⟩ | ⟨resolved, -, ⟨-, hr⟩ | ⟨new, hr⟩⟩⟩
  · rw [hr]; exact h
  · rw [hr]; exact resolve identifier
  · rw [hr]; exact resolve identifier
  · have steady := resolve_steady s identifier
    rw [hr]
    exact accept_keeps (resolve identifier) (steady.sender.symm ▸ inside) (steady.recipients.symm ▸ new) recipient

theorem reset_calls (s : Session σ) : ∃ r, s.reset.2.journal.calls = s.journal.calls ++ [.reset r] :=
  ⟨_, note_heard_calls s.clear rfl _⟩

/-- a transaction that is given up is given up downstream -/
theorem reset_obeys {bodies : List Octets} {s : Session σ} {standing : Standing}
    (h : Obeys bodies s.journal.calls standing) (between : standing = .idle ∨ ∃ accepted, standing = .open accepted) :
    s.reset.2.Keeps bodies := by
  obtain ⟨r, calls⟩ := s.reset_calls
  unfold Keeps Session.standing
  rw [s.reset_cleared.1, calls]
  exact h.reset between r

theorem reset_keeps {bodies : List Octets} {s : Session σ} (h : s.Keeps bodies) : s.reset.2.Keeps bodies :=
  reset_obeys h s.standing_between

/-! ## Bodies -/

/-- the pieces of a body are written one after another until one fails -/
theorem copyPieces_obeys {bodies : List Octets} {body written : Octets} {s : Session σ} (pieces : List Octets)
    (h : Obeys bodies s.journal.calls (.feeding body written)) (whole : written ++ pieces.flatten = body) :
    Obeys bodies (s.copyPieces pieces).2.journal.calls
      (if (s.copyPieces pieces).1.isOk then .feeding body body else .spoilt) := by
  induction pieces generalizing s written with
  | nil =>
    rw [List.flatten_nil, List.append_nil] at whole
    rw [whole] at h
    exact h
  | cons piece rest ih =>
    rw [List.flatten_cons, ← List.append_assoc] at whole
    have calls := note_heard_calls s
      (rfl : (Deed.write piece (s.forwarder.write s.now s.downstream piece).value).isCall = true)
      (s.forwarder.write s.now s.downstream piece)
    have asked := h.write ⟨rest.flatten, whole⟩ (s.forwarder.write s.now s.downstream piece).value
    rw [← calls] at asked
    rw [copyPieces]
    split
    · next value =>
      rw [value] at asked
      exact ih (value ▸ asked) whole
    · next f value =>
      rw [value] at asked ⊢
      exact asked

theorem dataHeard_calls (s : Session σ) : s.dataHeard.journal.calls
    = s.journal.calls ++ [.data (s.forwarder.data s.now s.downstream).value] := note_heard_calls s rfl _

theorem bodyCopied_obeys {bodies : List Octets} {s : Session σ} {octets : Octets}
    (begun : Obeys bodies s.dataHeard.journal.calls (.feeding octets [])) :
    Obeys bodies (s.bodyCopied (.ofChunks [octets] none)).journal.calls
      (if (s.dataHeard.copyBody (.ofChunks [octets] none)).1.isOk then .feeding octets octets else .spoilt) := by
  rw [bodyCopied, copyBody_whole]
  exact copyPieces_obeys _ begun (BodyInput.flatten_pieces octets)

/-- a body that could not be written is given up -/
theorem lost_keeps {bodies : List Octets} {s : Session σ} {octets : Octets}
    (begun : Obeys bodies s.dataHeard.journal.calls (.feeding octets [])) {f : IoFailure}
    (lost : (s.dataHeard.copyBody (.ofChunks [octets] none)).1 = .error f) :
    (s.bodyCopied (.ofChunks [octets] none)).abandon.clear.Keeps bodies := by
  have spoilt := bodyCopied_obeys begun
  rw [lost] at spoilt
  have calls : (s.bodyCopied (.ofChunks [octets] none)).abandon.clear.journal.calls
      = (s.bodyCopied (.ofChunks [octets] none)).journal.calls ++ [.abandon] := note_calls _ rfl
  unfold Keeps
  rw [calls]
  exact spoilt.abandon (.inl rfl)

theorem ended_obeys {bodies : List Octets} {s : Session σ} {octets : Octets}
    (begun : Obeys bodies s.dataHeard.journal.calls (.feeding octets []))
    (copied : (s.dataHeard.copyBody (.ofChunks [octets] none)).1 = .ok ()) :
    Obeys bodies ((s.bodyCopied (.ofChunks [octets] none)).note .finish).journal.calls .ended := by
  have fed := bodyCopied_obeys begun
  rw [copied] at fed
  rw [note_calls _ rfl]
  exact fed.finish

/-- **Whatever becomes of a body, the protocol is obeyed,** and no transaction is open afterwards. -/
theorem data_keeps {bodies : List Octets} {s : Session σ} (h : s.Keeps bodies) (inside : s.sender.isSome = true)
    (distinct : s.recipients.Distinct) (some_recipient : s.recipients.isEmpty = false) (octets : Octets) :
    (s.data (.ofChunks [octets] none)).2.2.Keeps (bodies ++ [octets]) := by
  obtain ⟨sender, hsender⟩ := Option.isSome_iff_exists.1 inside
  have some_accepted : s.recipients.resolved ≠ [] := by
    simpa [Recipients.isEmpty, Recipients.resolved] using some_recipient
  unfold Keeps standing at h
  rw [hsender] at h
  have begun := h.data some_accepted octets (s.forwarder.data s.now s.downstream).value
  rw [← dataHeard_calls] at begun
  have fate := data_fate distinct some_recipient (.ofChunks [octets] none)
  generalize s.data (.ofChunks [octets] none) = transfer at fate ⊢
  cases fate with
  | refused refused =>
    rw [refused] at begun
    exact reset_obeys begun (.inl rfl)
  | lost letCome lost =>
    rw [letCome] at begun
    exact lost_keeps begun lost
  | failed letCome copied _ _ waits =>
    rw [letCome] at begun
    have obeys := (ended_obeys begun copied).done
    rw [← waits.calls] at obeys
    exact reset_obeys obeys (.inl rfl)
  | collected letCome copied _ waits after _ _ _ =>
    rw [letCome] at begun
    have obeys := ended_obeys begun copied
    rw [← waits.calls] at obeys
    unfold Keeps
    rw [after]
    split
    · exact obeys.done
    · show Obeys _ (Session.journal (note _ .abandon)).calls .idle
      rw [note_calls _ rfl]
      exact obeys.abandon (.inr rfl)

end Session
end LmtpRelay
