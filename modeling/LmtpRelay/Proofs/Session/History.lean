/-
The recipients of a session over any history. Operations may come in any order, not only in the one that a dialogue
keeps, and each may end in any way; a history lists them with what the forwarder was asked meanwhile. From the history
alone it can be told which recipients a session has (`ledger`): those that the forwarder accepted since they were last
cleared, each under the name that the peer used.

- `localPart?_some`, `localPart?_none`: the local part of a recipient is what stands before its last `@`.
- `rcpt_dealt`: what can become of a recipient, with what the forwarder is asked for it.
- `perform_ledger`: what one operation makes of the recipients can be told from what it asked.
- `recipients_ledger`: after every history the recipients are those of its ledger, no address in use is named again, and
  a recipient that is rejected leaves everything as it was.
-/
import LmtpRelay.Proofs.Session.Protocol

namespace LmtpRelay

namespace Session

variable {σ : Type}

/-! ## Local parts -/

/-- what stands before the last `@` of a recipient is this, and it is not empty -/
def HasLocalPart (recipient identifier : String) : Prop :=
  identifier ≠ "" ∧ ∃ domain : String, recipient = identifier ++ "@" ++ domain ∧ '@' ∉ domain.toList

/-- a recipient has no `@`, or nothing before the last one -/
def Nameless (recipient : String) : Prop :=
  '@' ∉ recipient.toList ∨ ∃ domain : String, recipient = "@" ++ domain ∧ '@' ∉ domain.toList

theorem beforeLast_none {mark : Char} {text : List Char} : beforeLast mark text = none ↔ mark ∉ text := by
  induction text with
  | nil => simp [beforeLast]
  | cons c cs ih =>
    rw [beforeLast]
    cases found : beforeLast mark cs with
    | some before =>
      have present : mark ∈ cs := by simpa [found] using ih
      simp [present]
    | none =>
      rw [found] at ih
      have absent := ih.1 rfl
      by_cases here : c = mark
      · simp [here]
      · simp [here, absent, Ne.symm here]

theorem beforeLast_some {mark : Char} {text before : List Char} :
    beforeLast mark text = some before ↔ ∃ after, text = before ++ mark :: after ∧ mark ∉ after := by
  induction text generalizing before with
  | nil => simp [beforeLast]
  | cons c cs ih =>
    rw [beforeLast]
    constructor
    · intro h
      split at h
      · next before' found =>
        obtain rfl := Option.some.inj h
        obtain ⟨after, rfl, absent⟩ := ih.1 found
        exact ⟨after, rfl, absent⟩
      · next found =>
        split at h
        · next here =>
          obtain rfl := Option.some.inj h
          exact ⟨cs, here ▸ rfl, beforeLast_none.1 found⟩
        · cases h
    · rintro ⟨after, cut, absent⟩
      cases before with
      | nil =>
        obtain ⟨rfl, rfl⟩ := List.cons.inj cut
        rw [beforeLast_none.2 absent]
        exact if_pos rfl
      | cons b before =>
        obtain ⟨rfl, rfl⟩ := List.cons.inj cut
        rw [ih.2 ⟨after, rfl, absent⟩]

theorem beforeLast_at {recipient before : String} : beforeLast '@' recipient.toList = some before.toList ↔
    ∃ domain : String, recipient = before ++ "@" ++ domain ∧ '@' ∉ domain.toList := by
  rw [beforeLast_some]
  constructor
  · rintro ⟨after, text, absent⟩
    refine ⟨String.ofList after, String.toList_inj.1 ?_, by simpa using absent⟩
    simpa using text
  · rintro ⟨domain, rfl, absent⟩
    exact ⟨domain.toList, by simp, absent⟩

theorem localPart?_some {recipient identifier : String} :
    localPart? recipient = some identifier ↔ HasLocalPart recipient identifier := by
  rw [HasLocalPart, ← beforeLast_at]
  unfold localPart?
  constructor
  · intro h
    split at h
    · next c cs found =>
      obtain rfl := Option.some.inj h
      refine ⟨fun empty => ?_, by simpa using found⟩
      simpa using congrArg String.toList empty
    · cases h
  · rintro ⟨some_text, found⟩
    rw [found]
    cases text : identifier.toList with
    | nil => exact absurd (String.toList_inj.1 text) some_text
    | cons c cs => exact congrArg some (text ▸ String.ofList_toList)

theorem localPart?_none {recipient : String} : localPart? recipient = none ↔ Nameless recipient := by
  have first := @beforeLast_at recipient ""
  rw [String.empty_append] at first
  rw [Nameless, ← first, ← beforeLast_none]
  unfold localPart?
  cases beforeLast '@' recipient.toList with
  | none => simp
  | some before => cases before <;> simp

/-! ## Operations -/

/-- one operation on a session -/
inductive Operation where
  | mail (sender : String) (params : Parameters)
  | rcpt (recipient : String)
  | data (body : BodyInput)
  | reset

def perform (s : Session σ) : Operation → Except SessionError Unit × Session σ
  | .mail sender params => s.mail sender params
  | .rcpt recipient => s.rcpt recipient
  | .data body => ((s.data body).1, (s.data body).2.2)
  | .reset => s.reset

/-- the session after some operations, whatever they come to -/
def performAll (s : Session σ) : List Operation → Session σ
  | [] => s
  | operation :: rest => (s.perform operation).2.performAll rest

/-- what the forwarder is asked while an operation is carried out -/
def asks (s : Session σ) (operation : Operation) : List Deed :=
  (s.perform operation).2.journal.calls.drop s.journal.calls.length

/-- some operations, each with what the forwarder was asked meanwhile -/
def history (s : Session σ) : List Operation → List (Operation × List Deed)
  | [] => []
  | operation :: rest => (operation, s.asks operation) :: (s.perform operation).2.history rest

theorem asks_eq {s : Session σ} (operation : Operation) {calls : List Deed}
    (h : (s.perform operation).2.journal.calls = s.journal.calls ++ calls) : s.asks operation = calls := by
  rw [asks, h, List.drop_left]

/-! ## The ledger -/

/-- the addresses that the forwarder accepted as recipients -/
def admitted (calls : List Deed) : List String :=
  calls.filterMap fun
    | .rcpt address (.ok _) => some address
    | _ => none

/-- the recipients after an operation, as far as they can be told from what was asked: a reset clears them, and so does
a body, which without a recipient finds nothing to clear -/
def tally (entries : List (String × String)) : Operation × List Deed → List (String × String)
  | (.mail _ _, _) => entries
  | (.rcpt recipient, calls) => entries ++ (admitted calls).map (·, recipient)
  | (.data _, _) => []
  | (.reset, _) => []

/-- **The ledger of a history:** the addresses that the forwarder accepted since the recipients were last cleared, each
with the recipient that it was accepted for -/
def ledger (history : List (Operation × List Deed)) : List (String × String) := history.foldl tally []

/-! ## What an operation asks -/

/-- calls among which no recipient is named -/
def NamesNobody (calls : List Deed) : Prop := ∀ address result, Deed.rcpt address result ∉ calls

/-- all that one session has asked more than another names nobody -/
def AsksAbout (s s' : Session σ) : Prop := ∃ calls, s'.journal.calls = s.journal.calls ++ calls ∧ NamesNobody calls

theorem AsksAbout.trans {a b c : Session σ} (h : AsksAbout a b) (h' : AsksAbout b c) : AsksAbout a c := by
  obtain ⟨first, hfirst, nobody⟩ := h
  obtain ⟨second, hsecond, nobody'⟩ := h'
  refine ⟨first ++ second, by rw [hsecond, hfirst, List.append_assoc], fun address result named => ?_⟩
  rcases List.mem_append.1 named with named | named
  · exact nobody address result named
  · exact nobody' address result named

theorem Waits.asksAbout {s s' : Session σ} (h : Waits s s') : AsksAbout s s' :=
  ⟨[], h.calls.trans (List.append_nil _).symm, nofun⟩

theorem note_asksAbout (s : Session σ) (deed : Deed) (call : deed.isCall = true)
    (other : ∀ address result, deed ≠ .rcpt address result) : AsksAbout s (s.note deed) :=
  ⟨[deed], note_calls s call, fun address result named =>
    other address result (List.mem_singleton.1 named).symm⟩

theorem note_heard_asksAbout {α : Type} (s : Session σ) (deed : Deed) (call : deed.isCall = true)
    (other : ∀ address result, deed ≠ .rcpt address result) (a : Answer σ α) :
    AsksAbout s ((s.note deed).heard a) :=
  (note_asksAbout s deed call other).trans
    ((waitUntil_waits (s.note deed) ((s.note deed).now + a.took)).downstream a.next).asksAbout

theorem abandon_asksAbout (s : Session σ) : AsksAbout s (s.note .abandon) := note_asksAbout s .abandon rfl nofun

theorem reset_asksAbout (s : Session σ) : AsksAbout s s.reset.2 := note_heard_asksAbout s.clear (.reset _) rfl nofun _

theorem copyPieces_asksAbout (s : Session σ) (pieces : List Octets) : AsksAbout s (s.copyPieces pieces).2 := by
  induction pieces generalizing s with
  | nil => exact (Waits.refl s).asksAbout
  | cons piece rest ih =>
    have first := note_heard_asksAbout s (.write piece (s.forwarder.write s.now s.downstream piece).value) rfl nofun
      (s.forwarder.write s.now s.downstream piece)
    rw [copyPieces]
    split
    · exact first.trans (ih _)
    · exact first

/-- a body without a recipient changes nothing -/
theorem data_nobody {s : Session σ} (nobody : s.recipients.isEmpty = true) (body : BodyInput) :
    s.data body = (.error .noRecipients, [], s) :=
  if_pos nobody

/-- whatever becomes of a body, no recipient is named for it -/
theorem data_asksAbout {s : Session σ} (distinct : s.recipients.Distinct) (body : BodyInput) :
    AsksAbout s (s.data body).2.2 := by
  cases some_recipient : s.recipients.isEmpty with
  | true =>
    rw [data_nobody some_recipient]
    exact (Waits.refl s).asksAbout
  | false =>
    have heard : AsksAbout s s.dataHeard := note_heard_asksAbout s (.data _) rfl (fun _ _ named => by cases named) _
    have copied : AsksAbout s (s.bodyCopied body) := by
      rw [bodyCopied, copyBody_snd]
      exact heard.trans (copyPieces_asksAbout _ _)
    have ended : AsksAbout s ((s.bodyCopied body).note .finish) :=
      copied.trans (note_asksAbout _ .finish rfl fun _ _ named => by cases named)
    have fate := data_fate distinct some_recipient body
    generalize s.data body = transfer at fate ⊢
    cases fate with
    | refused _ => exact heard.trans (reset_asksAbout _)
    | lost _ _ => exact copied.trans (abandon_asksAbout (s.bodyCopied body))
    | failed _ _ _ _ waits => exact (ended.trans waits.asksAbout).trans (reset_asksAbout _)
    | collected _ _ _ waits after _ _ _ =>
      rw [after]
      split
      · exact ended.trans waits.asksAbout
      · exact (ended.trans waits.asksAbout).trans (abandon_asksAbout _)

/-! ## Recipients -/

def consulting (s : Session σ) (other : Resolver) : Session σ := { s with resolver := other }

theorem waitUntil_consulting (s : Session σ) (other : Resolver) (t : Instant) :
    (s.consulting other).waitUntil t = (s.waitUntil t).consulting other := by
  unfold waitUntil consulting
  dsimp only
  split <;> rfl

theorem accept_consulting (s : Session σ) (other : Resolver) (recipient resolved : String) :
    (s.consulting other).accept recipient resolved
      = ((s.accept recipient resolved).1, (s.accept recipient resolved).2.consulting other) := by
  have waited := waitUntil_consulting (s.note (.rcpt resolved (s.forwarder.rcpt s.now s.downstream resolved).value))
    other (s.now + (s.forwarder.rcpt s.now s.downstream resolved).took)
  have heard : (s.consulting other).rcptHeard resolved = (s.rcptHeard resolved).consulting other :=
    congrArg (fun waited : Session σ =>
      { waited with downstream := (s.forwarder.rcpt s.now s.downstream resolved).next }) waited
  have answer : (s.consulting other).forwarder.rcpt (s.consulting other).now (s.consulting other).downstream resolved
      = s.forwarder.rcpt s.now s.downstream resolved := rfl
  rw [accept_eq, accept_eq, heard, answer]
  cases (s.forwarder.rcpt s.now s.downstream resolved).value <;> rfl

/-- what becomes of a recipient depends on the resolver by its answer about the local part alone -/
theorem rcpt_consulting {s : Session σ} {recipient identifier : String}
    (named : HasLocalPart recipient identifier) {other : Resolver}
    (same : other.resolve s.asked identifier = s.resolver.resolve s.asked identifier) :
    (s.consulting other).rcpt recipient = ((s.rcpt recipient).1, (s.rcpt recipient).2.consulting other) := by
  have resolve : (s.consulting other).resolve identifier
      = ((s.resolve identifier).1, (s.resolve identifier).2.consulting other) := by
    have waited := waitUntil_consulting s other (s.now + (s.resolver.resolve s.asked identifier).took)
    unfold Session.resolve pass
    dsimp only [consulting] at waited ⊢
    rw [same, waited]
  unfold rcpt
  rw [localPart?_some.2 named]
  dsimp only
  rw [resolve]
  cases (s.resolve identifier).1 with
  | error cause => rfl
  | ok address =>
    dsimp only
    have same : ((s.resolve identifier).2.consulting other).recipients = (s.resolve identifier).2.recipients := rfl
    rw [same]
    split
    · rfl
    · exact accept_consulting _ other recipient address

/-- what the resolver says when it is next asked for an identifier -/
def answer (s : Session σ) (identifier : String) : Except ResolveError String :=
  (s.resolver.resolve s.asked identifier).value

/-- what can become of a recipient: the result, what the forwarder was asked, and the recipients afterwards -/
inductive Dealt (s : Session σ) (recipient : String) : Except SessionError Unit → List Deed → Recipients → Prop where
  | nameless (none_named : Nameless recipient) : Dealt s recipient (.error (.invalidAddress recipient)) [] s.recipients
  | unresolved {identifier : String} {cause : ResolveError} (named : HasLocalPart recipient identifier)
      (answer : s.answer identifier = .error cause) :
      Dealt s recipient (.error (.resolution identifier cause)) [] s.recipients
  | collision {identifier address : String} (named : HasLocalPart recipient identifier)
      (answer : s.answer identifier = .ok address) (used : address ∈ s.recipients.resolved) :
      Dealt s recipient (.error (.collision recipient address)) [] s.recipients
  | refused {identifier address : String} {e : ForwardError} (named : HasLocalPart recipient identifier)
      (answer : s.answer identifier = .ok address) (new : address ∉ s.recipients.resolved) :
      Dealt s recipient (.error (.forward e)) [.rcpt address (.error e)] s.recipients
  | accepted {identifier address : String} (named : HasLocalPart recipient identifier)
      (answer : s.answer identifier = .ok address) (new : address ∉ s.recipients.resolved) :
      Dealt s recipient (.ok ()) [.rcpt address (.ok ())] ⟨s.recipients.entries ++ [(address, recipient)]⟩

theorem rcpt_calls (s : Session σ) (recipient : String) : ∃ calls,
    (s.rcpt recipient).2.journal.calls = s.journal.calls ++ calls ∧
      Dealt s recipient (s.rcpt recipient).1 calls (s.rcpt recipient).2.recipients := by
  rcases rcpt_cases s recipient with ⟨none_named, hr⟩ | ⟨identifier, named, rest⟩
  · rw [hr]
    exact ⟨[], (List.append_nil _).symm, .nameless (localPart?_none.1 none_named)⟩
  · have named := localPart?_some.1 named
    have asked := resolve_waits s identifier
    rcases rest with ⟨cause, answer, hr⟩ | ⟨address, answer, ⟨used, hr⟩ | ⟨new, hr⟩⟩
    · rw [hr]
      exact ⟨[], asked.calls.trans (List.append_nil _).symm, asked.recipients.symm ▸ .unresolved named answer⟩
    · rw [hr]
      exact ⟨[], asked.calls.trans (List.append_nil _).symm,
        asked.recipients.symm ▸ .collision named answer (Recipients.contains_iff.1 used)⟩
    · have unused : address ∉ s.recipients.resolved := fun used => by
        rw [Recipients.contains_iff.2 used] at new
        cases new
      have calls : ((s.resolve identifier).2.rcptHeard address).journal.calls = s.journal.calls ++
          [.rcpt address ((s.resolve identifier).2.forwarder.rcpt (s.resolve identifier).2.now
            (s.resolve identifier).2.downstream address).value] := by
        rw [← asked.calls]
        exact note_heard_calls _ rfl _
      have same := ((resolve_steady s identifier).trans (rcptHeard_steady _ address)).recipients
      rw [← asked.recipients] at new
      rw [hr]
      rcases accept_cases new recipient with ⟨value, ha⟩ | ⟨e, value, ha⟩ <;> rw [value] at calls <;> rw [ha]
      · rw [asked.recipients]
        exact ⟨_, calls, .accepted named answer unused⟩
      · exact ⟨_, calls, same.symm ▸ .refused named answer unused⟩

theorem rcpt_dealt (s : Session σ) (recipient : String) :
    Dealt s recipient (s.rcpt recipient).1 (s.asks (.rcpt recipient)) (s.rcpt recipient).2.recipients := by
  obtain ⟨calls, journal, dealt⟩ := rcpt_calls s recipient
  rw [asks_eq (.rcpt recipient) journal]
  exact dealt

/-! ## One operation -/

theorem perform_calls {s : Session σ} (distinct : s.recipients.Distinct) (operation : Operation) :
    (s.perform operation).2.journal.calls = s.journal.calls ++ s.asks operation ∧
      ((∃ recipient, operation = .rcpt recipient) ∨ NamesNobody (s.asks operation)) := by
  have other : AsksAbout s (s.perform operation).2 →
      (s.perform operation).2.journal.calls = s.journal.calls ++ s.asks operation ∧
        ((∃ recipient, operation = .rcpt recipient) ∨ NamesNobody (s.asks operation)) := by
    rintro ⟨calls, journal, nobody⟩
    rw [asks_eq operation journal]
    exact ⟨journal, .inr nobody⟩
  cases operation with
  | mail sender params =>
    have heard : AsksAbout s (s.mailHeard sender params) := note_heard_asksAbout s (.mail _ _ _) rfl nofun _
    refine other (show AsksAbout s (s.mail sender params).2 from ?_)
    rcases mail_cases s sender params with ⟨-, hm⟩ | ⟨e, -, hm⟩ <;> rw [hm] <;> exact heard
  | rcpt recipient =>
    obtain ⟨calls, journal, -⟩ := rcpt_calls s recipient
    rw [asks_eq (.rcpt recipient) journal]
    exact ⟨journal, .inl ⟨recipient, rfl⟩⟩
  | data body => exact other (data_asksAbout distinct body)
  | reset => exact other (reset_asksAbout s)

/-- a recipient is named to the forwarder while it stands for no other -/
theorem perform_unused {s : Session σ} (distinct : s.recipients.Distinct) {operation : Operation} {address : String}
    {result : Except ForwardError Unit} (asked : .rcpt address result ∈ s.asks operation) :
    address ∉ s.recipients.resolved := by
  rcases (perform_calls distinct operation).2 with ⟨recipient, rfl⟩ | nobody
  · have dealt := rcpt_dealt s recipient
    generalize s.asks (.rcpt recipient) = calls at asked dealt
    generalize (s.rcpt recipient).1 = outcome at dealt
    generalize (s.rcpt recipient).2.recipients = after at dealt
    cases dealt with
    | nameless _ => cases asked
    | unresolved _ _ => cases asked
    | collision _ _ _ => cases asked
    | refused _ _ new =>
      obtain ⟨rfl, -⟩ := Deed.rcpt.inj (List.mem_singleton.1 asked)
      exact new
    | accepted _ _ new =>
      obtain ⟨rfl, -⟩ := Deed.rcpt.inj (List.mem_singleton.1 asked)
      exact new
  · exact absurd asked (nobody address result)

theorem perform_resolved {s : Session σ} (h : s.Resolved) (operation : Operation) :
    (s.perform operation).2.Resolved := by
  cases operation with
  | mail sender params => exact mail_resolved h sender params
  | rcpt recipient => exact rcpt_resolved h recipient
  | data body =>
    cases some_recipient : s.recipients.isEmpty with
    | true =>
      show (s.data body).2.2.Resolved
      rw [data_nobody some_recipient]
      exact h
    | false => exact data_resolved some_recipient body
  | reset => exact reset_resolved s

/-- **What an operation makes of the recipients** can be told from what it asked. -/
theorem perform_ledger (s : Session σ) (operation : Operation) :
    (s.perform operation).2.recipients.entries = tally s.recipients.entries (operation, s.asks operation) := by
  cases operation with
  | mail sender params => exact congrArg Recipients.entries (mail_recipients s sender params)
  | rcpt recipient =>
    have dealt := rcpt_dealt s recipient
    unfold perform tally
    dsimp only
    generalize (s.rcpt recipient).1 = outcome at dealt
    generalize (s.rcpt recipient).2.recipients = after at dealt ⊢
    generalize s.asks (.rcpt recipient) = calls at dealt ⊢
    cases dealt <;> simp [admitted]
  | data body =>
    cases none_left : s.recipients.isEmpty with
    | true =>
      show (s.data body).2.2.recipients.entries = []
      rw [data_nobody none_left]
      exact List.isEmpty_iff.1 none_left
    | false => exact congrArg Recipients.entries (data_cleared none_left body).2
  | reset => exact congrArg Recipients.entries s.reset_cleared.2

/-- a recipient that is rejected leaves the transaction as it was, and was passed on only if the forwarder failed -/
theorem rcpt_rejected {s : Session σ} {recipient : String} {error : SessionError}
    (rejected : (s.rcpt recipient).1 = .error error) :
    (s.rcpt recipient).2.sender = s.sender ∧ (s.rcpt recipient).2.recipients = s.recipients ∧
      (s.asks (.rcpt recipient) = [] ∨ ∃ e, error = .forward e) := by
  refine ⟨rcpt_sender s recipient, ?_⟩
  have dealt := rcpt_dealt s recipient
  rw [rejected] at dealt
  generalize (s.rcpt recipient).2.recipients = after at dealt ⊢
  generalize s.asks (.rcpt recipient) = calls at dealt ⊢
  cases dealt with
  | nameless _ => exact ⟨rfl, .inl rfl⟩
  | unresolved _ _ => exact ⟨rfl, .inl rfl⟩
  | collision _ _ _ => exact ⟨rfl, .inl rfl⟩
  | refused _ _ _ => exact ⟨rfl, .inr ⟨_, rfl⟩⟩

/-- nobody is asked about a recipient without a local part -/
theorem rcpt_nameless {s : Session σ} {recipient : String} (h : Nameless recipient) :
    s.rcpt recipient = (.error (.invalidAddress recipient), s) := by
  unfold rcpt
  rw [localPart?_none.2 h]

theorem rcpt_asked {s : Session σ} {recipient identifier : String} (h : HasLocalPart recipient identifier) :
    (s.rcpt recipient).2.asked = s.asked + 1 := by
  have accept : ∀ (s : Session σ) (address : String), (s.accept recipient address).2.asked = s.asked := by
    intro s address
    have heard : (s.rcptHeard address).asked = s.asked := by
      unfold rcptHeard heard pass waitUntil
      split <;> rfl
    unfold Session.accept
    dsimp only
    split
    · exact heard
    · exact heard
  unfold rcpt
  rw [localPart?_some.2 h]
  dsimp only
  split
  · rfl
  · split
    · rfl
    · exact accept _ _

/-! ## Histories -/

/-- **The recipients after a history** are those that its ledger has. -/
theorem performAll_ledger {s : Session σ} (h : s.Resolved) (operations : List Operation) :
    (s.performAll operations).Resolved ∧
      (s.performAll operations).recipients.entries = (s.history operations).foldl tally s.recipients.entries := by
  induction operations generalizing s with
  | nil => exact ⟨h, rfl⟩
  | cons operation rest ih =>
    have step := perform_ledger s operation
    obtain ⟨resolved, entries⟩ := ih (perform_resolved h operation)
    rw [step] at entries
    exact ⟨resolved, entries⟩

/-- **The recipients of a session, whatever is done to it.** After any operations in any order, over any resolver and
forwarder, its forwarding addresses are distinct and its recipients are those of the ledger. Whatever comes next, only
a recipient makes it name an address to the forwarder, and one that is not in use. A recipient without a local part is
nobody's business; about any other the resolver is asked once, and asked for the local part. One that is rejected
leaves the transaction as it was, and was passed on only if it is the forwarder that failed. -/
theorem recipients_ledger (id : Nat) (resolver : Resolver) (forwarder : Forwarder σ) (downstream : σ)
    (statusWait : Nat) (now : Instant) (operations : List Operation) :
    let began := Session.start id resolver forwarder downstream statusWait now
    let s := began.performAll operations
    s.recipients.Distinct ∧ s.recipients.entries = ledger (began.history operations) ∧
      (∀ operation, (s.perform operation).2.journal.calls = s.journal.calls ++ s.asks operation ∧
        ∀ address result, .rcpt address result ∈ s.asks operation →
          (∃ recipient, operation = .rcpt recipient) ∧ address ∉ s.recipients.resolved) ∧
      ∀ recipient,
        (Nameless recipient → s.rcpt recipient = (.error (.invalidAddress recipient), s)) ∧
        (∀ identifier, HasLocalPart recipient identifier → (s.rcpt recipient).2.asked = s.asked + 1 ∧
          ∀ other : Resolver, other.resolve s.asked identifier = s.resolver.resolve s.asked identifier →
            (s.consulting other).rcpt recipient = ((s.rcpt recipient).1, (s.rcpt recipient).2.consulting other)) ∧
        (∀ error, (s.rcpt recipient).1 = .error error →
          (s.rcpt recipient).2.sender = s.sender ∧ (s.rcpt recipient).2.recipients = s.recipients ∧
            (s.asks (.rcpt recipient) = [] ∨ ∃ e, error = .forward e)) ∧
        Dealt s recipient (s.rcpt recipient).1 (s.asks (.rcpt recipient)) (s.rcpt recipient).2.recipients := by
  intro began s
  have start : began.Resolved := .of_empty rfl
  obtain ⟨resolved, entries⟩ := performAll_ledger start operations
  refine ⟨resolved.distinct, entries, fun operation => ?_, fun recipient => ⟨rcpt_nameless,
    fun identifier named => ⟨rcpt_asked named, fun other same => rcpt_consulting named same⟩,
    fun error rejected => rcpt_rejected rejected, rcpt_dealt s recipient⟩⟩
  obtain ⟨calls, whose⟩ := perform_calls resolved.distinct operation
  refine ⟨calls, fun address result asked => ⟨?_, perform_unused resolved.distinct asked⟩⟩
  rcases whose with recipient | nobody
  · exact recipient
  · exact absurd asked (nobody address result)

/-- two recipients share an address, one has no local part, and one comes before there is a sender -/
example : ((Session.start 1 (.ofTable [("p", "p@f"), ("a@b", "q@f"), ("q", "p@f")]) Rehearsal.forwarder
    Rehearsal.Script.plain 100 0).performAll
      [.rcpt "p@h", .mail "a@x" .empty, .rcpt "q@h", .rcpt "@h", .rcpt "a@b@h"]).recipients.entries
    = [("p@f", "p@h"), ("q@f", "a@b@h")] := by cbv

end Session
end LmtpRelay
