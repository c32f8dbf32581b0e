/-
The order of a dialogue over any history of events, not only over those that come of a peer's commands. What the stage
says and what the envelope holds can be told from the history alone: a transaction is open exactly where a sender came
when the dialogue was at rest, and nothing but senders and recipients has come since (`Opened`).

- `apply_orderly`: the envelope holds what the stage says, whatever happens.
- `apply_ignored`: a sender or a recipient that may not come now changes nothing.
- `apply_follows`: what one event makes of the dialogue can be told from the history with that event.
- `sequence_of_history`: stage and envelope after any history.
-/
import Mathlib
import LmtpRelay.Dialogue.Stage

namespace LmtpRelay

/-! ## One event -/

namespace Dialogue

/-- the envelope holds what the stage says -/
def Orderly (d : Dialogue) : Prop :=
  match d.stage with
  | .connected => d.envelope = .empty
  | .ready => d.envelope.client.isSome ∧ d.envelope.sender = none ∧ d.envelope.recipients = []
  | .sender => d.envelope.client.isSome ∧ d.envelope.sender.isSome ∧ d.envelope.recipients = []
  | .recipients => d.envelope.client.isSome ∧ d.envelope.sender.isSome ∧ d.envelope.recipients ≠ []
  | .closed => True

theorem initial_orderly : initial.Orderly := rfl

/-- whatever is accepted, the envelope still holds what the stage says -/
theorem apply_orderly {d : Dialogue} (h : d.Orderly) (event : Event) : (d.apply event).Orderly := by
  obtain ⟨stage, client, sender, recipients⟩ := d
  cases stage <;> cases event <;> simp_all [Orderly, apply, Envelope.empty, Envelope.clear, idle]

theorem apply_closed {d : Dialogue} (event : Event) :
    (d.apply event).stage = .closed → d.stage = .closed ∨ event = .quit := by
  obtain ⟨stage, client, sender, recipients⟩ := d
  cases stage <;> cases event <;> cases client <;> simp [apply, idle]

theorem apply_lhlo {d : Dialogue} (h : d.stage ≠ .closed) (client : String) :
    (d.apply (.lhlo client)).envelope = { d.envelope.clear with client := some client } := by
  obtain ⟨stage, envelope⟩ := d
  cases stage with
  | closed => exact absurd rfl h
  | _ => rfl

theorem apply_mail {d : Dialogue} (h : d.stage = .ready) (sender : String) :
    d.apply (.mail sender) = ⟨.sender, { d.envelope with sender := some sender }⟩ := by
  obtain ⟨stage, envelope⟩ := d
  obtain rfl : stage = .ready := h
  rfl

theorem apply_rcpt {d : Dialogue} (h : d.stage = .sender ∨ d.stage = .recipients) (recipient : String) :
    d.apply (.rcpt recipient)
      = ⟨.recipients, { d.envelope with recipients := d.envelope.recipients ++ [recipient] }⟩ := by
  obtain ⟨stage, envelope⟩ := d
  obtain rfl | rfl : stage = .sender ∨ stage = .recipients := h
  · rfl
  · rfl

theorem apply_quit (d : Dialogue) : (d.apply .quit).envelope = d.envelope := by
  obtain ⟨stage, envelope⟩ := d
  cases stage <;> rfl

/-- the peer has given its name exactly where the stage says so -/
theorem Orderly.client_iff {d : Dialogue} (h : d.Orderly) (on : d.stage ≠ .closed) :
    d.envelope.client = none ↔ d.stage = .connected := by
  unfold Orderly at h
  cases stage : d.stage <;> rw [stage] at h on
  case connected => simp [h, Envelope.empty]
  case closed => exact absurd rfl on
  all_goals simp [Option.isSome_iff_ne_none.1 h.1]

/-- there is a sender exactly while a transaction is open -/
theorem Orderly.sender_iff {d : Dialogue} (h : d.Orderly) (on : d.stage ≠ .closed) :
    d.envelope.sender.isSome = true ↔ d.stage.inTransaction = true := by
  unfold Orderly at h
  cases stage : d.stage <;> rw [stage] at h on
  case closed => exact absurd rfl on
  all_goals simp [h, Envelope.empty, Stage.inTransaction]

theorem Orderly.recipients_iff {d : Dialogue} (h : d.Orderly) (on : d.stage ≠ .closed) :
    d.envelope.recipients ≠ [] ↔ d.stage = .recipients := by
  unfold Orderly at h
  cases stage : d.stage <;> rw [stage] at h on
  case closed => exact absurd rfl on
  all_goals simp [h, Envelope.empty]

/-- giving a transaction up forgets it, as does a body that was dealt with -/
theorem apply_clear {d : Dialogue} (h : d.stage ≠ .closed) {event : Event}
    (ended : event = .reset ∨ event = .dataComplete) : d.apply event = ⟨idle d.envelope, d.envelope.clear⟩ := by
  obtain ⟨stage, envelope⟩ := d
  cases stage with
  | closed => exact absurd rfl h
  | _ => rcases ended with rfl | rfl <;> rfl

/-- **A sender or a recipient that may not come now changes nothing.** -/
theorem apply_ignored (d : Dialogue) :
    (d.stage.allows .mail = false → ∀ sender, d.apply (.mail sender) = d) ∧
      (d.stage.allows .rcpt = false → ∀ recipient, d.apply (.rcpt recipient) = d) := by
  obtain ⟨stage, envelope⟩ := d
  constructor
  · intro refused sender
    cases stage with
    | ready => cases refused
    | _ => rfl
  · intro refused recipient
    cases stage with
    | sender => cases refused
    | recipients => cases refused
    | _ => rfl

/-- nothing happens in a dialogue that is over -/
theorem apply_ended {d : Dialogue} (ended : d.stage = .closed) (event : Event) : d.apply event = d := by
  obtain ⟨stage, envelope⟩ := d
  obtain rfl : stage = .closed := ended
  rfl

/-! ## Histories -/

/-- the dialogue after events, in their order -/
def follow (d : Dialogue) (events : List Event) : Dialogue := events.foldl apply d

theorem follow_append (d : Dialogue) (events more : List Event) :
    d.follow (events ++ more) = (d.follow events).follow more := List.foldl_append

theorem follow_orderly {d : Dialogue} (h : d.Orderly) (events : List Event) : (d.follow events).Orderly := by
  induction events generalizing d with
  | nil => exact h
  | cons event rest ih => exact ih (apply_orderly h event)

theorem follow_ended {d : Dialogue} (ended : d.stage = .closed) (events : List Event) : d.follow events = d := by
  induction events with
  | nil => rfl
  | cons event rest ih =>
    show (d.apply event).follow rest = d
    rw [apply_ended ended, ih]

end Dialogue

namespace Event

/-- whether an event leaves an open transaction open -/
def continues : Event → Bool
  | .mail _ | .rcpt _ => true
  | _ => false

def recipient? : Event → Option String
  | .rcpt recipient => some recipient
  | _ => none

end Event

/-- a history after which a sender opens a transaction: the peer has given its name and has not taken its leave, and no
sender has come since some event that leaves no transaction open -/
structure AtRest (events : List Event) : Prop where
  named : ∃ client, Event.lhlo client ∈ events
  stays : Event.quit ∉ events
  ended : ∃ earlier last later, events = earlier ++ last :: later ∧ last.continues = false ∧
    ∀ sender, Event.mail sender ∉ later

/-- a history that leaves a transaction open: the sender that opened it, and what has come since -/
structure Opened (events : List Event) (sender : String) (since : List Event) : Prop where
  opens : ∃ before, AtRest before ∧ events = before ++ .mail sender :: since
  continues : ∀ event ∈ since, event.continues = true

section histories

variable {events : List Event} {sender : String} {since : List Event}

/-- an event that leaves no transaction open brings the dialogue to rest, once the peer has given its name -/
theorem AtRest.of_ended {event : Event} (named : ∃ client, Event.lhlo client ∈ events ++ [event])
    (stays : Event.quit ∉ events) (ends : event.continues = false) (other : event ≠ .quit) :
    AtRest (events ++ [event]) :=
  ⟨named, by simp [stays, other.symm], events, event, [], rfl, ends, fun _ => List.not_mem_nil⟩

/-- a recipient that comes when the dialogue is at rest leaves it so -/
theorem AtRest.rcpt (h : AtRest events) (recipient : String) : AtRest (events ++ [.rcpt recipient]) := by
  obtain ⟨client, named⟩ := h.named
  obtain ⟨earlier, last, later, rfl, ends, no_sender⟩ := h.ended
  refine ⟨⟨client, List.mem_append_left _ named⟩, by simpa using h.stays, earlier, last, later ++ [.rcpt recipient],
    by simp, ends, fun sender there => ?_⟩
  rcases List.mem_append.1 there with there | there
  · exact no_sender sender there
  · cases List.mem_singleton.1 there

theorem AtRest.opened (h : AtRest events) (sender : String) : Opened (events ++ [.mail sender]) sender [] :=
  ⟨⟨events, h, rfl⟩, fun _ none_there => absurd none_there List.not_mem_nil⟩

theorem Opened.more (h : Opened events sender since) {event : Event} (continues : event.continues = true) :
    Opened (events ++ [event]) sender (since ++ [event]) := by
  obtain ⟨⟨before, rest, rfl⟩, within⟩ := h
  refine ⟨⟨before, rest, by simp⟩, fun e there => ?_⟩
  rcases List.mem_append.1 there with there | there
  · exact within e there
  · rwa [List.mem_singleton.1 there]

theorem Opened.named (h : Opened events sender since) : ∃ client, Event.lhlo client ∈ events := by
  obtain ⟨⟨before, rest, rfl⟩, -⟩ := h
  obtain ⟨client, named⟩ := rest.named
  exact ⟨client, List.mem_append_left _ named⟩

theorem Opened.stays (h : Opened events sender since) : Event.quit ∉ events := by
  obtain ⟨⟨before, rest, rfl⟩, within⟩ := h
  intro there
  rcases List.mem_append.1 there with there | there
  · exact rest.stays there
  · rcases List.mem_cons.1 there with same | there
    · cases same
    · cases within _ there

/-- no history both leaves a transaction open and is at rest -/
theorem Opened.not_atRest (h : Opened events sender since) : ¬AtRest events := by
  intro rest
  obtain ⟨⟨before, -, same⟩, within⟩ := h
  obtain ⟨earlier, last, later, same', ends, no_sender⟩ := rest.ended
  rw [same] at same'
  -- the last event that ends a transaction stands before the sender or among what has come since
  rcases List.append_eq_append_iff.1 same' with ⟨more, -, tail⟩ | ⟨more, -, tail⟩
  · cases more with
    | nil =>
      obtain ⟨rfl, -⟩ := List.cons.inj tail
      cases ends
    | cons first more =>
      obtain ⟨-, rfl⟩ := List.cons.inj tail
      rw [within last (by simp)] at ends
      cases ends
  · cases more with
    | nil =>
      obtain ⟨rfl, -⟩ := List.cons.inj tail
      cases ends
    | cons first more =>
      obtain ⟨-, rfl⟩ := List.cons.inj tail
      exact no_sender sender (by simp)

end histories

/-! ## What the history tells -/

namespace Dialogue

/-- the stage of a dialogue, and the transaction in its envelope, are those that a history tells -/
def Follows (events : List Event) (d : Dialogue) : Prop :=
  match d.stage with
  | .connected => (∀ client, Event.lhlo client ∉ events) ∧ Event.quit ∉ events
  | .ready => AtRest events
  | .sender | .recipients => ∃ sender since, Opened events sender since ∧ d.envelope.sender = some sender ∧
      d.envelope.recipients = since.filterMap Event.recipient?
  | .closed => Event.quit ∈ events

variable {events : List Event} {d : Dialogue}

theorem Follows.closed_iff (h : Follows events d) : d.stage = .closed ↔ Event.quit ∈ events := by
  unfold Follows at h
  cases stage : d.stage <;> rw [stage] at h
  case connected => exact ⟨nofun, fun quit => absurd quit h.2⟩
  case ready => exact ⟨nofun, fun quit => absurd quit h.stays⟩
  case closed => exact ⟨fun _ => h, fun _ => rfl⟩
  all_goals
    obtain ⟨_, _, opened, -⟩ := h
    exact ⟨nofun, fun quit => absurd quit opened.stays⟩

theorem Follows.named_iff (h : Follows events d) (on : d.stage ≠ .closed) :
    d.stage ≠ .connected ↔ ∃ client, Event.lhlo client ∈ events := by
  unfold Follows at h
  cases stage : d.stage <;> rw [stage] at h on
  case connected => exact ⟨fun other => absurd rfl other, fun ⟨client, named⟩ => absurd named (h.1 client)⟩
  case ready => exact ⟨fun _ => h.named, fun _ => nofun⟩
  case closed => exact absurd rfl on
  all_goals
    obtain ⟨_, _, opened, -⟩ := h
    exact ⟨fun _ => opened.named, fun _ => nofun⟩

/-- after an event that leaves no transaction open, QUIT apart, the dialogue is as it was before any sender came -/
theorem follows_ended (h : Follows events d) (orderly : d.Orderly) (on : d.stage ≠ .closed) {event : Event}
    (ends : event.continues = false) (other : event ≠ .quit) : Follows (events ++ [event]) (d.apply event) := by
  have stays : Event.quit ∉ events := fun quit => on (h.closed_iff.2 quit)
  have cleared : event = .reset ∨ event = .dataComplete → Follows (events ++ [event]) (d.apply event) := by
    intro kind
    have unnamed : ∀ client, event ≠ .lhlo client := by rcases kind with rfl | rfl <;> exact fun _ => nofun
    rw [apply_clear on kind, idle]
    by_cases connected : d.stage = .connected
    · have nobody : ¬∃ client, Event.lhlo client ∈ events := fun named => (h.named_iff on).2 named connected
      rw [if_neg (by simp [(orderly.client_iff on).2 connected])]
      exact ⟨fun client there => (List.mem_append.1 there).elim (fun there => nobody ⟨client, there⟩)
        (fun there => unnamed client (List.mem_singleton.1 there).symm), by simp [stays, other.symm]⟩
    · obtain ⟨client, named⟩ := (h.named_iff on).1 connected
      have known : d.envelope.client ≠ none := mt (orderly.client_iff on).1 connected
      rw [if_pos (Option.isSome_iff_ne_none.2 known)]
      exact .of_ended ⟨client, List.mem_append_left _ named⟩ stays ends other
  cases event with
  | mail sender => cases ends
  | rcpt recipient => cases ends
  | quit => exact absurd rfl other
  | reset => exact cleared (.inl rfl)
  | dataComplete => exact cleared (.inr rfl)
  | lhlo client =>
    have rest : AtRest (events ++ [.lhlo client]) := .of_ended ⟨client, by simp⟩ stays ends other
    obtain ⟨stage, envelope⟩ := d
    cases stage with
    | closed => exact absurd rfl on
    | _ => exact rest

theorem follows_mail (h : Follows events d) (orderly : d.Orderly) (on : d.stage ≠ .closed) (sender : String) :
    Follows (events ++ [.mail sender]) (d.apply (.mail sender)) := by
  obtain ⟨stage, envelope⟩ := d
  cases stage with
  | connected => exact ⟨fun client => by simpa using h.1 client, by simpa using h.2⟩
  | ready => exact ⟨sender, [], h.opened sender, rfl, orderly.2.2⟩
  | closed => exact absurd rfl on
  | _ =>
    obtain ⟨first, since, opened, same, named⟩ := h
    exact ⟨first, since ++ [.mail sender], opened.more rfl, same, named.trans (by simp [Event.recipient?])⟩

theorem follows_rcpt (h : Follows events d) (on : d.stage ≠ .closed) (recipient : String) :
    Follows (events ++ [.rcpt recipient]) (d.apply (.rcpt recipient)) := by
  obtain ⟨stage, envelope⟩ := d
  cases stage with
  | connected => exact ⟨fun client => by simpa using h.1 client, by simpa using h.2⟩
  | ready => exact h.rcpt recipient
  | closed => exact absurd rfl on
  | _ =>
    obtain ⟨sender, since, opened, same, named⟩ := h
    exact ⟨sender, since ++ [.rcpt recipient], opened.more rfl, same,
      (congrArg (· ++ [recipient]) named).trans (by simp [Event.recipient?])⟩

/-- **What one event makes of a dialogue can be told from the history with that event.** -/
theorem apply_follows (h : Follows events d) (orderly : d.Orderly) (event : Event) :
    Follows (events ++ [event]) (d.apply event) := by
  by_cases on : d.stage = .closed
  · rw [apply_ended on, Follows, on]
    exact List.mem_append_left _ (h.closed_iff.1 on)
  · cases event with
    | mail sender => exact follows_mail h orderly on sender
    | rcpt recipient => exact follows_rcpt h on recipient
    | quit =>
      obtain ⟨stage, envelope⟩ := d
      cases stage <;> exact List.mem_append_right _ (List.mem_singleton.2 rfl)
    | _ => exact follows_ended h orderly on rfl nofun

theorem follow_follows (events : List Event) : Follows events (initial.follow events) := by
  induction events using List.reverseRecOn with
  | nil => exact ⟨fun _ => List.not_mem_nil, List.not_mem_nil⟩
  | append_singleton events event ih =>
    rw [follow_append]
    exact apply_follows ih (follow_orderly initial_orderly events) event

/-! ## Transactions -/

/-- senders and recipients that come while a transaction is open leave it open, and the recipients are added to it -/
theorem follow_continues (inside : d.stage.inTransaction = true) {since : List Event}
    (continues : ∀ event ∈ since, event.continues = true) :
    (d.follow since).stage.inTransaction = true ∧ (d.follow since).envelope.sender = d.envelope.sender ∧
      (d.follow since).envelope.recipients = d.envelope.recipients ++ since.filterMap Event.recipient? := by
  induction since generalizing d with
  | nil => exact ⟨inside, rfl, (List.append_nil _).symm⟩
  | cons event rest ih =>
    have here : d.stage = .sender ∨ d.stage = .recipients := by simpa [Stage.inTransaction] using inside
    have later : ∀ e ∈ rest, e.continues = true := fun e there => continues e (List.mem_cons_of_mem _ there)
    cases event with
    | mail sender =>
      have same : d.apply (.mail sender) = d :=
        (apply_ignored d).1 (by rcases here with stage | stage <;> rw [stage] <;> rfl) sender
      have first : d.follow (.mail sender :: rest) = d.follow rest := congrArg (follow · rest) same
      rw [first]
      exact ih inside later
    | rcpt recipient =>
      have first := congrArg (follow · rest) (apply_rcpt here recipient)
      obtain ⟨stays, sender, recipients⟩ := @ih ⟨.recipients, _⟩ rfl later
      rw [show d.follow (.rcpt recipient :: rest) = _ from first]
      exact ⟨stays, sender, recipients.trans (List.append_assoc ..)⟩
    | _ => cases continues _ List.mem_cons_self

theorem follow_atRest (h : AtRest events) : (initial.follow events).stage = .ready := by
  have follows := follow_follows events
  obtain ⟨client, named⟩ := h.named
  unfold Follows at follows
  generalize (initial.follow events).stage = stage at follows ⊢
  cases stage with
  | ready => rfl
  | connected => exact absurd named (follows.1 client)
  | closed => exact absurd follows h.stays
  | _ =>
    obtain ⟨_, _, opened, -⟩ := follows
    exact absurd h opened.not_atRest

/-- **A history that leaves a transaction open tells what it is.** -/
theorem follow_opened {sender : String} {since : List Event} (h : Opened events sender since) :
    (initial.follow events).stage.inTransaction = true ∧ (initial.follow events).envelope.sender = some sender ∧
      (initial.follow events).envelope.recipients = since.filterMap Event.recipient? := by
  obtain ⟨⟨before, rest, rfl⟩, continues⟩ := h
  have ready := follow_atRest rest
  have orderly := follow_orderly initial_orderly before
  rw [Orderly, ready] at orderly
  have opens : initial.follow (before ++ .mail sender :: since)
      = follow ⟨.sender, { (initial.follow before).envelope with sender := some sender }⟩ since := by
    rw [follow_append, follow, List.foldl_cons, apply_mail ready]
    rfl
  obtain ⟨inside, named, recipients⟩ := @follow_continues ⟨.sender, _⟩ rfl _ continues
  rw [opens]
  refine ⟨inside, named, recipients.trans ?_⟩
  rw [orderly.2.2]
  rfl

/-- **The order of a dialogue.** After any events, accepted in any order, the dialogue is over exactly if the peer has
taken its leave, and stays as it is then. Otherwise the peer is unknown exactly where it has yet to greet, there is a
sender exactly while a transaction is open and a recipient exactly where one has been accepted. A transaction is open
exactly where the history leaves one open: its sender is the one that opened it, and its recipients are those that have
come since, in their order. Wherever a sender or a recipient may not come, it changes nothing. -/
theorem sequence_of_history (events : List Event) :
    let d := initial.follow events
    (d.stage = .closed ↔ Event.quit ∈ events) ∧
    (d.stage = .closed → ∀ more, initial.follow (events ++ more) = d) ∧
    (d.stage ≠ .closed →
      (d.envelope.client = none ↔ d.stage = .connected) ∧
      (d.envelope.sender.isSome = true ↔ d.stage.inTransaction = true) ∧
      (d.envelope.recipients ≠ [] ↔ d.stage = .recipients)) ∧
    (d.stage.inTransaction = true ↔ ∃ sender since, Opened events sender since) ∧
    (∀ sender since, Opened events sender since →
      d.envelope.sender = some sender ∧ d.envelope.recipients = since.filterMap Event.recipient?) ∧
    ∀ other : Dialogue, (other.stage.allows .mail = false → ∀ sender, other.apply (.mail sender) = other) ∧
      (other.stage.allows .rcpt = false → ∀ recipient, other.apply (.rcpt recipient) = other) := by
  intro d
  have orderly : d.Orderly := follow_orderly initial_orderly events
  have follows : Follows events d := follow_follows events
  refine ⟨follows.closed_iff, fun ended more => ?_, fun on => ⟨orderly.client_iff on, orderly.sender_iff on,
    orderly.recipients_iff on⟩, ⟨fun inside => ?_, fun ⟨_, _, opened⟩ => (follow_opened opened).1⟩,
    fun _ _ opened => (follow_opened opened).2, apply_ignored⟩
  · rw [follow_append]
    exact follow_ended ended more
  · unfold Follows at follows
    cases stage : d.stage <;> rw [stage] at inside follows
    case sender => exact ⟨_, _, follows.choose_spec.choose_spec.1⟩
    case recipients => exact ⟨_, _, follows.choose_spec.choose_spec.1⟩
    all_goals cases inside

/-- a transaction that was given up, and one after it; a recipient and a sender come where they may not -/
theorem sequence_of_history_second :
    let since := [Event.rcpt "p@h", .mail "c@x", .rcpt "q@h"]
    let events := [.rcpt "o@h", .lhlo "peer", .mail "a@x", .reset, .rcpt "o@h", .mail "b@x"] ++ since
    Opened events "b@x" since ∧ (initial.follow events).stage.inTransaction = true ∧
      (initial.follow events).envelope.sender = some "b@x" ∧
      (initial.follow events).envelope.recipients = ["p@h", "q@h"] := by
  intro since events
  have opened : Opened events "b@x" since :=
    ⟨⟨[.rcpt "o@h", .lhlo "peer", .mail "a@x", .reset, .rcpt "o@h"], ⟨⟨"peer", by decide⟩, by decide,
      [.rcpt "o@h", .lhlo "peer", .mail "a@x"], .reset, [.rcpt "o@h"], rfl, rfl, by simp⟩, rfl⟩, by decide⟩
  obtain ⟨-, -, -, inside, told, -⟩ := sequence_of_history events
  exact ⟨opened, inside.2 ⟨_, _, opened⟩, told _ _ opened⟩

end Dialogue
end LmtpRelay
