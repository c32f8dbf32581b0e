/-
What the bookkeeping of a session leaves alone. Entries in the journal and the passing of time touch neither the
transaction nor the forwarder; only `heard` replaces the forwarder's state. Nothing that a session does by itself says
anything to the peer, so `said` of its journal changes only where the engine speaks.

A session is quiet when nobody has a report left to make on a transaction that is over. A quiet session waits without
any effect but the time: `waitUntil_quiet`, `heard_quiet`. `Steady` collects what an entry, a wait and an answer of
the forwarder leave alone, so that it is carried through a whole operation at once; `Aside` says that no command was
asked of the forwarder either. `Waits` says the same of any session, quiet or not, that only lets time pass and reports
be made.
-/
import Mathlib
import LmtpRelay.Session.Data

namespace LmtpRelay

/-! ## Journals -/

/-- whether a command is asked of the forwarder -/
def Deed.isCommand : Deed → Bool
  | .mail _ _ _ | .rcpt _ _ | .data _ | .reset _ => true
  | _ => false

namespace Journal

def asked (j : Journal) : List Deed := (j.map Entry.deed).filter Deed.isCommand

@[simp] theorem said_append (a b : Journal) : said (a ++ b) = said a ++ said b := List.filterMap_append

@[simp] theorem asked_append (a b : Journal) : asked (a ++ b) = asked a ++ asked b := by
  rw [asked, List.map_append, List.filter_append]
  rfl

def queued (j : Journal) : List StatusEvent :=
  j.filterMap fun entry => match entry.deed with
    | .report event true => some event
    | _ => none

@[simp] theorem queued_append (a b : Journal) : queued (a ++ b) = queued a ++ queued b := List.filterMap_append

def OnlyReports (j : Journal) : Prop := ∀ entry ∈ j, ∃ event queued, entry.deed = .report event queued

theorem onlyReports_map (time : Instant) (events : List StatusEvent) (queued : Bool) :
    OnlyReports (events.map (⟨time, .report · queued⟩)) := by
  intro entry h
  obtain ⟨event, -, rfl⟩ := List.mem_map.1 h
  exact ⟨event, queued, rfl⟩

theorem OnlyReports.append {a b : Journal} (ha : OnlyReports a) (hb : OnlyReports b) : OnlyReports (a ++ b) := by
  intro entry h
  rcases List.mem_append.1 h with h | h
  · exact ha entry h
  · exact hb entry h

theorem OnlyReports.said {j : Journal} (h : OnlyReports j) : said j = [] := by
  rw [Journal.said, List.filterMap_eq_nil_iff]
  intro entry hentry
  obtain ⟨event, queued, same⟩ := h entry hentry
  rw [same]

theorem OnlyReports.asked {j : Journal} (h : OnlyReports j) : asked j = [] := by
  rw [Journal.asked, List.filter_eq_nil_iff]
  intro deed hdeed
  obtain ⟨entry, hentry, rfl⟩ := List.mem_map.1 hdeed
  obtain ⟨event, queued, same⟩ := h entry hentry
  rw [same]
  exact Bool.false_ne_true

end Journal

namespace Session

variable {σ : Type}

/-! ## The journal -/

theorem journal_enter (s : Session σ) (entries : List Entry) : (s.enter entries).journal = s.journal ++ entries := by
  simp [journal, enter, List.reverseAux_eq]

theorem journal_note (s : Session σ) (deed : Deed) : (s.note deed).journal = s.journal ++ [⟨s.now, deed⟩] :=
  journal_enter s _

/-- while a session waits there are only reports -/
theorem journal_waitUntil (s : Session σ) (t : Instant) :
    ∃ reports, Journal.OnlyReports reports ∧ (s.waitUntil t).journal = s.journal ++ reports := by
  unfold waitUntil
  split
  · refine ⟨_, fun entry h => ?_, journal_enter s _⟩
    obtain ⟨burst, -, h⟩ := List.mem_flatMap.1 h
    exact Journal.onlyReports_map burst.time burst.events false entry h
  · exact ⟨[], nofun, (List.append_nil _).symm⟩

/-! ## Waiting -/

@[simp] theorem waitUntil_forwarder (s : Session σ) (t : Instant) : (s.waitUntil t).forwarder = s.forwarder := by
  unfold waitUntil; split <;> rfl

@[simp] theorem waitUntil_resolver (s : Session σ) (t : Instant) : (s.waitUntil t).resolver = s.resolver := by
  unfold waitUntil; split <;> rfl

@[simp] theorem waitUntil_statusWait (s : Session σ) (t : Instant) : (s.waitUntil t).statusWait = s.statusWait := by
  unfold waitUntil; split <;> rfl

@[simp] theorem waitUntil_downstream (s : Session σ) (t : Instant) : (s.waitUntil t).downstream = s.downstream := by
  unfold waitUntil; split <;> rfl

@[simp] theorem waitUntil_sender (s : Session σ) (t : Instant) : (s.waitUntil t).sender = s.sender := by
  unfold waitUntil; split <;> rfl

@[simp] theorem waitUntil_recipients (s : Session σ) (t : Instant) : (s.waitUntil t).recipients = s.recipients := by
  unfold waitUntil; split <;> rfl

/-! ## Quiet sessions -/

/-- nobody has a report left to make on a transaction that is over -/
def Quiet (s : Session σ) : Prop := s.pending = []

theorem waitUntil_quiet {s : Session σ} (h : s.Quiet) (t : Instant) :
    s.waitUntil t = { s with now := max s.now t } := by
  unfold waitUntil
  split
  · next hlt =>
    rw [Nat.max_eq_right (Nat.le_of_lt hlt)]
    unfold letReport
    rw [show s.pending = [] from h]
    cases s
    simp_all [Quiet, enter]
  · next hle => rw [Nat.max_eq_left (Nat.le_of_not_lt hle)]

theorem heard_quiet {α : Type} {s : Session σ} (h : s.Quiet) (a : Answer σ α) :
    s.heard a = { s with now := s.now + a.took, downstream := a.next } := by
  unfold heard pass
  rw [waitUntil_quiet h, Nat.max_eq_right (Nat.le_add_right _ _)]

theorem note_heard_quiet {α : Type} {s : Session σ} (q : s.Quiet) (deed : Deed) (a : Answer σ α) :
    (s.note deed).heard a
      = { s with log := ⟨s.now, deed⟩ :: s.log, now := s.now + a.took, downstream := a.next } :=
  heard_quiet (s := s.note deed) q a

/-! ## Steady sessions -/

/-- a session stays as it is, apart from its clock, its journal and the forwarder's state, and says nothing -/
structure Steady (s s' : Session σ) : Prop where
  forwarder : s'.forwarder = s.forwarder
  resolver : s'.resolver = s.resolver
  sender : s'.sender = s.sender
  recipients : s'.recipients = s.recipients
  statusWait : s'.statusWait = s.statusWait
  quiet : s.Quiet → s'.Quiet
  said : s'.journal.said = s.journal.said

theorem Steady.refl (s : Session σ) : Steady s s := ⟨rfl, rfl, rfl, rfl, rfl, fun q => q, rfl⟩

theorem Steady.trans {a b c : Session σ} (h : Steady a b) (h' : Steady b c) : Steady a c :=
  ⟨h'.forwarder.trans h.forwarder, h'.resolver.trans h.resolver, h'.sender.trans h.sender,
    h'.recipients.trans h.recipients, h'.statusWait.trans h.statusWait, h'.quiet ∘ h.quiet, h'.said.trans h.said⟩

theorem enter_steady (s : Session σ) {entries : List Entry} (silent : Journal.said entries = []) :
    Steady s (s.enter entries) := by
  refine ⟨rfl, rfl, rfl, rfl, rfl, fun q => q, ?_⟩
  rw [journal_enter, Journal.said_append, silent, List.append_nil]

theorem note_steady (s : Session σ) (deed : Deed) (silent : Journal.said [⟨s.now, deed⟩] = []) :
    Steady s (s.note deed) :=
  enter_steady s silent

theorem waitUntil_steady (s : Session σ) (t : Instant) : Steady s (s.waitUntil t) := by
  obtain ⟨reports, only, journal⟩ := journal_waitUntil s t
  refine ⟨waitUntil_forwarder s t, waitUntil_resolver s t, waitUntil_sender s t, waitUntil_recipients s t,
    waitUntil_statusWait s t, fun q => ?_, ?_⟩
  · rw [waitUntil_quiet q]
    exact q
  · rw [journal, Journal.said_append, only.said, List.append_nil]

theorem Steady.downstream {s s' : Session σ} (h : Steady s s') (c : σ) : Steady s { s' with downstream := c } :=
  ⟨h.forwarder, h.resolver, h.sender, h.recipients, h.statusWait, h.quiet, h.said⟩

theorem heard_steady {α : Type} (s : Session σ) (a : Answer σ α) : Steady s (s.heard a) :=
  (waitUntil_steady s (s.now + a.took)).downstream a.next

theorem note_heard_steady {α : Type} (s : Session σ) (deed : Deed) (silent : Journal.said [⟨s.now, deed⟩] = [])
    (a : Answer σ α) : Steady s ((s.note deed).heard a) :=
  (note_steady s deed silent).trans (heard_steady _ a)

theorem resolve_steady (s : Session σ) (identifier : String) : Steady s (s.resolve identifier).2 := by
  have h := waitUntil_steady s (s.now + (s.resolver.resolve s.asked identifier).took)
  exact ⟨h.forwarder, h.resolver, h.sender, h.recipients, h.statusWait, h.quiet, h.said⟩

/-- a session stays as it is, and asks no command of its forwarder -/
structure Aside (s s' : Session σ) : Prop extends Steady s s' where
  asked : s'.journal.asked = s.journal.asked

theorem Aside.refl (s : Session σ) : Aside s s := ⟨Steady.refl s, rfl⟩

theorem Aside.trans {a b c : Session σ} (h : Aside a b) (h' : Aside b c) : Aside a c :=
  ⟨h.toSteady.trans h'.toSteady, h'.asked.trans h.asked⟩

theorem Aside.downstream {s s' : Session σ} (h : Aside s s') (c : σ) : Aside s { s' with downstream := c } :=
  ⟨h.toSteady.downstream c, h.asked⟩

theorem enter_aside (s : Session σ) {entries : List Entry} (only : Journal.OnlyReports entries) :
    Aside s (s.enter entries) := by
  refine ⟨enter_steady s only.said, ?_⟩
  rw [journal_enter, Journal.asked_append, only.asked, List.append_nil]

theorem note_aside (s : Session σ) (deed : Deed) (silent : Journal.said [⟨s.now, deed⟩] = [])
    (other : deed.isCommand = false) : Aside s (s.note deed) := by
  refine ⟨note_steady s deed silent, ?_⟩
  rw [journal_note, Journal.asked_append]
  simp [Journal.asked, other]

theorem waitUntil_aside (s : Session σ) (t : Instant) : Aside s (s.waitUntil t) := by
  obtain ⟨reports, only, journal⟩ := journal_waitUntil s t
  refine ⟨waitUntil_steady s t, ?_⟩
  rw [journal, Journal.asked_append, only.asked, List.append_nil]

theorem heard_aside {α : Type} (s : Session σ) (a : Answer σ α) : Aside s (s.heard a) :=
  (waitUntil_aside s (s.now + a.took)).downstream a.next

theorem note_heard_aside {α : Type} (s : Session σ) (deed : Deed) (silent : Journal.said [⟨s.now, deed⟩] = [])
    (other : deed.isCommand = false) (a : Answer σ α) : Aside s ((s.note deed).heard a) :=
  (note_aside s deed silent other).trans (heard_aside _ a)

theorem resolve_aside (s : Session σ) (identifier : String) : Aside s (s.resolve identifier).2 :=
  ⟨resolve_steady s identifier, (waitUntil_aside s (s.now + (s.resolver.resolve s.asked identifier).took)).asked⟩

/-! ## Waiting sessions -/

/-- time passes and reports are made, and nothing else happens but to the forwarder's state -/
structure Waits (s s' : Session σ) : Prop where
  forwarder : s'.forwarder = s.forwarder
  resolver : s'.resolver = s.resolver
  sender : s'.sender = s.sender
  recipients : s'.recipients = s.recipients
  statusWait : s'.statusWait = s.statusWait
  now : s.now ≤ s'.now
  journal : ∃ reports, Journal.OnlyReports reports ∧ s'.journal = s.journal ++ reports

theorem Waits.refl (s : Session σ) : Waits s s :=
  ⟨rfl, rfl, rfl, rfl, rfl, Nat.le_refl _, [], nofun, (List.append_nil _).symm⟩

theorem Waits.trans {a b c : Session σ} (h : Waits a b) (h' : Waits b c) : Waits a c := by
  obtain ⟨first, only, hfirst⟩ := h.journal
  obtain ⟨second, only', hsecond⟩ := h'.journal
  refine ⟨h'.forwarder.trans h.forwarder, h'.resolver.trans h.resolver, h'.sender.trans h.sender,
    h'.recipients.trans h.recipients, h'.statusWait.trans h.statusWait, Nat.le_trans h.now h'.now,
    first ++ second, only.append only', ?_⟩
  rw [hsecond, hfirst, List.append_assoc]

theorem Waits.downstream {s s' : Session σ} (h : Waits s s') (c : σ) : Waits s { s' with downstream := c } :=
  ⟨h.forwarder, h.resolver, h.sender, h.recipients, h.statusWait, h.now, h.journal⟩

theorem Waits.leave {s s' : Session σ} (h : Waits s s') (bursts : List Burst) : Waits s (s'.leave bursts) :=
  ⟨h.forwarder, h.resolver, h.sender, h.recipients, h.statusWait, h.now, h.journal⟩

theorem enter_waits (s : Session σ) {entries : List Entry} (only : Journal.OnlyReports entries) :
    Waits s (s.enter entries) :=
  ⟨rfl, rfl, rfl, rfl, rfl, Nat.le_refl _, entries, only, journal_enter s entries⟩

theorem waitUntil_now (s : Session σ) (t : Instant) : (s.waitUntil t).now = max s.now t := by
  unfold waitUntil
  split
  · next later => exact (Nat.max_eq_right (Nat.le_of_lt later)).symm
  · next already => exact (Nat.max_eq_left (Nat.le_of_not_lt already)).symm

theorem waitUntil_waits (s : Session σ) (t : Instant) : Waits s (s.waitUntil t) :=
  ⟨waitUntil_forwarder s t, waitUntil_resolver s t, waitUntil_sender s t, waitUntil_recipients s t,
    waitUntil_statusWait s t, waitUntil_now s t ▸ Nat.le_max_left _ _, journal_waitUntil s t⟩

theorem resolve_waits (s : Session σ) (identifier : String) : Waits s (s.resolve identifier).2 := by
  have h := waitUntil_waits s (s.now + (s.resolver.resolve s.asked identifier).took)
  exact ⟨h.forwarder, h.resolver, h.sender, h.recipients, h.statusWait, h.now, h.journal⟩

theorem letReport_waits (s : Session σ) (t : Instant) : Waits s (s.letReport t) := by
  refine ⟨rfl, rfl, rfl, rfl, rfl, Nat.le_refl _, _, fun entry h => ?_, journal_enter s _⟩
  obtain ⟨b, -, h⟩ := List.mem_flatMap.1 h
  exact Journal.onlyReports_map b.time b.events false entry h

theorem noteBurst_waits (s : Session σ) (b : Burst) (room : Nat) : Waits s (s.noteBurst b room) :=
  enter_waits s ((Journal.onlyReports_map b.time _ true).append (Journal.onlyReports_map b.time _ false))

theorem queueBursts_waits (s : Session σ) (room : Nat) (bursts : List Burst) :
    Waits s (s.queueBursts room bursts).2 := by
  induction bursts generalizing s room with
  | nil => exact Waits.refl s
  | cons b rest ih => exact (noteBurst_waits s b room).trans (ih _ _)

theorem queueBursts_now (s : Session σ) (room : Nat) (bursts : List Burst) :
    (s.queueBursts room bursts).2.now = s.now := by
  induction bursts generalizing s room with
  | nil => rfl
  | cons b rest ih => exact ih _ _

end Session
end LmtpRelay
