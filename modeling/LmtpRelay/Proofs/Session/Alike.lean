/-
Sessions that have done the same. Two sessions are alike when they are in the same state and have asked the same of their
forwarder. They may differ in what they told the peer, in the reports that are still to be made, in how many questions
the resolver was asked, where that does not matter to it, and in their clocks, unless they are compared moment by moment
(`timed`). A forwarder is blind to the clock when its answers do not depend on it and the end of a body goes the same way
from its beginning on. Over such a forwarder, and over any forwarder where the clocks agree, every operation gives the
same result in sessions that are alike, and leaves them alike: `mail_alike`, `rcpt_alike`, `reset_alike`, `data_alike`.
-/
import LmtpRelay.Proofs.Session.Protocol

namespace LmtpRelay

variable {σ : Type}

/-! ## Forwarders and resolvers -/

/-- two answers come to the same, however long they took -/
structure Answer.Agrees {α : Type} (a b : Answer σ α) : Prop where
  value : a.value = b.value
  next : a.next = b.next

/-- two answers come to the same and, where the time counts, took equally long -/
structure Answer.Matches {α : Type} (timed : Prop) (a b : Answer σ α) : Prop extends a.Agrees b where
  took : timed → b.took = a.took

def Burst.shift (t : Instant) (b : Burst) : Burst := { b with time := b.time + t }

/-- the same end of a body, that much later -/
def Closing.shift (t : Instant) (c : Closing σ) : Closing σ :=
  { c with
    direct := c.direct.map (Burst.shift t)
    later := c.later.map (Burst.shift t)
    released := c.released.map (· + t)
    cut := fun u => c.cut (u - t) }

/-- what the forwarder does does not depend on when it is asked -/
structure Forwarder.ClockBlind (f : Forwarder σ) : Prop where
  mail : ∀ now now' s sender params, (f.mail now s sender params).Agrees (f.mail now' s sender params)
  rcpt : ∀ now now' s recipient, (f.rcpt now s recipient).Agrees (f.rcpt now' s recipient)
  data : ∀ now now' s, (f.data now s).Agrees (f.data now' s)
  write : ∀ now now' s piece, (f.write now s piece).Agrees (f.write now' s piece)
  finish : ∀ now s, f.finish now s = (f.finish 0 s).shift now
  abandon : ∀ now now' s, f.abandon now s = f.abandon now' s
  reset : ∀ now now' s, (f.reset now s).Agrees (f.reset now' s)

/-- what the forwarder does does not depend on when it is asked, up to the end of the dialogue -/
structure Forwarder.Timeless (f : Forwarder σ) : Prop extends f.ClockBlind where
  close : ∀ now now' s, (f.close now s).Agrees (f.close now' s)

/-- the resolver answers at once -/
def Resolver.Prompt (r : Resolver) : Prop := ∀ n identifier, (r.resolve n identifier).took = 0

theorem Burst.shift_zero : Burst.shift 0 = id := rfl

theorem Closing.shift_zero (c : Closing σ) : c.shift 0 = c := by
  unfold Closing.shift
  simp [Burst.shift_zero]

theorem inTime_shift (t wait u : Nat) : inTime t (t + wait) (u + t) = inTime 0 wait u := by
  have already : u + t ≤ t ↔ u ≤ 0 := by omega
  have before : u + t < t + wait ↔ u < wait := by omega
  unfold inTime
  rw [decide_eq_decide.2 already, decide_eq_decide.2 before]

namespace Session

/-! ## Biding -/

/-- time passes and reports are made, and nothing else happens -/
structure Bides (s s' : Session σ) : Prop extends Waits s s' where
  asked : s'.asked = s.asked
  downstream : s'.downstream = s.downstream

theorem Bides.refl (s : Session σ) : Bides s s := ⟨.refl s, rfl, rfl⟩

theorem Bides.trans {a b c : Session σ} (h : Bides a b) (h' : Bides b c) : Bides a c :=
  ⟨h.toWaits.trans h'.toWaits, h'.asked.trans h.asked, h'.downstream.trans h.downstream⟩

theorem Bides.leave {s s' : Session σ} (h : Bides s s') (bursts : List Burst) : Bides s (s'.leave bursts) :=
  ⟨h.toWaits.leave bursts, h.asked, h.downstream⟩

theorem waitUntil_bides (s : Session σ) (t : Instant) : Bides s (s.waitUntil t) := by
  refine ⟨waitUntil_waits s t, ?_, waitUntil_downstream s t⟩
  unfold waitUntil
  split <;> rfl

theorem noteBurst_bides (s : Session σ) (b : Burst) (room : Nat) : Bides s (s.noteBurst b room) :=
  ⟨noteBurst_waits s b room, rfl, rfl⟩

theorem queueBursts_bides (s : Session σ) (room : Nat) (bursts : List Burst) :
    Bides s (s.queueBursts room bursts).2 := by
  induction bursts generalizing s room with
  | nil => exact .refl s
  | cons b rest ih => exact (noteBurst_bides s b room).trans (ih _ _)

theorem collectLater_bides (s : Session σ) (c : Collected) (room deadline : Nat) (released : Option Instant)
    (later : List Burst) : Bides s (s.collectLater c room deadline released later).2 := by
  induction later generalizing s c with
  | nil =>
    unfold collectLater
    split
    · exact .refl s
    · split <;> exact waitUntil_bides s _
  | cons b rest ih =>
    unfold collectLater
    split
    · exact (Bides.refl s).leave _
    · split
      · have reported : Bides s (s.letReport b.time) := ⟨letReport_waits s b.time, rfl, rfl⟩
        have waited := reported.trans (waitUntil_bides _ b.time)
        exact (waited.trans (noteBurst_bides _ b room)).trans (ih _ _)
      · exact (waitUntil_bides s deadline).leave _

/-- when collecting ends depends on when it begins and on the reports -/
theorem collectLater_now {s s' : Session σ} (same : s'.now = s.now) (c : Collected) (room deadline : Nat)
    (released : Option Instant) (later : List Burst) :
    (s'.collectLater c room deadline released later).2.now = (s.collectLater c room deadline released later).2.now := by
  have waited : ∀ {s s' : Session σ} (t : Instant), s'.now = s.now → (s'.waitUntil t).now = (s.waitUntil t).now := by
    intro s s' t same
    rw [waitUntil_now, waitUntil_now, same]
  induction later generalizing s s' c with
  | nil =>
    unfold collectLater
    split
    · exact same
    · cases released with
      | none => exact waited deadline same
      | some t =>
        dsimp only
        rw [same]
        exact waited _ same
  | cons b rest ih =>
    unfold collectLater
    split
    · exact same
    · split
      · have noted : (((s'.letReport b.time).waitUntil b.time).noteBurst b room).now
            = (((s.letReport b.time).waitUntil b.time).noteBurst b room).now :=
          @waited (s.letReport b.time) (s'.letReport b.time) b.time same
        exact ih noted _
      · exact waited deadline same

/-! ## Alike -/

/-- two sessions are in the same state and have asked the same of the forwarder -/
structure Alike (timed : Prop) (s s' : Session σ) : Prop where
  resolver : s'.resolver = s.resolver
  /-- the resolver does not count what it is asked, unless it was asked equally often -/
  asked : s'.asked = s.asked ∨ (s.resolver.Steady ∧ (timed → s.resolver.Prompt))
  forwarder : s'.forwarder = s.forwarder
  downstream : s'.downstream = s.downstream
  sender : s'.sender = s.sender
  recipients : s'.recipients = s.recipients
  statusWait : s'.statusWait = s.statusWait
  calls : s'.journal.calls = s.journal.calls
  clock : timed → s'.now = s.now

variable {timed : Prop}

theorem Alike.refl (s : Session σ) : Alike timed s s :=
  ⟨rfl, .inl rfl, rfl, rfl, rfl, rfl, rfl, rfl, fun _ => rfl⟩

theorem Alike.bide {s s' t t' : Session σ} (h : Alike timed s s') (first : Bides s t) (second : Bides s' t')
    (clock : timed → t'.now = t.now) : Alike timed t t' where
  resolver := by rw [second.resolver, first.resolver, h.resolver]
  asked := by
    rw [second.asked, first.asked, first.resolver]
    exact h.asked
  forwarder := by rw [second.forwarder, first.forwarder, h.forwarder]
  downstream := by rw [second.downstream, first.downstream, h.downstream]
  sender := by rw [second.sender, first.sender, h.sender]
  recipients := by rw [second.recipients, first.recipients, h.recipients]
  statusWait := by rw [second.statusWait, first.statusWait, h.statusWait]
  calls := by rw [second.toWaits.calls, first.toWaits.calls, h.calls]
  clock := clock

theorem Alike.waited {s s' : Session σ} (h : Alike timed s s') {t t' : Instant} (same : timed → t' = t) :
    Alike timed (s.waitUntil t) (s'.waitUntil t') := by
  apply h.bide (waitUntil_bides s t) (waitUntil_bides s' t')
  intro counts
  rw [waitUntil_now, waitUntil_now, h.clock counts, same counts]

theorem Alike.replaced {s s' : Session σ} (h : Alike timed s s') (c : σ) :
    Alike timed { s with downstream := c } { s' with downstream := c } :=
  ⟨h.resolver, h.asked, h.forwarder, rfl, h.sender, h.recipients, h.statusWait, h.calls, h.clock⟩

theorem Alike.note {s s' : Session σ} (h : Alike timed s s') (deed : Deed) :
    Alike timed (s.note deed) (s'.note deed) := by
  have entered : ∀ s : Session σ, (s.note deed).journal.calls = s.journal.calls ++ [deed].filter Deed.isCall := by
    intro s
    rw [journal_note, Journal.calls_append]
    rfl
  refine ⟨h.resolver, h.asked, h.forwarder, h.downstream, h.sender, h.recipients, h.statusWait, ?_, h.clock⟩
  rw [entered, entered, h.calls]

theorem Alike.said {s s' : Session σ} (h : Alike timed s s') (text : String) : Alike timed (s.note (.said text)) s' := by
  have silent : (s.note (.said text)).journal.calls = s.journal.calls := by
    rw [journal_note, Journal.calls_append]
    simp [Journal.calls, Deed.isCall]
  refine ⟨h.resolver, h.asked, h.forwarder, h.downstream, h.sender, h.recipients, h.statusWait, ?_, h.clock⟩
  rw [silent, h.calls]

theorem Alike.clear {s s' : Session σ} (h : Alike timed s s') : Alike timed s.clear s'.clear :=
  ⟨h.resolver, h.asked, h.forwarder, h.downstream, rfl, rfl, h.statusWait, h.calls, h.clock⟩

theorem Alike.heard {α : Type} {s s' : Session σ} (h : Alike timed s s') {a a' : Answer σ α}
    (agree : a.Matches timed a') : Alike timed (s.heard a) (s'.heard a') := by
  have waited : Alike timed (s.waitUntil (s.now + a.took)) (s'.waitUntil (s'.now + a'.took)) := by
    apply h.waited
    intro counts
    rw [h.clock counts, agree.took counts]
  have same := waited.replaced a.next
  unfold Session.heard
  rw [← agree.next]
  exact same

theorem Alike.note_heard {α : Type} {s s' : Session σ} (h : Alike timed s s') {a a' : Answer σ α}
    (agree : a.Matches timed a') (deed : α → Deed) :
    Alike timed ((s.note (deed a.value)).heard a) ((s'.note (deed a'.value)).heard a') := by
  rw [← agree.value]
  exact (h.note _).heard agree

/-- asked the same, the forwarder answers the same: it is blind to the clock, or the clocks agree -/
theorem Alike.answers {α : Type} {s s' : Session σ} (h : Alike timed s s')
    (ask : Forwarder σ → Instant → σ → Answer σ α)
    (free : (∀ now now' c, (ask s.forwarder now c).Agrees (ask s.forwarder now' c)) ∨ timed) :
    (ask s.forwarder s.now s.downstream).Matches timed (ask s'.forwarder s'.now s'.downstream) := by
  rw [h.forwarder, h.downstream]
  refine ⟨?_, fun counts => by rw [h.clock counts]⟩
  rcases free with blind | counts
  · exact blind _ _ _
  · rw [h.clock counts]
    exact ⟨rfl, rfl⟩

/-! ## Operations -/

variable {s s' : Session σ}

theorem mail_alike (free : s.forwarder.ClockBlind ∨ timed) (h : Alike timed s s') (sender : String)
    (params : Parameters) : (s'.mail sender params).1 = (s.mail sender params).1 ∧
      Alike timed (s.mail sender params).2 (s'.mail sender params).2 := by
  have agree := h.answers (fun f now c => f.mail now c sender params)
    (free.imp_left fun blind now now' c => blind.mail now now' c sender params)
  have heard : Alike timed (s.mailHeard sender params) (s'.mailHeard sender params) :=
    h.note_heard agree (.mail sender params)
  rcases mail_cases s sender params with ⟨hv, hm⟩ | ⟨e, hv, hm⟩ <;>
    rcases mail_cases s' sender params with ⟨hv', hm'⟩ | ⟨e', hv', hm'⟩
  · rw [hm, hm']
    exact ⟨rfl, heard.resolver, heard.asked, heard.forwarder, heard.downstream, rfl, heard.recipients,
      heard.statusWait, heard.calls, heard.clock⟩
  · cases hv.symm.trans (agree.value.trans hv')
  · cases hv.symm.trans (agree.value.trans hv')
  · obtain rfl := Except.error.inj (hv.symm.trans (agree.value.trans hv'))
    rw [hm, hm']
    exact ⟨rfl, heard⟩

/-- asked for the same identifier, the resolver answers the same -/
theorem Alike.resolves (h : Alike timed s s') (identifier : String) :
    (s'.resolver.resolve s'.asked identifier).value = (s.resolver.resolve s.asked identifier).value ∧
      (timed → (s'.resolver.resolve s'.asked identifier).took = (s.resolver.resolve s.asked identifier).took) := by
  rw [h.resolver]
  rcases h.asked with same | ⟨steady, prompt⟩
  · rw [same]
    exact ⟨rfl, fun _ => rfl⟩
  · refine ⟨steady _ _ _, fun counts => ?_⟩
    rw [prompt counts, prompt counts]

theorem resolve_alike (h : Alike timed s s') (identifier : String) :
    (s'.resolve identifier).1 = (s.resolve identifier).1 ∧
      Alike timed (s.resolve identifier).2 (s'.resolve identifier).2 := by
  obtain ⟨value, took⟩ := h.resolves identifier
  have waited : Alike timed (s.waitUntil (s.now + (s.resolver.resolve s.asked identifier).took))
      (s'.waitUntil (s'.now + (s'.resolver.resolve s'.asked identifier).took)) := by
    apply h.waited
    intro counts
    rw [h.clock counts, took counts]
  refine ⟨value, waited.resolver, ?_, waited.forwarder, waited.downstream, waited.sender, waited.recipients,
    waited.statusWait, waited.calls, waited.clock⟩
  have given : (s.resolve identifier).2.resolver = s.resolver := (resolve_waits s identifier).resolver
  rw [given]
  exact h.asked.imp_left (congrArg (· + 1))

theorem accept_alike (free : s.forwarder.ClockBlind ∨ timed) (h : Alike timed s s') (recipient resolved : String) :
    (s'.accept recipient resolved).1 = (s.accept recipient resolved).1 ∧
      Alike timed (s.accept recipient resolved).2 (s'.accept recipient resolved).2 := by
  have agree := h.answers (fun f now c => f.rcpt now c resolved)
    (free.imp_left fun blind now now' c => blind.rcpt now now' c resolved)
  have heard : Alike timed (s.rcptHeard resolved) (s'.rcptHeard resolved) := h.note_heard agree (.rcpt resolved)
  rw [accept_eq, accept_eq, ← agree.value]
  cases (s.forwarder.rcpt s.now s.downstream resolved).value with
  | error e => exact ⟨rfl, heard⟩
  | ok done =>
    refine ⟨rfl, heard.resolver, heard.asked, heard.forwarder, heard.downstream, heard.sender, ?_, heard.statusWait,
      heard.calls, heard.clock⟩
    dsimp only
    rw [heard.recipients]

theorem rcpt_alike (free : s.forwarder.ClockBlind ∨ timed) (h : Alike timed s s') (recipient : String) :
    (s'.rcpt recipient).1 = (s.rcpt recipient).1 ∧
      Alike timed (s.rcpt recipient).2 (s'.rcpt recipient).2 := by
  unfold rcpt
  cases localPart? recipient with
  | none => exact ⟨rfl, h⟩
  | some identifier =>
    obtain ⟨same, asked⟩ := resolve_alike h identifier
    have forwarder := (resolve_steady s identifier).forwarder
    dsimp only
    rw [same]
    cases (s.resolve identifier).1 with
    | error cause => exact ⟨rfl, asked⟩
    | ok resolved =>
      dsimp only
      rw [asked.recipients]
      split
      · exact ⟨rfl, asked⟩
      · exact accept_alike (forwarder ▸ free) asked recipient resolved

theorem resetForwarder_alike (free : s.forwarder.ClockBlind ∨ timed) (h : Alike timed s s') :
    s'.resetForwarder.1 = s.resetForwarder.1 ∧ Alike timed s.resetForwarder.2 s'.resetForwarder.2 := by
  have agree := h.answers (fun f now c => f.reset now c) (free.imp_left fun blind => blind.reset)
  exact ⟨agree.value.symm, h.note_heard agree .reset⟩

theorem reset_alike (free : s.forwarder.ClockBlind ∨ timed) (h : Alike timed s s') :
    s'.reset.1 = s.reset.1 ∧ Alike timed s.reset.2 s'.reset.2 := by
  obtain ⟨result, after⟩ := resetForwarder_alike (s := s.clear) free h.clear
  exact ⟨congrArg forwarded result, after⟩

theorem logout_alike (free : s.forwarder.Timeless ∨ timed) (h : Alike timed s s') :
    Alike timed s.logout.2 s'.logout.2 := by
  have cleared := h.clear
  have agree := cleared.answers (fun f now c => f.close now c) (free.imp_left fun timeless => timeless.close)
  exact cleared.note_heard agree .close

/-! ## One of two sessions -/

/-- sessions that are alike but for their clocks, over a resolver that does not count, where the clocks agree -/
theorem Alike.timely (h : Alike False s s') (steady : s.resolver.Steady) (prompt : timed → s.resolver.Prompt)
    (clock : timed → s'.now = s.now) : Alike timed s s' :=
  ⟨h.resolver, .inr ⟨steady, prompt⟩, h.forwarder, h.downstream, h.sender, h.recipients, h.statusWait, h.calls, clock⟩

theorem Alike.untimed (h : Alike timed s s') : Alike False s s' :=
  ⟨h.resolver, h.asked.imp_right fun counts => ⟨counts.1, False.elim⟩, h.forwarder, h.downstream, h.sender,
    h.recipients, h.statusWait, h.calls, False.elim⟩

theorem Alike.bided (h : Alike False s s') {t : Session σ} (first : Bides s t) : Alike False t s' :=
  h.bide first (.refl s') False.elim

/-- one of two sessions asks a resolver that does not count -/
theorem Alike.resolved (h : Alike False s s') (steady : s.resolver.Steady) (identifier : String) :
    Alike False (s.resolve identifier).2 s' := by
  have passed := h.bided (waitUntil_bides s (s.now + (s.resolver.resolve s.asked identifier).took))
  refine ⟨passed.resolver, .inr ⟨?_, False.elim⟩, passed.forwarder, passed.downstream, passed.sender,
    passed.recipients, passed.statusWait, passed.calls, False.elim⟩
  rw [(resolve_waits s identifier).resolver]
  exact steady

/-- a recipient that is refused on its own account was resolved at most -/
theorem rcpt_scoped {recipient : String} {error : SessionError} (failed : (s.rcpt recipient).1 = .error error)
    (personal : error.isRecipientScoped = true) :
    (s.rcpt recipient).2 = s ∨ ∃ identifier, (s.rcpt recipient).2 = (s.resolve identifier).2 := by
  rcases rcpt_cases s recipient with ⟨-, hr⟩ | ⟨identifier, -, ⟨cause, -, hr⟩ | ⟨address, -, ⟨-, hr⟩ | ⟨new, hr⟩⟩⟩
  · exact .inl (congrArg Prod.snd hr)
  · exact .inr ⟨identifier, congrArg Prod.snd hr⟩
  · exact .inr ⟨identifier, congrArg Prod.snd hr⟩
  · -- whatever the forwarder answers is not on account of the recipient
    rw [hr, accept_eq] at failed
    cases hv : ((s.resolve identifier).2.forwarder.rcpt (s.resolve identifier).2.now
        (s.resolve identifier).2.downstream address).value with
    | ok done =>
      rw [hv] at failed
      cases failed
    | error e =>
      rw [hv] at failed
      obtain rfl := Except.error.inj failed
      cases personal

/-! ## Bodies -/

theorem copyPieces_alike (free : s.forwarder.ClockBlind ∨ timed) (h : Alike timed s s') (pieces : List Octets) :
    (s'.copyPieces pieces).1 = (s.copyPieces pieces).1 ∧
      Alike timed (s.copyPieces pieces).2 (s'.copyPieces pieces).2 := by
  induction pieces generalizing s s' with
  | nil => exact ⟨rfl, h⟩
  | cons piece rest ih =>
    have agree := h.answers (fun f now c => f.write now c piece)
      (free.imp_left fun blind now now' c => blind.write now now' c piece)
    have heard := h.note_heard agree (.write piece)
    have forwarder := (note_heard_steady s (.write piece (s.forwarder.write s.now s.downstream piece).value) rfl
      (s.forwarder.write s.now s.downstream piece)).forwarder
    unfold copyPieces
    dsimp only at heard ⊢
    rw [← agree.value] at heard ⊢
    cases hv : (s.forwarder.write s.now s.downstream piece).value with
    | error f =>
      rw [hv] at heard
      exact ⟨rfl, heard⟩
    | ok done =>
      rw [hv] at heard forwarder
      exact ih (forwarder.symm ▸ free) heard

theorem copyBody_alike (free : s.forwarder.ClockBlind ∨ timed) (h : Alike timed s s') (body : BodyInput) :
    (s'.copyBody body).1 = (s.copyBody body).1 ∧ Alike timed (s.copyBody body).2 (s'.copyBody body).2 := by
  obtain ⟨copied, after⟩ := copyPieces_alike free h body.pieces
  rw [copyBody_snd, copyBody_snd]
  refine ⟨?_, after⟩
  unfold copyBody
  dsimp only
  rw [copied]
  cases (s.copyPieces body.pieces).1 <;> cases body.failure <;> rfl

theorem abandon_alike (free : s.forwarder.ClockBlind ∨ timed) (h : Alike timed s s') :
    Alike timed s.abandon s'.abandon := by
  have same : s'.forwarder.abandon s'.now s'.downstream = s.forwarder.abandon s.now s.downstream := by
    rw [h.forwarder, h.downstream]
    rcases free with blind | counts
    · exact blind.abandon _ _ _
    · rw [h.clock counts]
  have gone := (h.note .abandon).replaced (s.forwarder.abandon s.now s.downstream)
  exact ⟨gone.resolver, gone.asked, gone.forwarder, same, gone.sender, gone.recipients, gone.statusWait, gone.calls,
    gone.clock⟩

/-! ## The end of a body -/

theorem queued_shift (room : Nat) (t : Instant) (bursts : List Burst) :
    queued room (bursts.map (Burst.shift t)) = queued room bursts := by
  induction bursts generalizing room with
  | nil => rfl
  | cons b rest ih =>
    rw [List.map_cons, queued, queued, ih]
    rfl

/-- what is collected does not depend on when the body ended -/
theorem collectLater_shift (s s' : Session σ) (c : Collected) (room wait t t' : Nat)
    (released released' : Option Instant) (later : List Burst) :
    (s'.collectLater c room (t' + wait) released' (later.map (Burst.shift t'))).1
      = (s.collectLater c room (t + wait) released (later.map (Burst.shift t))).1 := by
  induction later generalizing s s' c with
  | nil =>
    rw [List.map_nil, List.map_nil]
    unfold collectLater
    split
    · rfl
    · cases released <;> cases released' <;> rfl
  | cons b rest ih =>
    rw [List.map_cons, List.map_cons]
    unfold collectLater
    split
    · rfl
    · have same : (b.shift t').time < t' + wait ↔ (b.shift t).time < t + wait := by
        have plain : ∀ u : Nat, b.time + u < u + wait ↔ b.time < wait := by
          intro u
          rw [Nat.add_comm u wait, Nat.add_lt_add_iff_right]
        exact (plain t').trans (plain t).symm
      by_cases timely : (b.shift t).time < t + wait
      · rw [if_pos timely, if_pos (same.2 timely)]
        exact ih _ _ _
      · rw [if_neg timely, if_neg (fun h => timely (same.1 h))]

/-- two transfers come to the same, in sessions that are alike afterwards -/
def TransfersAlike (timed : Prop) (t t' : Transfer σ) : Prop :=
  t'.1 = t.1 ∧ t'.2.1 = t.2.1 ∧ Alike timed t.2.2 t'.2.2

theorem Alike.outcome (h : Alike timed s s') {c c' : Collected} (same : c' = c) :
    TransfersAlike timed (s.outcome c) (s'.outcome c') := by
  rw [same]
  exact ⟨rfl, rfl, h.resolver, h.asked, h.forwarder, h.downstream, h.sender, rfl, h.statusWait, h.calls, h.clock⟩

theorem Alike.queued (h : Alike timed s s') (room room' : Nat) (bursts bursts' : List Burst) :
    Alike timed (s.queueBursts room bursts).2 (s'.queueBursts room' bursts').2 := by
  apply h.bide (queueBursts_bides _ _ _) (queueBursts_bides _ _ _)
  intro counts
  rw [queueBursts_now, queueBursts_now, h.clock counts]

theorem closedAfter_alike (h : Alike timed s s') (closing : Closing σ) (took t t' : Nat) :
    Alike timed (s.closedAfter (closing.shift t) took) (s'.closedAfter (closing.shift t') took) := by
  have queue := h.queued (max 1 s.recipients.size) (max 1 s'.recipients.size) (closing.shift t).direct
    (closing.shift t').direct
  have passed := queue.waited fun counts => congrArg (· + took) (queue.clock counts)
  exact passed.replaced closing.closed

/-- the end of a body is taken in the same way however much later it comes, and at the same moments where it comes no
later -/
theorem settle_alike (h : Alike timed s s') (closing : Closing σ) (took wait : Nat) {t t' : Nat}
    (clock : timed → t' = t) : TransfersAlike timed (s.settle (closing.shift t) took (t + wait))
      (s'.settle (closing.shift t') took (t' + wait)) := by
  have closed := closedAfter_alike h closing took t t'
  cases result : closing.result with
  | error e =>
    have left : Alike timed ((s.closedAfter (closing.shift t) took).leave (closing.shift t).later)
        ((s'.closedAfter (closing.shift t') took).leave (closing.shift t').later) :=
      ⟨closed.resolver, closed.asked, closed.forwarder, closed.downstream, closed.sender, closed.recipients,
        closed.statusWait, closed.calls, closed.clock⟩
    rw [@settle_error _ s (closing.shift t) took _ _ result,
      @settle_error _ s' (closing.shift t') took _ _ result]
    exact ⟨rfl, rfl, left⟩
  | ok done =>
    have early : (s'.queueBursts (max 1 s'.recipients.size) (closing.shift t').direct).1
        = (s.queueBursts (max 1 s.recipients.size) (closing.shift t).direct).1 := by
      rw [queueBursts_fst, queueBursts_fst, h.recipients]
      exact (queued_shift _ t' closing.direct).trans (queued_shift _ t closing.direct).symm
    rw [@settle_ok _ s (closing.shift t) took _ result, @settle_ok _ s' (closing.shift t') took _ result, early,
      closed.recipients, h.recipients]
    generalize Collected.drain ⟨(s.closedAfter (closing.shift t) took).recipients, []⟩
      (s.queueBursts (max 1 s.recipients.size) (closing.shift t).direct).1 = c
    have same := collectLater_shift (s.closedAfter (closing.shift t) took) (s'.closedAfter (closing.shift t') took) c
      (max 1 s.recipients.size) wait t t' (closing.shift t).released (closing.shift t').released closing.later
    refine Alike.outcome (closed.bide (collectLater_bides _ c _ _ _ _) (collectLater_bides _ c _ _ _ _) ?_) same
    intro counts
    rw [clock counts]
    exact collectLater_now (clock counts ▸ closed.clock counts) _ _ _ _ _

theorem settleCut_alike (h : Alike timed s s') (closing : Closing σ) (wait : Nat) {t t' : Nat}
    (clock : timed → t' = t)
    (same : ∀ u, inTime s'.now (t' + wait) (u + t') = inTime s.now (t + wait) (u + t)) :
    TransfersAlike timed (s.settleCut (closing.shift t) (t + wait))
      (s'.settleCut (closing.shift t') (t' + wait)) := by
  -- the same reports are in time, each in its own run
  have timely : ∀ (now t : Instant), ((closing.shift t).direct.filter fun b => inTime now (t + wait) b.time)
      = (closing.direct.filter fun b => inTime now (t + wait) (b.time + t)).map (Burst.shift t) := by
    intro now t
    exact List.filter_map
  have among : (closing.direct.filter fun b => inTime s'.now (t' + wait) (b.time + t'))
      = closing.direct.filter fun b => inTime s.now (t + wait) (b.time + t) := by
    congr 1
    funext b
    exact same b.time
  have cut : ∀ t : Instant, (closing.shift t).cut (t + wait) = closing.cut wait := by
    intro t
    exact congrArg closing.cut (Nat.add_sub_cancel_left t wait)
  have after : Alike timed (s.cutAt (closing.shift t) (t + wait)) (s'.cutAt (closing.shift t') (t' + wait)) := by
    unfold cutAt
    rw [timely, timely, cut, cut]
    have queue := h.queued (max 1 s.recipients.size) (max 1 s'.recipients.size)
      ((closing.direct.filter fun b => inTime s.now (t + wait) (b.time + t)).map (Burst.shift t))
      ((closing.direct.filter fun b => inTime s'.now (t' + wait) (b.time + t')).map (Burst.shift t'))
    have waited := queue.waited fun counts => congrArg (· + wait) (clock counts)
    exact (waited.replaced (closing.cut wait)).note .abandon
  rw [settleCut_eq, settleCut_eq]
  apply after.outcome
  rw [timely, timely, queued_shift, queued_shift, among, h.recipients]

/-- a body is ended in the same way in both: the ends differ by the time that one comes later -/
theorem Alike.closes (free : s.forwarder.ClockBlind ∨ timed) (h : Alike timed s s') :
    ∃ (closing : Closing σ) (wait t t' : Nat), (timed → t' = t) ∧
      s.forwarder.finish s.now s.downstream = closing.shift t ∧ s.now + s.statusWait = t + wait ∧
      s'.forwarder.finish s'.now s'.downstream = closing.shift t' ∧ s'.now + s'.statusWait = t' + wait ∧
      (∀ u, inTime s'.now (t' + wait) (u + t') = inTime s.now (t + wait) (u + t)) ∧
      ∀ took, inTime s'.now (t' + wait) (s'.now + took) = inTime s.now (t + wait) (s.now + took) := by
  rw [h.forwarder, h.downstream, h.statusWait]
  rcases free with blind | counts
  · refine ⟨s.forwarder.finish 0 s.downstream, s.statusWait, s.now, s'.now, h.clock, blind.finish _ _, rfl,
      blind.finish _ _, rfl, fun u => ?_, fun took => ?_⟩
    · rw [inTime_shift, inTime_shift]
    · rw [Nat.add_comm s'.now took, Nat.add_comm s.now took, inTime_shift, inTime_shift]
  · rw [h.clock counts]
    exact ⟨s.forwarder.finish s.now s.downstream, s.now + s.statusWait, 0, 0, fun _ => rfl,
      (Closing.shift_zero _).symm, (Nat.zero_add _).symm, (Closing.shift_zero _).symm, (Nat.zero_add _).symm,
      fun _ => rfl, fun _ => rfl⟩

theorem finish_alike (free : s.forwarder.ClockBlind ∨ timed) (h : Alike timed s s') :
    TransfersAlike timed s.finish s'.finish := by
  obtain ⟨closing, wait, t, t', clock, ends, deadline, ends', deadline', reports, call⟩ := h.closes free
  have noted := h.note .finish
  have cut := settleCut_alike noted closing wait clock reports
  have took : ∀ t : Instant, (closing.shift t).took = closing.took := fun _ => rfl
  rw [finish_calls, finish_calls, ends, ends', deadline, deadline', took, took]
  cases closing.took with
  | none => exact cut
  | some took =>
    dsimp only
    rw [call]
    split
    · exact settle_alike noted closing took wait clock
    · exact cut

theorem transfer_alike (free : s.forwarder.ClockBlind ∨ timed) (h : Alike timed s s') (body : BodyInput) :
    TransfersAlike timed (s.transfer body) (s'.transfer body) := by
  have agree := h.answers (fun f now c => f.data now c) (free.imp_left fun blind => blind.data)
  have heard : Alike timed s.dataHeard s'.dataHeard := h.note_heard agree .data
  obtain ⟨same, copied⟩ := copyBody_alike ((dataHeard_steady s).forwarder.symm ▸ free) heard body
  have free' : (s.bodyCopied body).forwarder.ClockBlind ∨ timed := by
    rw [(bodyCopied_steady s body).forwarder]
    exact free
  rw [transfer_eq, transfer_eq, ← agree.value, same]
  cases (s.forwarder.data s.now s.downstream).value with
  | error e => exact ⟨rfl, rfl, heard⟩
  | ok _ =>
    dsimp only
    cases (s.dataHeard.copyBody body).1 with
    | error f => exact ⟨rfl, rfl, abandon_alike free' copied⟩
    | ok _ => exact finish_alike free' copied

theorem settle_forwarder (s : Session σ) (closing : Closing σ) (took deadline : Nat) :
    (s.settle closing took deadline).2.2.forwarder = s.forwarder := by
  have closed := (closedAfter_waits s closing took).forwarder
  cases result : closing.result with
  | error e =>
    rw [settle_error s took deadline result]
    exact closed
  | ok done =>
    rw [settle_ok s took deadline result]
    exact (collectLater_bides _ _ _ _ _ _).forwarder.trans closed

theorem finish_forwarder (s : Session σ) : s.finish.2.2.forwarder = s.forwarder := by
  have cut : ∀ (s : Session σ) closing deadline, (s.settleCut closing deadline).2.2.forwarder = s.forwarder := by
    intro s closing deadline
    rw [settleCut_eq]
    exact (cutAt_aside s closing deadline).forwarder
  unfold finish
  dsimp only
  split
  · split
    · exact settle_forwarder _ _ _ _
    · exact cut _ _ _
  · exact cut _ _ _

/-- passing a body on leaves a session the same forwarder -/
theorem transfer_forwarder (s : Session σ) (body : BodyInput) : (s.transfer body).2.2.forwarder = s.forwarder := by
  have copied := (bodyCopied_steady s body).forwarder
  rcases transfer_cases s body with ⟨e, -, ht⟩ | ⟨-, ⟨f, -, ht⟩ | ⟨-, ht⟩⟩ <;> rw [ht]
  · exact (dataHeard_steady s).forwarder
  · exact (abandon_steady _).forwarder.trans copied
  · exact (finish_forwarder _).trans copied

/-- **A body comes to the same in sessions that are alike.** -/
theorem data_alike (free : s.forwarder.ClockBlind ∨ timed) (h : Alike timed s s') (body : BodyInput) :
    TransfersAlike timed (s.data body) (s'.data body) := by
  obtain ⟨result, statuses, after⟩ := transfer_alike free h body
  have free' : (s.transfer body).2.2.clear.forwarder.ClockBlind ∨ timed := (transfer_forwarder s body).symm ▸ free
  unfold Session.data
  dsimp only
  rw [h.recipients, result, statuses]
  split
  · exact ⟨rfl, rfl, h⟩
  · split
    · exact ⟨rfl, rfl, (resetForwarder_alike free' after.clear).2⟩
    · exact ⟨rfl, rfl, after.clear⟩

end Session
end LmtpRelay
