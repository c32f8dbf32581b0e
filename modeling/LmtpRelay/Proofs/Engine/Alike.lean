/-
Dialogues that do the same. Two dialogues are alike when they have come equally far and their sessions are alike. Over a
forwarder that is blind to the clock, or where the clocks agree, a turn leaves dialogues alike and tells both peers the
same when the one hears at the front of its stream what the other hears at the front of its own (`turn_alike`). What
comes after that may differ. Dialogues that hear the same octets and are undisturbed stay alike to the end, however the
streams are cut and whenever their octets come: `Attuned.serve`.
-/
import LmtpRelay.Proofs.Engine.Accounting
import LmtpRelay.Proofs.Session.Alike
import LmtpRelay.Proofs.Wire.Framing

namespace LmtpRelay

variable {σ : Type}

/-! ## Streams with the same front -/

namespace Turn

/-- what a turn takes off the front of one stream stands at the front of another as well, before what is to be left of
it; a turn that ends its dialogue takes all there is -/
def Fronts (bs bs' later : Octets) : Turn σ → Prop
  | .ended _ _ => bs' = bs
  | .next _ rest => ∃ front, bs = front ++ rest.octets ∧ bs' = front ++ later

/-- a turn takes whole lines off the front of both streams, or all there is -/
def FrontLines (bs bs' later : Octets) : Turn σ → Prop
  | .ended _ _ => bs' = bs
  | .next _ rest => ∃ front, bs = front ++ rest.octets ∧ bs' = front ++ later ∧
    (endsLine front = true ∨ rest.octets = [] ∧ later = [])

theorem FrontLines.line {t : Turn σ} {bs bs' later : Octets} (h : t.FrontLines bs bs' later)
    {ending : Option Ending} :
    firstLine ending bs' = firstLine ending bs ∧ t.Fronts (splitLine bs).2 (splitLine bs').2 later := by
  cases t with
  | ended result e =>
    obtain rfl : bs' = bs := h
    exact ⟨rfl, rfl⟩
  | next e rest =>
    obtain ⟨front, rfl, rfl, ends | ⟨none_left, none_later⟩⟩ := h
    · have ends := endsLine_splitLine ends
      rw [firstLine_front ends, firstLine_front ends, splitLine_front ends, splitLine_front ends]
      exact ⟨rfl, (splitLine front).2, rfl, rfl⟩
    · rw [none_left, none_later]
      exact ⟨rfl, (splitLine front).2, by rw [none_left, List.append_nil, List.append_nil], by simp⟩

end Turn

namespace Engine

variable {timed : Prop}

/-! ## Alike -/

/-- two dialogues have come equally far, in sessions that are alike -/
structure Alike (timed : Prop) (e e' : Engine σ) : Prop where
  settings : e'.settings = e.settings
  dialogue : e'.dialogue = e.dialogue
  session : Session.Alike timed e.session e'.session

variable {e e' : Engine σ}

theorem Alike.refl (e : Engine σ) : Alike timed e e := ⟨rfl, rfl, .refl _⟩

theorem Alike.waited (h : Alike timed e e') {t t' : Instant} (same : timed → t' = t) :
    Alike timed (e.waitUntil t) (e'.waitUntil t') :=
  ⟨h.settings, h.dialogue, h.session.waited same⟩

theorem Alike.lineCome (h : Alike timed e e') {t t' : Instant} (same : timed → t' = t) :
    Alike timed (e.lineCome t) (e'.lineCome t') :=
  ⟨h.settings, h.dialogue, h.session.waited same⟩

/-- the dialogue moves by the same event in both -/
theorem Alike.advance (h : Alike timed e e') {s s' : Session σ} (alike : Session.Alike timed s s') (event : Event) :
    Alike timed ({ e with session := s }.advance event) ({ e' with session := s' }.advance event) :=
  ⟨h.settings, congrArg (·.apply event) h.dialogue, alike⟩

theorem Alike.said (h : Alike timed e e') (text : String) : Alike timed (e.saying text) (e'.saying text) :=
  ⟨h.settings, h.dialogue, h.session.note (.said text)⟩

theorem Alike.saidAll (h : Alike timed e e') (texts : List String) :
    Alike timed (e.sayingAll texts) (e'.sayingAll texts) := by
  induction texts generalizing e e' with
  | nil => exact h
  | cons text texts ih => exact ih (h.said text)

/-! ## What is told -/

/-- two dialogues have each told their peers something more, and the same -/
def Echoes (e e₁ e' e₁' : Engine σ) : Prop := ∃ texts, Tells e e₁ texts ∧ Tells e' e₁' texts

theorem Echoes.after {e₁ e₁' e₂ e₂' : Engine σ} (h : Echoes e₁ e₂ e₁' e₂') (quiet : Tells e e₁ [])
    (quiet' : Tells e' e₁' []) : Echoes e e₂ e' e₂' := by
  obtain ⟨texts, told, told'⟩ := h
  exact ⟨texts, quiet.trans told, quiet'.trans told'⟩

/-! ## Commands -/

theorem mail_alike (free : e.session.forwarder.ClockBlind ∨ timed) (h : Alike timed e e') (sender : String)
    (params : Parameters) : (e'.mail sender params).1 = (e.mail sender params).1 ∧
      Alike timed (e.mail sender params).2 (e'.mail sender params).2 := by
  obtain ⟨result, after⟩ := Session.mail_alike free h.session sender params
  have declared : e'.declaredTooBig params = e.declaredTooBig params := by
    rw [declaredTooBig, declaredTooBig, h.settings]
  unfold mail
  rw [declared]
  split
  · exact ⟨rfl, h⟩
  · dsimp only
    rw [result]
    refine ⟨rfl, ?_⟩
    split
    · exact h.advance after (.mail sender)
    · exact ⟨h.settings, h.dialogue, after⟩

theorem rcpt_alike (free : e.session.forwarder.ClockBlind ∨ timed) (h : Alike timed e e') (recipient : String) :
    (e'.rcpt recipient).1 = (e.rcpt recipient).1 ∧
      Alike timed (e.rcpt recipient).2 (e'.rcpt recipient).2 := by
  obtain ⟨result, after⟩ := Session.rcpt_alike free h.session recipient
  unfold rcpt
  dsimp only
  rw [result]
  refine ⟨rfl, ?_⟩
  split
  · exact h.advance after (.rcpt recipient)
  · exact ⟨h.settings, h.dialogue, after⟩

/-- a command comes to the same in both, and is answered by the same text -/
theorem doing_alike (free : e.session.forwarder.ClockBlind ∨ timed) (h : Alike timed e e') (command : Command) :
    e'.textFor command = e.textFor command ∧ Alike timed (e.doing command) (e'.doing command) := by
  obtain ⟨result, given⟩ := Session.reset_alike free h.session
  cases command with
  | lhlo client =>
    refine ⟨by rw [textFor, textFor, h.settings], ?_⟩
    unfold doing
    dsimp only
    have stage : e'.dialogue.stage.inTransaction = e.dialogue.stage.inTransaction := by rw [h.dialogue]
    rw [stage]
    split
    · exact h.advance given (.lhlo client)
    · exact h.advance h.session (.lhlo client)
  | mail sender params =>
    obtain ⟨reply, after⟩ := mail_alike free h sender params
    exact ⟨congrArg Reply.line reply, after⟩
  | rcpt recipient params =>
    obtain ⟨reply, after⟩ := rcpt_alike free h recipient
    exact ⟨congrArg Reply.line reply, after⟩
  | rset =>
    refine ⟨?_, h.advance given .reset⟩
    show (replyTo resetDone e'.session.reset.1).line = (replyTo resetDone e.session.reset.1).line
    rw [result]
  | quit =>
    exact ⟨by rw [textFor, textFor, h.settings], h.advance h.session .quit⟩
  | _ => exact ⟨rfl, h⟩

/-- a body is followed by the same replies in both -/
theorem deliver_alike (free : e.session.forwarder.ClockBlind ∨ timed) (h : Alike timed e e') (body : Body) :
    (e'.deliver body).1 = (e.deliver body).1 ∧ Alike timed (e.deliver body).2 (e'.deliver body).2 := by
  cases body with
  | tooLarge size =>
    obtain ⟨-, given⟩ := Session.reset_alike free h.session
    refine ⟨?_, h.advance given .dataComplete⟩
    show List.replicate e'.dialogue.envelope.recipients.length _ = List.replicate e.dialogue.envelope.recipients.length _
    rw [h.dialogue]
  | complete octets =>
    obtain ⟨result, statuses, after⟩ := Session.data_alike free h.session (.ofChunks [octets] none)
    refine ⟨?_, h.advance after .dataComplete⟩
    rcases data : e.session.data (.ofChunks [octets] none) with ⟨made, reported, s⟩
    rcases data' : e'.session.data (.ofChunks [octets] none) with ⟨made', reported', s'⟩
    rw [data, data'] at result statuses
    obtain rfl : made' = made := result
    obtain rfl : reported' = reported := statuses
    rw [deliver_of_data data, deliver_of_data data', h.dialogue]

/-! ## Turns -/

/-- two turns from these dialogues end them with the same result, or both let them go on, the second with so much left
to read; they have told the same, and the dialogues are alike -/
abbrev TurnsAlike (timed : Prop) (e e' : Engine σ) (later : Octets) : Turn σ → Turn σ → Prop :=
  Turn.InStep (fun e₁ _ e₁' rest' => (Alike timed e₁ e₁' ∧ Echoes e e₁ e' e₁') ∧ rest'.octets = later)
    fun r r' => r'.1 = r.1 ∧ Alike timed r.2 r'.2 ∧ Echoes e r.2 e' r'.2

theorem TurnsAlike.after {e₁ e₁' : Engine σ} {later : Octets} {turn turn' : Turn σ}
    (h : TurnsAlike timed e₁ e₁' later turn turn') (quiet : Tells e e₁ []) (quiet' : Tells e' e₁' []) :
    TurnsAlike timed e e' later turn turn' := by
  cases h with
  | ended stopped => exact .ended ⟨stopped.1, stopped.2.1, stopped.2.2.after quiet quiet'⟩
  | next goes => exact .next ⟨⟨goes.1.1, goes.1.2.after quiet quiet'⟩, goes.2⟩

theorem said_alike {e₁ e₁' : Engine σ} (h : Alike timed e₁ e₁') (quiet : Tells e e₁ []) (quiet' : Tells e' e₁' [])
    {s s' : Source} {later : Octets} (left : s'.octets = later) (text : String) :
    TurnsAlike timed e e' later (.next (e₁.saying text) s) (.next (e₁'.saying text) s') :=
  .next ⟨⟨h.said text, [text], quiet.trans (saying_tells e₁ text), quiet'.trans (saying_tells e₁' text)⟩, left⟩

/-- where only a line is taken, all that comes after it is left -/
theorem fronts_line {e₁ : Engine σ} {s s' : Source} {later : Octets}
    (fronts : (Turn.next e₁ s).Fronts s.octets s'.octets later) : s'.octets = later := by
  obtain ⟨front, here, there⟩ := fronts
  rw [List.self_eq_append_left] at here
  rw [there, here, List.nil_append]

variable {ending : Ending}

theorem bodyCome_alike (h : Alike timed e e') {s s' : Source} (ready : timed →
    (s'.readBody e.settings.maxMessageSize e'.now).ready = (s.readBody e.settings.maxMessageSize e.now).ready) :
    Alike timed (e.bodyCome s) (e'.bodyCome s') := by
  apply (h.said _).waited
  intro counts
  rw [h.settings, ready counts]

/-- a body that is delivered is followed by the same in both -/
theorem body_alike (sound : e.Sound) (sound' : e'.Sound) (free : e.session.forwarder.ClockBlind ∨ timed)
    (h : Alike timed e e') {s s' rest rest' : Source} (come : Alike timed (e.bodyCome s) (e'.bodyCome s'))
    (stage : e.dialogue.stage = .recipients) (body : Body) {later : Octets} (left : rest'.octets = later) :
    TurnsAlike timed e e' later
      (.next (((e.bodyCome s).deliver body).2.sayingAll (((e.bodyCome s).deliver body).1.map Reply.line)) rest)
      (.next (((e'.bodyCome s').deliver body).2.sayingAll (((e'.bodyCome s').deliver body).1.map Reply.line)) rest') := by
  have free' : (e.bodyCome s).session.forwarder.ClockBlind ∨ timed := by
    have kept : (e.bodyCome s).session.forwarder = e.session.forwarder := Session.waitUntil_forwarder _ _
    rw [kept]
    exact free
  obtain ⟨replies, delivered⟩ := deliver_alike free' come body
  rw [replies]
  exact .next ⟨⟨delivered.saidAll _, _, sound.body_tells stage s body _,
    sound'.body_tells (h.dialogue ▸ stage) s' body _⟩, left⟩

theorem Handled.of_refused {s : Source} {line : Except CommandFault Command} {turn : Turn σ}
    (handled : Handled ending e s line turn) (refused : e.dialogue.stage.allows (verbOf line) = false) :
    turn = .next (e.saying (outOfSequence e.dialogue.stage (verbOf line)).line) s := by
  cases handled with
  | refused _ => rfl
  | invalid allowed => cases refused.symm.trans allowed
  | performed allowed _ _ => cases refused.symm.trans allowed
  | quit allowed => cases refused.symm.trans allowed
  | bodyCut allowed _ => cases refused.symm.trans allowed
  | body allowed _ => cases refused.symm.trans allowed

/-- a command line comes to the same in both -/
theorem Handled.alike (sound : e.Sound) (sound' : e'.Sound) (free : e.session.forwarder.ClockBlind ∨ timed)
    (h : Alike timed e e') {s s' : Source} {line : Except CommandFault Command} {turn turn' : Turn σ}
    (handled : Handled ending e s line turn) (handled' : Handled ending e' s' line turn') {later : Octets}
    (fronts : turn.Fronts s.octets s'.octets later)
    (ready : line = .ok .data → e.dialogue.stage.allows .data = true → timed →
      (s'.readBody e.settings.maxMessageSize e'.now).ready = (s.readBody e.settings.maxMessageSize e.now).ready) :
    TurnsAlike timed e e' later turn turn' := by
  -- what the first dialogue lets come the second does not refuse
  have may : ∀ {verb : Verb}, e.dialogue.stage.allows verb = true → e'.dialogue.stage.allows verb = false → False := by
    intro verb allowed refused
    rw [h.dialogue, allowed] at refused
    cases refused
  cases handled with
  | refused refused =>
    rw [← h.dialogue] at refused
    rw [handled'.of_refused refused, h.dialogue]
    exact said_alike h (.refl e) (.refl e') (fronts_line fronts) _
  | invalid allowed =>
    cases handled' with
    | refused refused => exact (may allowed refused).elim
    | invalid _ => exact said_alike h (.refl e) (.refl e') (fronts_line fronts) _
  | @performed command allowed not_data not_quit =>
    cases handled' with
    | refused refused => exact (may allowed refused).elim
    | quit _ => exact absurd rfl not_quit
    | bodyCut _ _ => exact absurd rfl not_data
    | body _ _ => exact absurd rfl not_data
    | performed _ _ _ =>
      obtain ⟨text, done⟩ := doing_alike free h command
      rw [text]
      exact said_alike done (doing_tells e command) (doing_tells e' command) (fronts_line fronts) _
  | quit allowed =>
    cases handled' with
    | refused refused => exact (may allowed refused).elim
    | performed _ _ not_quit => exact absurd rfl not_quit
    | quit _ =>
      obtain ⟨-, done⟩ := doing_alike free h .quit
      rw [h.settings]
      exact .ended ⟨rfl, done.said _, _, (doing_tells e .quit).trans (saying_tells _ _),
        (doing_tells e' .quit).trans (saying_tells _ _)⟩
  | bodyCut allowed cut =>
    have same : s'.octets = s.octets := fronts
    cases handled' with
    | refused refused => exact (may allowed refused).elim
    | performed _ not_data _ => exact absurd rfl not_data
    | body _ split =>
      rw [same, cut] at split
      cases split
    | bodyCut _ _ =>
      exact .ended ⟨rfl, bodyCome_alike h (ready rfl allowed), _, bodyCome_said e s, bodyCome_said e' s'⟩
  | @body allowed octets split =>
    obtain ⟨front, here, there⟩ := fronts
    obtain ⟨front', here', -, others⟩ := splitBody_front split
    obtain rfl : front' = front := List.append_cancel_right (here'.symm.trans here)
    have body : splitBody s'.octets = some (octets, later) := by rw [there, others]
    cases handled' with
    | refused refused => exact (may allowed refused).elim
    | performed _ not_data _ => exact absurd rfl not_data
    | bodyCut _ cut => cases body.symm.trans cut
    | body _ split' =>
      obtain ⟨rfl, left⟩ := Prod.mk.inj (Option.some.inj (body.symm.trans split'))
      have stage : e.dialogue.stage = .recipients := by simpa [Stage.allows] using allowed
      rw [h.settings] at left ⊢
      exact body_alike sound sound' free h (bodyCome_alike h (ready rfl allowed)) stage _ left.symm

/-- where a body is read in this turn of either dialogue, it comes at the same moment -/
def BodiesMeet (e : Engine σ) (s : Source) (e' : Engine σ) (s' : Source) : Prop :=
  ∀ {e₁ e₁' : Engine σ} {rest rest' : Source}, e.heeds s = some (e₁, .ok .data, rest) →
    e'.heeds s' = some (e₁', .ok .data, rest') → e₁.dialogue.stage.allows .data = true →
    (rest'.readBody e₁.settings.maxMessageSize e₁'.now).ready = (rest.readBody e₁.settings.maxMessageSize e₁.now).ready

/-- **A turn leaves dialogues alike, and tells the same.** -/
theorem turn_alike {s s' : Source} (h : Unhindered ending e s) (h' : Unhindered ending e' s')
    (free : e.session.forwarder.ClockBlind ∨ timed)
    (come : Alike timed (e.lineCome (e.lineTime s)) (e'.lineCome (e'.lineTime s')))
    (bodies : timed → e.BodiesMeet s e' s') {later : Octets}
    (fronts : (e.turn s).FrontLines s.octets s'.octets later) :
    TurnsAlike timed e e' later (e.turn s) (e'.turn s') := by
  obtain ⟨same, rests⟩ := fronts.line
  rw [← h.line_left, ← h'.line_left] at rests
  have turned := h.turned
  have turned' := h'.turned
  generalize e.turn s = turn at turned rests
  cases turned with
  | ended none_left =>
    rw [← same] at none_left
    rw [h'.turn_at_end none_left]
    exact .ended ⟨rfl, come, [], e.lineCome_tells _, e'.lineCome_tells _⟩
  | tooLong long =>
    rw [← same] at long
    generalize e'.turn s' = turn' at turned'
    cases turned' with
    | ended none_left => exact absurd (long.symm.trans none_left) (by cases ending <;> simp [Ending.error])
    | tooLong _ => exact said_alike come (e.lineCome_tells _) (e'.lineCome_tells _) (fronts_line rests) _
    | heeded first _ _ _ => cases long.symm.trans first
  | heeded first parsed heeds handled =>
    rw [← same] at first
    generalize e'.turn s' = turn' at turned'
    cases turned' with
    | ended none_left => cases first.symm.trans none_left
    | tooLong long => cases first.symm.trans long
    | heeded first' parsed' heeds' handled' =>
      obtain rfl := Except.ok.inj (Option.some.inj (first.symm.trans first'))
      obtain rfl := parsed.symm.trans parsed'
      have kept := (act_tools (e.lineCome_act (e.lineTime s)) h.sound).1
      have turns := Handled.alike (act_sound (e.lineCome_act _) h.sound) (act_sound (e'.lineCome_act _) h'.sound)
        (kept.symm ▸ free) come handled handled' rests
        (fun data allowed counts => bodies counts (data ▸ heeds) (data ▸ heeds') allowed)
      exact turns.after (e.lineCome_tells _) (e'.lineCome_tells _)

/-! ## Runs -/

/-- two dialogues that are alike and have told the same, each undisturbed over a whole stream of the same octets -/
structure Attuned (ending : Ending) (e : Engine σ) (s : Source) (e' : Engine σ) (s' : Source) : Prop where
  first : Unhindered ending e s
  second : Unhindered ending e' s'
  blind : e.session.forwarder.ClockBlind
  alike : Alike False e e'
  said : e'.session.journal.said = e.session.journal.said
  same : s'.octets = s.octets

theorem Attuned.turn {s s' : Source} (h : Attuned ending e s e' s') : (e.turn s).InStep (Attuned ending)
    (fun r r' => r'.2.session.journal.said = r.2.session.journal.said) (e'.turn s') := by
  have told : ∀ {e₁ e₁' : Engine σ}, Echoes e e₁ e' e₁' → e₁'.session.journal.said = e₁.session.journal.said := by
    rintro e₁ e₁' ⟨texts, here, there⟩
    rw [here, there, h.said]
  obtain ⟨later, fronts, left⟩ : ∃ later, (e.turn s).FrontLines s.octets s'.octets later ∧
      ∀ e₁ rest, e.turn s = .next e₁ rest → rest.octets = later := by
    rw [h.same]
    cases next : e.turn s with
    | ended result e₁ => exact ⟨[], rfl, fun _ _ other => by cases other⟩
    | next e₁ rest =>
      obtain ⟨front, here, ends⟩ := h.first.takes next
      refine ⟨rest.octets, ⟨front, here, here, ends.imp_right fun none_left => ⟨none_left, none_left⟩⟩, ?_⟩
      intro _ _ same
      rw [(Turn.next.inj same).2]
  have turns := turn_alike h.first h.second (.inl h.blind) (h.alike.lineCome False.elim) False.elim fronts
  generalize next : e.turn s = turn at turns left
  generalize next' : e'.turn s' = turn' at turns
  cases turns with
  | ended stopped => exact .ended (told stopped.2.2)
  | @next e₁ e₁' rest rest' goes =>
    obtain ⟨⟨alike, echoes⟩, left'⟩ := goes
    have forwarder := ((next_acts next).tools h.first.sound).1
    exact .next ⟨h.first.next next, h.second.next next', forwarder.symm ▸ h.blind, alike, told echoes,
      left'.trans (left e₁ rest rfl).symm⟩

/-- **Dialogues that hear the same octets tell the same.** -/
theorem Attuned.serve {s s' : Source} (h : Attuned ending e s e' s') :
    (e'.serve s').2.session.journal.said = (e.serve s).2.session.journal.said :=
  serve_inStep Attuned.turn h

end Engine
end LmtpRelay
