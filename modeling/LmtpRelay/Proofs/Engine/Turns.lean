/-
What a turn comes to when nothing disturbs it. A dialogue is punctual when no wait in it comes to its end, and it sends
all it says when it fails, if it does, in reading only (`sends`). Over a stream that ends in one way, there are then a few
things that a command line can come to (`Handled`), and a few that a turn can come to (`Turned`); all that is proved of
undisturbed dialogues is proved by cases on them.

- `Unhindered.turned`: what a turn comes to.
- `Unhindered.takes`: a turn takes whole lines off the front of its stream, or all there is.
- `Undisturbed`, `Assured`: runs that nothing disturbs.
-/
import LmtpRelay.Proofs.Engine.Accord
import LmtpRelay.Proofs.Wire.Framing

namespace LmtpRelay

variable {σ : Type}

/-- what a dialogue comes to whose stream has ended -/
def Ending.outcome : Ending → Except ConnectionError Unit
  | .closed => .ok ()
  | .failure f => .error (.io f)

/-- a turn fails for want of reading or writing only where something holds -/
def Turn.FailsIf (p : Prop) (t : Turn σ) : Prop := ∀ failure e, t = .ended (.error (.io failure)) e → p

namespace Engine

/-! ## Undisturbed dialogues -/

/-- whether the wait for the next line comes to its end -/
def hearsLine (e : Engine σ) (s : Source) : Bool :=
  !e.isSpent && match (e.awaitTurn (s.readLine e.now)).1 with
    | .line _ => true
    | _ => false

/-- whether a body is awaited next, and the wait for it does not come to its end -/
def hearsBody (e : Engine σ) (s : Source) : Bool :=
  match e.heeds s with
  | some (e, .ok .data, rest) => !e.dialogue.stage.allows .data || (e.awaitedBody rest).isSome
  | _ => true

/-- whether no wait comes to its end: neither for a line, nor for a body, nor the dialogue as a whole; and it is not told
to shut down while it waits -/
def punctual (e : Engine σ) (s : Source) : Bool :=
  e.hearsLine s && e.hearsBody s &&
    match _h : e.turn s with
    | .ended _ _ => true
    | .next e rest => punctual e rest
termination_by s.size
decreasing_by exact turn_rest _h

/-- whether the body after DATA is let come and cannot be read -/
def bodyFails (e : Engine σ) (s : Source) : Bool :=
  (e.surroundings.outageAt e.now).isNone && match e.awaitedBody s with
    | some (.error (.io _)) => true
    | _ => false

/-- whether the next line, or the body after it, cannot be read -/
def readFails (e : Engine σ) (s : Source) : Bool :=
  match e.heeds s with
  | some (e, .ok .data, rest) => e.dialogue.stage.allows .data && e.bodyFails rest
  | some _ => false
  | none => !e.isSpent && match (e.awaitTurn (s.readLine e.now)).1 with
    | .line (.error (.io _)) => true
    | _ => false

/-- whether all that is said is sent: where the dialogue fails, it fails in reading -/
def sends (e : Engine σ) (s : Source) : Bool :=
  match _h : e.turn s with
  | .ended (.error (.io _)) _ => e.readFails s
  | .ended _ _ => true
  | .next e rest => sends e rest
termination_by s.size
decreasing_by exact turn_rest _h

/-- a sound dialogue that nothing disturbs, over a stream that ends in one way -/
structure Unhindered (ending : Ending) (e : Engine σ) (s : Source) : Prop where
  sound : e.Sound
  till : s.WholeTill ending
  punctual : e.punctual s = true
  sends : e.sends s = true

variable {ending : Ending} {e e₁ : Engine σ} {s rest : Source}

theorem punctual_turn (h : e.punctual s = true) : e.hearsLine s = true ∧ e.hearsBody s = true := by
  rw [punctual] at h
  simp only [Bool.and_eq_true] at h
  exact h.1

theorem punctual_next (h : e.punctual s = true) (next : e.turn s = .next e₁ rest) : e₁.punctual rest = true := by
  rw [punctual] at h
  simp only [Bool.and_eq_true] at h
  obtain ⟨-, later⟩ := h
  split at later
  · next ended => cases next.symm.trans ended
  · next same =>
    obtain ⟨rfl, rfl⟩ := Turn.next.inj (next.symm.trans same)
    exact later

theorem sends_turn (h : e.sends s = true) : (e.turn s).FailsIf (e.readFails s = true) := by
  intro failure e' failed
  rw [sends] at h
  split at h
  · exact h
  · next result _ other ended =>
    exact (other failure (Turn.ended.inj (ended.symm.trans failed)).1).elim
  · next next => cases failed.symm.trans next

theorem sends_next (h : e.sends s = true) (next : e.turn s = .next e₁ rest) : e₁.sends rest = true := by
  rw [sends] at h
  split at h
  · next ended => cases next.symm.trans ended
  · next ended => cases next.symm.trans ended
  · next same =>
    obtain ⟨rfl, rfl⟩ := Turn.next.inj (next.symm.trans same)
    exact h

/-- a dialogue that does not fail sends all it says -/
theorem sends_of_serve (h : ∀ failure, (e.serve s).1 ≠ .error (.io failure)) : e.sends s = true := by
  induction e, s using serve.induct with
  | case1 e s result e₁ hturn =>
    rw [sends]
    split
    · next failure _ failed => exact absurd (congrArg Prod.fst (serve_ended failed).1) (h failure)
    · rfl
    · next next => cases hturn.symm.trans next
  | case2 e s e₁ rest hturn ih =>
    rw [(serve_next hturn).1] at h
    rw [sends]
    split
    · next ended => cases hturn.symm.trans ended
    · next ended => cases hturn.symm.trans ended
    · next same =>
      obtain ⟨rfl, rfl⟩ := Turn.next.inj (hturn.symm.trans same)
      exact ih h

/-! ## Saying -/

/-- one text is sent, and the dialogue goes on -/
theorem goOn_say {text : String} (sends : (goOn (e.say text) s).FailsIf False) :
    goOn (e.say text) s = .next (e.saying text) s := by
  rw [say_eq] at sends ⊢
  cases ho : e.surroundings.outageAt e.now with
  | none => rfl
  | some failure =>
    rw [ho] at sends
    exact (sends failure e rfl).elim

theorem goOn_sendAll {replies : List Reply} (sends : (goOn (e.sendAll replies) s).FailsIf False) :
    goOn (e.sendAll replies) s = .next (e.sayingAll (replies.map Reply.line)) s := by
  cases ho : e.surroundings.outageAt e.now with
  | none =>
    rw [sendAll_eq ho]
    rfl
  | some failure =>
    cases replies with
    | nil => rfl
    | cons reply rest =>
      rw [sendAll, send, say_eq, ho] at sends
      exact (sends failure e rfl).elim

theorem leave_say {reply : Reply} (sends : (e.leave reply).FailsIf False) :
    e.leave reply = .ended (.ok ()) (e.saying reply.line) := by
  unfold leave at sends ⊢
  rw [send, say_eq] at sends ⊢
  cases ho : e.surroundings.outageAt e.now with
  | none => rfl
  | some failure =>
    rw [ho] at sends
    exact (sends failure e rfl).elim

/-- a dialogue has told its peer something more -/
def Tells (e e₁ : Engine σ) (texts : List String) : Prop :=
  e₁.session.journal.said = e.session.journal.said ++ texts

theorem Tells.refl (e : Engine σ) : Tells e e [] := (List.append_nil _).symm

theorem Tells.trans {e₂ : Engine σ} {texts more : List String} (h : Tells e e₁ texts) (h' : Tells e₁ e₂ more) :
    Tells e e₂ (texts ++ more) := by
  unfold Tells at *
  rw [h', h, List.append_assoc]

theorem saying_tells (e : Engine σ) (text : String) : Tells e (e.saying text) [text] := e.sayingAll_said [text]

/-- nothing is told while a command is carried out -/
theorem doing_tells (e : Engine σ) (command : Command) : Tells e (e.doing command) [] :=
  (doing_said e command).trans (List.append_nil _).symm

/-- while a body is awaited and delivered, the peer is told that it may come -/
theorem Sound.body_tells (sound : e.Sound) (stage : e.dialogue.stage = .recipients) (s : Source) (body : Body)
    (texts : List String) :
    Tells e (((e.bodyCome s).deliver body).2.sayingAll texts) (startBody.line :: texts) := by
  unfold Tells
  rw [sayingAll_said, (bodyCome_sound sound s).deliver_said stage, bodyCome_said, List.append_assoc]
  rfl

theorem sayingAll_dialogue (e : Engine σ) (texts : List String) : (e.sayingAll texts).dialogue = e.dialogue := by
  induction texts generalizing e with
  | nil => rfl
  | cons text texts ih => exact ih (e.saying text)

/-! ## Command lines -/

/-- what is said for a command that may come now -/
def textFor (e : Engine σ) : Command → String
  | .lhlo _ => Status.done.lines (capabilities e.settings)
  | .helo _ => wrongGreeting.line
  | .mail sender params => (e.mail sender params).1.line
  | .rcpt recipient _ => (e.rcpt recipient).1.line
  | .data => startBody.line
  | .rset => e.rset.1.line
  | .noop => nothingDone.line
  | .quit => (farewell e.settings).line
  | .vrfy _ => cannotVerify.line
  | .help => help.line
  | .auth _ => SessionError.authUnsupported.reply.line

/-- a command is carried out and answered by one text; DATA and QUIT apart -/
theorem perform_text {command : Command} (not_data : command ≠ .data) (not_quit : command ≠ .quit) (e : Engine σ)
    (s : Source) : e.perform command s = goOn ((e.doing command).say (e.textFor command)) s := by
  cases command with
  | data => exact absurd rfl not_data
  | quit => exact absurd rfl not_quit
  | lhlo client =>
    have same : (e.doing (.lhlo client)).settings = e.settings := by
      unfold doing
      dsimp only
      split <;> rfl
    show goOn ((e.doing (.lhlo client)).say (Status.done.lines (capabilities (e.doing (.lhlo client)).settings))) s = _
    rw [same]
    rfl
  | _ => rfl

/-- what dealing with a command line comes to that nothing disturbs -/
inductive Handled (ending : Ending) (e : Engine σ) (s : Source) : Except CommandFault Command → Turn σ → Prop where
  /-- the line may not come now -/
  | refused {line : Except CommandFault Command} (refused : e.dialogue.stage.allows (verbOf line) = false) :
      Handled ending e s line (.next (e.saying (outOfSequence e.dialogue.stage (verbOf line)).line) s)
  /-- the line is no command -/
  | invalid {fault : CommandFault} (allowed : e.dialogue.stage.allows .invalid = true) :
      Handled ending e s (.error fault) (.next (e.saying (syntaxError fault).line) s)
  | performed {command : Command} (allowed : e.dialogue.stage.allows command.verb = true) (not_data : command ≠ .data)
      (not_quit : command ≠ .quit) :
      Handled ending e s (.ok command) (.next ((e.doing command).saying (e.textFor command)) s)
  | quit (allowed : e.dialogue.stage.allows .quit = true) :
      Handled ending e s (.ok .quit) (.ended (.ok ()) ((e.doing .quit).saying (farewell e.settings).line))
  /-- the stream ends before the body does -/
  | bodyCut (allowed : e.dialogue.stage.allows .data = true) (cut : splitBody s.octets = none) :
      Handled ending e s (.ok .data) (.ended (.error ending.error) (e.bodyCome s))
  | body (allowed : e.dialogue.stage.allows .data = true) {octets : Octets}
      (split : splitBody s.octets = some (octets, (s.readBody e.settings.maxMessageSize e.now).rest.octets)) :
      Handled ending e s (.ok .data) (.next
        (((e.bodyCome s).deliver (Body.within e.settings.maxMessageSize octets)).2.sayingAll
          (((e.bodyCome s).deliver (Body.within e.settings.maxMessageSize octets)).1.map Reply.line))
        (s.readBody e.settings.maxMessageSize e.now).rest)

theorem data_handled (till : s.WholeTill ending) (allowed : e.dialogue.stage.allows .data = true)
    (hears : (e.awaitedBody s).isSome = true) (sends : (e.data s).FailsIf (e.bodyFails s = true)) :
    Handled ending e s (.ok .data) (e.data s) := by
  unfold bodyFails at sends
  cases free : e.surroundings.outageAt e.now with
  | some failure =>
    rw [data_eq, send, say_eq, free] at sends
    cases sends failure e rfl
  | none =>
    obtain ⟨result, come⟩ := Option.isSome_iff_exists.1 hears
    rcases till.readBody (awaitedBody_value come) with ⟨octets, split, rfl⟩ | ⟨cut, rfl⟩
    · rw [data_of_body free come] at sends ⊢
      rw [come, Bool.and_false] at sends
      rw [goOn_sendAll fun failure e' failed => Bool.false_ne_true (sends failure e' failed)]
      exact .body allowed split
    · have awaited : (e.saying startBody.line).awaitedBody s = some (.error ending.error) := come
      have turned : e.data s = .ended (.error ending.error) (e.bodyCome s) := by
        rw [data_eq, send_eq free]
        dsimp only
        rw [awaited]
        rfl
      rw [turned]
      exact .bodyCut allowed cut

theorem handle_handled {line : Except CommandFault Command} (till : s.WholeTill ending)
    (hears : line = .ok .data → e.dialogue.stage.allows .data = true → (e.awaitedBody s).isSome = true)
    (sends : (e.handle line s).FailsIf (line = .ok .data ∧ e.dialogue.stage.allows .data = true ∧
      e.bodyFails s = true)) : Handled ending e s line (e.handle line s) := by
  by_cases allowed : e.dialogue.stage.allows (verbOf line) = true
  · cases line with
    | error fault =>
      have turned : e.handle (.error fault) s = goOn (e.say (syntaxError fault).line) s := if_pos allowed
      rw [turned] at sends ⊢
      rw [goOn_say fun failure e' failed => by cases (sends failure e' failed).1]
      exact .invalid allowed
    | ok command =>
      have turned : e.handle (.ok command) s = e.perform command s := if_pos allowed
      rw [turned] at sends ⊢
      by_cases data : command = .data
      · subst data
        exact data_handled till allowed (hears rfl allowed) fun failure e' failed => (sends failure e' failed).2.2
      · have plain : (e.perform command s).FailsIf False := fun failure e' failed =>
          data (Except.ok.inj (sends failure e' failed).1)
        by_cases quit : command = .quit
        · subst quit
          have last : e.perform .quit s = (e.doing .quit).leave (farewell e.settings) := rfl
          rw [last] at plain ⊢
          rw [leave_say plain]
          exact .quit allowed
        · rw [perform_text data quit] at plain ⊢
          rw [goOn_say plain]
          exact .performed allowed data quit
  · have turned : e.handle line s = goOn (e.say (outOfSequence e.dialogue.stage (verbOf line)).line) s :=
      if_neg allowed
    rw [turned] at sends ⊢
    rw [goOn_say fun failure e' failed => by
      obtain ⟨rfl, may, -⟩ := sends failure e' failed
      exact allowed may]
    exact .refused (Bool.eq_false_iff.2 allowed)

/-! ## Lines -/

def lineCome (e : Engine σ) (t : Instant) : Engine σ := { e.waitUntil t with turns := e.turns + 1 }

theorem lineCome_act (e : Engine σ) (t : Instant) : Act e [] (e.lineCome t) := .wait e t (e.turns + 1)

theorem lineCome_tells (e : Engine σ) (t : Instant) : Tells e (e.lineCome t) [] :=
  (Session.waitUntil_steady e.session t).said.trans (List.append_nil _).symm

theorem lineCome_resolver (e : Engine σ) (t : Instant) : (e.lineCome t).session.resolver = e.session.resolver :=
  Session.waitUntil_resolver e.session t

def lineTime (e : Engine σ) (s : Source) : Instant := max e.now (s.readLine e.now).ready

theorem lineCome_now (e : Engine σ) (s : Source) : (e.lineCome (e.lineTime s)).now = e.lineTime s := by
  have waited : (e.lineCome (e.lineTime s)).now = max e.now (e.lineTime s) := Session.waitUntil_now _ _
  rw [waited]
  exact Nat.max_eq_right (Nat.le_max_left _ _)

theorem awaitTurn_time {result : Except ConnectionError Octets} {t : Instant}
    (h : e.awaitTurn (s.readLine e.now) = (.line result, t)) : t = e.lineTime s := by
  have line_time : ∀ {t}, e.awaitLine (s.readLine e.now) = (.line result, t) → t = e.lineTime s := by
    intro t ht
    unfold awaitLine at ht
    dsimp only at ht
    split at ht
    · exact (Prod.mk.inj ht).2.symm
    · cases (Prod.mk.inj ht).1
  unfold awaitTurn at h
  dsimp only at h
  split at h
  · exact line_time h
  · split at h
    · cases (Prod.mk.inj h).1
    · exact line_time h

theorem hearsLine_read (h : e.hearsLine s = true) : e.isSpent = false ∧
    ∃ result, e.awaitTurn (s.readLine e.now) = (.line result, e.lineTime s) ∧
      (s.readLine e.now).value = some result := by
  unfold hearsLine at h
  rw [Bool.and_eq_true, Bool.not_eq_true'] at h
  obtain ⟨lasts, waited⟩ := h
  rcases hw : e.awaitTurn (s.readLine e.now) with ⟨kind, t⟩
  rw [hw] at waited
  cases kind with
  | signal => cases waited
  | timedOut => cases waited
  | line result =>
    obtain rfl := awaitTurn_time hw
    exact ⟨lasts, result, rfl, awaitTurn_line hw⟩

theorem heeds_come {line : Except CommandFault Command} (h : e.heeds s = some (e₁, line, rest)) :
    e₁ = e.lineCome (e.lineTime s) ∧ rest = (s.readLine e.now).rest := by
  unfold heeds at h
  split at h
  · cases h
  · dsimp only at h
    split at h
    · next line t hw =>
      obtain ⟨rfl, -, rfl⟩ : e.lineCome t = e₁ ∧ _ ∧ _ := by simpa [lineCome] using h
      exact ⟨congrArg e.lineCome (awaitTurn_time hw), rfl⟩
    · cases h

theorem hearsBody_of_heeds {line : Except CommandFault Command} (heeds : e.heeds s = some (e₁, line, rest))
    (h : e.hearsBody s = true) :
    line = .ok .data → e₁.dialogue.stage.allows .data = true → (e₁.awaitedBody rest).isSome = true := by
  rintro rfl allowed
  unfold hearsBody at h
  rw [heeds] at h
  simpa [allowed] using h

/-- what a turn comes to that nothing disturbs -/
inductive Turned (ending : Ending) (e : Engine σ) (s : Source) : Turn σ → Prop where
  | ended (none_left : firstLine (some ending) s.octets = some (.error ending.error)) :
      Turned ending e s (.ended ending.outcome (e.lineCome (e.lineTime s)))
  | tooLong {limit : Nat} (long : firstLine (some ending) s.octets = some (.error (.lineTooLong limit))) :
      Turned ending e s (.next ((e.lineCome (e.lineTime s)).saying lineTooLong.line) (s.readLine e.now).rest)
  | heeded {octets : Octets} (first : firstLine (some ending) s.octets = some (.ok octets))
      {line : Except CommandFault Command} (parsed : Command.parse octets = line)
      (heeds : e.heeds s = some (e.lineCome (e.lineTime s), line, (s.readLine e.now).rest)) {turn : Turn σ}
      (handled : Handled ending (e.lineCome (e.lineTime s)) (s.readLine e.now).rest line turn) :
      Turned ending e s turn

/-- the first line of a stream cannot be read where it is too long or where the stream ends -/
theorem firstLine_error {bs : Octets} {error : ConnectionError}
    (first : firstLine (some ending) bs = some (.error error)) :
    error = .lineTooLong lineLimit ∨ error = ending.error := by
  unfold firstLine at first
  split at first
  · split at first
    · cases first
    · exact .inl (Except.error.inj (Option.some.inj first)).symm
  · rw [Option.map_some] at first
    split at first
    · cases first
    · exact .inr (Except.error.inj (Option.some.inj first)).symm

/-- what dealing with a line comes to that is heeded in a turn -/
theorem Unhindered.handled (h : Unhindered ending e s) {line : Except CommandFault Command}
    (heeds : e.heeds s = some (e₁, line, rest)) : Handled ending e₁ rest line (e.turn s) := by
  have hears := hearsBody_of_heeds heeds (punctual_turn h.punctual).2
  have sends := sends_turn h.sends
  have till : rest.WholeTill ending := by
    rw [(heeds_come heeds).2]
    exact h.till.afterLine _
  rw [turn_of_heeds heeds] at sends ⊢
  refine handle_handled till hears fun failure e' failed => ?_
  have fails := sends failure e' failed
  unfold readFails at fails
  rw [heeds] at fails
  split at fails
  · next same =>
    obtain ⟨rfl, rfl, rfl⟩ : e₁ = _ ∧ line = .ok .data ∧ rest = _ := by simpa using same
    rw [Bool.and_eq_true] at fails
    exact ⟨rfl, fails.1, fails.2⟩
  · cases fails
  · next none_heeded => cases none_heeded

/-- **What a turn comes to that nothing disturbs.** -/
theorem Unhindered.turned (h : Unhindered ending e s) : Turned ending e s (e.turn s) := by
  obtain ⟨lasts, result, waited, read⟩ := hearsLine_read (punctual_turn h.punctual).1
  have first := (h.till.readLine read).1
  have sends := sends_turn h.sends
  have in_time : ¬e.isSpent = true := by simp [lasts]
  cases result with
  | ok line =>
    have heeds : e.heeds s
        = some (e.lineCome (e.lineTime s), Command.parse line, (s.readLine e.now).rest) := by
      unfold heeds
      rw [if_neg in_time]
      dsimp only
      rw [waited]
      rfl
    exact .heeded first rfl heeds (h.handled heeds)
  | error error =>
    have none_heeded : e.heeds s = none := by
      unfold heeds
      rw [if_neg in_time]
      dsimp only
      rw [waited]
    unfold turn at sends ⊢
    rw [if_neg in_time] at sends ⊢
    dsimp only at sends ⊢
    rw [waited] at sends ⊢
    cases error with
    | lineTooLong limit =>
      have long : (goOn ((e.lineCome (e.lineTime s)).say lineTooLong.line) (s.readLine e.now).rest).FailsIf False := by
        intro failure e' failed
        have fails := sends failure e' failed
        unfold readFails at fails
        rw [none_heeded, waited, Bool.and_false] at fails
        cases fails
      show Turned ending e s (goOn ((e.lineCome (e.lineTime s)).say lineTooLong.line) (s.readLine e.now).rest)
      rw [goOn_say long]
      exact .tooLong first
    | closed =>
      rcases firstLine_error first with long | ends
      · cases long
      · cases ending with
        | closed => exact .ended first
        | failure f => cases ends
    | io failure =>
      rcases firstLine_error first with long | ends
      · cases long
      · cases ending with
        | closed => cases ends
        | failure f =>
          obtain rfl := ConnectionError.io.inj ends
          exact .ended first

theorem Unhindered.turn_at_end (h : Unhindered ending e s)
    (none_left : firstLine (some ending) s.octets = some (.error ending.error)) :
    e.turn s = .ended ending.outcome (e.lineCome (e.lineTime s)) := by
  have turned := h.turned
  generalize e.turn s = turn at turned
  cases turned with
  | ended _ => rfl
  | tooLong long => exact absurd (none_left.symm.trans long) (by cases ending <;> simp [Ending.error])
  | heeded first _ _ _ => cases none_left.symm.trans first

/-! ## What is left of the stream -/

theorem Unhindered.line_read (h : Unhindered ending e s) : ∃ result, (s.readLine e.now).value = some result := by
  obtain ⟨-, result, -, read⟩ := hearsLine_read (punctual_turn h.punctual).1
  exact ⟨result, read⟩

theorem Unhindered.line_left (h : Unhindered ending e s) : (s.readLine e.now).rest.octets = (splitLine s.octets).2 := by
  obtain ⟨result, read⟩ := h.line_read
  exact (h.till.readLine read).2

/-- a turn leaves what its line leaves of the stream, or what the body after it leaves of that -/
theorem Unhindered.left (h : Unhindered ending e s) (next : e.turn s = .next e₁ rest) :
    rest = (s.readLine e.now).rest ∨ ∃ octets max now,
      splitBody (s.readLine e.now).rest.octets = some (octets, rest.octets) ∧
        rest = ((s.readLine e.now).rest.readBody max now).rest := by
  have turned := h.turned
  rw [next] at turned
  cases turned with
  | tooLong long => exact .inl rfl
  | heeded first parsed heeds handled =>
    cases handled with
    | refused refused => exact .inl rfl
    | invalid allowed => exact .inl rfl
    | performed allowed not_data not_quit => exact .inl rfl
    | body allowed split => exact .inr ⟨_, _, _, split, rfl⟩

/-- what is left of a stream in order is in order, and ends as it did -/
theorem Unhindered.leaves (h : Unhindered ending e s) (ordered : InOrder s.arrivals) (next : e.turn s = .next e₁ rest) :
    s.Leaves rest := by
  have after := Source.readLine_leaves ordered e.now
  rcases h.left next with rfl | ⟨octets, max, now, -, rfl⟩
  · exact after
  · exact after.trans (Source.readBodyFrom_leaves after.ordered max now .initial)

/-- **What is left for the next turn.** -/
theorem Unhindered.next (h : Unhindered ending e s) (next : e.turn s = .next e₁ rest) : Unhindered ending e₁ rest := by
  refine ⟨(next_acts next).sound h.sound, ?_, punctual_next h.punctual next, sends_next h.sends next⟩
  have after := h.till.afterLine e.now
  rcases h.left next with rfl | ⟨octets, max, now, -, rfl⟩
  · exact after
  · exact after.afterBody max now

/-- **A turn takes whole lines off the front of its stream,** or all there is. -/
theorem Unhindered.takes (h : Unhindered ending e s) (next : e.turn s = .next e₁ rest) :
    ∃ front, s.octets = front ++ rest.octets ∧ (endsLine front = true ∨ rest.octets = []) := by
  have first := splitLine_append s.octets
  have line := h.line_left
  rcases h.left next with rfl | ⟨octets, max, now, split, -⟩
  · refine ⟨(splitLine s.octets).1, by rw [line, first], ?_⟩
    cases ends : endsLine (splitLine s.octets).1 with
    | true => exact .inl rfl
    | false =>
      rw [line, splitLine_last ends]
      exact .inr rfl
  · obtain ⟨front, here, ends, -⟩ := splitBody_front split
    rw [line] at here
    refine ⟨(splitLine s.octets).1 ++ front, by rw [List.append_assoc, ← here, first], .inl ?_⟩
    rw [endsLine_append (by rintro rfl; cases ends)]
    exact ends

/-! ## Undisturbed runs -/

/-- a run is punctual, and does not fail for want of reading or writing -/
structure Undisturbed (e₀ : Engine σ) (s₀ : Source) : Prop where
  punctual : (e₀.saying (greeting e₀.settings).line).punctual s₀ = true
  sent : ∀ failure, (e₀.run s₀).1 ≠ .error (.io failure)

/-- a run over a stream that ends in one way is punctual, and all that it says is sent -/
structure Assured (ending : Ending) (e₀ : Engine σ) (s₀ : Source) : Prop where
  till : s₀.WholeTill ending
  greeted : e₀.surroundings.outageAt e₀.now = none
  punctual : (e₀.saying (greeting e₀.settings).line).punctual s₀ = true
  sends : (e₀.saying (greeting e₀.settings).line).sends s₀ = true

variable {e₀ : Engine σ} {s₀ : Source}

theorem Assured.greets (h : Assured ending e₀ s₀) :
    e₀.greetAndServe s₀ = (e₀.saying (greeting e₀.settings).line).serve s₀ := by
  rw [greetAndServe, send_eq h.greeted]

/-- such a run is the greeting, the dialogue and the end of the session -/
theorem Assured.runs (h : Assured ending e₀ s₀) :
    e₀.run s₀ = (((e₀.saying (greeting e₀.settings).line).serve s₀).1,
      { ((e₀.saying (greeting e₀.settings).line).serve s₀).2 with
        session := ((e₀.saying (greeting e₀.settings).line).serve s₀).2.session.logout.2 }) := by
  rw [run, h.greets]

theorem Assured.unhindered (h : Assured ending e₀ s₀) (fresh : e₀.Fresh) :
    Unhindered ending (e₀.saying (greeting e₀.settings).line) s₀ :=
  ⟨act_sound (.say e₀ _) fresh.sound, h.till, h.punctual, h.sends⟩

theorem Undisturbed.assured (h : e₀.Undisturbed s₀) (whole : s₀.Whole) : Assured .closed e₀ s₀ := by
  have result : (e₀.run s₀).1 = (e₀.greetAndServe s₀).1 := rfl
  have sent := h.sent
  rw [result, greetAndServe, send, say_eq] at sent
  cases greeted : e₀.surroundings.outageAt e₀.now with
  | none =>
    rw [greeted] at sent
    exact ⟨whole.till, greeted, h.punctual, sends_of_serve sent⟩
  | some failure =>
    rw [greeted] at sent
    exact absurd rfl (sent failure)

theorem Assured.said (h : Assured ending e₀ s₀) : (e₀.run s₀).2.session.journal.said
    = ((e₀.saying (greeting e₀.settings).line).serve s₀).2.session.journal.said := by
  rw [h.runs]
  exact logout_said _

end Engine
end LmtpRelay
