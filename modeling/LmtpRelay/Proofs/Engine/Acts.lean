/-
A dialogue as a sequence of acts. Whatever a turn does, it is made of a few kinds of act: time passes, a text reaches
the peer, a command that may come now is carried out, and the body that follows DATA is delivered. Each act is labelled
with what was heard of the peer in it, so that a whole run is labelled with all that was heard, in order.

- `turn_acts`, `serve_acts`, `greetAndServe_acts`: a turn, and a run, are acts labelled with `turnHeard`, `heard` and
  `heardInRun`, which are computed from what the peer sends.
- `Acts.keeps`: what every act keeps, a run keeps.
- `Reaches`: the states in which a run goes on to read another line; `Carries`: those in which it carries out a command.
  `Reaches.run`: the run ends as the dialogue does from there.
- `serve_inStep`: dialogues that stay in step in every turn come to related ends.
-/
import LmtpRelay.Engine.Run
import LmtpRelay.Proofs.Session.Frame

namespace LmtpRelay

/-! ## What is heard -/

/-- something that the peer sent and the engine acts on -/
inductive Heard where
  /-- a command that may come now, and whether it is accepted -/
  | command (c : Command) (accepted : Bool)
  /-- the body after DATA, come in time -/
  | body (b : Body)
  deriving DecidableEq, Repr

namespace Heard

/-- the recipients of the open transaction, after one more thing was heard -/
def note (recipients : List String) : Heard → List String
  | .command (.mail _ _) true => []
  | .command (.rcpt recipient _) true => recipients ++ [recipient]
  | _ => recipients

/-- the recipients accepted since a sender was, as the peer wrote them -/
def recipients (heard : List Heard) : List String := heard.foldl note []

/-- the bodies that were heard whole -/
def messages (heard : List Heard) : List Octets :=
  heard.filterMap fun h => match h with
    | .body (.complete octets) => some octets
    | _ => none

theorem messages_append (a b : List Heard) : messages (a ++ b) = messages a ++ messages b :=
  List.filterMap_append

end Heard

def Turn.engine {σ : Type} : Turn σ → Engine σ
  | .ended _ e => e
  | .next e _ => e

namespace Engine

variable {σ : Type}

/-- the command line that a turn deals with: the engine when it has come, what it spells and what is left to read -/
def heeds (e : Engine σ) (s : Source) : Option (Engine σ × Except CommandFault Command × Source) :=
  if e.isSpent then none
  else
    let r := s.readLine e.now
    match e.awaitTurn r with
    | (.line (.ok line), time) =>
      some ({ e.waitUntil time with turns := e.turns + 1 }, Command.parse line, r.rest)
    | _ => none

/-- the body that comes in time after DATA, or the failure to read it -/
def awaitedBody (e : Engine σ) (s : Source) : Option (Except ConnectionError Body) :=
  (s.readBody e.settings.maxMessageSize e.now).within e.now (e.now + seconds e.settings.timeouts.dataSecs)

/-- whether a command that may come now is accepted -/
def accepts (e : Engine σ) : Command → Bool
  | .mail sender params => !e.declaredTooBig params && (e.session.mail sender params).1.isOk
  | .rcpt recipient _ => (e.session.rcpt recipient).1.isOk
  | _ => true

def heardAfterData (e : Engine σ) (s : Source) : List Heard :=
  match e.surroundings.outageAt e.now, e.awaitedBody s with
  | none, some (.ok body) => [.body body]
  | _, _ => []

def heardIn (e : Engine σ) (s : Source) (command : Command) : List Heard :=
  .command command (e.accepts command) :: if command = .data then e.heardAfterData s else []

def turnHeard (e : Engine σ) (s : Source) : List Heard :=
  match e.heeds s with
  | some (e, .ok command, rest) => if e.dialogue.stage.allows command.verb then e.heardIn rest command else []
  | _ => []

/-- what is heard in turn after turn -/
def heard (e : Engine σ) (s : Source) : List Heard :=
  e.turnHeard s ++
    match _h : e.turn s with
    | .ended _ _ => []
    | .next e rest => heard e rest
termination_by s.size
decreasing_by exact turn_rest _h

def heardInRun (e : Engine σ) (s : Source) : List Heard :=
  match e.send (greeting e.settings) with
  | (.ok _, e) => e.heard s
  | (.error _, _) => []

/-! ## Commands -/

/-- a sender is declared too big a message, or is for the session to accept -/
theorem mail_cases (e : Engine σ) (sender : String) (params : Parameters) :
    (e.declaredTooBig params = true ∧ e.mail sender params = (messageTooBig, e)) ∨
    (e.declaredTooBig params = false ∧
      (((e.session.mail sender params).1 = .ok () ∧ e.mail sender params = (senderAccepted,
          { e with session := (e.session.mail sender params).2 }.advance (.mail sender))) ∨
        ∃ error, (e.session.mail sender params).1 = .error error ∧
          e.mail sender params = (error.reply, { e with session := (e.session.mail sender params).2 }))) := by
  unfold mail
  cases big : e.declaredTooBig params with
  | true => exact .inl ⟨rfl, rfl⟩
  | false =>
    dsimp only
    cases hm : (e.session.mail sender params).1 with
    | ok _ => exact .inr ⟨rfl, .inl ⟨rfl, rfl⟩⟩
    | error error => exact .inr ⟨rfl, .inr ⟨error, rfl, rfl⟩⟩

theorem rcpt_cases (e : Engine σ) (recipient : String) :
    ((e.session.rcpt recipient).1 = .ok () ∧ e.rcpt recipient = (recipientAccepted,
      { e with session := (e.session.rcpt recipient).2 }.advance (.rcpt recipient))) ∨
    ∃ error, (e.session.rcpt recipient).1 = .error error ∧
      e.rcpt recipient = (error.reply, { e with session := (e.session.rcpt recipient).2 }) := by
  unfold rcpt
  dsimp only
  cases hr : (e.session.rcpt recipient).1 with
  | ok _ => exact .inl ⟨rfl, rfl⟩
  | error error => exact .inr ⟨error, rfl, rfl⟩

/-! ## Acts -/

/-- a text has reached the peer -/
def saying (e : Engine σ) (text : String) : Engine σ := { e with session := e.session.note (.said text) }

/-- texts have reached the peer, one after another -/
def sayingAll (e : Engine σ) (texts : List String) : Engine σ := texts.foldl saying e

/-- what the engine does for a command, apart from answering it and from reading a body -/
def doing (e : Engine σ) : Command → Engine σ
  | .lhlo client =>
    (if e.dialogue.stage.inTransaction then { e with session := e.session.reset.2 } else e).advance (.lhlo client)
  | .mail sender params => (e.mail sender params).2
  | .rcpt recipient _ => (e.rcpt recipient).2
  | .rset => e.rset.2
  | .quit => e.advance .quit
  | _ => e

/-- one act of the engine, with what is heard in it -/
inductive Act : Engine σ → List Heard → Engine σ → Prop where
  /-- time passes -/
  | wait (e : Engine σ) (t : Instant) (turns : Nat) : Act e [] { e.waitUntil t with turns }
  /-- a text reaches the peer -/
  | say (e : Engine σ) (text : String) : Act e [] (e.saying text)
  /-- a command that a line spells and that may come now is carried out -/
  | perform (e : Engine σ) {line : Octets} {command : Command} (parsed : Command.parse line = .ok command)
      (allowed : e.dialogue.stage.allows command.verb = true) :
      Act e [.command command (e.accepts command)] (e.doing command)
  /-- a body that was read after DATA is delivered -/
  | deliver (e : Engine σ) {s : Source} {now : Instant} {body : Body}
      (read : (s.readBody e.settings.maxMessageSize now).value = some (.ok body))
      (stage : e.dialogue.stage = .recipients) : Act e [.body body] (e.deliver body).2

/-- acts one after another, with all that is heard in them -/
inductive Acts : Engine σ → List Heard → Engine σ → Prop where
  | done (e : Engine σ) : Acts e [] e
  | step {e e₁ e₂ : Engine σ} {l ls : List Heard} (act : Act e l e₁) (rest : Acts e₁ ls e₂) : Acts e (l ++ ls) e₂

theorem Act.one {e e' : Engine σ} {l : List Heard} (h : Act e l e') : Acts e l e' := by
  have := Acts.step h (.done e')
  rwa [List.append_nil] at this

theorem Acts.trans {e₁ e₂ e₃ : Engine σ} {l m : List Heard} (h : Acts e₁ l e₂) (h' : Acts e₂ m e₃) :
    Acts e₁ (l ++ m) e₃ := by
  induction h with
  | done e => exact h'
  | step act _ ih => rw [List.append_assoc]; exact .step act (ih h')

/-- in one act one thing is heard at most -/
theorem Act.heard {e e' : Engine σ} {l : List Heard} (h : Act e l e') : l = [] ∨ ∃ heard, l = [heard] := by
  cases h with
  | wait t turns => exact .inl rfl
  | say text => exact .inl rfl
  | perform parsed allowed => exact .inr ⟨_, rfl⟩
  | deliver read stage => exact .inr ⟨_, rfl⟩

/-- acts come through every part of what is heard in them -/
theorem Acts.before {e e' : Engine σ} {l p : List Heard} (h : Acts e l e') (part : p <+: l) : ∃ e₁, Acts e p e₁ := by
  induction h generalizing p with
  | done e =>
    obtain rfl := List.prefix_nil.1 part
    exact ⟨e, .done e⟩
  | @step e e₁ e₂ l ls act _ ih =>
    rcases act.heard with rfl | ⟨heard, rfl⟩
    · obtain ⟨e', acts⟩ := ih part
      exact ⟨e', .step act acts⟩
    · cases p with
      | nil => exact ⟨e, .done e⟩
      | cons first p =>
        obtain ⟨rfl, later⟩ := List.cons_prefix_cons.1 part
        obtain ⟨e', acts⟩ := ih later
        exact ⟨e', .step act acts⟩

/-- **What every act keeps, a run keeps.** -/
theorem Acts.keeps {P : Engine σ → Prop} (keep : ∀ {e e' : Engine σ} {l : List Heard}, Act e l e' → P e → P e')
    {e e' : Engine σ} {l : List Heard} (h : Acts e l e') (hp : P e) : P e' := by
  induction h with
  | done e => exact hp
  | step act _ ih => exact ih (keep act hp)

/-- an act changes the session, the dialogue and the count of lines, and nothing else -/
theorem Act.frame {e e' : Engine σ} {l : List Heard} (h : Act e l e') :
    ∃ session dialogue turns, e' = { e with session, dialogue, turns } := by
  cases h with
  | wait t turns => exact ⟨_, _, _, rfl⟩
  | say text => exact ⟨_, _, _, rfl⟩
  | deliver read stage =>
    unfold Engine.deliver
    dsimp only
    split <;> exact ⟨_, _, _, rfl⟩
  | @perform line command parsed allowed =>
    cases command with
    | lhlo client =>
      unfold doing
      dsimp only
      split <;> exact ⟨_, _, _, rfl⟩
    | mail sender params =>
      rw [doing]
      rcases e.mail_cases sender params with ⟨-, h⟩ | ⟨-, ⟨-, h⟩ | ⟨error, -, h⟩⟩ <;> rw [h] <;> exact ⟨_, _, _, rfl⟩
    | rcpt recipient params =>
      rw [doing]
      rcases e.rcpt_cases recipient with ⟨-, h⟩ | ⟨error, -, h⟩ <;> rw [h] <;> exact ⟨_, _, _, rfl⟩
    | _ => exact ⟨_, _, _, rfl⟩

theorem Acts.frame {e e' : Engine σ} {l : List Heard} (h : Acts e l e') :
    ∃ session dialogue turns, e' = { e with session, dialogue, turns } := by
  induction h with
  | done e => exact ⟨_, _, _, rfl⟩
  | step act _ ih =>
    obtain ⟨_, _, _, rfl⟩ := act.frame
    obtain ⟨session, dialogue, turns, rfl⟩ := ih
    exact ⟨session, dialogue, turns, rfl⟩

/-- what the dialogue was set up with stays -/
theorem Acts.setup {e e' : Engine σ} {l : List Heard} (h : Acts e l e') :
    e'.settings = e.settings ∧ e'.surroundings = e.surroundings := by
  obtain ⟨_, _, _, rfl⟩ := h.frame
  exact ⟨rfl, rfl⟩

theorem Act.setup {e e' : Engine σ} {l : List Heard} (h : Act e l e') :
    e'.settings = e.settings ∧ e'.surroundings = e.surroundings := h.one.setup

/-! ## Saying -/

theorem say_eq (e : Engine σ) (text : String) :
    e.say text = match e.surroundings.outageAt e.now with
      | some failure => (.error (.io failure), e)
      | none => (.ok (), e.saying text) := rfl

theorem say_acts (e : Engine σ) (text : String) : Acts e [] (e.say text).2 := by
  rw [say_eq]
  split
  · exact .done e
  · exact (Act.say e text).one

theorem send_acts (e : Engine σ) (reply : Reply) : Acts e [] (e.send reply).2 := say_acts e reply.line

theorem sendAll_acts (e : Engine σ) (replies : List Reply) : Acts e [] (e.sendAll replies).2 := by
  induction replies generalizing e with
  | nil => exact .done e
  | cons reply rest ih =>
    have h := send_acts e reply
    unfold sendAll
    split
    · next e₁ hs =>
      rw [hs] at h
      exact h.trans (ih e₁)
    · next e₁ hs =>
      rw [hs] at h
      exact h

/-- a reply reaches the peer when nothing stands in the way -/
theorem send_eq {e : Engine σ} (h : e.surroundings.outageAt e.now = none) (reply : Reply) :
    e.send reply = (.ok (), e.saying reply.line) := by
  rw [send, say_eq, h]

/-- replies all reach the peer when nothing stands in the way -/
theorem sendAll_eq {e : Engine σ} (h : e.surroundings.outageAt e.now = none) (replies : List Reply) :
    e.sendAll replies = (.ok (), e.sayingAll (replies.map Reply.line)) := by
  induction replies generalizing e with
  | nil => rfl
  | cons reply rest ih =>
    rw [sendAll, send_eq h]
    exact ih h

theorem sayingAll_said (e : Engine σ) (texts : List String) :
    (e.sayingAll texts).session.journal.said = e.session.journal.said ++ texts := by
  induction texts generalizing e with
  | nil => exact (List.append_nil _).symm
  | cons text texts ih =>
    rw [sayingAll, List.foldl_cons]
    refine (ih (e.saying text)).trans ?_
    rw [saying, Session.journal_note, Journal.said_append, List.append_assoc]
    rfl

/-! ## Turns are acts -/

theorem goOn_engine (said : Except ConnectionError Unit × Engine σ) (s : Source) : (goOn said s).engine = said.2 := by
  unfold goOn
  split <;> rfl

theorem answer_acts (e : Engine σ) (reply : Reply) (s : Source) : Acts e [] (e.answer reply s).engine := by
  rw [answer, goOn_engine]
  exact send_acts e reply

theorem leave_acts (e : Engine σ) (reply : Reply) : Acts e [] (e.leave reply).engine := send_acts e reply

theorem waitUntil_acts (e : Engine σ) (t : Instant) : Acts e [] (e.waitUntil t) := (Act.wait e t e.turns).one

theorem data_eq (e : Engine σ) (s : Source) :
    e.data s = match e.send startBody with
      | (.error error, e) => .ended (.error error) e
      | (.ok _, e) =>
        match e.awaitedBody s with
        | none => (e.waitUntil (e.now + seconds e.settings.timeouts.dataSecs)).leave bodyTimedOut
        | some (.error error) =>
          .ended (.error error) (e.waitUntil (s.readBody e.settings.maxMessageSize e.now).ready)
        | some (.ok body) =>
          let (replies, e') := (e.waitUntil (s.readBody e.settings.maxMessageSize e.now).ready).deliver body
          goOn (e'.sendAll replies) (s.readBody e.settings.maxMessageSize e.now).rest := rfl

theorem awaitedBody_value {e : Engine σ} {s : Source} {result : Except ConnectionError Body}
    (h : e.awaitedBody s = some result) : (s.readBody e.settings.maxMessageSize e.now).value = some result := by
  unfold awaitedBody Read.within at h
  split at h
  · exact h
  · simp at h

/-- the dialogue when the body after DATA has come -/
def bodyCome (e : Engine σ) (s : Source) : Engine σ :=
  (e.saying startBody.line).waitUntil (s.readBody e.settings.maxMessageSize e.now).ready

/-- a body that comes in time is delivered, and the replies are sent -/
theorem data_of_body {e : Engine σ} {s : Source} {body : Body} (free : e.surroundings.outageAt e.now = none)
    (come : e.awaitedBody s = some (.ok body)) :
    e.data s = goOn (((e.bodyCome s).deliver body).2.sendAll ((e.bodyCome s).deliver body).1)
      (s.readBody e.settings.maxMessageSize e.now).rest := by
  have awaited : (e.saying startBody.line).awaitedBody s = some (.ok body) := come
  rw [data_eq, send_eq free]
  dsimp only
  rw [awaited]
  rfl

theorem data_acts (e : Engine σ) (s : Source) (stage : e.dialogue.stage = .recipients) :
    Acts e (e.heardAfterData s) (e.data s).engine := by
  have hs := send_acts e startBody
  rw [send] at hs
  rw [data_eq, heardAfterData, send]
  cases ho : e.surroundings.outageAt e.now with
  | some failure =>
    rw [say_eq, ho] at hs ⊢
    exact hs
  | none =>
    rw [say_eq, ho] at hs ⊢
    dsimp only at hs ⊢
    have same : (e.saying startBody.line).awaitedBody s = e.awaitedBody s := rfl
    rw [same]
    cases hb : e.awaitedBody s with
    | none => exact hs.trans ((waitUntil_acts _ _).trans (leave_acts _ _))
    | some result =>
      cases result with
      | error error => exact hs.trans (waitUntil_acts _ _)
      | ok body =>
        dsimp only
        rw [goOn_engine]
        have read : (s.readBody e.settings.maxMessageSize e.now).value = some (.ok body) := awaitedBody_value hb
        have hd := (@Act.deliver σ (e.bodyCome s) s e.now body read stage).one
        exact hs.trans ((waitUntil_acts _ _).trans (hd.trans (sendAll_acts _ _)))

theorem perform_acts (e : Engine σ) (s : Source) {line : Octets} {command : Command}
    (parsed : Command.parse line = .ok command) (allowed : e.dialogue.stage.allows command.verb = true) :
    Acts e (e.heardIn s command) (e.perform command s).engine := by
  have act : Acts e [.command command (e.accepts command)] (e.doing command) :=
    (Act.perform e parsed allowed).one
  have answered : ∀ {said : Except ConnectionError Unit × Engine σ}, Acts (e.doing command) [] said.2 →
      Acts e ([.command command (e.accepts command)] ++ []) (goOn said s).engine := by
    intro said h
    rw [goOn_engine]
    exact act.trans h
  cases command with
  | data => exact act.trans (data_acts e s (by simpa [Command.verb, Stage.allows] using allowed))
  | quit => exact act.trans (leave_acts _ _)
  | _ => exact answered (say_acts _ _)

theorem handle_acts (e : Engine σ) (s : Source) (line : Octets) :
    Acts e (match Command.parse line with
      | .ok command => if e.dialogue.stage.allows command.verb then e.heardIn s command else []
      | .error _ => []) (e.handle (Command.parse line) s).engine := by
  unfold handle
  dsimp only
  cases hp : Command.parse line with
  | error fault =>
    dsimp only
    split <;> exact answer_acts _ _ _
  | ok command =>
    have hv : verbOf (.ok command) = command.verb := rfl
    dsimp only
    rw [hv]
    split
    · next allowed => exact perform_acts e s hp allowed
    · exact answer_acts _ _ _

/-- a turn that deals with a line handles it -/
theorem turn_of_heeds {e e₁ : Engine σ} {s rest : Source} {line : Except CommandFault Command}
    (h : e.heeds s = some (e₁, line, rest)) : e.turn s = e₁.handle line rest := by
  unfold heeds at h
  unfold turn
  split at h
  · simp at h
  · next hs =>
    rw [if_neg hs]
    dsimp only at h ⊢
    split at h
    · next hw =>
      simp only [Option.some.injEq, Prod.mk.injEq] at h
      obtain ⟨rfl, rfl, rfl⟩ := h
      rw [hw]
    · simp at h

/-- **A turn is made of acts.** -/
theorem turn_acts (e : Engine σ) (s : Source) : Acts e (e.turnHeard s) (e.turn s).engine := by
  rw [turnHeard, heeds, turn]
  by_cases hs : e.isSpent = true
  · rw [if_pos hs, if_pos hs]
    exact leave_acts _ _
  · rw [if_neg hs, if_neg hs]
    dsimp only
    rcases hw : e.awaitTurn (s.readLine e.now) with ⟨kind, time⟩
    have waited := (Act.wait e time (e.turns + 1)).one
    cases kind with
    | signal => exact waited.trans (leave_acts _ _)
    | timedOut => exact waited.trans (leave_acts _ _)
    | line result =>
      cases result with
      | ok line =>
        have h := handle_acts { e.waitUntil time with turns := e.turns + 1 } (s.readLine e.now).rest line
        dsimp only at h ⊢
        cases hp : Command.parse line <;> rw [hp] at h <;> exact waited.trans h
      | error error =>
        cases error with
        | closed => exact waited
        | lineTooLong limit => exact waited.trans (answer_acts _ _ _)
        | io failure => exact waited

theorem next_acts {e e' : Engine σ} {s s' : Source} (next : e.turn s = .next e' s') : Acts e (e.turnHeard s) e' := by
  have acts := turn_acts e s
  rwa [next] at acts

theorem serve_next {e e' : Engine σ} {s s' : Source} (h : e.turn s = .next e' s') :
    e.serve s = e'.serve s' ∧ e.heard s = e.turnHeard s ++ e'.heard s' := by
  rw [serve, heard]
  constructor <;> split <;> simp_all

theorem serve_ended {e e' : Engine σ} {s : Source} {result : Except ConnectionError Unit}
    (h : e.turn s = .ended result e') : e.serve s = (result, e') ∧ e.heard s = e.turnHeard s := by
  rw [serve, heard]
  constructor <;> split <;> simp_all

/-- **A dialogue is made of acts, labelled with all that is heard.** -/
theorem serve_acts (e : Engine σ) (s : Source) : Acts e (e.heard s) (e.serve s).2 := by
  induction e, s using serve.induct with
  | case1 e s result e' hturn =>
    have ht := turn_acts e s
    obtain ⟨served, heard⟩ := serve_ended hturn
    rw [served, heard]
    rw [hturn] at ht
    exact ht
  | case2 e s e' rest hturn ih =>
    obtain ⟨served, heard⟩ := serve_next hturn
    rw [served, heard]
    exact (next_acts hturn).trans ih

theorem greetAndServe_acts (e : Engine σ) (s : Source) : Acts e (e.heardInRun s) (e.greetAndServe s).2 := by
  have hs := send_acts e (greeting e.settings)
  unfold heardInRun greetAndServe
  rcases hr : e.send (greeting e.settings) with ⟨error | _, e₁⟩ <;> rw [hr] at hs
  · exact hs
  · exact hs.trans (serve_acts e₁ s)

/-! ## States of a run -/

/-- a dialogue comes, turn by turn, from one state to another, each with what is left to read -/
inductive Comes : Engine σ → Source → List Heard → Engine σ → Source → Prop where
  | here (e : Engine σ) (s : Source) : Comes e s [] e s
  | turn {e e₁ e₂ : Engine σ} {s s₁ s₂ : Source} {l : List Heard} (next : e.turn s = .next e₁ s₁)
      (rest : Comes e₁ s₁ l e₂ s₂) : Comes e s (e.turnHeard s ++ l) e₂ s₂

/-- a run comes to a state in which it goes on to read another line -/
def Reaches (e₀ : Engine σ) (s₀ : Source) (l : List Heard) (e : Engine σ) (s : Source) : Prop :=
  ∃ e₁, e₀.send (greeting e₀.settings) = (.ok (), e₁) ∧ Comes e₁ s₀ l e s

/-- a run comes to carry out a command: the state when its line has come, and what is left to read -/
def Carries (e₀ : Engine σ) (s₀ : Source) (l : List Heard) (command : Command) (e : Engine σ) (s : Source) : Prop :=
  ∃ e₁ s₁, e₀.Reaches s₀ l e₁ s₁ ∧ e₁.heeds s₁ = some (e, .ok command, s) ∧
    e.dialogue.stage.allows command.verb = true

theorem Comes.serve {e e' : Engine σ} {s s' : Source} {l : List Heard} (h : Comes e s l e' s') :
    e.serve s = e'.serve s' := by
  induction h with
  | here e s => rfl
  | turn next _ ih => rw [(serve_next next).1, ih]

/-- **A run goes on from each state that it comes to,** and ends as the dialogue does from there. -/
theorem Reaches.run {e₀ e : Engine σ} {s₀ s : Source} {l : List Heard} (h : e₀.Reaches s₀ l e s) : e₀.run s₀ =
    ((e.serve s).1, { (e.serve s).2 with session := (e.serve s).2.session.logout.2 }) := by
  obtain ⟨e₁, greeted, comes⟩ := h
  have served : e₀.greetAndServe s₀ = e.serve s := by
    rw [greetAndServe, greeted]
    exact comes.serve
  rw [Engine.run, served]

/-- the state after a number of turns, where the dialogue goes on through all of them -/
def after (e : Engine σ) (s : Source) : Nat → Option (Engine σ × Source)
  | 0 => some (e, s)
  | n + 1 =>
    match e.turn s with
    | .next e s => after e s n
    | .ended _ _ => none

theorem comes_after {n : Nat} {e e' : Engine σ} {s s' : Source} (h : e.after s n = some (e', s')) :
    ∃ l, Comes e s l e' s' := by
  induction n generalizing e s with
  | zero =>
    obtain ⟨rfl, rfl⟩ := Prod.mk.inj (Option.some.inj h)
    exact ⟨[], .here e s⟩
  | succ n ih =>
    unfold after at h
    split at h
    · next next =>
      obtain ⟨l, hl⟩ := ih h
      exact ⟨_, .turn next hl⟩
    · simp at h

/-- what holds of the dialogue after a number of turns is reached -/
theorem reaches_after {e₀ e₁ : Engine σ} (greeted : e₀.send (greeting e₀.settings) = (.ok (), e₁)) (s₀ : Source)
    (n : Nat) (P : Engine σ → Source → Bool) (h : (e₁.after s₀ n).any (fun r => P r.1 r.2) = true) :
    ∃ l e s, e₀.Reaches s₀ l e s ∧ P e s = true := by
  cases ha : e₁.after s₀ n with
  | none =>
    rw [ha] at h
    cases h
  | some r =>
    obtain ⟨l, comes⟩ := comes_after ha
    rw [ha] at h
    exact ⟨l, r.1, r.2, ⟨e₁, greeted, comes⟩, h⟩

theorem Comes.next {e e' e'' : Engine σ} {s s' s'' : Source} {l : List Heard} (h : Comes e s l e' s')
    (next : e'.turn s' = .next e'' s'') : Comes e s (l ++ e'.turnHeard s') e'' s'' := by
  induction h with
  | here e s =>
    have one := Comes.turn next (.here e'' s'')
    rwa [List.append_nil] at one
  | turn first _ ih =>
    rw [List.append_assoc]
    exact .turn first (ih next)

/-- a run that comes to carry out a command goes on from there -/
theorem Carries.next {e₀ e e' : Engine σ} {s₀ s s' : Source} {l : List Heard} {command : Command}
    (h : e₀.Carries s₀ l command e s) (next : e.perform command s = .next e' s') :
    e₀.Reaches s₀ (l ++ e.heardIn s command) e' s' := by
  obtain ⟨e₁, s₁, ⟨e₂, greeted, comes⟩, heeds, allowed⟩ := h
  have heard : e₁.turnHeard s₁ = e.heardIn s command := by
    unfold turnHeard
    rw [heeds]
    exact if_pos allowed
  have turn : e₁.turn s₁ = .next e' s' := by
    rw [turn_of_heeds heeds, ← next]
    exact if_pos allowed
  rw [← heard]
  exact ⟨e₂, greeted, comes.next turn⟩

theorem Comes.acts {e e' : Engine σ} {s s' : Source} {l : List Heard} (h : Comes e s l e' s') : Acts e l e' := by
  induction h with
  | here e s => exact .done e
  | turn next _ ih => exact (next_acts next).trans ih

theorem Reaches.acts {e₀ e : Engine σ} {s₀ s : Source} {l : List Heard} (h : e₀.Reaches s₀ l e s) : Acts e₀ l e := by
  obtain ⟨e₁, hs, hc⟩ := h
  have hg := send_acts e₀ (greeting e₀.settings)
  rw [hs] at hg
  exact hg.trans hc.acts

theorem Carries.acts {e₀ e : Engine σ} {s₀ s : Source} {l : List Heard} {command : Command}
    (h : e₀.Carries s₀ l command e s) : Acts e₀ l e := by
  obtain ⟨e₁, s₁, hr, hh, -⟩ := h
  have waited : ∀ t turns, Acts e₀ l { e₁.waitUntil t with turns } := by
    intro t turns
    have := hr.acts.trans (Act.wait e₁ t turns).one
    rwa [List.append_nil] at this
  unfold heeds at hh
  split at hh
  · simp at hh
  · dsimp only at hh
    split at hh
    · simp only [Option.some.injEq, Prod.mk.injEq] at hh
      obtain ⟨rfl, -, -⟩ := hh
      exact waited _ _
    · simp at hh

end Engine

/-! ## Two dialogues -/

/-- two turns go the same way: both end their dialogues, or both leave them to go on, and what they leave is related -/
inductive Turn.InStep {σ : Type} (go : Engine σ → Source → Engine σ → Source → Prop)
    (stop : Except ConnectionError Unit × Engine σ → Except ConnectionError Unit × Engine σ → Prop) :
    Turn σ → Turn σ → Prop where
  | ended {result result' : Except ConnectionError Unit} {e e' : Engine σ} (h : stop (result, e) (result', e')) :
      InStep go stop (.ended result e) (.ended result' e')
  | next {e e' : Engine σ} {s s' : Source} (h : go e s e' s') : InStep go stop (.next e s) (.next e' s')

namespace Engine

variable {go go' : Engine σ → Source → Engine σ → Source → Prop}
  {stop : Except ConnectionError Unit × Engine σ → Except ConnectionError Unit × Engine σ → Prop}

theorem InStep.imp {t t' : Turn σ} (h : t.InStep go stop t') (more : ∀ {e e' : Engine σ} {s s' : Source},
    t = .next e s → t' = .next e' s' → go e s e' s' → go' e s e' s') : t.InStep go' stop t' := by
  cases h with
  | ended stopped => exact .ended stopped
  | next goes => exact .next (more rfl rfl goes)

/-- **Dialogues that stay in step in every turn come to related ends.** -/
theorem serve_inStep (step : ∀ {e e' : Engine σ} {s s' : Source}, go e s e' s' →
    (e.turn s).InStep go stop (e'.turn s')) {e e' : Engine σ} {s s' : Source} (h : go e s e' s') :
    stop (e.serve s) (e'.serve s') := by
  induction e, s using serve.induct generalizing e' s' with
  | case1 e s result e₁ hturn =>
    have turns := step h
    rw [hturn] at turns
    generalize hturn' : e'.turn s' = turn' at turns
    cases turns with
    | ended stopped =>
      rw [(serve_ended hturn).1, (serve_ended hturn').1]
      exact stopped
  | case2 e s e₁ rest hturn ih =>
    have turns := step h
    rw [hturn] at turns
    generalize hturn' : e'.turn s' = turn' at turns
    cases turns with
    | next goes =>
      rw [(serve_next hturn).1, (serve_next hturn').1]
      exact ih goes

end Engine
end LmtpRelay
