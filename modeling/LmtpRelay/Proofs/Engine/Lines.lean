/-
What is told to a peer is told line by line. A reply may repeat what the peer sent, a recipient's name or words of the
forwarder; none of the peer's own words has a line feed in it, so where neither the name of the host nor the forwarder's
words have one, each reply is one line, and the answer to LHLO is five: `Accounted.lines`, `capabilities_lines`.
-/
import LmtpRelay.Proofs.Command.Faults
import LmtpRelay.Proofs.Engine.Accounting

namespace LmtpRelay

open Engine

variable {σ : Type}

/-! ## Lines -/

/-- one line with its end -/
def IsLine (s : String) : Prop := ∃ text, Unbroken text ∧ s = text ++ "\r\n"

theorem Reply.isLine {r : Reply} (h : Unbroken r.message) : IsLine r.line := by
  have status : Unbroken r.status.text := unbroken_number _
  refine ⟨r.text, ?_, rfl⟩
  unfold Reply.text
  split
  · next e _ =>
    have code : Unbroken e.text := by
      have digits := ((unbroken_number e.cls).append (by decide : Unbroken ".")).append (unbroken_number e.subject)
      exact (digits.append (by decide : Unbroken ".")).append (unbroken_number e.detail)
    exact (((status.append (by decide : Unbroken " ")).append code).append (by decide : Unbroken " ")).append h
  · exact (status.append (by decide : Unbroken " ")).append h

theorem Status.eachLine_length (status : Status) (texts : List String) :
    (status.eachLine texts).length = texts.length := by
  fun_induction eachLine status texts with
  | case1 => rfl
  | case2 => rfl
  | case3 line rest _ ih => exact congrArg Nat.succ ih

theorem Status.eachLine_lines (status : Status) {texts : List String} (h : ∀ text ∈ texts, Unbroken text) :
    ∀ line ∈ status.eachLine texts, IsLine line := by
  have number : Unbroken status.text := unbroken_number _
  fun_induction eachLine status texts with
  | case1 => exact nofun
  | case2 last =>
    intro line hl
    obtain rfl := List.mem_singleton.1 hl
    exact ⟨_, (number.append (by decide : Unbroken " ")).append (h last List.mem_cons_self), rfl⟩
  | case3 first rest _ ih =>
    intro line hl
    rcases List.mem_cons.1 hl with rfl | hl
    · exact ⟨_, (number.append (by decide : Unbroken "-")).append (h first List.mem_cons_self), rfl⟩
    · exact ih (fun text ht => h text (List.mem_cons_of_mem first ht)) line hl

/-! ## Wording -/

/-- neither the name of the host nor a rejection that the forwarder passes on has a line feed in it -/
structure Plain (f : Forwarder σ) (settings : EngineSettings) : Prop where
  hostname : Unbroken settings.hostname
  supplied : ∀ reply, f.Supplies (.rejected reply) → Unbroken reply.message

theorem Plain.forward {f : Forwarder σ} {settings : EngineSettings} (plain : Plain f settings) {error : ForwardError}
    (supplied : f.Supplies error) : Unbroken error.reply.message := by
  cases error with
  | rejected reply => exact plain.supplied reply supplied
  | unavailable detail =>
    dsimp only [ForwardError.reply, Reply.coded]
    decide
  | downstream cause =>
    cases cause <;>
    · dsimp only [ForwardError.reply, Reply.coded]
      decide

theorem Plain.session {f : Forwarder σ} {settings : EngineSettings} (plain : Plain f settings) {error : SessionError}
    (supplied : error.From f) : Unbroken error.reply.message := by
  cases error with
  | forward cause => exact plain.forward (supplied cause rfl)
  | resolution identifier cause =>
    cases cause <;>
    · dsimp only [SessionError.reply, Reply.coded]
      decide
  | _ =>
    dsimp only [SessionError.reply, Reply.coded]
    decide

theorem Plain.settled {f : Forwarder σ} {settings : EngineSettings} (plain : Plain f settings) {recipient : String}
    (name : Unbroken recipient) {reply : Reply} (h : Settled f recipient reply) : IsLine reply.line := by
  refine Reply.isLine ?_
  cases h with
  | delivered => exact ((by decide : Unbroken "<").append name).append (by decide : Unbroken "> delivered")
  | refused supplied => exact plain.forward supplied
  | failed supplied => exact plain.session supplied
  | tooBig => decide
  | unreported => decide

theorem Plain.each_settled {f : Forwarder σ} {settings : EngineSettings} (plain : Plain f settings)
    {recipients : List String} {replies : List Reply} (h : List.Forall₂ (Settled f) recipients replies)
    (named : ∀ recipient ∈ recipients, Unbroken recipient) : ∀ reply ∈ replies, IsLine reply.line := by
  induction h with
  | nil => exact nofun
  | @cons recipient reply recipients replies first _ ih =>
    intro other ho
    rcases List.mem_cons.1 ho with rfl | ho
    · exact plain.settled (named recipient List.mem_cons_self) first
    · exact ih (fun r hr => named r (List.mem_cons_of_mem recipient hr)) other ho

theorem outOfSequence_unbroken (stage : Stage) (verb : Verb) : Unbroken (outOfSequence stage verb).message := by
  unfold outOfSequence
  split
  · decide
  · cases verb <;> decide

/-- **The answer to LHLO is five lines.** -/
theorem capabilities_lines {settings : EngineSettings} (hostname : Unbroken settings.hostname) :
    ∃ lines : List String, lines.length = 5 ∧ (∀ line ∈ lines, IsLine line) ∧
      Status.done.lines (capabilities settings) = String.join lines := by
  have worded : ∀ text ∈ capabilities settings, Unbroken text := by
    intro text ht
    simp only [capabilities, List.mem_cons, List.not_mem_nil, or_false] at ht
    rcases ht with rfl | rfl | rfl | rfl | rfl
    · exact hostname
    · decide
    · decide
    · decide
    · exact (by decide : Unbroken "SIZE ").append (unbroken_number _)
  exact ⟨_, Status.done.eachLine_length _, Status.done.eachLine_lines worded, rfl⟩

theorem greeting_line {settings : EngineSettings} (hostname : Unbroken settings.hostname) :
    IsLine (greeting settings).line :=
  Reply.isLine (hostname.append (by decide : Unbroken " LMTP bridge ready"))

/-! ## Accounts -/

theorem Dialogue.apply_recipients {d : Dialogue} {event : Event} {recipient : String}
    (h : recipient ∈ (d.apply event).envelope.recipients) :
    recipient ∈ d.envelope.recipients ∨ event = .rcpt recipient := by
  obtain ⟨stage, client, sender, recipients⟩ := d
  cases stage <;> cases event <;> simp_all [apply, Envelope.clear]
  all_goals exact h.imp_right Eq.symm

section Accounts

variable {f : Forwarder σ} {settings : EngineSettings} {d d' : Dialogue}

theorem Answers.line (plain : Plain f settings) {command : Command} {text : String}
    (h : Answers f settings d command text d') :
    text = Status.done.lines (capabilities settings) ∨ IsLine text := by
  cases h with
  | lhlo client => exact .inl rfl
  | mailRefused _ _ supplied => exact .inr (Reply.isLine (plain.session supplied))
  | rcptRefused _ _ supplied => exact .inr (Reply.isLine (plain.session supplied))
  | rsetRefused supplied => exact .inr (Reply.isLine (plain.session supplied))
  | _ => exact .inr (Reply.isLine (by decide))

/-- the recipients of an open transaction are named without a line feed -/
def Dialogue.Named (d : Dialogue) : Prop := ∀ recipient ∈ d.envelope.recipients, Unbroken recipient

theorem Dialogue.Named.apply (h : d.Named) {event : Event} (other : ∀ recipient, event ≠ .rcpt recipient) :
    (d.apply event).Named := by
  intro recipient hr
  rcases Dialogue.apply_recipients hr with known | same
  · exact h recipient known
  · exact absurd same (other recipient)

theorem Answers.named {command : Command} {text : String} (h : Answers f settings d command text d') {line : Octets}
    (parsed : Command.parse line = .ok command) (named : d.Named) : d'.Named := by
  cases h with
  | lhlo client => exact named.apply fun _ => nofun
  | mail sender fits => exact named.apply fun _ => nofun
  | rset => exact named.apply fun _ => nofun
  | rsetRefused _ => exact named.apply fun _ => nofun
  | rcpt recipient params =>
    intro other hr
    rcases Dialogue.apply_recipients hr with known | same
    · exact named other known
    · obtain rfl := Event.rcpt.inj same
      exact (Command.parse_rcpt_oneLine parsed).unbroken
  | _ => exact named

/-- what is told for one line of the peer is told line by line, and no name with a line feed is taken in -/
theorem Told.lines (plain : Plain f settings) {bs : Octets} {texts : List String} {left : Option (Dialogue × Octets)}
    (h : Told f settings d bs texts left) (named : d.Named) :
    (∀ text ∈ texts, text = Status.done.lines (capabilities settings) ∨ IsLine text) ∧
      ∀ d' bs', left = some (d', bs') → d'.Named := by
  have stays : ∀ {d₁ : Dialogue} {bs₁ bs' : Octets}, some (d, bs₁) = some (d₁, bs') → Dialogue.Named d₁ := by
    intro d₁ bs₁ bs' same
    obtain ⟨rfl, -⟩ := Prod.mk.inj (Option.some.inj same)
    exact named
  have one : ∀ {reply : Reply}, Unbroken reply.message →
      ∀ text ∈ [reply.line], text = Status.done.lines (capabilities settings) ∨ IsLine text := by
    intro reply worded text ht
    obtain rfl := List.mem_singleton.1 ht
    exact .inr (Reply.isLine worded)
  cases h with
  | ended _ => exact ⟨nofun, fun _ _ => nofun⟩
  | tooLong _ => exact ⟨one (by decide), fun _ _ => stays⟩
  | refused _ _ => exact ⟨one (outOfSequence_unbroken _ _), fun _ _ => stays⟩
  | invalid first parsed _ =>
    have worded := Command.parse_fault_unbroken parsed (lf_not_mem_firstLine first)
    exact ⟨one ((by decide : Unbroken "Syntax error: ").append worded), fun _ _ => stays⟩
  | quit _ _ _ =>
    exact ⟨one (plain.hostname.append (by decide : Unbroken " closing connection")), fun _ _ => nofun⟩
  | bodyCut _ _ _ _ => exact ⟨one (by decide), fun _ _ => nofun⟩
  | answered first parsed _ answers =>
    refine ⟨fun text ht => ?_, fun d₁ bs' same => ?_⟩
    · obtain rfl := List.mem_singleton.1 ht
      exact answers.line plain
    · obtain ⟨rfl, -⟩ := Prod.mk.inj (Option.some.inj same)
      exact answers.named parsed named
  | @body _ _ _ _ _ _ _ replies settled =>
    refine ⟨fun text ht => ?_, fun d₁ bs' same => ?_⟩
    · rcases List.mem_cons.1 ht with rfl | ht
      · exact .inr (Reply.isLine (by decide))
      · obtain ⟨reply, hr, rfl⟩ := List.mem_map.1 ht
        exact .inr (plain.each_settled settled named reply hr)
    · obtain ⟨rfl, -⟩ := Prod.mk.inj (Option.some.inj same)
      exact named.apply fun _ => nofun

/-- **Whatever the peer sends, it is told line by line.** -/
theorem Accounted.lines (plain : Plain f settings) {bs : Octets} {texts : List String}
    (h : Accounted f settings d bs texts) (named : d.Named) :
    ∀ text ∈ texts, text = Status.done.lines (capabilities settings) ∨ IsLine text := by
  induction h with
  | last told => exact (told.lines plain named).1
  | more told _ ih =>
    obtain ⟨now, kept⟩ := told.lines plain named
    intro text ht
    rcases List.mem_append.1 ht with ht | ht
    · exact now text ht
    · exact ih (kept _ _ rfl) text ht

end Accounts

end LmtpRelay
