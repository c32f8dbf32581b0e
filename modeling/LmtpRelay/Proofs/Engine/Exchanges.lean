/-
A dialogue as a list of exchanges, one for each turn: what is taken off the stream, what the peer is told for it, and
whether the line is idle. A line is idle when it is refused, or only asks for information, before the session or the
forwarder has anything to do with it: a line that is no command or too long, a command out of sequence, NOOP, VRFY,
HELP, AUTH, HELO and EHLO, a sender whose message is declared too large, and a recipient that is refused on its own account.

- `Unhindered.exchanges_octets`, `Unhindered.exchanges_said`: exchanges take the stream apart, and what is told in them
  is all that is told.
- `Unhindered.idle_next`: an idle line is answered by one text, and nothing else happens, but that time passes and the
  resolver may be asked.
- `Unhindered.idle_exchange`: an idle line is one line of the stream, however long it is.
-/
import LmtpRelay.Proofs.Engine.Alike

namespace LmtpRelay

variable {σ : Type}

/-! ## Exchanges -/

/-- what passes in one turn of a dialogue -/
structure Exchange where
  /-- the octets that are taken off the stream, each with its moment -/
  taken : List (Instant × UInt8)
  /-- what the peer is told -/
  said : List String
  /-- whether a line is taken that leaves no trace -/
  idle : Bool
  deriving DecidableEq, Repr

def Exchange.octets (x : Exchange) : Octets := x.taken.map Prod.snd

/-- what comes before all that is left of a stream -/
def Source.before (s rest : Source) : List (Instant × UInt8) := (stamped s.arrivals).take (s.size - rest.size)

theorem Source.before_octets {s rest : Source} {front : Octets} (h : s.octets = front ++ rest.octets) :
    (s.before rest).map Prod.snd = front := by
  have size : s.size - rest.size = front.length := by
    rw [Source.size, Source.size, h, List.length_append, Nat.add_sub_cancel]
  have all : (stamped s.arrivals).map Prod.snd = front ++ rest.octets := (stamped_octets _).trans h
  rw [Source.before, List.map_take, all, size, List.take_left]

theorem Source.Leaves.before {s rest : Source} (h : s.Leaves rest) :
    s.before rest ++ stamped rest.arrivals = stamped s.arrivals := by
  obtain ⟨os, taken⟩ := h.taken
  have split : s.octets = os.map Prod.snd ++ rest.octets := by
    rw [octets_of_stamped taken, stamped_octets]
    rfl
  have size : s.size - rest.size = os.length := by
    rw [Source.size, Source.size, split, List.length_append, List.length_map, Nat.add_sub_cancel]
  rw [Source.before, size, taken, List.take_left]

theorem octets_of_taken (xs : List Exchange) : (xs.flatMap Exchange.taken).map Prod.snd = xs.flatMap Exchange.octets :=
  List.map_flatMap

/-- whether the stream ends within a line that is too long -/
def Source.breaksOff (s : Source) : Bool := !endsLine (splitLine s.octets).1 && lineLimit ≤ s.octets.length

namespace Engine

/-- whether a line leaves no trace but the reply to it -/
def idleLine (e : Engine σ) (line : Except CommandFault Command) : Bool :=
  !e.dialogue.stage.allows (verbOf line) ||
    match line with
    | .error _ => true
    | .ok (.mail _ params) => e.declaredTooBig params
    | .ok (.rcpt recipient _) =>
      match (e.session.rcpt recipient).1 with
      | .ok _ => false
      | .error error => error.isRecipientScoped
    | .ok .noop | .ok (.vrfy _) | .ok .help | .ok (.auth _) | .ok (.helo _) => true
    | .ok _ => false

/-- whether the next line leaves no trace but the reply to it -/
def idleTurn (e : Engine σ) (s : Source) : Bool :=
  match e.heeds s with
  | some (e, line, _) => e.idleLine line
  | none =>
    match (e.awaitTurn (s.readLine e.now)).1 with
    | .line (.error (.lineTooLong _)) => true
    | _ => false

/-- what the peer has been told since -/
def toldSince (e e₁ : Engine σ) : List String := e₁.session.journal.said.drop e.session.journal.said.length

/-- the turns of a dialogue, one after another; the last one has all that is left of the stream -/
def exchanges (e : Engine σ) (s : Source) : List Exchange :=
  match _h : e.turn s with
  | .ended _ e₁ => [⟨stamped s.arrivals, e.toldSince e₁, s.breaksOff⟩]
  | .next e₁ rest => ⟨s.before rest, e.toldSince e₁, e.idleTurn s⟩ :: exchanges e₁ rest
termination_by s.size
decreasing_by exact turn_rest _h

variable {ending : Ending} {e e₁ : Engine σ} {s rest : Source}

theorem exchanges_ended {result : Except ConnectionError Unit} (h : e.turn s = .ended result e₁) :
    e.exchanges s = [⟨stamped s.arrivals, e.toldSince e₁, s.breaksOff⟩] := by
  rw [exchanges]
  split <;> simp_all

theorem exchanges_next (h : e.turn s = .next e₁ rest) :
    e.exchanges s = ⟨s.before rest, e.toldSince e₁, e.idleTurn s⟩ :: e₁.exchanges rest := by
  rw [exchanges]
  split <;> simp_all

/-- **Exchanges take the stream apart.** -/
theorem Unhindered.exchanges_octets (h : Unhindered ending e s) :
    (e.exchanges s).flatMap Exchange.octets = s.octets := by
  induction e, s using serve.induct with
  | case1 e s result e₁ hturn =>
    rw [exchanges_ended hturn, List.flatMap_singleton]
    exact stamped_octets s.arrivals
  | case2 e s e₁ rest hturn ih =>
    obtain ⟨front, split, -⟩ := h.takes hturn
    rw [exchanges_next hturn, List.flatMap_cons, ih (h.next hturn), split]
    exact congrArg (· ++ rest.octets) (Source.before_octets split)

theorem Unhindered.exchanges_taken (h : Unhindered ending e s) (ordered : InOrder s.arrivals) :
    (e.exchanges s).flatMap Exchange.taken = stamped s.arrivals := by
  induction e, s using serve.induct with
  | case1 e s result e₁ hturn => rw [exchanges_ended hturn, List.flatMap_singleton]
  | case2 e s e₁ rest hturn ih =>
    have left := h.leaves ordered hturn
    rw [exchanges_next hturn, List.flatMap_cons, ih (h.next hturn) left.ordered]
    exact left.before

theorem Unhindered.exchange_lines (h : Unhindered ending e s) {x : Exchange} {xs : List Exchange}
    (first : e.exchanges s = x :: xs) : endsLine x.octets = true ∨ xs.flatMap Exchange.octets = [] := by
  cases hturn : e.turn s with
  | ended result e₁ =>
    rw [exchanges_ended hturn] at first
    obtain ⟨-, rfl⟩ := List.cons.inj first
    exact .inr rfl
  | next e₁ rest =>
    rw [exchanges_next hturn] at first
    obtain ⟨rfl, rfl⟩ := List.cons.inj first
    obtain ⟨front, split, lines⟩ := h.takes hturn
    rw [(h.next hturn).exchanges_octets, Exchange.octets, Source.before_octets split]
    exact lines

/-- an exchange for DATA takes the body as well, up to its end -/
theorem Unhindered.exchange_body (h : Unhindered ending e s) {x : Exchange} {xs : List Exchange}
    (first : e.exchanges s = x :: xs) (heeds : e.heeds s = some (e₁, .ok .data, rest))
    (allowed : e₁.dialogue.stage.allows .data = true) :
    (∃ octets, splitBody rest.octets = some (octets, xs.flatMap Exchange.octets)) ∨ xs = [] := by
  have handled := h.handled heeds
  cases hturn : e.turn s with
  | ended result e₂ =>
    rw [exchanges_ended hturn] at first
    exact .inr (List.cons.inj first).2.symm
  | next e₂ rest₂ =>
    rw [exchanges_next hturn] at first
    rw [← (List.cons.inj first).2, (h.next hturn).exchanges_octets]
    rw [hturn] at handled
    cases handled with
    | refused refused => cases refused.symm.trans allowed
    | performed _ not_data _ => exact absurd rfl not_data
    | body _ split => exact .inl ⟨_, split⟩

/-! ## What is told -/

theorem Tells.since {texts : List String} (h : Tells e e₁ texts) : e.toldSince e₁ = texts := by
  rw [toldSince, h, List.drop_left]

theorem Unhindered.turn_tells (h : Unhindered ending e s) : ∃ texts, Tells e (e.turn s).engine texts := by
  have come := e.lineCome_tells (e.lineTime s)
  have turned := h.turned
  generalize e.turn s = turn at turned
  cases turned with
  | ended none_left => exact ⟨_, come⟩
  | tooLong long => exact ⟨_, come.trans (saying_tells _ _)⟩
  | heeded first parsed heeds handled =>
    cases handled with
    | refused refused => exact ⟨_, come.trans (saying_tells _ _)⟩
    | invalid allowed => exact ⟨_, come.trans (saying_tells _ _)⟩
    | performed allowed not_data not_quit =>
      exact ⟨_, (come.trans (doing_tells _ _)).trans (saying_tells _ _)⟩
    | quit allowed => exact ⟨_, (come.trans (doing_tells _ _)).trans (saying_tells _ _)⟩
    | bodyCut allowed cut => exact ⟨_, come.trans (bodyCome_said _ _)⟩
    | body allowed split =>
      have stage : (e.lineCome (e.lineTime s)).dialogue.stage = .recipients := by simpa [Stage.allows] using allowed
      have sound := act_sound (e.lineCome_act (e.lineTime s)) h.sound
      exact ⟨_, come.trans (sound.body_tells stage _ _ _)⟩

/-- **What is told in a dialogue is told in its exchanges.** -/
theorem Unhindered.exchanges_said (h : Unhindered ending e s) :
    Tells e (e.serve s).2 ((e.exchanges s).flatMap Exchange.said) := by
  induction e, s using serve.induct with
  | case1 e s result e₁ hturn =>
    obtain ⟨texts, told⟩ := h.turn_tells
    rw [hturn] at told
    obtain rfl := told.since
    rw [(serve_ended hturn).1, exchanges_ended hturn, List.flatMap_singleton]
    exact told
  | case2 e s e₁ rest hturn ih =>
    obtain ⟨texts, told⟩ := h.turn_tells
    rw [hturn] at told
    obtain rfl := told.since
    rw [(serve_next hturn).1, exchanges_next hturn, List.flatMap_cons]
    exact told.trans (ih (h.next hturn))

/-! ## Idle lines -/

/-- an idle command does nothing, but that the resolver may be asked -/
theorem idleLine_doing {command : Command} (idle : e.idleLine (.ok command) = true)
    (allowed : e.dialogue.stage.allows command.verb = true) :
    e.doing command = e ∨ ∃ identifier, e.doing command = { e with session := (e.session.resolve identifier).2 } := by
  have verb : verbOf (.ok command) = command.verb := rfl
  unfold idleLine at idle
  rw [verb, allowed, Bool.not_true, Bool.false_or] at idle
  cases command with
  | mail sender params =>
    rcases e.mail_cases sender params with ⟨-, hm⟩ | ⟨fits, -⟩
    · exact .inl (congrArg Prod.snd hm)
    · cases fits.symm.trans idle
  | rcpt recipient params =>
    dsimp only at idle
    rcases e.rcpt_cases recipient with ⟨ok, -⟩ | ⟨error, failed, hr⟩
    · rw [ok] at idle
      cases idle
    · rw [failed] at idle
      rw [doing, hr]
      rcases Session.rcpt_scoped failed idle with same | ⟨identifier, asked⟩
      · rw [same]
        exact .inl rfl
      · rw [asked]
        exact .inr ⟨identifier, rfl⟩
  | noop => exact .inl rfl
  | vrfy argument => exact .inl rfl
  | help => exact .inl rfl
  | auth argument => exact .inl rfl
  | helo host => exact .inl rfl
  | lhlo client => cases idle
  | data => cases idle
  | rset => cases idle
  | quit => cases idle

/-- neither QUIT nor DATA is idle where it may come -/
theorem not_idle {command : Command} (allowed : e.dialogue.stage.allows command.verb = true)
    (which : command = .quit ∨ command = .data) : e.idleLine (.ok command) = false := by
  have verb : verbOf (.ok command) = command.verb := rfl
  unfold idleLine
  rw [verb, allowed]
  rcases which with rfl | rfl <;> rfl

/-- an idle line is answered by one text, and nothing else happens, but that the resolver may be asked -/
theorem Handled.idle {line : Except CommandFault Command} {turn : Turn σ} (handled : Handled ending e s line turn)
    (idle : e.idleLine line = true) : ∃ text, turn = .next (e.saying text) s ∨ ∃ identifier,
      turn = .next ({ e with session := (e.session.resolve identifier).2 }.saying text) s := by
  cases handled with
  | refused refused => exact ⟨_, .inl rfl⟩
  | invalid allowed => exact ⟨_, .inl rfl⟩
  | @performed command allowed not_data not_quit =>
    refine ⟨e.textFor command, ?_⟩
    rcases idleLine_doing idle allowed with same | ⟨identifier, asked⟩
    · rw [same]
      exact .inl rfl
    · rw [asked]
      exact .inr ⟨identifier, rfl⟩
  | quit allowed => cases (not_idle allowed (.inl rfl)).symm.trans idle
  | bodyCut allowed cut => cases (not_idle allowed (.inr rfl)).symm.trans idle
  | body allowed split => cases (not_idle allowed (.inr rfl)).symm.trans idle

/-- **An idle line leaves no trace.** It is answered by one text, and nothing else happens, but that time passes and the
resolver may be asked. -/
theorem Unhindered.idle_next (h : Unhindered ending e s) (next : e.turn s = .next e₁ rest)
    (idle : e.idleTurn s = true) : rest = (s.readLine e.now).rest ∧ ∃ text,
      e₁ = (e.lineCome (e.lineTime s)).saying text ∨ ∃ identifier,
        e₁ = { e.lineCome (e.lineTime s) with
          session := ((e.lineCome (e.lineTime s)).session.resolve identifier).2 }.saying text := by
  have turned := h.turned
  rw [next] at turned
  cases turned with
  | tooLong long => exact ⟨rfl, _, .inl rfl⟩
  | heeded first parsed heeds handled =>
    unfold idleTurn at idle
    rw [heeds] at idle
    obtain ⟨text, same | ⟨identifier, same⟩⟩ := handled.idle idle
    · obtain ⟨rfl, rfl⟩ := Turn.next.inj same
      exact ⟨rfl, text, .inl rfl⟩
    · obtain ⟨rfl, rfl⟩ := Turn.next.inj same
      exact ⟨rfl, text, .inr ⟨identifier, rfl⟩⟩

theorem Unhindered.idle_tells (h : Unhindered ending e s) (next : e.turn s = .next e₁ rest)
    (idle : e.idleTurn s = true) : ∃ text, Tells e e₁ [text] := by
  have come := e.lineCome_tells (e.lineTime s)
  obtain ⟨-, text, rfl | ⟨identifier, rfl⟩⟩ := h.idle_next next idle
  · exact ⟨text, come.trans (saying_tells _ text)⟩
  · have resolved := (Session.resolve_steady (e.lineCome (e.lineTime s)).session identifier).said
    have asked : Tells (e.lineCome (e.lineTime s)) { e.lineCome (e.lineTime s) with
        session := ((e.lineCome (e.lineTime s)).session.resolve identifier).2 } [] :=
      resolved.trans (List.append_nil _).symm
    exact ⟨text, (come.trans asked).trans (saying_tells _ text)⟩

/-- a line that is too long and has no end is nothing but the end of the stream -/
theorem Unhindered.breaks_off (h : Unhindered ending e s) (breaks : s.breaksOff = true) :
    endsLine (splitLine s.octets).1 = false ∧ firstLine (some ending) s.octets = some (.error ending.error) ∧
      e.turn s = .ended ending.outcome (e.lineCome (e.lineTime s)) := by
  unfold Source.breaksOff at breaks
  rw [Bool.and_eq_true, Bool.not_eq_true', decide_eq_true_eq] at breaks
  obtain ⟨open_end, long⟩ := breaks
  have none_left : firstLine (some ending) s.octets = some (.error ending.error) := by
    have not_short : ¬(ending = .closed ∧ s.octets ≠ [] ∧ s.octets.length < lineLimit) := by
      rintro ⟨-, -, short⟩
      omega
    unfold firstLine
    rw [open_end, if_neg Bool.false_ne_true, Option.map_some, if_neg not_short]
  exact ⟨open_end, none_left, h.turn_at_end none_left⟩

/-- **An idle line is one line,** however long it is, and is answered by one text, if the stream does not end in it. -/
theorem Unhindered.idle_exchange (h : Unhindered ending e s) : ∀ x ∈ e.exchanges s, x.idle = true →
    splitLine x.octets = (x.octets, []) ∧ ((∃ text, x.said = [text]) ∨ endsLine x.octets = false ∧ x.said = []) := by
  induction e, s using serve.induct with
  | case1 e s result e₁ hturn =>
    rw [exchanges_ended hturn]
    intro x hx idle
    obtain rfl := List.mem_singleton.1 hx
    obtain ⟨open_end, -, turn⟩ := h.breaks_off idle
    obtain ⟨rfl, rfl⟩ := Turn.ended.inj (hturn.symm.trans turn)
    have last := splitLine_last open_end
    have octets : (stamped s.arrivals).map Prod.snd = s.octets := stamped_octets s.arrivals
    rw [last] at open_end
    rw [Exchange.octets, octets]
    exact ⟨last, .inr ⟨open_end, (e.lineCome_tells _).since⟩⟩
  | case2 e s e₁ rest hturn ih =>
    rw [exchanges_next hturn]
    intro x hx idle
    rcases List.mem_cons.1 hx with rfl | later
    · have left := h.line_left
      rw [← (h.idle_next hturn idle).1] at left
      obtain ⟨text, told⟩ := h.idle_tells hturn idle
      have split : s.octets = (splitLine s.octets).1 ++ rest.octets := by
        rw [left, splitLine_append]
      rw [Exchange.octets, Source.before_octets split, splitLine_line]
      exact ⟨rfl, .inl ⟨text, told.since⟩⟩
    · exact ih (h.next hturn) x later idle

end Engine
end LmtpRelay
