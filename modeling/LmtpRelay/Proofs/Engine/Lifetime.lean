/-
How long a dialogue may last. Whether it has lasted as long as it may is looked at between the lines only, and a line
that was awaited before is dealt with whenever it comes. So the limit of a dialogue does not bound the lines that are
dealt with; only the wait for the last of them has to begin before it.

- `LateLine`: the next line is complete only when the dialogue has lasted as long as it may. `KeepsLimit`: each late
  line is turned away. `Overdue`: a late line that is dealt with all the same.
- `keepsLimit_iff`: exactly those runs keep the limit in which no line is overdue.
- `Overdue.last`: a line that is overdue is the last one.
- `keepsLimit_always_iff`: exactly which settings keep the limit in every run. With all others a peer that only keeps in
  touch gets a line dealt with when the limit is over, however far that is (`noops_overdue`).
-/
import LmtpRelay.Proofs.Engine.Pipelining
import LmtpRelay.Proofs.Engine.Protocol
import LmtpRelay.Proofs.Session.Clock

namespace LmtpRelay

variable {σ : Type}

/-! ## When a line arrives -/

namespace Source

def lineArrives (now : Instant) (s : Source) : Instant := (gather lineLimit (s.noticed? now) s.arrivals).ready

theorem lineArrives_le_piece (now : Instant) (s : Source) : s.lineArrives now ≤ (s.piece lineLimit now).ready := by
  unfold lineArrives piece
  dsimp only
  split
  · exact Nat.le_refl _
  · split
    · exact Nat.le_refl _
    · split <;> exact Nat.le_max_left _ _

/-- a line is read when its last octet has arrived, or later -/
theorem lineArrives_le (now : Instant) (s : Source) : s.lineArrives now ≤ (s.readLine now).ready := by
  have piece := s.lineArrives_le_piece now
  unfold readLine
  dsimp only
  split
  · exact piece
  · exact piece
  · exact piece
  · split
    · exact piece
    · exact Nat.le_trans piece (Nat.le_max_left _ _)

end Source

namespace Engine

variable {e e' e₀ : Engine σ} {s s' s₀ : Source} {l : List Heard}

/-! ## The clock -/

theorem doing_later (e : Engine σ) (command : Command) : Session.Later e.session (e.doing command).session := by
  rcases e.doing_session command with same | ⟨sender, params, -, mail⟩ | ⟨recipient, params, -, rcpt⟩ | reset
  · rw [same]
    exact .refl _
  · rw [mail]
    exact Session.mail_later _ sender params
  · rw [rcpt]
    exact Session.rcpt_later _ recipient
  · rw [reset]
    exact Session.reset_later _

/-- **No act sets the clock back.** -/
theorem act_later (act : Act e l e') : Session.Later e.session e'.session := by
  cases act with
  | wait t turns => exact Session.waitUntil_later e.session t
  | say text => exact .refl e.session
  | perform parsed allowed => exact e.doing_later _
  | @deliver s now body read stage =>
    rcases e.deliver_session body with ⟨-, reset⟩ | ⟨octets, -, data⟩
    · rw [reset]
      exact Session.reset_later _
    · rw [data]
      exact Session.data_later _ _

theorem Acts.later (h : Acts e l e') : e.now ≤ e'.now := by
  induction h with
  | done e => exact Nat.le_refl _
  | step act _ ih => exact Nat.le_trans (act_later act) ih

/-- when the dialogue has lasted as long as it may -/
def limit (e : Engine σ) : Instant := e.started + seconds e.settings.timeouts.connectionSecs

theorem isSpent_iff : e.isSpent = true ↔ e.limit ≤ e.now := decide_eq_true_iff

theorem Acts.limit (h : Acts e l e') : e'.limit = e.limit := by
  obtain ⟨_, _, _, rfl⟩ := h.frame
  rfl

theorem lineCome_now_le (e : Engine σ) (t : Instant) : t ≤ (e.lineCome t).now :=
  Nat.le_trans (Nat.le_max_right _ _) (Nat.le_of_eq (Session.waitUntil_now e.session t).symm)

/-! ## Late lines -/

/-- the next line is one, and its last octet arrives when the dialogue has lasted as long as it may, or later -/
structure LateLine (e : Engine σ) (s : Source) : Prop where
  line : ∃ line, (s.readLine e.now).value = some (.ok line)
  late : e.limit ≤ s.lineArrives e.now

/-- the signal to shut down does not come before a moment -/
def Unsignalled (e : Engine σ) (t : Instant) : Prop :=
  ∀ signal, e.surroundings.signal = some signal →
    t < max e.now signal ∨ t = max e.now signal ∧ e.surroundings.signalFirst e.turns = false

/-- A late line is dealt with all the same: the wait for it begins before the limit, and it is there before the patience
for it ends and before the signal to shut down. -/
structure Overdue (e : Engine σ) (s : Source) : Prop extends LateLine e s where
  early : e.now < e.limit
  patient : e.lineTime s < e.now + seconds e.settings.timeouts.commandSecs
  unsignalled : e.Unsignalled (e.lineTime s)

/-- the dialogue ends in this turn with a reply that says so; until then nothing happens but that time passes -/
def TurnsAway (e : Engine σ) (s : Source) : Prop :=
  ∃ (e' : Engine σ) (reply : Reply), e.turn s = e'.leave reply ∧ reply.status.code = 421 ∧
    Session.Bides e.session e'.session ∧ e'.dialogue = e.dialogue

/-- in no state of a run is a late line dealt with; the dialogue ends there -/
def KeepsLimit (e₀ : Engine σ) (s₀ : Source) : Prop :=
  ∀ l e s, e₀.Reaches s₀ l e s → e.LateLine s → e.heeds s = none ∧ e.TurnsAway s

theorem awaitTurn_unsignalled {r : Read (Except ConnectionError Octets)} (h : e.Unsignalled (e.awaitLine r).2) :
    e.awaitTurn r = e.awaitLine r := by
  unfold awaitTurn
  dsimp only
  cases given : e.surroundings.signal with
  | none => rfl
  | some signal =>
    refine if_neg ?_
    rcases h signal given with later | ⟨same, lineFirst⟩
    · simp [Nat.not_lt.2 (Nat.le_of_lt later), Nat.ne_of_gt later]
    · simp [same, lineFirst]

theorem awaitTurn_signalled {r : Read (Except ConnectionError Octets)} (h : ¬e.Unsignalled (e.awaitLine r).2) :
    ∃ t, e.awaitTurn r = (.signal, t) := by
  obtain ⟨signal, first⟩ := not_forall.1 h
  obtain ⟨given, first⟩ := Classical.not_imp.1 first
  obtain ⟨not_later, first⟩ := not_or.1 first
  refine ⟨max e.now signal, ?_⟩
  unfold awaitTurn
  dsimp only
  rw [given]
  refine if_pos ?_
  rcases Nat.lt_or_eq_of_le (Nat.le_of_not_lt not_later) with before | same
  · simp [before]
  · simp [same, show e.surroundings.signalFirst e.turns = true by simpa [same] using first]

/-- a late line that is awaited from before the limit has still to come -/
theorem LateLine.time (h : e.LateLine s) (early : e.now < e.limit) :
    e.lineTime s = (s.readLine e.now).ready ∧ e.now < (s.readLine e.now).ready := by
  have ahead := Nat.lt_of_lt_of_le early (Nat.le_trans h.late (s.lineArrives_le e.now))
  exact ⟨Nat.max_eq_right (Nat.le_of_lt ahead), ahead⟩

/-- the wait for a late line from before the limit ends with it, or with the end of the patience for it -/
theorem LateLine.awaitLine (h : e.LateLine s) (early : e.now < e.limit) {line : Octets}
    (read : (s.readLine e.now).value = some (.ok line)) : e.awaitLine (s.readLine e.now) =
      if e.lineTime s < e.now + seconds e.settings.timeouts.commandSecs then (.line (.ok line), e.lineTime s)
      else (.timedOut, e.now + seconds e.settings.timeouts.commandSecs) := by
  obtain ⟨time, ahead⟩ := h.time early
  have in_time : inTime e.now (e.now + seconds e.settings.timeouts.commandSecs) (s.readLine e.now).ready =
      decide (e.lineTime s < e.now + seconds e.settings.timeouts.commandSecs) := by
    rw [time, inTime, decide_eq_false (Nat.not_le.2 ahead), Bool.false_or]
  unfold Engine.awaitLine Read.within
  dsimp only
  rw [in_time, read]
  by_cases patient : e.lineTime s < e.now + seconds e.settings.timeouts.commandSecs
  · rw [decide_eq_true patient, if_pos rfl, if_pos patient]
    rfl
  · rw [decide_eq_false patient, if_neg Bool.false_ne_true, if_neg patient]

theorem Overdue.heeds (h : e.Overdue s) {line : Octets} (read : (s.readLine e.now).value = some (.ok line)) :
    e.heeds s = some (e.lineCome (e.lineTime s), Command.parse line, (s.readLine e.now).rest) := by
  have awaited := h.awaitLine h.early read
  rw [if_pos h.patient] at awaited
  have turn : e.awaitTurn (s.readLine e.now) = (.line (.ok line), e.lineTime s) := by
    rw [awaitTurn_unsignalled (by rw [awaited]; exact h.unsignalled), awaited]
  have lasts : ¬e.isSpent = true := fun spent => Nat.not_le.2 h.early (isSpent_iff.1 spent)
  unfold Engine.heeds
  rw [if_neg lasts]
  dsimp only
  rw [turn]
  rfl

/-- no turn waits long enough for a late line that is not overdue -/
theorem LateLine.unheard (h : e.LateLine s) (early : e.now < e.limit) (not : ¬e.Overdue s) :
    ∃ kind t, e.awaitTurn (s.readLine e.now) = (kind, t) ∧ (kind = .signal ∨ kind = .timedOut) := by
  obtain ⟨line, read⟩ := h.line
  have awaited := h.awaitLine early read
  by_cases unsignalled : e.Unsignalled (e.awaitLine (s.readLine e.now)).2
  · by_cases patient : e.lineTime s < e.now + seconds e.settings.timeouts.commandSecs
    · rw [if_pos patient] at awaited
      rw [awaited] at unsignalled
      exact absurd ⟨h, early, patient, unsignalled⟩ not
    · rw [if_neg patient] at awaited
      exact ⟨.timedOut, _, (awaitTurn_unsignalled unsignalled).trans awaited, .inr rfl⟩
  · obtain ⟨t, signalled⟩ := awaitTurn_signalled unsignalled
    exact ⟨.signal, t, signalled, .inl rfl⟩

theorem turn_spent (spent : e.limit ≤ e.now) (s : Source) : e.turn s = e.leave lifetimeExceeded :=
  if_pos (isSpent_iff.2 spent)

/-- **A late line that is not overdue is turned away.** -/
theorem LateLine.turnsAway (h : e.LateLine s) (not : ¬e.Overdue s) : e.heeds s = none ∧ e.TurnsAway s := by
  by_cases spent : e.limit ≤ e.now
  · exact ⟨if_pos (isSpent_iff.2 spent), e, lifetimeExceeded, turn_spent spent s, rfl, .refl _, rfl⟩
  · have lasts : ¬e.isSpent = true := fun h => spent (isSpent_iff.1 h)
    obtain ⟨kind, t, awaited, given_up⟩ := h.unheard (Nat.not_le.1 spent) not
    have bides : Session.Bides e.session (e.lineCome t).session := Session.waitUntil_bides e.session t
    unfold Engine.heeds TurnsAway Engine.turn
    rw [if_neg lasts, if_neg lasts]
    dsimp only
    rw [awaited]
    rcases given_up with rfl | rfl
    · exact ⟨rfl, e.lineCome t, shuttingDown, rfl, rfl, bides, rfl⟩
    · exact ⟨rfl, e.lineCome t, commandTimedOut, rfl, rfl, bides, rfl⟩

/-- **Exactly when the limit is kept:** when no state of the run has an overdue line before it. -/
theorem keepsLimit_iff : e₀.KeepsLimit s₀ ↔ ∀ l e s, e₀.Reaches s₀ l e s → ¬e.Overdue s := by
  constructor
  · intro keeps l e s reaches overdue
    obtain ⟨line, read⟩ := overdue.line
    have heeds := overdue.heeds read
    rw [(keeps l e s reaches overdue.toLateLine).1] at heeds
    cases heeds
  · exact fun never l e s reaches late => late.turnsAway (never l e s reaches)

/-! ## How a run ends -/

theorem leave_calls (e : Engine σ) (reply : Reply) :
    ∃ result e', e.leave reply = .ended result e' ∧ e'.session.journal.calls = e.session.journal.calls := by
  unfold leave
  rw [send, say_eq]
  cases e.surroundings.outageAt e.now with
  | some failure => exact ⟨_, _, rfl, rfl⟩
  | none =>
    refine ⟨_, _, rfl, ?_⟩
    rw [saying, Session.journal_note, Journal.calls_append]
    exact List.append_nil _

/-- when a line is turned away, nothing more is asked of the forwarder but to close -/
theorem Reaches.turnsAway_calls (h : e₀.Reaches s₀ l e s) (away : e.TurnsAway s) : ∃ result,
    (e₀.run s₀).2.session.journal.calls = e.session.journal.calls ++ [.close result] := by
  obtain ⟨e', reply, turned, -, bides, -⟩ := away
  obtain ⟨told, e₁, left, calls⟩ := leave_calls e' reply
  obtain ⟨result, closed⟩ := logout_calls e₁.session
  refine ⟨result, ?_⟩
  rw [h.run, (serve_ended (turned.trans left)).1, closed, calls, bides.calls]

/-- **An overdue line is the last one.** It comes before the patience for it ends, and the next turn ends the
dialogue. -/
theorem Overdue.last (h : e.Overdue s) : ∃ line, (s.readLine e.now).value = some (.ok line) ∧
    e.turn s = (e.lineCome (e.lineTime s)).handle (Command.parse line) (s.readLine e.now).rest ∧
    e.limit ≤ e.lineTime s ∧ e.lineTime s < e.limit + seconds e.settings.timeouts.commandSecs ∧
    ∀ e' s', e.turn s = .next e' s' → e'.turn s' = e'.leave lifetimeExceeded := by
  obtain ⟨line, read⟩ := h.line
  have turned := turn_of_heeds (h.heeds read)
  have late : e.limit ≤ e.lineTime s :=
    Nat.le_trans h.late (Nat.le_trans (s.lineArrives_le e.now) (Nat.le_max_right _ _))
  refine ⟨line, read, turned, late, Nat.lt_trans h.patient (Nat.add_lt_add_right h.early _), fun e' s' next => ?_⟩
  have handled := handle_acts (e.lineCome (e.lineTime s)) (s.readLine e.now).rest line
  rw [← turned, next] at handled
  have limit : e'.limit = e.limit := handled.limit
  have now : e.lineTime s ≤ e'.now := Nat.le_trans (e.lineCome_now_le (e.lineTime s)) handled.later
  exact turn_spent (limit ▸ Nat.le_trans late now) s'

/-! ## Keeping in touch -/

/-- the idle line of a peer that only keeps in touch -/
def noopLine : Octets := Octets.ofText "NOOP\r\n"

/-- idle lines, one each millisecond from a moment on -/
def noops (t : Instant) : Nat → List Arrival
  | 0 => []
  | n + 1 => ⟨t, noopLine⟩ :: noops (t + 1) n

theorem one_lt_seconds {n : Nat} (h : 0 < n) : 1 < seconds n := by
  unfold seconds
  omega

section noops

variable {lead : List Arrival} {t : Instant}

/-- arrivals without octets do not delay the line behind them -/
theorem gather_noop (past : ∀ a ∈ lead, a.octets = [] ∧ a.time ≤ t) (rest : List Arrival) :
    gather lineLimit none (lead ++ ⟨t, noopLine⟩ :: rest) = ⟨noopLine, true, t, ⟨t, []⟩ :: rest⟩ := by
  induction lead with
  | nil => rfl
  | cons a lead ih =>
    obtain ⟨⟨nothing, before⟩, later⟩ := List.forall_mem_cons.1 past
    have passed : gather lineLimit none (a :: (lead ++ ⟨t, noopLine⟩ :: rest)) =
        { gather lineLimit none (lead ++ ⟨t, noopLine⟩ :: rest) with
          ready := max a.time (gather lineLimit none (lead ++ ⟨t, noopLine⟩ :: rest)).ready } := by
      rw [gather, nothing]
      rfl
    rw [List.cons_append, passed, ih later, Nat.max_eq_right before]

theorem readLine_noop (past : ∀ a ∈ lead, a.octets = [] ∧ a.time ≤ t) (now : Instant) (rest : List Arrival) :
    Source.readLine now ⟨lead ++ ⟨t, noopLine⟩ :: rest, []⟩ =
      ⟨some (.ok (Octets.ofText "NOOP")), t, ⟨⟨t, []⟩ :: rest, []⟩⟩ := by
  have piece : Source.piece lineLimit now ⟨lead ++ ⟨t, noopLine⟩ :: rest, []⟩ =
      ⟨some (.ok noopLine), t, ⟨⟨t, []⟩ :: rest, []⟩⟩ := by
    have silent : Source.noticed? now ⟨lead ++ ⟨t, noopLine⟩ :: rest, []⟩ = none := rfl
    unfold Source.piece
    dsimp only
    rw [silent, gather_noop past rest]
    rfl
  unfold Source.readLine
  rw [piece]
  rfl

/-- a dialogue that nothing else disturbs deals with an idle line that comes a millisecond later -/
theorem heeds_noop (calm : e.surroundings = .calm) (past : ∀ a ∈ lead, a.octets = [] ∧ a.time ≤ e.now + 1)
    (early : e.now < e.limit) (patience : 0 < e.settings.timeouts.commandSecs) (rest : List Arrival) :
    e.heeds ⟨lead ++ ⟨e.now + 1, noopLine⟩ :: rest, []⟩ =
      some (e.lineCome (e.now + 1), .ok .noop, ⟨⟨e.now + 1, []⟩ :: rest, []⟩) := by
  have in_time : inTime e.now (e.now + seconds e.settings.timeouts.commandSecs) (e.now + 1) = true :=
    Bool.or_eq_true_iff.2 (.inr (decide_eq_true (Nat.add_lt_add_left (one_lt_seconds patience) e.now)))
  have come : max e.now (e.now + 1) = e.now + 1 := Nat.max_eq_right (Nat.le_succ e.now)
  have lasts : ¬e.isSpent = true := fun spent => Nat.not_le.2 early (isSpent_iff.1 spent)
  have parsed : Command.parse (Octets.ofText "NOOP") = .ok .noop := by decide +kernel
  have awaited : e.awaitTurn (Source.readLine e.now ⟨lead ++ ⟨e.now + 1, noopLine⟩ :: rest, []⟩) =
      (.line (.ok (Octets.ofText "NOOP")), e.now + 1) := by
    rw [awaitTurn_unsignalled (by rw [Unsignalled, calm]; exact nofun), readLine_noop past]
    unfold Engine.awaitLine Read.within
    dsimp only
    rw [in_time, come]
    rfl
  unfold Engine.heeds
  rw [if_neg lasts]
  dsimp only
  rw [awaited, readLine_noop past]
  dsimp only
  rw [parsed]
  rfl

/-- an idle line that comes when the limit is over, and a millisecond after the wait for it began, is overdue -/
theorem overdue_noop (calm : e.surroundings = .calm) (past : ∀ a ∈ lead, a.octets = [] ∧ a.time ≤ e.now + 1)
    (limit : e.limit = e.now + 1) (patience : 0 < e.settings.timeouts.commandSecs) (rest : List Arrival) :
    e.Overdue ⟨lead ++ ⟨e.now + 1, noopLine⟩ :: rest, []⟩ := by
  have read := readLine_noop past e.now rest
  have time : e.lineTime ⟨lead ++ ⟨e.now + 1, noopLine⟩ :: rest, []⟩ = e.now + 1 := by
    rw [lineTime, read]
    exact Nat.max_eq_right (Nat.le_succ e.now)
  have arrives : Source.lineArrives e.now ⟨lead ++ ⟨e.now + 1, noopLine⟩ :: rest, []⟩ = e.now + 1 :=
    congrArg Gathered.ready (gather_noop past rest)
  refine ⟨⟨⟨_, congrArg Read.value read⟩, Nat.le_of_eq (limit.trans arrives.symm)⟩, ?_, ?_, ?_⟩
  · rw [limit]
    exact Nat.lt_succ_self e.now
  · rw [time]
    exact Nat.add_lt_add_left (one_lt_seconds patience) e.now
  · rw [Unsignalled, calm]
    exact nofun

/-- **Keeping in touch outlasts the limit.** A peer that sends an idle line each millisecond gets the one dealt with
that comes when the limit is over. -/
theorem noops_overdue (n : Nat) (lead : List Arrival) (calm : e.surroundings = .calm)
    (goes_on : e.dialogue.stage ≠ .closed) (past : ∀ a ∈ lead, a.octets = [] ∧ a.time ≤ e.now + 1)
    (limit : e.limit = e.now + 1 + n) (patience : 0 < e.settings.timeouts.commandSecs) :
    ∃ l e' s', e.Comes ⟨lead ++ noops (e.now + 1) (n + 1), []⟩ l e' s' ∧ e'.Overdue s' := by
  -- each idle line is dealt with as it comes, and the limit is a millisecond nearer then
  induction n generalizing e lead with
  | zero => exact ⟨[], e, _, .here e _, overdue_noop calm past limit patience []⟩
  | succ n ih =>
    have early : e.now < e.limit := limit ▸ Nat.lt_of_lt_of_le (Nat.lt_succ_self e.now) (Nat.le_add_right _ _)
    have heeds := heeds_noop calm past early patience (noops (e.now + 1 + 1) (n + 1))
    let e₁ := (e.lineCome (e.now + 1)).saying nothingDone.line
    have free : (e.lineCome (e.now + 1)).surroundings.outageAt (e.lineCome (e.now + 1)).now = none :=
      congrArg (Surroundings.outageAt · _) calm
    have turn : e.turn ⟨lead ++ noops (e.now + 1) (n + 2), []⟩ =
        .next e₁ ⟨[⟨e.now + 1, []⟩] ++ noops (e.now + 1 + 1) (n + 1), []⟩ := by
      have answered : ∀ s, (e.lineCome (e.now + 1)).answer nothingDone s = .next e₁ s := by
        intro s
        rw [answer, send_eq free]
        rfl
      exact (turn_of_heeds heeds).trans ((if_pos (decide_eq_true goes_on)).trans (answered _))
    have now : e₁.now = e.now + 1 :=
      (Session.waitUntil_now e.session (e.now + 1)).trans (Nat.max_eq_right (Nat.le_succ e.now))
    have past₁ : ∀ a ∈ [(⟨e.now + 1, []⟩ : Arrival)], a.octets = [] ∧ a.time ≤ e₁.now + 1 := by
      intro a there
      rw [List.mem_singleton.1 there, now]
      exact ⟨rfl, Nat.le_succ _⟩
    have limit₁ : e₁.limit = e₁.now + 1 + n := by
      rw [now, Nat.add_right_comm]
      exact limit
    obtain ⟨l, e', s', comes, overdue⟩ := ih (e := e₁) [⟨e.now + 1, []⟩] calm goes_on past₁ limit₁ patience
    rw [now] at comes
    exact ⟨_, e', s', .turn turn comes, overdue⟩

end noops

/-- where there is patience for lines and some time for the dialogue, a line can be overdue -/
theorem exists_overdue (settings : EngineSettings) (session : Session σ) (patience : 0 < settings.timeouts.commandSecs)
    (some_time : 0 < settings.timeouts.connectionSecs) :
    ∃ s₀ l e s, (start settings .calm session).Reaches s₀ l e s ∧ e.Overdue s := by
  obtain ⟨n, long⟩ := Nat.exists_eq_add_of_le (Nat.le_of_lt (one_lt_seconds some_time))
  have greeted := send_eq (e := start settings .calm session) rfl (greeting settings)
  let e₁ := (start settings .calm session).saying (greeting settings).line
  have limit : e₁.limit = e₁.now + 1 + n := (congrArg (session.now + ·) long).trans (Nat.add_assoc session.now 1 n).symm
  obtain ⟨l, e, s, comes, overdue⟩ := noops_overdue n [] (e := e₁) rfl nofun nofun limit patience
  exact ⟨_, l, e, s, ⟨_, greeted, comes⟩, overdue⟩

/-- **Exactly which settings keep the limit in every run:** those without patience for a line that is not there yet, and
those without any time. -/
theorem keepsLimit_always_iff (settings : EngineSettings) (session : Session σ) :
    (∀ surroundings s₀, (start settings surroundings session).KeepsLimit s₀) ↔
      settings.timeouts.commandSecs = 0 ∨ settings.timeouts.connectionSecs = 0 := by
  constructor
  · intro keeps
    by_contra some_time
    obtain ⟨patience, some_time⟩ := not_or.1 some_time
    obtain ⟨s₀, l, e, s, reaches, overdue⟩ :=
      exists_overdue settings session (Nat.pos_of_ne_zero patience) (Nat.pos_of_ne_zero some_time)
    exact keepsLimit_iff.1 (keeps .calm s₀) l e s reaches overdue
  · intro none_left surroundings s₀
    refine keepsLimit_iff.2 fun l e s reaches overdue => ?_
    have ahead := (overdue.time overdue.early).2
    have settings_same := reaches.acts.setup.1
    rcases none_left with impatient | none_left
    · have patient := overdue.patient
      rw [(overdue.time overdue.early).1, settings_same] at patient
      have nothing : seconds (start settings surroundings session).settings.timeouts.commandSecs = 0 :=
        congrArg seconds impatient
      rw [nothing] at patient
      exact Nat.lt_asymm ahead patient
    · have early := overdue.early
      rw [reaches.acts.limit] at early
      have began : (start settings surroundings session).limit = session.now :=
        congrArg (fun secs => session.now + seconds secs) none_left
      rw [began] at early
      exact Nat.not_lt.2 reaches.acts.later early

/-- **What the limit of a dialogue does.** A run keeps it exactly if no state that it comes to has an overdue line
before it. A late line that is not overdue is not dealt with; the dialogue ends with a reply that says so, and nothing
is asked of the session and its forwarder but to log out. A late line that is overdue is dealt with like any other,
before the patience for it ends, and is the last: the next turn, if there is one, ends the dialogue. For given settings
the limit is kept in every run exactly if there is no patience for a line that is not there yet, or no time at all. -/
theorem limit_heeded (settings : EngineSettings) (surroundings : Surroundings) (session : Session σ) (s₀ : Source) :
    let e₀ := start settings surroundings session
    (e₀.KeepsLimit s₀ ↔ ∀ l e s, e₀.Reaches s₀ l e s → ¬e.Overdue s) ∧
    (∀ l e s, e₀.Reaches s₀ l e s → e.LateLine s → ¬e.Overdue s → e.heeds s = none ∧ e.TurnsAway s ∧
      ∃ result, (e₀.run s₀).2.session.journal.calls = e.session.journal.calls ++ [.close result]) ∧
    (∀ l e s, e₀.Reaches s₀ l e s → e.Overdue s → ∃ line, (s.readLine e.now).value = some (.ok line) ∧
      e.turn s = (e.lineCome (e.lineTime s)).handle (Command.parse line) (s.readLine e.now).rest ∧
      e₀.limit ≤ e.lineTime s ∧ e.lineTime s < e₀.limit + seconds settings.timeouts.commandSecs ∧
      ∀ e' s', e.turn s = .next e' s' → e'.turn s' = e'.leave lifetimeExceeded) ∧
    ((∀ surroundings s₀, (start settings surroundings session).KeepsLimit s₀) ↔
      settings.timeouts.commandSecs = 0 ∨ settings.timeouts.connectionSecs = 0) := by
  intro e₀
  refine ⟨keepsLimit_iff, fun l e s reaches late not => ?_, fun l e s reaches overdue => ?_,
    keepsLimit_always_iff settings session⟩
  · obtain ⟨unheard, away⟩ := late.turnsAway not
    exact ⟨unheard, away, reaches.turnsAway_calls away⟩
  · have same : e.settings = settings := reaches.acts.setup.1
    have limit : e.limit = e₀.limit := reaches.acts.limit
    have last := overdue.last
    rwa [limit, same] at last

namespace Sample

/-- a dialogue with the limits that hold where nothing else is said -/
def standard : Engine (List String) :=
  start ⟨"relay", 1024, .standard⟩ .calm (Session.start 1 (.ofTable [("p", "p@f")]) obliging [] 5000 0)

/-- an envelope, an idle line every 299 seconds, and a message four seconds after the limit of half an hour -/
def lingering : Source :=
  ⟨⟨0, Octets.ofText "LHLO peer\r\nMAIL FROM:<a@x>\r\nRCPT TO:<p@h>\r\n"⟩ ::
    [299000, 598000, 897000, 1196000, 1495000, 1794000].map (⟨·, noopLine⟩) ++
    [⟨1804000, Octets.ofText "DATA\r\nhi\r\n.\r\n"⟩], []⟩

/-- what is done in it when the limit is over -/
def overtime : Journal := (standard.run lingering).2.session.journal.filter fun entry => standard.limit ≤ entry.time

/-- whether the next line is a late one, and is dealt with -/
def heedsLate (e : Engine (List String)) (s : Source) : Bool :=
  match (s.readLine e.now).value with
  | some (.ok _) => decide (e.limit ≤ s.lineArrives e.now) && (e.heeds s).isSome
  | _ => false

end Sample

open Sample in
/-- **The limit does not end a dialogue.** With the standard limits a message that comes four seconds after the limit,
with its DATA, is let come, delivered and answered; only then the dialogue ends. -/
theorem message_after_limit : ¬standard.KeepsLimit lingering ∧
    overtime.said = [startBody.line, "250 2.0.0 <p@h> delivered\r\n", lifetimeExceeded.line] ∧
    (overtime.calls.any fun deed => deed matches .data (.ok _)) = true ∧
    overtime.calls.any (fun deed => deed matches .close _) = true ∧ overtime.calls.length = 4 := by
  refine ⟨fun keeps => ?_, by decide +kernel, by decide +kernel, by decide +kernel, by decide +kernel⟩
  have greeted : standard.send (greeting standard.settings) =
      (.ok (), standard.saying (greeting standard.settings).line) := rfl
  obtain ⟨l, e, s, reaches, late⟩ := reaches_after greeted lingering 9 heedsLate (by decide +kernel)
  unfold heedsLate at late
  split at late
  · next line read =>
    rw [Bool.and_eq_true, decide_eq_true_eq] at late
    rw [(keeps l e s reaches ⟨⟨line, read⟩, late.1⟩).1] at late
    cases late.2
  · cases late

end Engine
end LmtpRelay
