/-
Idle lines do not interfere. Where idle lines are left out of a stream, an undisturbed dialogue over what is left is
abreast of the one over the whole stream: an idle line is passed over by the first dialogue alone, and leaves them alike;
every other turn is the same in both, as `turn_alike` says. Over a forwarder that does not look at the clock, it does
not matter when the octets come; over any forwarder, and a resolver that answers at once, the octets that are left come
when they did, and the clocks of the dialogues agree whenever a line is heard that both have.

`idle_lines_removed` is the main result: without the idle lines, a run is the same but for the replies to them.
-/
import LmtpRelay.Proofs.Engine.Exchanges
import LmtpRelay.Proofs.Engine.Pipelining

namespace LmtpRelay

variable {σ : Type}

/-! ## Streams with idle lines left out -/

/-- some idle lines are left out -/
inductive Thinned : List Exchange → List Exchange → Prop where
  | nil : Thinned [] []
  | keep (x : Exchange) {xs ys : List Exchange} (h : Thinned xs ys) : Thinned (x :: xs) (x :: ys)
  | leave {x : Exchange} (idle : x.idle = true) {xs ys : List Exchange} (h : Thinned xs ys) : Thinned (x :: xs) ys

theorem Thinned.subset {xs ys : List Exchange} (h : Thinned xs ys) : ys ⊆ xs := by
  induction h with
  | nil => exact List.Subset.refl []
  | keep x _ ih => exact List.cons_subset_cons x ih
  | leave _ _ ih => exact List.subset_cons_of_subset _ ih

theorem Thinned.none_left {xs ys : List Exchange} (h : Thinned xs ys) (nothing : xs.flatMap Exchange.octets = []) :
    ys.flatMap Exchange.octets = [] := by
  rw [List.flatMap_eq_nil_iff] at nothing ⊢
  intro y hy
  exact nothing y (h.subset hy)

/-- idle lines are left out by any test that only they may fail -/
theorem Thinned.filter {p : Exchange → Bool} {xs : List Exchange} (idle : ∀ x ∈ xs, p x = false → x.idle = true) :
    Thinned xs (xs.filter p) := by
  induction xs with
  | nil => exact .nil
  | cons x xs ih =>
    have later := ih fun y hy => idle y (List.mem_cons_of_mem x hy)
    cases hp : p x with
    | true =>
      rw [List.filter_cons_of_pos hp]
      exact later.keep x
    | false =>
      rw [List.filter_cons_of_neg (by rw [hp]; exact Bool.false_ne_true)]
      exact later.leave (idle x List.mem_cons_self hp)

theorem taken_of_octets {xs : List Exchange} (nothing : xs.flatMap Exchange.octets = []) :
    xs.flatMap Exchange.taken = [] := by
  rw [← octets_of_taken, List.map_eq_nil_iff] at nothing
  exact nothing

namespace Engine

variable {ending : Ending} {timed : Prop} {e e' e₁ e₁' : Engine σ} {s s' rest rest' : Source}
  {kept xs ys : List Exchange} {x : Exchange}

/-- the octets that are kept come when they did, to a resolver that answers at once -/
structure KeepsTime (resolver : Resolver) (s s' : Source) (kept : List Exchange) : Prop where
  prompt : resolver.Prompt
  ordered : InOrder s.arrivals
  ordered' : InOrder s'.arrivals
  halts : s'.halts = s.halts
  moments : stamped s'.arrivals = kept.flatMap Exchange.taken

/-- moreover, whenever more is heard the clocks agree -/
structure Paced (e : Engine σ) (s : Source) (e' : Engine σ) (s' : Source) (kept : List Exchange) : Prop
    extends KeepsTime e.session.resolver s s' kept where
  clock : ∀ t, s.Expects t → max e'.now t = max e.now t

/-- two undisturbed dialogues, the second over what is kept of the stream that is before the first -/
structure Abreast (ending : Ending) (timed : Prop) (e : Engine σ) (s : Source) (e' : Engine σ) (s' : Source)
    (kept : List Exchange) : Prop where
  first : Unhindered ending e s
  second : Unhindered ending e' s'
  free : e.session.forwarder.ClockBlind ∨ timed
  steady : e.session.resolver.Steady
  alike : Alike False e e'
  thinned : Thinned (e.exchanges s) kept
  left : s'.octets = kept.flatMap Exchange.octets
  pace : timed → Paced e s e' s' kept

/-- when a line has come to both dialogues, at the same moment where the time counts, they are alike -/
theorem Abreast.come (h : Abreast ending timed e s e' s' kept) (same : timed → e'.lineTime s' = e.lineTime s) :
    Alike timed (e.lineCome (e.lineTime s)) (e'.lineCome (e'.lineTime s')) := by
  have resolver := e.lineCome_resolver (e.lineTime s)
  have untimed : Alike False (e.lineCome (e.lineTime s)) (e'.lineCome (e'.lineTime s')) :=
    h.alike.lineCome False.elim
  refine ⟨untimed.settings, untimed.dialogue, untimed.session.timely (resolver.symm ▸ h.steady)
    (fun counts => resolver.symm ▸ (h.pace counts).prompt) fun counts => ?_⟩
  exact (lineCome_now e' s').trans ((same counts).trans (lineCome_now e s).symm)

/-! ## A line that is left out -/

/-- an idle line is answered when it has come, where the resolver answers at once -/
theorem Unhindered.idle_now (h : Unhindered ending e s) (prompt : e.session.resolver.Prompt)
    (next : e.turn s = .next e₁ rest) (idle : e.idleTurn s = true) : e₁.now = e.lineTime s := by
  obtain ⟨-, text, rfl | ⟨identifier, rfl⟩⟩ := h.idle_next next idle
  · exact lineCome_now e s
  · have resolver := e.lineCome_resolver (e.lineTime s)
    have at_once := prompt (e.lineCome (e.lineTime s)).session.asked identifier
    rw [← resolver] at at_once
    have waited : ((e.lineCome (e.lineTime s)).session.resolve identifier).2.now
        = max (e.lineCome (e.lineTime s)).now ((e.lineCome (e.lineTime s)).now
          + ((e.lineCome (e.lineTime s)).session.resolver.resolve (e.lineCome (e.lineTime s)).session.asked
            identifier).took) := Session.waitUntil_now _ _
    rw [at_once, Nat.add_zero, Nat.max_self, lineCome_now] at waited
    exact waited

/-- an idle line leaves a dialogue alike to another one -/
theorem Alike.idle (alike : Alike False e e') (h : Unhindered ending e s) (steady : e.session.resolver.Steady)
    (next : e.turn s = .next e₁ rest) (idle : e.idleTurn s = true) : Alike False e₁ e' := by
  have come : Session.Alike False (e.lineCome (e.lineTime s)).session e'.session :=
    alike.session.bided (Session.waitUntil_bides _ _)
  obtain ⟨-, text, rfl | ⟨identifier, rfl⟩⟩ := h.idle_next next idle
  · exact ⟨alike.settings, alike.dialogue, come.said text⟩
  · have resolver := e.lineCome_resolver (e.lineTime s)
    exact ⟨alike.settings, alike.dialogue, (come.resolved (resolver.symm ▸ steady) identifier).said text⟩

theorem Paced.leave (pace : Paced e s e' s' kept) (h : Unhindered ending e s) (next : e.turn s = .next e₁ rest)
    (idle : e.idleTurn s = true) : Paced e₁ rest e' s' kept := by
  have left := h.leaves pace.ordered next
  have resolver := ((next_acts next).tools h.sound).2
  refine ⟨⟨resolver.symm ▸ pace.prompt, left.ordered, pace.ordered', pace.halts.trans left.halts.symm, pace.moments⟩,
    fun t expects => ?_⟩
  obtain ⟨result, read⟩ := h.line_read
  have before : (s.readLine e.now).ready ≤ max e.now t := by
    apply h.till.readLine_ready_le pace.ordered read
    rw [← (h.idle_next next idle).1]
    exact expects
  calc max e'.now t
      _ = max e.now t := pace.clock t (left.expects expects)
      _ = max (max e.now t) (s.readLine e.now).ready := (max_eq_left before).symm
      _ = max (max e.now (s.readLine e.now).ready) t := max_right_comm _ _ _
      _ = max e₁.now t := by rw [h.idle_now pace.prompt next idle, lineTime]

/-- **A line that is left out.** -/
theorem Abreast.leave (h : Abreast ending timed e s e' s' kept) (next : e.turn s = .next e₁ rest)
    (idle : e.idleTurn s = true) (later : Thinned (e₁.exchanges rest) kept) :
    Abreast ending timed e₁ rest e' s' kept := by
  obtain ⟨forwarder, resolver⟩ := (next_acts next).tools h.first.sound
  exact ⟨h.first.next next, h.second, forwarder.symm ▸ h.free, resolver.symm ▸ h.steady,
    h.alike.idle h.first h.steady next idle, later, h.left, fun counts => (h.pace counts).leave h.first next idle⟩

/-- a stream that breaks off in a line that is too long is not missed: the second dialogue ends all the same -/
theorem Abreast.breaks_off (h : Abreast ending timed e s e' s' []) (breaks : s.breaksOff = true) :
    TurnsAlike timed e e' [] (e.turn s) (e'.turn s') := by
  have nothing : s'.octets = [] := h.left
  have open_end' : endsLine (splitLine s'.octets).1 = false := by
    rw [nothing]
    rfl
  have none_left' : firstLine (some ending) s'.octets = some (.error ending.error) := by
    rw [nothing]
    cases ending <;> rfl
  obtain ⟨open_end, -, turn⟩ := h.first.breaks_off breaks
  rw [turn, h.second.turn_at_end none_left']
  refine .ended ⟨rfl, h.come fun counts => ?_, [], e.lineCome_tells _, e'.lineCome_tells _⟩
  have pace := h.pace counts
  obtain ⟨result, read⟩ := h.first.line_read
  obtain ⟨result', read'⟩ := h.second.line_read
  rcases h.first.till.readLine_ready pace.ordered read with ⟨ends, -⟩ | ⟨-, at_end⟩
  · cases open_end.symm.trans ends
  · rcases h.second.till.readLine_ready pace.ordered' read' with ⟨ends', -⟩ | ⟨-, at_end'⟩
    · cases open_end'.symm.trans ends'
    · exact at_end.meets at_end' pace.halts pace.clock

/-! ## A turn that is kept -/

/-- what a turn takes that is kept is at the front of both streams -/
theorem Abreast.fronts (h : Abreast ending timed e s e' s' (x :: ys)) (first : e.exchanges s = x :: xs)
    (later : Thinned xs ys) : (e.turn s).FrontLines s.octets s'.octets (ys.flatMap Exchange.octets) := by
  have here := h.first.exchanges_octets
  rw [first, List.flatMap_cons] at here
  have there := h.left
  rw [List.flatMap_cons] at there
  have lines := h.first.exchange_lines first
  cases hturn : e.turn s with
  | ended result e₁ =>
    rw [exchanges_ended hturn] at first
    obtain ⟨-, rfl⟩ := List.cons.inj first
    cases later
    exact there.trans here
  | next e₁ rest =>
    rw [exchanges_next hturn] at first
    obtain ⟨-, rfl⟩ := List.cons.inj first
    have left := (h.first.next hturn).exchanges_octets
    rw [left] at here lines
    exact ⟨x.octets, here.symm, there, lines.imp_right fun nothing =>
      ⟨nothing, later.none_left (left.trans nothing)⟩⟩

/-- the octets of a turn that is kept are at the front of both streams, with their moments -/
theorem Paced.fronts (pace : Paced e s e' s' (x :: ys)) (h : Unhindered ending e s) (first : e.exchanges s = x :: xs)
    (later : Thinned xs ys) : stamped s.arrivals = x.taken ++ xs.flatMap Exchange.taken ∧
      stamped s'.arrivals = x.taken ++ ys.flatMap Exchange.taken ∧
      (endsLine (x.taken.map Prod.snd) = true ∨ xs.flatMap Exchange.taken = [] ∧ ys.flatMap Exchange.taken = []) := by
  have here := h.exchanges_taken pace.ordered
  rw [first, List.flatMap_cons] at here
  have there := pace.moments
  rw [List.flatMap_cons] at there
  exact ⟨here.symm, there, (h.exchange_lines first).imp_right fun nothing =>
    ⟨taken_of_octets nothing, taken_of_octets (later.none_left nothing)⟩⟩

/-- a line that is kept comes to both dialogues at the same moment -/
theorem Abreast.line (h : Abreast ending timed e s e' s' (x :: ys)) (first : e.exchanges s = x :: xs)
    (later : Thinned xs ys) (counts : timed) : e'.lineTime s' = e.lineTime s := by
  have pace := h.pace counts
  obtain ⟨here, there, lines⟩ := pace.fronts h.first first later
  obtain ⟨result, read⟩ := h.first.line_read
  obtain ⟨result', read'⟩ := h.second.line_read
  exact h.first.till.readLine_meets h.second.till pace.ordered pace.ordered' read read' here there lines pace.halts
    pace.clock

/-- a body that is kept comes to both dialogues at the same moment -/
theorem Abreast.bodies (h : Abreast ending timed e s e' s' (x :: ys)) (first : e.exchanges s = x :: xs)
    (later : Thinned xs ys) (counts : timed) : e.BodiesMeet s e' s' := by
  intro e₁ e₁' rest rest' heeds heeds' allowed
  have pace := h.pace counts
  have come := h.come (h.line first later)
  have octets := h.first.exchange_body first heeds allowed
  obtain ⟨result, read⟩ := h.first.line_read
  obtain ⟨result', read'⟩ := h.second.line_read
  obtain ⟨here, there, lines⟩ := pace.fronts h.first first later
  have left := Source.readLine_leaves pace.ordered e.now
  have left' := Source.readLine_leaves pace.ordered' e'.now
  obtain ⟨front, after, after'⟩ := h.first.till.readLine_fronts h.second.till pace.ordered pace.ordered' read read'
    here there lines
  obtain ⟨rfl, rfl⟩ := heeds_come heeds
  obtain ⟨rfl, rfl⟩ := heeds_come heeds'
  have clock : (e'.lineCome (e'.lineTime s')).now = (e.lineCome (e.lineTime s)).now := come.session.clock counts
  obtain ⟨result, awaited⟩ := Option.isSome_iff_exists.1 (hearsBody_of_heeds heeds (punctual_turn h.first.punctual).2 rfl allowed)
  obtain ⟨result', awaited'⟩ := Option.isSome_iff_exists.1
    (hearsBody_of_heeds heeds' (punctual_turn h.second.punctual).2 rfl (come.dialogue ▸ allowed))
  have value := awaitedBody_value awaited
  have value' := awaitedBody_value awaited'
  rw [come.settings, clock] at value'
  rw [clock]
  refine (h.first.till.afterLine _).readBody_meets (h.second.till.afterLine _) left.ordered left'.ordered value value'
    after after' (left'.halts.trans (pace.halts.trans left.halts.symm)) ?_
  rw [octets_of_taken]
  refine octets.imp_right fun none_left => ?_
  subst none_left
  cases later
  exact ⟨rfl, rfl⟩

/-- **A turn that is kept.** -/
theorem Abreast.keep (h : Abreast ending timed e s e' s' (x :: ys)) (first : e.exchanges s = x :: xs)
    (later : Thinned xs ys) :
    TurnsAlike timed e e' (ys.flatMap Exchange.octets) (e.turn s) (e'.turn s') :=
  turn_alike h.first h.second h.free (h.come (h.line first later)) (h.bodies first later) (h.fronts first later)

/-- after a turn that is kept the dialogues are abreast again -/
theorem Abreast.next (h : Abreast ending timed e s e' s' (x :: ys)) (next : e.turn s = .next e₁ rest)
    (next' : e'.turn s' = .next e₁' rest') (later : Thinned (e₁.exchanges rest) ys) (alike : Alike timed e₁ e₁')
    (left : rest'.octets = ys.flatMap Exchange.octets) : Abreast ending timed e₁ rest e₁' rest' ys := by
  obtain ⟨forwarder, resolver⟩ := (next_acts next).tools h.first.sound
  refine ⟨h.first.next next, h.second.next next', forwarder.symm ▸ h.free, resolver.symm ▸ h.steady,
    ⟨alike.settings, alike.dialogue, alike.session.untimed⟩, later, left, fun counts => ?_⟩
  have pace := h.pace counts
  have leaves := h.first.leaves pace.ordered next
  have leaves' := h.second.leaves pace.ordered' next'
  have clock : e₁'.now = e₁.now := alike.session.clock counts
  refine ⟨⟨resolver.symm ▸ pace.prompt, leaves.ordered, leaves'.ordered,
    leaves'.halts.trans (pace.halts.trans leaves.halts.symm), ?_⟩, fun t _ => by rw [clock]⟩
  -- as much is left as is kept
  obtain ⟨os, taken⟩ := leaves'.taken
  have moments := pace.moments
  rw [taken, List.flatMap_cons] at moments
  refine List.append_inj_right' moments ?_
  have size := congrArg List.length (octets_of_taken ys)
  rw [List.length_map, ← left, Source.octets, ← stamped_octets, List.length_map] at size
  exact size.symm

/-! ## Runs -/

theorem TurnsAlike.serve {later : Octets} {result : Except ConnectionError Unit} (hturn : e.turn s = .ended result e₁)
    (turns : TurnsAlike timed e e' later (e.turn s) (e'.turn s')) : (e'.serve s').1 = (e.serve s).1 ∧
      Alike timed (e.serve s).2 (e'.serve s').2 ∧ Tells e' (e'.serve s').2 (e.toldSince e₁) := by
  rw [hturn] at turns
  generalize hturn' : e'.turn s' = turn' at turns
  cases turns with
  | ended stopped =>
    obtain ⟨same, alike, texts, told, told'⟩ := stopped
    obtain rfl := told.since
    rw [(serve_ended hturn).1, (serve_ended hturn').1]
    exact ⟨same, alike, told'⟩

/-- **Dialogues that are abreast come to the same end,** and the second has told what is kept. -/
theorem Abreast.serve (h : Abreast ending timed e s e' s' kept) : (e'.serve s').1 = (e.serve s).1 ∧
    Alike timed (e.serve s).2 (e'.serve s').2 ∧ Tells e' (e'.serve s').2 (kept.flatMap Exchange.said) := by
  induction e, s using serve.induct generalizing e' s' kept with
  | case1 e s result e₁ hturn =>
    have all := exchanges_ended hturn
    have thinned := h.thinned
    rw [all] at thinned
    cases thinned with
    | leave breaks later =>
      cases later
      obtain ⟨-, -, turn⟩ := h.first.breaks_off breaks
      obtain ⟨rfl, rfl⟩ := Turn.ended.inj (turn.symm.trans hturn)
      have ends := (h.breaks_off breaks).serve hturn
      rw [(e.lineCome_tells _).since] at ends
      exact ends
    | keep x later =>
      cases later
      rw [List.flatMap_singleton]
      exact (h.keep all .nil).serve hturn
  | case2 e s e₁ rest hturn ih =>
    have all := exchanges_next hturn
    have thinned := h.thinned
    rw [all] at thinned
    rw [(serve_next hturn).1]
    cases thinned with
    | leave idle later => exact ih (h.leave hturn idle later)
    | keep x later =>
      have turns := h.keep all later
      rw [hturn] at turns
      generalize hturn' : e'.turn s' = turn' at turns
      cases turns with
      | next goes =>
        obtain ⟨⟨alike, texts, told, told'⟩, left⟩ := goes
        obtain ⟨same, alike, said⟩ := ih (h.next hturn hturn' later alike left)
        obtain rfl := told.since
        rw [(serve_next hturn').1, List.flatMap_cons]
        exact ⟨same, alike, told'.trans said⟩

def runExchanges (e : Engine σ) (s : Source) : List Exchange := (e.saying (greeting e.settings).line).exchanges s

/-- **Idle lines do not interfere.** An idle line is one line of the stream, however long it is, and is answered by one
text, unless the stream ends in it. Where idle lines are left out, an undisturbed run says the same but for the replies
to them, asks the same of the forwarder, comes to the same result and ends in the same state, whatever the forwarder does
and with a resolver that always answers in the same way. A forwarder that looks at the clock is not to see a difference
in it: what is kept of the stream comes when it did, and the resolver takes no time. The clocks are the same in the end
then. -/
theorem idle_lines_removed {e₀ : Engine σ} {s₀ s₁ : Source} {kept : List Exchange} (fresh : e₀.Fresh)
    (steady : e₀.session.resolver.Steady) (assured : Assured ending e₀ s₀) (assured' : Assured ending e₀ s₁)
    (thinned : Thinned (e₀.runExchanges s₀) kept) (left : s₁.octets = kept.flatMap Exchange.octets)
    (free : e₀.session.forwarder.Timeless ∨ KeepsTime e₀.session.resolver s₀ s₁ kept) :
    (e₀.run s₀).2.session.journal.said
        = (greeting e₀.settings).line :: (e₀.runExchanges s₀).flatMap Exchange.said ∧
      (e₀.run s₁).2.session.journal.said = (greeting e₀.settings).line :: kept.flatMap Exchange.said ∧
      (e₀.run s₁).2.session.journal.calls = (e₀.run s₀).2.session.journal.calls ∧
      (e₀.run s₁).1 = (e₀.run s₀).1 ∧
      Alike (KeepsTime e₀.session.resolver s₀ s₁ kept) (e₀.run s₀).2 (e₀.run s₁).2 ∧
      (e₀.runExchanges s₀).flatMap Exchange.octets = s₀.octets ∧
      ∀ x ∈ e₀.runExchanges s₀, x.idle = true → splitLine x.octets = (x.octets, []) ∧
        ((∃ text, x.said = [text]) ∨ endsLine x.octets = false ∧ x.said = []) := by
  have serves := assured.unhindered fresh
  have serves' := assured'.unhindered fresh
  have greeted : (e₀.saying (greeting e₀.settings).line).session.journal.said = [(greeting e₀.settings).line] := by
    obtain ⟨⟩ := fresh
    rfl
  have abreast : Abreast ending (KeepsTime e₀.session.resolver s₀ s₁ kept) (e₀.saying (greeting e₀.settings).line) s₀
      (e₀.saying (greeting e₀.settings).line) s₁ kept :=
    ⟨serves, serves', free.imp_left fun timeless => timeless.toClockBlind, steady, .refl _, thinned, left,
      fun time => ⟨time, fun _ _ => rfl⟩⟩
  obtain ⟨result, alike, told'⟩ := abreast.serve
  have told := serves.exchanges_said
  unfold Tells at told told'
  rw [greeted] at told told'
  have tools := (serve_acts (e₀.saying (greeting e₀.settings).line) s₀).tools serves.sound
  have logged_out := Session.logout_alike (tools.1.symm ▸ free) alike.session
  have same : Alike (KeepsTime e₀.session.resolver s₀ s₁ kept) (e₀.run s₀).2 (e₀.run s₁).2 := by
    rw [assured.runs, assured'.runs]
    exact ⟨alike.settings, alike.dialogue, logged_out⟩
  refine ⟨assured.said.trans told, assured'.said.trans told', same.session.calls, ?_, same, serves.exchanges_octets,
    serves.idle_exchange⟩
  rw [assured.runs, assured'.runs]
  exact result

namespace Sample

theorem obliging_timeless : obliging.Timeless := ⟨obliging_blind, fun _ _ _ => ⟨rfl, rfl⟩⟩

theorem table_steady (table : List (String × String)) : (Resolver.ofTable table).Steady := fun _ _ _ => rfl

theorem table_prompt (table : List (String × String)) : (Resolver.ofTable table).Prompt := fun _ _ => rfl

/-- a message to one recipient among lines of all kinds that are of no use -/
def wordy : Source := ⟨[⟨1, Octets.ofText "LHLO peer\r\nNOOP\r\nMAIL FROM:<a@x> SIZE=2000\r\nMAIL FROM:<a@x>\r\n"⟩,
  ⟨3, Octets.ofText "RCPT TO:<q@h>\r\nRCPT TO:<p@h>\r\nRCPT TO:<p@i>\r\nMAIL FROM:<b@x>\r\nFOO\r\nDATA\r\n"⟩,
  ⟨4, Octets.ofText "hi\r\n.\r\nVRFY p\r\nQUIT\r\n"⟩], [⟨9, .closed⟩]⟩

/-- the same message without these lines, but for VRFY -/
def terse : Source := ⟨[⟨1, Octets.ofText "LHLO peer\r\nMAIL FROM:<a@x>\r\n"⟩,
  ⟨3, Octets.ofText "RCPT TO:<p@h>\r\nDATA\r\n"⟩, ⟨4, Octets.ofText "hi\r\n.\r\nVRFY p\r\nQUIT\r\n"⟩], [⟨9, .closed⟩]⟩

def brief : Source := ⟨[⟨2, terse.octets⟩], [⟨9, .closed⟩]⟩

/-- all exchanges but the idle ones, and that for VRFY -/
def useful : List Exchange :=
  (willing.runExchanges wordy).filter fun x => !x.idle || x.said = [cannotVerify.line]

theorem useful_thinned : Thinned (willing.runExchanges wordy) useful :=
  Thinned.filter fun x _ => by cases x.idle <;> simp

theorem wordy_assured : Assured .closed willing wordy :=
  ⟨⟨by simp [wordy], by simp [wordy]⟩, rfl, by decide +kernel, by decide +kernel⟩

theorem terse_assured : Assured .closed willing terse :=
  ⟨⟨by simp [terse], by simp [terse]⟩, rfl, by decide +kernel, by decide +kernel⟩

theorem brief_assured : Assured .closed willing brief :=
  ⟨⟨by simp [brief], by simp [brief]⟩, rfl, by decide +kernel, by decide +kernel⟩

theorem terse_timely : KeepsTime willing.session.resolver wordy terse useful :=
  ⟨table_prompt _, by simp [wordy, InOrder], by simp [terse, InOrder], rfl, by decide +kernel⟩

/-- what is said after the greeting without the lines that are of no use -/
def repliesToUse : List String :=
  ["250-relay\r\n250-PIPELINING\r\n250-ENHANCEDSTATUSCODES\r\n250-8BITMIME\r\n250 SIZE 1024\r\n",
    "250 2.1.0 Sender OK\r\n", "250 2.1.5 Recipient OK\r\n", "354 Start mail input; end with <CRLF>.<CRLF>\r\n",
    "250 2.0.0 <p@h> delivered\r\n",
    "252 2.5.0 Cannot VRFY user, but will accept message and attempt delivery\r\n",
    "221 2.0.0 relay closing connection\r\n"]

theorem useful_said : useful.flatMap Exchange.said = repliesToUse := by decide +kernel

end Sample

open Sample in
/-- a message with seven idle lines, six of which are left out, at the same moments or all at once -/
theorem idle_lines_removed_message :
    ((willing.runExchanges wordy).filter Exchange.idle).length = 7 ∧
      (willing.run terse).2.session.journal.said = (greeting willing.settings).line :: repliesToUse ∧
      (willing.run terse).2.session.journal.calls = (willing.run wordy).2.session.journal.calls ∧
      (willing.run terse).2.now = (willing.run wordy).2.now ∧
      (willing.run brief).2.session.journal.said = (greeting willing.settings).line :: repliesToUse ∧
      (willing.run brief).2.session.journal.calls = (willing.run wordy).2.session.journal.calls := by
  have fresh : willing.Fresh := .intro
  obtain ⟨-, said, calls, -, alike, -, -⟩ := idle_lines_removed fresh (table_steady _) wordy_assured terse_assured
    useful_thinned (by decide +kernel) (.inr terse_timely)
  obtain ⟨-, said', calls', -, -, -, -⟩ := idle_lines_removed fresh (table_steady _) wordy_assured brief_assured
    useful_thinned (by decide +kernel) (.inl obliging_timeless)
  rw [useful_said] at said said'
  exact ⟨by decide +kernel, said, calls, alike.session.clock terse_timely, said', calls'⟩

namespace Sample

/-- a dialogue in which nothing can be sent any more from the moment 2 on -/
def jammed : Engine (List String) :=
  start ⟨"relay", 1024, ⟨9, 9, 9⟩⟩ ⟨none, [(2, ⟨"broken pipe"⟩)], fun _ => true⟩
    (Session.start 1 (.ofTable [("p", "p@f")]) obliging [] 9000 0)

/-- a sender, with an idle line before it -/
def detour : Source := ⟨[⟨1, Octets.ofText "LHLO peer\r\n"⟩, ⟨3, Octets.ofText "NOOP\r\nMAIL FROM:<a@x>\r\n"⟩],
  [⟨9, .closed⟩]⟩

def straight : Source := ⟨[⟨1, Octets.ofText "LHLO peer\r\n"⟩, ⟨3, Octets.ofText "MAIL FROM:<a@x>\r\n"⟩],
  [⟨9, .closed⟩]⟩

/-- a forwarder that accepts recipients up to a moment only -/
def dayShift : Forwarder (List String) :=
  { obliging with rcpt := fun now accepted _ =>
      ⟨0, if now ≤ 4 then .ok () else .error (.unavailable "closed for today"), accepted⟩ }

/-- a resolver that takes its time where it has no address -/
def ponderous : Resolver :=
  ⟨fun _ identifier => ⟨if identifier = "p" then 0 else 5, Resolver.lookup [("p", "p@f")] identifier⟩⟩

def hurried : Engine (List String) :=
  start ⟨"relay", 1024, ⟨9, 9, 9⟩⟩ .calm (Session.start 1 ponderous dayShift [] 9000 0)

/-- a recipient, with an idle line before it -/
def belated : Source := ⟨[⟨1, Octets.ofText "LHLO peer\r\nMAIL FROM:<a@x>\r\nRCPT TO:<q@h>\r\nRCPT TO:<p@h>\r\n"⟩],
  [⟨9, .closed⟩]⟩

def sooner : Source := ⟨[⟨1, Octets.ofText "LHLO peer\r\nMAIL FROM:<a@x>\r\nRCPT TO:<p@h>\r\n"⟩], [⟨9, .closed⟩]⟩

end Sample

open Sample in
/-- **Idle lines do interfere** where the reply to one cannot be sent: the dialogue ends there, and the forwarder is not
asked what it is asked without the line. They interfere also where a forwarder looks at the clock and the resolver takes
time: without a recipient that it has no address for, the next one comes sooner. -/
theorem idle_lines_interfere :
    (jammed.Fresh ∧ jammed.session.resolver.Steady ∧ jammed.session.forwarder.Timeless ∧
      detour.Whole ∧ straight.Whole ∧
      (jammed.saying (greeting jammed.settings).line).punctual detour = true ∧
      (jammed.saying (greeting jammed.settings).line).punctual straight = true ∧
      detour.octets = Octets.ofText "LHLO peer\r\n" ++ Octets.ofText "NOOP\r\n" ++ Octets.ofText "MAIL FROM:<a@x>\r\n" ∧
      straight.octets = Octets.ofText "LHLO peer\r\n" ++ Octets.ofText "MAIL FROM:<a@x>\r\n" ∧
      Command.parse (Octets.ofText "NOOP") = .ok .noop ∧
      (jammed.run detour).2.session.journal.calls.length = 1 ∧
      (jammed.run straight).2.session.journal.calls.length = 2) ∧
    (hurried.Fresh ∧ hurried.session.resolver.Steady ∧
      Assured .closed hurried belated ∧ Assured .closed hurried sooner ∧
      Thinned (hurried.runExchanges belated) ((hurried.runExchanges belated).filter fun x => !x.idle) ∧
      stamped sooner.arrivals = ((hurried.runExchanges belated).filter fun x => !x.idle).flatMap Exchange.taken ∧
      (hurried.run sooner).2.session.journal.said ≠ (greeting hurried.settings).line ::
        ((hurried.runExchanges belated).filter fun x => !x.idle).flatMap Exchange.said) := by
  refine ⟨⟨.intro, table_steady _, obliging_timeless, ⟨by simp [detour], by simp [detour]⟩,
    ⟨by simp [straight], by simp [straight]⟩, by decide +kernel, by decide +kernel, by decide +kernel,
    by decide +kernel, by decide +kernel, by decide +kernel, by decide +kernel⟩,
    .intro, fun _ _ _ => rfl, ⟨⟨by simp [belated], by simp [belated]⟩, rfl, by decide +kernel, by decide +kernel⟩,
    ⟨⟨by simp [sooner], by simp [sooner]⟩, rfl, by decide +kernel, by decide +kernel⟩, ?_, by decide +kernel,
    by decide +kernel⟩
  exact Thinned.filter fun x _ => by cases x.idle <;> simp

end Engine
end LmtpRelay
