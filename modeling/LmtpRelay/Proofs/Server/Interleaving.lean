/-
Serving and closing in any order. Whatever the order of the steps, a serving call never misses a close: if it looked at
the server before that was marked as closed, it had subscribed by then, so the signal of each closing call, which is
sent after the mark, finds it; if it looked later, it is turned away.

- `Course`, `step_course`: what one step can do. All that follows goes by these cases.
- `ServeCall.Heeds`, `run_sound`: what is known of a call by how far it has come. A call that accepts connections is
  signalled exactly if a closing call has finished.
- `run_keeps`: what the steps of all calls keep of one serving call.
- `close_never_missed`: both halves, for every call at every point of every run.
-/
import LmtpRelay.Server.Shutdown

namespace LmtpRelay

/-! ## What one step can do -/

namespace ServeCall

/-- the steps that a serving call takes itself, on a server that is closed or open -/
inductive Own (closed : Bool) : (ServeCall → ServeCall) → Prop where
  | subscribe : Own closed ServeCall.subscribe
  | check : Own closed (ServeCall.check closed)
  | accept : Own closed ServeCall.accept
  | receive : Own closed ServeCall.receive

end ServeCall

namespace Shutdown

/-- how a server may go on in one step -/
inductive Course (s : Shutdown) : Shutdown → Prop where
  /-- a serving call takes a step of its own -/
  | own (i : Nat) {f : ServeCall → ServeCall} (own : ServeCall.Own s.closed f) : Course s (s.atCall i f)
  /-- a closing call marks the server as closed -/
  | mark (j : Nat) (next : s.closing[j]? = some .begun) :
    Course s { s with closed := true, closing := s.closing.set j .marked }
  /-- a closing call sends its signal -/
  | signal (j : Nat) (next : s.closing[j]? = some .marked) :
    Course s { s with serving := s.serving.map ServeCall.signal, closing := s.closing.set j .finished }
  /-- the step is not the next one of its call -/
  | nothing : Course s s

theorem step_course (s : Shutdown) (step : ServerStep) : Course s (s.step step) := by
  cases step with
  | subscribe i => exact .own i .subscribe
  | check i => exact .own i .check
  | accept i => exact .own i .accept
  | receive i => exact .own i .receive
  | mark j =>
    dsimp only [Shutdown.step]
    split
    · exact .mark j ‹_›
    · exact .nothing
  | signal j =>
    dsimp only [Shutdown.step]
    split
    · exact .signal j ‹_›
    · exact .nothing

theorem atCall_serving (s : Shutdown) (i k : Nat) (f : ServeCall → ServeCall) :
    (s.atCall i f).serving[k]? = (s.serving[k]?).map fun c => if i = k then f c else c :=
  List.getElem?_modify f i s.serving k

theorem run_append (s : Shutdown) (before after : List ServerStep) :
    s.run (before ++ after) = (s.run before).run after := List.foldl_append

/-- some closing call has begun to close the server -/
def Called (s : Shutdown) : Prop := ∃ stage ∈ s.closing, stage ≠ .begun

def Finished (s : Shutdown) : Prop := .finished ∈ s.closing

theorem Finished.called {s : Shutdown} (h : s.Finished) : s.Called := ⟨_, h, nofun⟩

end Shutdown

/-! ## What is known of a call -/

namespace ServeCall

/-- What is known of a serving call by how far it has come. Before it looks at the server it has accepted nothing, and
it is signalled only if a closing call has finished; while it accepts connections it is signalled exactly then. It has
returned well only if a closing call has finished, and otherwise it was turned away by a closed server. -/
def Heeds (closed : Bool) (finished : Prop) (c : ServeCall) : Prop :=
  match c.stage with
  | .begun | .subscribed => c.accepted = 0 ∧ (c.isSignalled = true → finished)
  | .accepting => c.isSignalled = true ↔ finished
  | .returned (.ok ()) => finished
  | .returned (.error e) => e = .closed ∧ c.accepted = 0 ∧ closed = true

theorem begun_heeds (closed : Bool) (finished : Prop) : begun.Heeds closed finished := ⟨rfl, nofun⟩

section heeds

variable {closed : Bool} {finished : Prop} {c : ServeCall}

theorem Heeds.subscribe (h : c.Heeds closed finished) : c.subscribe.Heeds closed finished := by
  obtain ⟨stage, signals, lagging, accepted⟩ := c
  cases stage <;> exact h

/-- a call that finds the server open is not signalled, since no closing call can have finished -/
theorem Heeds.check (h : c.Heeds closed finished) (marked : finished → closed = true) :
    (c.check closed).Heeds closed finished := by
  obtain ⟨stage, signals, lagging, accepted⟩ := c
  cases stage with
  | subscribed =>
    obtain ⟨none_accepted, signalled⟩ := h
    cases closed with
    | true => exact ⟨rfl, none_accepted, rfl⟩
    | false => exact ⟨signalled, fun done => absurd (marked done) Bool.false_ne_true⟩
  | begun => exact h
  | accepting => exact h
  | returned result => exact h

theorem Heeds.accept (h : c.Heeds closed finished) : c.accept.Heeds closed finished := by
  obtain ⟨stage, signals, lagging, accepted⟩ := c
  cases stage <;> exact h

theorem Heeds.receive (h : c.Heeds closed finished) : c.receive.Heeds closed finished := by
  obtain ⟨stage, signals, lagging, accepted⟩ := c
  cases stage with
  | accepting =>
    unfold ServeCall.receive
    dsimp only
    split
    · rename_i signalled
      exact h.1 signalled
    · exact h
  | begun => exact h
  | subscribed => exact h
  | returned result => exact h

theorem Heeds.own (h : c.Heeds closed finished) (marked : finished → closed = true) {f : ServeCall → ServeCall}
    (own : Own closed f) : (f c).Heeds closed finished := by
  cases own with
  | subscribe => exact h.subscribe
  | check => exact h.check marked
  | accept => exact h.accept
  | receive => exact h.receive

/-- the mark alone tells the calls nothing -/
theorem Heeds.mark (h : c.Heeds closed finished) : c.Heeds true finished := by
  obtain ⟨stage, signals, lagging, accepted⟩ := c
  rcases stage with _ | _ | _ | (e | _)
  · exact h
  · exact h
  · exact h
  · exact ⟨h.1, h.2.1, rfl⟩
  · exact h

/-- a signal that is sent waits for each call that accepts connections, as news of missed ones if there is no room -/
theorem signal_accepting (accepting : c.stage = .accepting) : c.signal.isSignalled = true := by
  unfold signal
  rw [accepting]
  dsimp only
  split
  · exact Bool.or_eq_true_iff.2 (.inl (decide_eq_true (Nat.succ_pos _)))
  · exact Bool.or_true _

theorem signal_stage (c : ServeCall) : c.signal.stage = c.stage := by
  unfold signal
  split
  · split <;> rfl
  · split <;> rfl
  · rfl

theorem signal_accepted (c : ServeCall) : c.signal.accepted = c.accepted := by
  unfold signal
  split
  · split <;> rfl
  · split <;> rfl
  · rfl

theorem Heeds.signal (h : c.Heeds closed finished) : c.signal.Heeds closed True := by
  have accepting := signal_accepting (c := c)
  unfold Heeds at h ⊢
  rw [signal_stage, signal_accepted]
  rcases stage : c.stage with _ | _ | _ | (e | _) <;> rw [stage] at h
  · exact ⟨h.1, fun _ => trivial⟩
  · exact ⟨h.1, fun _ => trivial⟩
  · exact ⟨fun _ => trivial, fun _ => accepting stage⟩
  · exact h
  · trivial

end heeds

/-- whether a call accepts connections, or has done so and returned well -/
def Serves (c : ServeCall) : Prop := c.stage = .accepting ∨ c.stage = .returned (.ok ())

theorem Serves.own {closed : Bool} {f : ServeCall → ServeCall} {c : ServeCall} (own : Own closed f) (h : c.Serves) :
    (f c).Serves := by
  obtain ⟨stage, signals, lagging, accepted⟩ := c
  rcases h with (rfl : stage = _) | (rfl : stage = _)
  · cases own with
    | subscribe => exact .inl rfl
    | check => exact .inl rfl
    | accept => exact .inl rfl
    | receive =>
      unfold ServeCall.receive
      dsimp only
      split
      · exact .inr rfl
      · exact .inl rfl
  · cases own <;> exact .inr rfl

theorem Serves.signal {c : ServeCall} (h : c.Serves) : c.signal.Serves := by
  unfold Serves
  rwa [signal_stage]

/-- a call that has returned takes no more steps -/
theorem own_returned {closed : Bool} {f : ServeCall → ServeCall} {c : ServeCall} (own : Own closed f)
    {result : Except ServerError Unit} (returned : c.stage = .returned result) : f c = c := by
  obtain ⟨stage, signals, lagging, accepted⟩ := c
  obtain rfl : stage = _ := returned
  cases own <;> rfl

theorem signal_returned {c : ServeCall} {result : Except ServerError Unit} (returned : c.stage = .returned result) :
    c.signal = c := by
  obtain ⟨stage, signals, lagging, accepted⟩ := c
  obtain rfl : stage = _ := returned
  rfl

end ServeCall

/-! ## What holds in each state -/

namespace Shutdown

/-- the server is marked exactly if a closing call has begun, and each serving call heeds those that have finished -/
structure Sound (s : Shutdown) : Prop where
  closed_iff : s.closed = true ↔ s.Called
  calls : ∀ (i : Nat) (c : ServeCall), s.serving[i]? = some c → c.Heeds s.closed s.Finished

theorem initial_sound (serving closing : Nat) : (initial serving closing).Sound where
  closed_iff := ⟨nofun, fun ⟨_, there, begun⟩ => absurd (List.eq_of_mem_replicate there) begun⟩
  calls i c here := by
    obtain rfl := List.eq_of_mem_replicate (List.mem_of_getElem? here)
    exact ServeCall.begun_heeds _ _

theorem mem_set_self {stages : List CloseStage} {j : Nat} {old : CloseStage} (here : stages[j]? = some old)
    (new : CloseStage) : new ∈ stages.set j new := by
  obtain ⟨there, -⟩ := List.getElem?_eq_some_iff.1 here
  exact List.mem_set there new

theorem finished_mark_iff {s : Shutdown} {j : Nat} (next : s.closing[j]? = some .begun) :
    CloseStage.finished ∈ s.closing.set j .marked ↔ s.Finished := by
  constructor
  · intro there
    rcases List.mem_or_eq_of_mem_set there with there | same
    · exact there
    · cases same
  · intro there
    obtain ⟨k, here⟩ := List.mem_iff_getElem?.1 there
    refine List.mem_of_getElem? (i := k) ?_
    rw [List.getElem?_set_ne, here]
    rintro rfl
    rw [next] at here
    cases here

theorem Course.sound {s s' : Shutdown} (course : Course s s') (h : s.Sound) : s'.Sound := by
  have marked : s.Finished → s.closed = true := fun finished => h.closed_iff.2 finished.called
  cases course with
  | own i own =>
    refine ⟨h.closed_iff, fun k c here => ?_⟩
    rw [atCall_serving] at here
    obtain ⟨c₀, before, rfl⟩ := Option.map_eq_some_iff.1 here
    split
    · exact (h.calls k c₀ before).own marked own
    · exact h.calls k c₀ before
  | mark j next =>
    refine ⟨⟨fun _ => ⟨_, mem_set_self next .marked, nofun⟩, fun _ => rfl⟩, fun k c here => ?_⟩
    have unfinished := propext (finished_mark_iff next)
    rw [Finished, unfinished]
    exact (h.calls k c here).mark
  | signal j next =>
    have called : s.Called := ⟨_, List.mem_of_getElem? next, nofun⟩
    have finished := mem_set_self next .finished
    refine ⟨⟨fun _ => ⟨_, finished, nofun⟩, fun _ => h.closed_iff.2 called⟩, fun k c here => ?_⟩
    rw [List.getElem?_map] at here
    obtain ⟨c₀, before, rfl⟩ := Option.map_eq_some_iff.1 here
    rw [Finished, eq_true finished]
    exact (h.calls k c₀ before).signal
  | nothing => exact h

/-- **In each state of each run the calls heed the closing calls that have finished.** -/
theorem run_sound {s : Shutdown} (h : s.Sound) (steps : List ServerStep) : (s.run steps).Sound := by
  induction steps generalizing s with
  | nil => exact h
  | cons step steps ih => exact ih ((step_course s step).sound h)

/-- **What its own steps and the signals keep of a serving call is kept by every run.** -/
theorem run_keeps {P : ServeCall → Prop} (own : ∀ closed f c, ServeCall.Own closed f → P c → P (f c))
    (signal : ∀ c, P c → P c.signal) {s : Shutdown} {i : Nat} {c : ServeCall} (here : s.serving[i]? = some c) (h : P c)
    (steps : List ServerStep) : ∃ c', (s.run steps).serving[i]? = some c' ∧ P c' := by
  induction steps generalizing s c with
  | nil => exact ⟨c, here, h⟩
  | cons step steps ih =>
    have kept : ∀ s', Course s s' → ∃ c', s'.serving[i]? = some c' ∧ P c' := by
      intro s' course
      cases course with
      | own k taken =>
        rw [atCall_serving, here]
        refine ⟨_, rfl, ?_⟩
        split
        · exact own _ _ _ taken h
        · exact h
      | mark j next => exact ⟨c, here, h⟩
      | signal j next => exact ⟨c.signal, by rw [List.getElem?_map, here]; rfl, signal c h⟩
      | nothing => exact ⟨c, here, h⟩
    obtain ⟨c', here', h'⟩ := kept _ (step_course s step)
    exact ih here' h'

theorem run_returned {s : Shutdown} {i : Nat} {c : ServeCall} (here : s.serving[i]? = some c)
    {result : Except ServerError Unit} (returned : c.stage = .returned result) (steps : List ServerStep) :
    (s.run steps).serving[i]? = some c := by
  obtain ⟨c', here', rfl⟩ := run_keeps (P := fun c' => c' = c)
    (fun _ _ _ own same => by rw [same]; exact ServeCall.own_returned own returned)
    (fun _ same => by rw [same]; exact ServeCall.signal_returned returned) here rfl steps
  exact here'

theorem run_serves {s : Shutdown} {i : Nat} {c : ServeCall} (here : s.serving[i]? = some c) (serves : c.Serves)
    (steps : List ServerStep) : ∃ c', (s.run steps).serving[i]? = some c' ∧ c'.Serves :=
  run_keeps (fun _ _ _ own h => h.own own) (fun _ h => h.signal) here serves steps

/-! ## No close is missed -/

/-- the next step of a serving call is to look whether the server is closed -/
def Looks (s : Shutdown) (i : Nat) : Prop := ∃ c, s.serving[i]? = some c ∧ c.stage = .subscribed

/-- a call accepts connections, and is signalled exactly if a closing call has finished; or one has finished, and the
call has returned well -/
def StopsOnClose (s : Shutdown) (i : Nat) : Prop :=
  ∃ c, s.serving[i]? = some c ∧
    (c.stage = .accepting ∧ (c.isSignalled = true ↔ s.Finished) ∨ c.stage = .returned (.ok ()) ∧ s.Finished)

/-- a call was told that the server is closed, and has accepted no connection -/
def TurnedAway (s : Shutdown) (i : Nat) : Prop :=
  ∃ c, s.serving[i]? = some c ∧ c.stage = .returned (.error .closed) ∧ c.accepted = 0

/-- a call that looks while the server is open stops on a close, at whatever point that comes -/
theorem Looks.stopsOnClose {s : Shutdown} (h : s.Sound) {i : Nat} (looks : s.Looks i) (opened : s.closed = false)
    (after : List ServerStep) : (s.run (.check i :: after)).StopsOnClose i := by
  obtain ⟨c, here, subscribed⟩ := looks
  have looked : (s.step (.check i)).serving[i]? = some { c with stage := .accepting } := by
    rw [step, atCall_serving, here, Option.map_some, if_pos rfl, ServeCall.check, subscribed, opened]
    rfl
  obtain ⟨c', now, serves⟩ := run_serves looked (.inl rfl) after
  have heeds := (run_sound h (.check i :: after)).calls i c' now
  refine ⟨c', now, ?_⟩
  rcases serves with accepting | returned
  · rw [ServeCall.Heeds, accepting] at heeds
    exact .inl ⟨accepting, heeds⟩
  · rw [ServeCall.Heeds, returned] at heeds
    exact .inr ⟨returned, heeds⟩

/-- a call that looks when the server is closed is turned away -/
theorem Looks.turnedAway {s : Shutdown} (h : s.Sound) {i : Nat} (looks : s.Looks i) (closed : s.closed = true)
    (after : List ServerStep) : (s.run (.check i :: after)).TurnedAway i := by
  obtain ⟨c, here, subscribed⟩ := looks
  have heeds := h.calls i c here
  rw [ServeCall.Heeds, subscribed] at heeds
  have looked : (s.step (.check i)).serving[i]? = some { c with stage := .returned (.error .closed) } := by
    rw [step, atCall_serving, here, Option.map_some, if_pos rfl, ServeCall.check, subscribed, closed]
    rfl
  exact ⟨_, run_returned looked rfl after, rfl, heeds.1⟩

/-- a call that accepts connections returns at the next signal it receives -/
theorem Sound.receive {s : Shutdown} (h : s.Sound) {i : Nat} {c : ServeCall} (here : s.serving[i]? = some c)
    (accepting : c.stage = .accepting) (finished : s.Finished) :
    (s.step (.receive i)).result? i = some (.ok ()) := by
  have heeds := h.calls i c here
  rw [ServeCall.Heeds, accepting] at heeds
  rw [result?, step, atCall_serving, here, Option.map_some, if_pos rfl, ServeCall.receive, accepting]
  dsimp only
  rw [if_pos (heeds.2 finished)]
  rfl

theorem Sound.returned_ok {s : Shutdown} (h : s.Sound) {i : Nat} (returned : s.result? i = some (.ok ())) :
    s.Finished := by
  unfold result? at returned
  split at returned
  · rename_i result stage
    obtain rfl := Option.some.inj returned
    obtain ⟨c, here, stage⟩ := Option.map_eq_some_iff.1 stage
    have heeds := h.calls i c here
    rw [ServeCall.Heeds, stage] at heeds
    exact heeds
  · cases returned

/-- **No close is missed.** Any number of calls serve and close, and their steps come in any order. A serving call that
looks at the server before that is marked as closed accepts connections and is signalled exactly if a closing call has
finished, until it returns well; and the next signal it receives then makes it return. One that looks later is turned
away and has accepted nothing. No serving call returns well before a closing call has finished, and so none where
nobody closes; the server is marked as closed exactly if a closing call has begun. -/
theorem close_never_missed (serving closing : Nat) (steps : List ServerStep) :
    let fresh := initial serving closing
    let s := fresh.run steps
    (∀ before i after, steps = before ++ .check i :: after → (fresh.run before).Looks i →
      ((fresh.run before).closed = false → s.StopsOnClose i) ∧
      ((fresh.run before).closed = true → s.TurnedAway i)) ∧
    (∀ i c, s.serving[i]? = some c → c.stage = .accepting → s.Finished →
      (s.step (.receive i)).result? i = some (.ok ())) ∧
    (∀ i, s.result? i = some (.ok ()) → s.Finished ∧ s.Called) ∧
    (s.closed = true ↔ s.Called) := by
  intro fresh s
  have sound : ∀ steps, (fresh.run steps).Sound := run_sound (initial_sound serving closing)
  refine ⟨?_, fun i c here accepting finished => (sound steps).receive here accepting finished,
    fun i returned => ⟨(sound steps).returned_ok returned, ((sound steps).returned_ok returned).called⟩,
    (sound steps).closed_iff⟩
  intro before i after split looks
  have passed : s = (fresh.run before).run (.check i :: after) := by
    rw [← run_append, ← split]
  rw [passed]
  exact ⟨fun opened => looks.stopsOnClose (sound before) opened after,
    fun closed => looks.turnedAway (sound before) closed after⟩

/-- one call serves when two others close; a second one has subscribed before the first of them marks the server, and
looks after that -/
def twoServeTwoClose : List ServerStep :=
  [.subscribe 0, .check 0, .accept 0, .subscribe 1, .mark 0, .check 1, .mark 1, .signal 1]

theorem close_never_missed_between :
    ((initial 2 2).run twoServeTwoClose).StopsOnClose 0 ∧ ((initial 2 2).run twoServeTwoClose).Finished ∧
      ((initial 2 2).run twoServeTwoClose).TurnedAway 1 ∧
      (((initial 2 2).run twoServeTwoClose).step (.receive 0)).result? 0 = some (.ok ()) := by
  obtain ⟨looking, receiving, -, -⟩ := close_never_missed 2 2 twoServeTwoClose
  have finished : ((initial 2 2).run twoServeTwoClose).Finished := List.mem_cons_of_mem _ List.mem_cons_self
  refine ⟨(looking [.subscribe 0] 0 _ rfl ⟨_, rfl, rfl⟩).1 rfl, finished, ?_, receiving 0 _ rfl rfl finished⟩
  exact (looking [.subscribe 0, .check 0, .accept 0, .subscribe 1, .mark 0] 1 _ rfl ⟨_, rfl, rfl⟩).2 rfl

end Shutdown
end LmtpRelay
