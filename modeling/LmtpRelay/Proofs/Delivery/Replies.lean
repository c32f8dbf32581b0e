/-
One reply for each recipient. Over any forwarder, the reply to a recipient depends on the first report for its
forwarding address only, wherever among the reports that one stands; a recipient that no report is about gets the reply
for what went wrong with the body as a whole.

- `Outcomes.ofStatuses_distinct`: where no recipient is named twice, each place is filled by the first status for it.
- `Session.data_settles`: what a session makes of a body settles every recipient.
- `each_recipient_answered`: the peer gets one line for each recipient that it had accepted, in order, and the order of
  the reports does not matter.
-/
import LmtpRelay.Proofs.Delivery.Correlation
import LmtpRelay.Rehearsal.Forwarder

namespace LmtpRelay

/-! ## Places -/

namespace Outcomes

/-- where no recipient is named twice, a status goes to the place of its recipient unless that is taken -/
theorem set_distinct {names : List String} (distinct : names.Nodup) (reply : String → Option Reply) (e : StatusEvent) :
    set e (names.map fun name => ⟨name, reply name⟩)
      = names.map fun name => ⟨name, (reply name).or (if e.recipient = name then some (replyOf e) else none)⟩ := by
  induction names with
  | nil => rfl
  | cons name names ih =>
    obtain ⟨new, distinct⟩ := List.nodup_cons.1 distinct
    rw [List.map_cons, List.map_cons, set]
    by_cases here : e.recipient = name
    · have others : names.map (fun name => (⟨name, reply name⟩ : Slot))
          = names.map fun name => ⟨name, (reply name).or (if e.recipient = name then some (replyOf e) else none)⟩ := by
        refine List.map_congr_left fun other hother => ?_
        have apart : e.recipient ≠ other := fun same => new (here ▸ same ▸ hother)
        rw [if_neg apart, Option.or_none]
      cases hr : reply name with
      | none => simp [here, others]
      | some r => simp [here, ih distinct]
    · have apart : ¬(name = e.recipient ∧ reply name = none) := fun h => here h.1.symm
      rw [if_neg here, if_neg apart, ih distinct, Option.or_none]

theorem foldl_distinct {names : List String} (distinct : names.Nodup) (reply : String → Option Reply)
    (statuses : List StatusEvent) :
    statuses.foldl (fun o e => set e o) (names.map fun name => ⟨name, reply name⟩)
      = names.map fun name => ⟨name, (reply name).or ((firstFor? statuses name).map replyOf)⟩ := by
  induction statuses generalizing reply with
  | nil => simp [firstFor?]
  | cons e statuses ih =>
    rw [List.foldl_cons, set_distinct distinct, ih]
    refine List.map_congr_left fun name _ => ?_
    rw [firstFor?_cons, Option.or_assoc]
    by_cases here : e.recipient = name <;> simp [here]

/-- **Replies by name.** Where no recipient is named twice, each gets the reply for the first status under its name. -/
theorem ofStatuses_distinct {names : List String} (distinct : names.Nodup) (statuses : List StatusEvent)
    (fallback : Option Reply) : ofStatuses names statuses fallback
      = names.map fun name => (((firstFor? statuses name).map replyOf).or fallback).getD noStatus := by
  have filled := foldl_distinct distinct (fun _ => none) statuses
  rw [ofStatuses, ofRecipients, filled, replies, List.map_map]
  rfl

end Outcomes

/-! ## The session -/

/-- the line for a recipient: by the first report for its forwarding address or, where there is none, by what went wrong
with the body as a whole; that is never that some recipient was refused, since then each has a report -/
inductive Settles (received : List StatusEvent) (result : Except SessionError Unit) (entry : String × String) :
    String → Prop where
  | delivered {event : StatusEvent} (first : firstFor? received entry.1 = some event) (ok : event.result = .ok ()) :
      Settles received result entry s!"250 2.0.0 <{entry.2}> delivered\r\n"
  | refused {event : StatusEvent} {error : ForwardError} (first : firstFor? received entry.1 = some event)
      (failed : event.result = .error error) : Settles received result entry error.reply.line
  | unreported {error : SessionError} (none_first : firstFor? received entry.1 = none)
      (failed : result = .error error) (whole : ∀ refused, error ≠ .delivery refused) :
      Settles received result entry error.reply.line

/-- where two accounts have the same first report for a recipient, it gets the same line -/
theorem Settles.unique {received received' : List StatusEvent} {result result' : Except SessionError Unit}
    {entry : String × String} {line line' : String} (h : Settles received result entry line)
    (h' : Settles received' result' entry line') (same : firstFor? received entry.1 = firstFor? received' entry.1)
    (reported : (firstFor? received entry.1).isSome = true) : line = line' := by
  cases h with
  | unreported none_first _ _ =>
    rw [none_first] at reported
    cases reported
  | @delivered event first ok =>
    rw [first] at same
    cases h' with
    | delivered _ _ => rfl
    | refused first' failed =>
      obtain rfl := Option.some.inj (same.trans first')
      exact absurd (ok.symm.trans failed) nofun
    | unreported none_first _ _ => exact absurd (same.trans none_first) nofun
  | @refused event error first failed =>
    rw [first] at same
    cases h' with
    | delivered first' ok =>
      obtain rfl := Option.some.inj (same.trans first')
      exact absurd (ok.symm.trans failed) nofun
    | refused first' failed' =>
      obtain rfl := Option.some.inj (same.trans first')
      obtain rfl := Except.error.inj (failed.symm.trans failed')
      rfl
    | unreported none_first _ _ => exact absurd (same.trans none_first) nofun

namespace Session

variable {σ : Type}

/-- whether the statuses of a body are collected: the forwarder lets it come and takes all of it, and the call that
ends it does not fail in time -/
def collects (s : Session σ) (body : BodyInput) : Bool :=
  (s.forwarder.data s.now s.downstream).value.isOk && (s.dataHeard.copyBody body).1.isOk &&
    (!(s.bodyCopied body).endsInTime || (s.bodyCopied body).closing.result.isOk)

/-- the reports that reach the session while it collects the statuses of a body -/
def receives (s : Session σ) (body : BodyInput) : List StatusEvent :=
  if s.collects body then (s.bodyCopied body).arrivals else []

/-- the statuses of a body are collected, and there is one report for each recipient that comes in time -/
structure ReportsEach (s : Session σ) (body : BodyInput) : Prop where
  collects : s.collects body = true
  each : ((s.bodyCopied body).reports.map StatusEvent.recipient).Perm s.recipients.resolved

theorem ReportsEach.receives {s : Session σ} {body : BodyInput} (h : s.ReportsEach body)
    (distinct : s.recipients.Distinct) : s.receives body = (s.bodyCopied body).reports := by
  have same := (bodyCopied_steady s body).recipients
  rw [Session.receives, if_pos h.collects]
  refine arrivals_eq_reports (fun e he => ?_) (h.each.nodup_iff.2 distinct)
  rw [same]
  exact h.each.subset (List.mem_map_of_mem he)

/-- the first report for a recipient is received, if any comes -/
theorem Hears.first {m : Recipients} {received came : List StatusEvent} (h : Hears m received came) {resolved : String}
    (used : resolved ∈ m.resolved) : firstFor? came resolved = firstFor? received resolved := by
  obtain ⟨missed, rfl, settled | rfl⟩ := h
  · exact firstFor?_append_of_some (Recipients.unreported_isEmpty.1 settled resolved used) missed
  · rw [List.append_nil]

def lineFor (transfer : Transfer σ) (entry : String × String) : String :=
  ((((firstFor? transfer.2.1 entry.2).map Outcomes.replyOf).or (Engine.fallback? transfer.1)).getD
    Outcomes.noStatus).line

theorem settles_of_failure {received : List StatusEvent} {error : SessionError} (none_received : received = [])
    (whole : ∀ refused, error ≠ .delivery refused) (s : Session σ) (entry : String × String) :
    Settles received (.error error) entry (lineFor (.error error, [], s) entry) := by
  rw [none_received]
  exact .unreported rfl rfl whole

theorem settles_of_collected {m : Recipients} (distinct : m.Distinct) (names : m.names.Nodup)
    {received came : List StatusEvent} (hears : Hears m received came) (s : Session σ) {entry : String × String}
    (h : entry ∈ m.entries) : Settles came (Collected.result ⟨m.unreported received, m.statuses received⟩) entry
      (lineFor (Collected.result ⟨m.unreported received, m.statuses received⟩, m.statuses received, s) entry) := by
  have used : entry.1 ∈ m.resolved := List.mem_map_of_mem h
  have status := Recipients.firstFor?_statuses distinct names received h
  have first := hears.first used
  unfold lineFor
  dsimp only
  rw [status]
  cases hf : firstFor? received entry.1 with
  | none =>
    have somebody : (m.unreported received).isEmpty = false := by
      rw [← Bool.not_eq_true, Recipients.unreported_isEmpty]
      intro all
      have reported := all entry.1 used
      rw [hf] at reported
      cases reported
    have result : Collected.result ⟨m.unreported received, m.statuses received⟩
        = .error (.statusTimeout (m.unreported received).names) := Collected.result_outstanding somebody
    rw [result]
    exact @Settles.unreported _ _ _ (.statusTimeout (m.unreported received).names) (first.trans hf) rfl nofun
  | some event =>
    rw [hf] at first
    show Settles _ _ _ (Outcomes.replyOf ⟨entry.2, event.result⟩).line
    cases hr : event.result with
    | ok done =>
      have line : (Outcomes.replyOf ⟨entry.2, .ok done⟩).line = s!"250 2.0.0 <{entry.2}> delivered\r\n" := by
        refine (done_line _).trans ?_
        apply String.ext
        simp [toString]
      rw [line]
      exact .delivered first hr
    | error error => exact .refused first hr

/-- **What a session makes of a body settles every recipient.** -/
theorem data_settles {s : Session σ} (distinct : s.recipients.Distinct) (names : s.recipients.names.Nodup)
    (some_recipient : s.recipients.isEmpty = false) (body : BodyInput) {entry : String × String}
    (h : entry ∈ s.recipients.entries) :
    Settles (s.receives body) (s.data body).1 entry (lineFor (s.data body) entry) := by
  have fate := data_fate distinct some_recipient body
  generalize s.data body = transfer at fate ⊢
  cases fate with
  | refused refused =>
    refine settles_of_failure (if_neg ?_) ?_ _ entry
    · simp [collects, refused, Except.isOk, Except.toBool]
    · exact fun _ other => by cases other
  | lost _ lost =>
    refine settles_of_failure (if_neg ?_) ?_ _ entry
    · simp [collects, lost, Except.isOk, Except.toBool]
    · exact fun _ other => by cases other
  | failed _ _ ends failed =>
    refine settles_of_failure (if_neg ?_) ?_ _ entry
    · simp [collects, ends, failed, Except.isOk, Except.toBool]
    · exact fun _ other => by cases other
  | collected letCome copied closes _ _ _ _ hears =>
    have collects : s.collects body = true := by
      unfold Session.collects
      rw [letCome, copied]
      cases hc : (s.bodyCopied body).endsInTime with
      | false => rfl
      | true => rw [closes hc]; rfl
    rw [receives, if_pos collects]
    exact settles_of_collected distinct names hears _ h

end Session

/-! ## The engine -/

namespace Engine

variable {σ : Type}

/-- a run over a session that has just begun, with a steady resolver, to a peer that hears all that is said -/
structure Reliable (e₀ : Engine σ) : Prop where
  fresh : e₀.Fresh
  sends : ∀ t, e₀.surroundings.outageAt t = none
  steady : e₀.session.resolver.Steady

/-- a run comes to deliver a body: it carries out DATA, and the body comes in time and whole -/
structure Delivers (e₀ : Engine σ) (s₀ : Source) (l : List Heard) (e : Engine σ) (s : Source) (octets : Octets) :
    Prop where
  carries : e₀.Carries s₀ l .data e s
  come : e.awaitedBody s = some (.ok (.complete octets))

/-! ### Recipients -/

/-- a recipient that is accepted leaves the dialogue in a transaction -/
theorem doing_rcpt_inTransaction {e : Engine σ} {recipient : String} {params : Parameters}
    (allowed : e.dialogue.stage.allows .rcpt = true) (accepted : e.accepts (.rcpt recipient params) = true) :
    (e.doing (.rcpt recipient params)).dialogue.stage.inTransaction = true := by
  have stage : e.dialogue.stage = .sender ∨ e.dialogue.stage = .recipients := by
    simpa [Stage.allows] using allowed
  rw [doing]
  rcases e.rcpt_cases recipient with ⟨-, hr⟩ | ⟨error, failed, hr⟩ <;> rw [hr]
  · exact congrArg (fun d => d.stage.inTransaction) (Dialogue.apply_rcpt stage recipient)
  · have accepts : e.accepts (.rcpt recipient params) = (e.session.rcpt recipient).1.isOk := rfl
    rw [accepts, failed] at accepted
    cases accepted

/-- no recipient is accepted twice in one transaction -/
theorem Acts.recipients_nodup {e e' : Engine σ} {l : List Heard} (acts : Acts e l e') (h : e.Sound)
    (steady : e.session.resolver.Steady) {recipients : List String} (lists : e.Lists recipients)
    (distinct : recipients.Nodup) : (l.foldl Heard.note recipients).Nodup := by
  induction acts generalizing recipients with
  | done e => exact distinct
  | @step e e₁ e₂ l ls act _ ih =>
    have sound := act_sound act h
    have same := (act_tools act h).2
    have listed := act_lists act h.toAccord lists
    have steady' : e₁.session.resolver.Steady := same ▸ steady
    rw [List.foldl_append]
    refine ih sound steady' listed ?_
    -- only an accepted recipient joins those before, and then the envelope lists them all
    have known : e₁.dialogue.stage.inTransaction = true → (l.foldl Heard.note recipients).Nodup := by
      intro inside
      rw [← listed inside, sound.recipients]
      exact sound.resolved.names_nodup steady'
    cases act with
    | wait t turns => exact distinct
    | say text => exact distinct
    | deliver read stage => exact distinct
    | @perform line command parsed allowed =>
      cases command with
      | mail sender params =>
        show (Heard.note recipients (.command (.mail sender params) _)).Nodup
        cases e.accepts (.mail sender params) with
        | false => exact distinct
        | true => exact List.nodup_nil
      | rcpt recipient params =>
        cases hc : e.accepts (.rcpt recipient params) with
        | false => exact distinct
        | true => exact hc ▸ known (doing_rcpt_inTransaction allowed hc)
      | _ => exact distinct

theorem Fresh.lists {e : Engine σ} (h : e.Fresh) : e.Lists [] := by
  obtain ⟨⟩ := h
  exact fun _ => rfl

theorem Carries.envelope {e₀ e : Engine σ} {s₀ s : Source} {l : List Heard} (fresh : e₀.Fresh)
    (h : e₀.Carries s₀ l .data e s) : e.dialogue.envelope.recipients = Heard.recipients l :=
  h.acts.lists fresh.accord fresh.lists (by rw [h.stage]; rfl)

/-! ### Replies -/

theorem bodyCome_recipients (e : Engine σ) (s : Source) :
    (e.bodyCome s).session.recipients = e.session.recipients :=
  Session.waitUntil_recipients _ _

theorem Sound.deliver_lines {e : Engine σ} (h : e.Sound) (steady : e.session.resolver.Steady) (octets : Octets) :
    (e.deliver (.complete octets)).1.map Reply.line
      = e.session.recipients.entries.map (Session.lineFor (e.session.data (.ofChunks [octets] none))) := by
  have names := h.resolved.names_nodup steady
  have replies := @deliver_of_data _ e octets _ _ _ rfl
  rw [replies, h.recipients, Outcomes.ofStatuses_distinct names, Recipients.names, List.map_map, List.map_map]
  rfl

theorem Delivers.answered {e₀ e : Engine σ} {s₀ s : Source} {l : List Heard} {octets : Octets} (reliable : e₀.Reliable)
    (h : e₀.Delivers s₀ l e s octets) : ∃ e' rest, e.perform .data s = .next e' rest ∧
      e₀.Reaches s₀ (l ++ e.heardIn s .data) e' rest ∧
      e'.session.journal.said = e.session.journal.said ++ startBody.line :: e.session.recipients.entries.map
        (Session.lineFor ((e.bodyCome s).session.data (.ofChunks [octets] none))) := by
  have sound := h.carries.acts.sound reliable.fresh.sound
  have come := bodyCome_sound sound s
  have stage := h.carries.stage
  have steady : (e.bodyCome s).session.resolver.Steady := by
    have same : (e.bodyCome s).session.resolver = e.session.resolver := Session.waitUntil_resolver _ _
    rw [same, (h.carries.acts.tools reliable.fresh.sound).2]
    exact reliable.steady
  have calm : ∀ t, e.surroundings.outageAt t = none := by
    rw [h.carries.acts.setup.2]
    exact reliable.sends
  have deliver : Act (e.bodyCome s) [.body (.complete octets)] ((e.bodyCome s).deliver (.complete octets)).2 :=
    @Act.deliver _ (e.bodyCome s) s e.now (.complete octets) (awaitedBody_value h.come) stage
  have free : ((e.bodyCome s).deliver (.complete octets)).2.surroundings.outageAt
      ((e.bodyCome s).deliver (.complete octets)).2.now = none := by
    rw [deliver.setup.2]
    exact calm _
  have perform : e.perform .data s = .next
      (((e.bodyCome s).deliver (.complete octets)).2.sayingAll
        (((e.bodyCome s).deliver (.complete octets)).1.map Reply.line))
      (s.readBody e.settings.maxMessageSize e.now).rest := by
    show e.data s = _
    rw [data_of_body (calm _) h.come, sendAll_eq free]
    rfl
  refine ⟨_, _, perform, h.carries.next perform, ?_⟩
  rw [sayingAll_said, come.deliver_said stage, bodyCome_said, come.deliver_lines steady, bodyCome_recipients,
    List.append_assoc]
  rfl

theorem Delivers.settles {e₀ e : Engine σ} {s₀ s : Source} {l : List Heard} {octets : Octets} (reliable : e₀.Reliable)
    (h : e₀.Delivers s₀ l e s octets) : ∀ entry ∈ e.session.recipients.entries,
      Settles ((e.bodyCome s).session.receives (.ofChunks [octets] none))
        ((e.bodyCome s).session.data (.ofChunks [octets] none)).1 entry
        (Session.lineFor ((e.bodyCome s).session.data (.ofChunks [octets] none)) entry) := by
  have sound := h.carries.acts.sound reliable.fresh.sound
  have come := bodyCome_sound sound s
  have steady : e.session.resolver.Steady := by
    rw [(h.carries.acts.tools reliable.fresh.sound).2]
    exact reliable.steady
  have same := bodyCome_recipients e s
  have names : (e.bodyCome s).session.recipients.names.Nodup := same ▸ sound.resolved.names_nodup steady
  intro entry hentry
  exact Session.data_settles come.resolved.distinct names (come.some_recipient h.carries.stage) _ (same ▸ hentry)

/-- where each recipient is reported on once, in two runs with the same recipients, they get the same lines -/
theorem Delivers.same_lines {τ : Type} {e₀ e : Engine σ} {f₀ f : Engine τ} {s₀ s t₀ t : Source} {l m : List Heard}
    {octets octets' : Octets} (reliable : e₀.Reliable) (h : e₀.Delivers s₀ l e s octets) (reliable' : f₀.Reliable)
    (h' : f₀.Delivers t₀ m f t octets') (same : f.session.recipients = e.session.recipients)
    (each : (e.bodyCome s).session.ReportsEach (.ofChunks [octets] none))
    (each' : (f.bodyCome t).session.ReportsEach (.ofChunks [octets'] none))
    (perm : ((e.bodyCome s).session.bodyCopied (.ofChunks [octets] none)).reports.Perm
      ((f.bodyCome t).session.bodyCopied (.ofChunks [octets'] none)).reports) :
    f.session.recipients.entries.map (Session.lineFor ((f.bodyCome t).session.data (.ofChunks [octets'] none)))
      = e.session.recipients.entries.map
        (Session.lineFor ((e.bodyCome s).session.data (.ofChunks [octets] none))) := by
  have come := bodyCome_sound (h.carries.acts.sound reliable.fresh.sound) s
  have come' := bodyCome_sound (h'.carries.acts.sound reliable'.fresh.sound) t
  have received := each.receives come.resolved.distinct
  have received' := each'.receives come'.resolved.distinct
  rw [same]
  refine List.map_congr_left fun entry hentry => ?_
  have settles := h.settles reliable entry hentry
  have settles' := h'.settles reliable' entry (same ▸ hentry)
  rw [received] at settles
  rw [received'] at settles'
  have once := each.each.nodup_iff.2 come.resolved.distinct
  have used : entry.1 ∈ (e.bodyCome s).session.recipients.resolved :=
    bodyCome_recipients e s ▸ List.mem_map_of_mem hentry
  obtain ⟨event, hevent, about⟩ := List.mem_map.1 (each.each.mem_iff.2 used)
  have reported : (firstFor? ((e.bodyCome s).session.bodyCopied (.ofChunks [octets] none)).reports entry.1).isSome
      = true := List.find?_isSome.2 ⟨event, hevent, by simp [about]⟩
  exact (settles.unique settles' (firstFor?_perm perm once entry.1) reported).symm

/-- **One reply for each recipient.** In every run with a steady resolver whose peer hears all that is said, over any
forwarder, no recipient is accepted twice in one transaction. A body that comes in time and whole is followed by one
line for each recipient, in the order of acceptance: by the first report for the address that the resolver gives for it
or, where none was received, by what went wrong with the body as a whole. All that the run says begins so. Where each
recipient is reported on once, and in time, the lines are the same in every other run that has the same recipients and
the same reports in any order. -/
theorem each_recipient_answered {e₀ : Engine σ} (reliable : e₀.Reliable) (s₀ : Source) :
    (∀ l, l <+: e₀.heardInRun s₀ → (Heard.recipients l).Nodup) ∧
    ∀ l e s octets, e₀.Delivers s₀ l e s octets → ∃ lines e' rest,
      e.perform .data s = .next e' rest ∧ e₀.Reaches s₀ (l ++ e.heardIn s .data) e' rest ∧
      e'.session.journal.said = e.session.journal.said ++ startBody.line :: lines ∧
      e'.session.journal.said <+: (e₀.run s₀).2.session.journal.said ∧
      e.session.recipients.names = Heard.recipients l ∧
      (∀ entry ∈ e.session.recipients.entries, ∃ identifier, Session.localPart? entry.2 = some identifier ∧
        ∀ n, (e₀.session.resolver.resolve n identifier).value = .ok entry.1) ∧
      List.Forall₂ (Settles ((e.bodyCome s).session.receives (.ofChunks [octets] none))
        ((e.bodyCome s).session.data (.ofChunks [octets] none)).1) e.session.recipients.entries lines ∧
      ∀ (τ : Type) (f₀ f : Engine τ) (t₀ t : Source) (m : List Heard) (octets' : Octets), f₀.Reliable →
        f₀.Delivers t₀ m f t octets' → f.session.recipients = e.session.recipients →
        (e.bodyCome s).session.ReportsEach (.ofChunks [octets] none) →
        (f.bodyCome t).session.ReportsEach (.ofChunks [octets'] none) →
        ((e.bodyCome s).session.bodyCopied (.ofChunks [octets] none)).reports.Perm
          ((f.bodyCome t).session.bodyCopied (.ofChunks [octets'] none)).reports →
        ∃ f' rest', f.perform .data t = .next f' rest' ∧
          f'.session.journal.said = f.session.journal.said ++ startBody.line :: lines := by
  have fresh := reliable.fresh
  refine ⟨fun l part => ?_, fun l e s octets h => ?_⟩
  · obtain ⟨e, acts⟩ := (greetAndServe_acts e₀ s₀).before part
    exact acts.recipients_nodup fresh.sound reliable.steady fresh.lists List.nodup_nil
  · have sound := h.carries.acts.sound fresh.sound
    obtain ⟨e', rest, perform, reaches, said⟩ := h.answered reliable
    refine ⟨_, e', rest, perform, reaches, said, reaches.said fresh.sound, ?_, fun entry hentry => ?_, ?_, ?_⟩
    · rw [← sound.recipients]
      exact h.carries.envelope fresh
    · obtain ⟨n, identifier, local_part, answer⟩ := sound.resolved.answered entry hentry
      rw [(h.carries.acts.tools fresh.sound).2] at answer
      exact ⟨identifier, local_part, fun m => (reliable.steady m n identifier).trans answer⟩
    · rw [List.forall₂_map_right_iff, List.forall₂_same]
      exact h.settles reliable
    · intro τ f₀ f t₀ t m octets' reliable' h' same each each' perm
      obtain ⟨f', rest', perform', -, said'⟩ := h'.answered reliable'
      rw [h.same_lines reliable reliable' h' same each each' perm] at said'
      exact ⟨f', rest', perform', said'⟩

namespace Sample

deriving instance DecidableEq for StatusEvent

/-- the delivery that the next turn comes to, if any: the dialogue when DATA is carried out, what is left to read and
the body -/
def deliveryNext (e : Engine σ) (s : Source) : Option (Engine σ × Source × Octets) :=
  match e.heeds s with
  | some (e, .ok .data, s) =>
    match e.dialogue.stage.allows .data, e.awaitedBody s with
    | true, some (.ok (.complete octets)) => some (e, s, octets)
    | _, _ => none
  | _ => none

theorem of_deliveryNext {e₀ e e' : Engine σ} {s₀ s s' : Source} {l : List Heard} {octets : Octets}
    (reaches : e₀.Reaches s₀ l e s) (h : deliveryNext e s = some (e', s', octets)) :
    e₀.Delivers s₀ l e' s' octets := by
  unfold deliveryNext at h
  split at h
  · next e₁ s₁ heeds =>
    split at h
    · next allowed come =>
      simp only [Option.some.injEq, Prod.mk.injEq] at h
      obtain ⟨rfl, rfl, rfl⟩ := h
      exact ⟨⟨e, s, reaches, heeds, allowed⟩, come⟩
    · cases h
  · cases h

/-- a dialogue over a forwarder that makes these reports, one after another -/
def reporting (cues : List Rehearsal.Cue) : Engine Rehearsal.Script :=
  start ⟨"relay", 1024, ⟨9, 9, 9⟩⟩ .calm
    (Session.start 1 (.ofTable [("p", "p@f"), ("q", "q@f")]) Rehearsal.forwarder
      { Rehearsal.Script.plain with plans := [{ Rehearsal.Plan.plain with cues := some cues }] } 9000 5)

def delivery (cues : List Rehearsal.Cue) : Option (Engine Rehearsal.Script × Source × Octets) :=
  (((reporting cues).saying (greeting (reporting cues).settings).line).after
    (source ["LHLO peer", "MAIL FROM:<a@x>", "RCPT TO:<p@h>", "RCPT TO:<q@h>", "DATA", "hi", "."]) 4).bind
    fun r => deliveryNext r.1 r.2

theorem delivery_spec {cues : List Rehearsal.Cue} {e : Engine Rehearsal.Script} {s : Source} {octets : Octets}
    (h : delivery cues = some (e, s, octets)) : ∃ l, (reporting cues).Delivers
      (source ["LHLO peer", "MAIL FROM:<a@x>", "RCPT TO:<p@h>", "RCPT TO:<q@h>", "DATA", "hi", "."]) l e s octets := by
  obtain ⟨⟨e₁, s₁⟩, after, next⟩ := Option.bind_eq_some_iff.1 h
  obtain ⟨l, comes⟩ := comes_after after
  exact ⟨l, of_deliveryNext ⟨_, rfl, comes⟩ next⟩

theorem reporting_reliable (cues : List Rehearsal.Cue) : (reporting cues).Reliable :=
  ⟨.intro, fun _ => rfl, fun _ _ _ => rfl⟩

/-- a delivery to two recipients of which each is reported on once -/
theorem reported {cues : List Rehearsal.Cue} {reports : List StatusEvent}
    (h : (delivery cues).map (fun r => (r.1.session.recipients,
        (r.1.bodyCome r.2.1).session.collects (.ofChunks [r.2.2] none),
        ((r.1.bodyCome r.2.1).session.bodyCopied (.ofChunks [r.2.2] none)).reports))
      = some (⟨[("p@f", "p@h"), ("q@f", "q@h")]⟩, true, reports))
    (each : (reports.map StatusEvent.recipient).Perm ["p@f", "q@f"]) :
    ∃ l e s octets, (reporting cues).Delivers
      (source ["LHLO peer", "MAIL FROM:<a@x>", "RCPT TO:<p@h>", "RCPT TO:<q@h>", "DATA", "hi", "."]) l e s octets ∧
      e.session.recipients = ⟨[("p@f", "p@h"), ("q@f", "q@h")]⟩ ∧
      (e.bodyCome s).session.ReportsEach (.ofChunks [octets] none) ∧
      ((e.bodyCome s).session.bodyCopied (.ofChunks [octets] none)).reports = reports := by
  obtain ⟨⟨e, s, octets⟩, hd, facts⟩ := Option.map_eq_some_iff.1 h
  simp only [Prod.mk.injEq] at facts
  obtain ⟨recipients, collects, rfl⟩ := facts
  obtain ⟨l, delivers⟩ := delivery_spec hd
  refine ⟨l, e, s, octets, delivers, recipients, ⟨collects, ?_⟩, rfl⟩
  rw [bodyCome_recipients, recipients]
  exact each

/-- one recipient is refused, and the other gets the message -/
def refusal : Rehearsal.Cue := ⟨3, ⟨"p@f", .error (.unavailable "full")⟩⟩
def delivered : Rehearsal.Cue := ⟨2, ⟨"q@f", .ok ()⟩⟩

end Sample

/-- the same reports in two orders -/
theorem each_recipient_answered_reordered : ∃ l e s octets m f t octets' lines,
    (Sample.reporting [Sample.refusal, Sample.delivered]).Delivers
      (Sample.source ["LHLO peer", "MAIL FROM:<a@x>", "RCPT TO:<p@h>", "RCPT TO:<q@h>", "DATA", "hi", "."])
      l e s octets ∧
    (Sample.reporting [Sample.delivered, Sample.refusal]).Delivers
      (Sample.source ["LHLO peer", "MAIL FROM:<a@x>", "RCPT TO:<p@h>", "RCPT TO:<q@h>", "DATA", "hi", "."])
      m f t octets' ∧
    (∃ e' rest, e.perform .data s = .next e' rest ∧
      e'.session.journal.said = e.session.journal.said ++ startBody.line :: lines) ∧
    ∃ f' rest, f.perform .data t = .next f' rest ∧
      f'.session.journal.said = f.session.journal.said ++ startBody.line :: lines := by
  obtain ⟨l, e, s, octets, delivers, recipients, each, reports⟩ :=
    @Sample.reported [Sample.refusal, Sample.delivered] [Sample.refusal.event, Sample.delivered.event]
      (by decide +kernel) (.refl _)
  obtain ⟨m, f, t, octets', delivers', recipients', each', reports'⟩ :=
    @Sample.reported [Sample.delivered, Sample.refusal] [Sample.delivered.event, Sample.refusal.event]
      (by decide +kernel) (.swap _ _ _)
  obtain ⟨-, answered⟩ := each_recipient_answered (Sample.reporting_reliable [Sample.refusal, Sample.delivered])
    (Sample.source ["LHLO peer", "MAIL FROM:<a@x>", "RCPT TO:<p@h>", "RCPT TO:<q@h>", "DATA", "hi", "."])
  obtain ⟨lines, e', rest, perform, -, said, -, -, -, -, others⟩ := answered l e s octets delivers
  have perm : (((e.bodyCome s).session.bodyCopied (.ofChunks [octets] none)).reports).Perm
      ((f.bodyCome t).session.bodyCopied (.ofChunks [octets'] none)).reports := by
    rw [reports, reports']
    exact .swap _ _ _
  have same := others _ _ f _ t m octets' (Sample.reporting_reliable [Sample.delivered, Sample.refusal]) delivers'
    (recipients'.trans recipients.symm) each each' perm
  exact ⟨l, e, s, octets, m, f, t, octets', lines, delivers, delivers', ⟨e', rest, perform, said⟩, same⟩

end Engine
end LmtpRelay
