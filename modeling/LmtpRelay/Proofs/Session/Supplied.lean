/-
Where the failures of a session come from. A failure that is passed on from the forwarder was one of its answers or
reports, word for word; all others are worded by the session itself. `Forwarder.Supplies` lists what a forwarder may
give; each operation of a session fails only with what comes `From` its forwarder: `mail_from`, `rcpt_from`,
`reset_from`, `data_from`.
-/
import LmtpRelay.Proofs.Session.Collection

namespace LmtpRelay

variable {σ : Type}

/-! ## Forwarders -/

/-- the failures that a forwarder gives as an answer or in a report -/
inductive Forwarder.Supplies (f : Forwarder σ) : ForwardError → Prop where
  | mail {now : Instant} {s : σ} {sender : String} {params : Parameters} {error : ForwardError}
      (answer : (f.mail now s sender params).value = .error error) : f.Supplies error
  | rcpt {now : Instant} {s : σ} {recipient : String} {error : ForwardError}
      (answer : (f.rcpt now s recipient).value = .error error) : f.Supplies error
  | data {now : Instant} {s : σ} {error : ForwardError} (answer : (f.data now s).value = .error error) :
      f.Supplies error
  | finish {now : Instant} {s : σ} {error : ForwardError} (result : (f.finish now s).result = .error error) :
      f.Supplies error
  | report {now : Instant} {s : σ} {burst : Burst} {event : StatusEvent} {error : ForwardError}
      (made : burst ∈ (f.finish now s).direct ++ (f.finish now s).later) (reported : event ∈ burst.events)
      (failed : event.result = .error error) : f.Supplies error
  | reset {now : Instant} {s : σ} {error : ForwardError} (answer : (f.reset now s).value = .error error) :
      f.Supplies error

/-- a failure that is not passed on from a forwarder, or one that it supplies -/
def SessionError.From (error : SessionError) (f : Forwarder σ) : Prop :=
  ∀ cause, error = .forward cause → f.Supplies cause

/-! ## Operations -/

namespace Session

theorem mail_from {s : Session σ} {sender : String} {params : Parameters} {error : SessionError}
    (h : (s.mail sender params).1 = .error error) : error.From s.forwarder := by
  rcases mail_cases s sender params with ⟨-, hm⟩ | ⟨e, answer, hm⟩ <;> rw [hm] at h
  · cases h
  · obtain rfl := Except.error.inj h
    intro cause same
    obtain rfl := SessionError.forward.inj same
    exact .mail answer

theorem rcpt_from {s : Session σ} {recipient : String} {error : SessionError}
    (h : (s.rcpt recipient).1 = .error error) : error.From s.forwarder := by
  rcases rcpt_cases s recipient with
    ⟨-, hr⟩ | ⟨identifier, -, ⟨cause, -, hr⟩ | ⟨resolved, -, ⟨-, hr⟩ | ⟨new, hr⟩⟩⟩ <;> rw [hr] at h
  · obtain rfl := Except.error.inj h
    exact fun _ => nofun
  · obtain rfl := Except.error.inj h
    exact fun _ => nofun
  · obtain rfl := Except.error.inj h
    exact fun _ => nofun
  · have asked := resolve_steady s identifier
    rw [← asked.recipients] at new
    rw [← asked.forwarder]
    rcases accept_cases new recipient with ⟨-, ha⟩ | ⟨e, answer, ha⟩ <;> rw [ha] at h
    · cases h
    · obtain rfl := Except.error.inj h
      intro cause same
      obtain rfl := SessionError.forward.inj same
      exact .rcpt answer

theorem reset_from {s : Session σ} {error : SessionError} (h : s.reset.1 = .error error) :
    error.From s.forwarder := by
  have answered : s.reset.1 = forwarded (s.forwarder.reset s.now s.downstream).value := rfl
  rw [answered] at h
  cases answer : (s.forwarder.reset s.now s.downstream).value with
  | ok _ =>
    rw [answer] at h
    cases h
  | error e =>
    rw [answer] at h
    obtain rfl := Except.error.inj h
    intro cause same
    obtain rfl := SessionError.forward.inj same
    exact .reset answer

theorem queued_subset (room : Nat) (bursts : List Burst) : queued room bursts ⊆ bursts.flatMap Burst.events := by
  induction bursts generalizing room with
  | nil => exact List.nil_subset _
  | cons b rest ih =>
    rw [queued, List.flatMap_cons]
    exact List.append_subset.2 ⟨fun e he => List.mem_append_left _ (List.mem_of_mem_take he),
      fun e he => List.mem_append_right _ (ih _ he)⟩

theorem arrivals_subset (s : Session σ) :
    s.arrivals ⊆ (s.closing.direct ++ s.closing.later).flatMap Burst.events := by
  have taken : ∀ bursts : List Burst, bursts.flatMap (fun b => b.events.take s.room) ⊆ bursts.flatMap Burst.events := by
    intro bursts e he
    obtain ⟨b, hb, he⟩ := List.mem_flatMap.1 he
    exact List.mem_flatMap.2 ⟨b, hb, List.mem_of_mem_take he⟩
  have parts : s.timelyBursts.1 ⊆ s.closing.direct ∧ s.timelyBursts.2 ⊆ s.closing.later := by
    unfold timelyBursts
    split
    · exact ⟨List.Subset.refl _, (List.takeWhile_sublist _).subset⟩
    · exact ⟨List.filter_subset_self _, List.nil_subset _⟩
  rw [arrivals, List.flatMap_append]
  refine List.append_subset.2 ⟨fun e he => List.mem_append_left _ ?_, fun e he => List.mem_append_right _ ?_⟩
  · obtain ⟨b, hb, he⟩ := List.mem_flatMap.1 (queued_subset _ _ he)
    exact List.mem_flatMap.2 ⟨b, parts.1 hb, he⟩
  · obtain ⟨b, hb, he⟩ := List.mem_flatMap.1 (taken _ he)
    exact List.mem_flatMap.2 ⟨b, parts.2 hb, he⟩

/-- **What a body fails with comes from the forwarder,** as a whole and for each recipient. -/
theorem data_from {s : Session σ} (distinct : s.recipients.Distinct) (some_recipient : s.recipients.isEmpty = false)
    (body : BodyInput) :
    (∀ error, (s.data body).1 = .error error → error.From s.forwarder) ∧
      ∀ status ∈ (s.data body).2.1, ∀ error, status.result = .error error → s.forwarder.Supplies error := by
  have fate := data_fate distinct some_recipient body
  have forwarder := (bodyCopied_steady s body).forwarder
  generalize s.data body = transfer at fate ⊢
  cases fate with
  | refused refused =>
    refine ⟨fun error h cause same => ?_, nofun⟩
    obtain rfl := Except.error.inj h
    obtain rfl := SessionError.forward.inj same
    exact .data refused
  | lost _ _ =>
    refine ⟨fun error h cause same => ?_, nofun⟩
    obtain rfl := Except.error.inj h
    cases same
  | failed _ _ _ failed _ =>
    refine ⟨fun error h cause same => ?_, nofun⟩
    obtain rfl := Except.error.inj h
    obtain rfl := SessionError.forward.inj same
    rw [closing, forwarder] at failed
    exact .finish failed
  | @collected _ _ received _ _ _ _ _ _ _ hears =>
    refine ⟨fun error h cause same => ?_, fun status hs error failed => ?_⟩
    · rw [same] at h
      exact absurd h (Collected.result_not_forward _ cause)
    · obtain ⟨event, hevent, rfl⟩ := List.mem_map.1 hs
      obtain ⟨missed, came, -⟩ := hears
      have heard : event ∈ received := (List.filter_sublist.trans (firstReports_sublist _)).subset hevent
      have reported := arrivals_subset (s.bodyCopied body) (came ▸ List.mem_append_left missed heard)
      rw [closing, forwarder] at reported
      obtain ⟨burst, made, reported⟩ := List.mem_flatMap.1 reported
      exact .report made reported failed

end Session

end LmtpRelay
