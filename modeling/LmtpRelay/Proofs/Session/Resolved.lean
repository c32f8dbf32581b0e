/-
What the recipients of a session stand for. `Resolved` says that no forwarding address stands for two recipients, and
that each stands for one whose local part the resolver gave it for. Every operation keeps a session resolved, over any
forwarder; where the resolver is steady it follows that no recipient is accepted twice (`Resolved.names_nodup`).
-/
import LmtpRelay.Proofs.Session.Collection

namespace LmtpRelay.Session

variable {σ : Type}

/-! ## What a body leaves alone -/

theorem Waits.said {s s' : Session σ} (h : Waits s s') : s'.journal.said = s.journal.said := by
  obtain ⟨reports, only, journal⟩ := h.journal
  rw [journal, Journal.said_append, only.said, List.append_nil]

/-- a body changes the transaction and the forwarder's state only, and nothing is said to the peer meanwhile -/
theorem data_frame {s : Session σ} (distinct : s.recipients.Distinct) (some_recipient : s.recipients.isEmpty = false)
    (body : BodyInput) : (s.data body).2.2.forwarder = s.forwarder ∧ (s.data body).2.2.resolver = s.resolver ∧
      (s.data body).2.2.journal.said = s.journal.said := by
  have fate := data_fate distinct some_recipient body
  have copied := bodyCopied_steady s body
  have noted := copied.trans (note_steady _ .finish rfl)
  have given : ∀ {s' : Session σ}, s'.forwarder = s.forwarder → s'.resolver = s.resolver →
      s'.journal.said = s.journal.said →
      s'.reset.2.forwarder = s.forwarder ∧ s'.reset.2.resolver = s.resolver ∧
        s'.reset.2.journal.said = s.journal.said := by
    intro s' forwarder resolver said
    have k := reset_steady s'
    exact ⟨k.forwarder.trans forwarder, k.resolver.trans resolver, k.said.trans said⟩
  generalize s.data body = transfer at fate ⊢
  cases fate with
  | refused _ =>
    have k := dataHeard_steady s
    exact given k.forwarder k.resolver k.said
  | lost _ _ =>
    have k := copied.trans (abandon_steady _)
    exact ⟨k.forwarder, k.resolver, k.said⟩
  | failed _ _ _ _ waits =>
    exact given (waits.forwarder.trans noted.forwarder) (waits.resolver.trans noted.resolver)
      (waits.said.trans noted.said)
  | @collected s₁ s' _ _ _ _ waits after _ _ _ =>
    have k : s'.forwarder = s₁.forwarder ∧ s'.resolver = s₁.resolver ∧ s'.journal.said = s₁.journal.said := by
      rw [after]
      split
      · exact ⟨rfl, rfl, rfl⟩
      · have k := note_steady s₁ .abandon rfl
        exact ⟨k.forwarder, k.resolver, k.said⟩
    exact ⟨k.1.trans (waits.forwarder.trans noted.forwarder), k.2.1.trans (waits.resolver.trans noted.resolver),
      k.2.2.trans (waits.said.trans noted.said)⟩

/-! ## Resolved recipients -/

/-- no forwarding address stands for two recipients, and each is the resolver's answer for its recipient -/
structure Resolved (s : Session σ) : Prop where
  distinct : s.recipients.Distinct
  answered : ∀ entry ∈ s.recipients.entries, ∃ n identifier, localPart? entry.2 = some identifier ∧
    (s.resolver.resolve n identifier).value = .ok entry.1

theorem Resolved.of_empty {s : Session σ} (h : s.recipients = .empty) : s.Resolved := by
  refine ⟨?_, ?_⟩
  · rw [Recipients.Distinct, h]
    exact List.nodup_nil
  · rw [h]
    exact fun entry none => absurd none List.not_mem_nil

theorem Resolved.steady {s s' : Session σ} (h : s.Resolved) (k : Steady s s') : s'.Resolved := by
  refine ⟨k.recipients.symm ▸ h.distinct, ?_⟩
  rw [k.recipients, k.resolver]
  exact h.answered

/-- where the resolver is steady, no recipient is accepted twice -/
theorem Resolved.names_nodup {s : Session σ} (h : s.Resolved) (steady : s.resolver.Steady) :
    s.recipients.names.Nodup := by
  have pairs : s.recipients.entries.Pairwise fun a b => a.1 ≠ b.1 := List.pairwise_map.1 h.distinct
  refine List.pairwise_map.2 (pairs.imp_of_mem fun {a b} ha hb apart same => ?_)
  obtain ⟨m, identifier, local_a, answer_a⟩ := h.answered a ha
  obtain ⟨n, identifier', local_b, answer_b⟩ := h.answered b hb
  rw [same, local_b] at local_a
  obtain rfl := Option.some.inj local_a
  rw [steady m n, answer_b] at answer_a
  exact apart (Except.ok.inj answer_a).symm

theorem mail_resolved {s : Session σ} (h : s.Resolved) (sender : String) (params : Parameters) :
    (s.mail sender params).2.Resolved := by
  have heard := h.steady (mailHeard_steady s sender params)
  rcases mail_cases s sender params with ⟨-, hm⟩ | ⟨e, -, hm⟩ <;> rw [hm]
  · exact ⟨heard.distinct, heard.answered⟩
  · exact heard

theorem rcpt_resolved {s : Session σ} (h : s.Resolved) (recipient : String) : (s.rcpt recipient).2.Resolved := by
  rcases rcpt_cases s recipient with
    ⟨-, hr⟩ | ⟨identifier, local_part, ⟨cause, -, hr⟩ | ⟨resolved, answer, ⟨-, hr⟩ | ⟨new, hr⟩⟩⟩
  · rw [hr]; exact h
  · rw [hr]; exact h.steady (resolve_steady s identifier)
  · rw [hr]; exact h.steady (resolve_steady s identifier)
  · have asked := resolve_steady s identifier
    have heard := asked.trans (rcptHeard_steady (s.resolve identifier).2 resolved)
    rw [← asked.recipients] at new
    rw [hr]
    rcases accept_cases new recipient with ⟨-, ha⟩ | ⟨e, -, ha⟩ <;> rw [ha]
    · rw [asked.recipients] at new ⊢
      refine ⟨h.distinct.append new recipient, fun entry he => ?_⟩
      rw [heard.resolver]
      rcases List.mem_append.1 he with he | he
      · exact h.answered entry he
      · obtain rfl := List.mem_singleton.1 he
        exact ⟨s.asked, identifier, local_part, answer⟩
    · exact h.steady heard

theorem reset_resolved (s : Session σ) : s.reset.2.Resolved := .of_empty s.reset_cleared.2

theorem data_resolved {s : Session σ} (some_recipient : s.recipients.isEmpty = false) (body : BodyInput) :
    (s.data body).2.2.Resolved :=
  .of_empty (data_cleared some_recipient body).2

end LmtpRelay.Session
