/-
The stream to the server in a whole run. Whatever the peer and the server send, a server that reads the stream with no
knowledge of the client finds exactly the commands that the session asked of it, each on one line, and exactly the
bodies that the peer sent: `stream_recovered`. No part of an address, a parameter or a body is ever read as another
command, and no command as a part of a body.

Every act writes what it asks for (`act_writes`): addresses and parameters are parsed, so they are on one line; a body
was read whole, so it ends where a line does.
-/
import LmtpRelay.Proofs.Engine.Agreement
import LmtpRelay.Proofs.Session.Transcript

namespace LmtpRelay

/-- every address that a resolver gives is on one line -/
def Resolver.OneLine (r : Resolver) : Prop :=
  ∀ n identifier address, (r.resolve n identifier).value = .ok address → LmtpRelay.OneLine address

theorem Resolver.ofTable_oneLine {table : List (String × String)} (h : ∀ entry ∈ table, LmtpRelay.OneLine entry.2) :
    (Resolver.ofTable table).OneLine := by
  intro n identifier address found
  have answer : Resolver.lookup table identifier = .ok address := found
  unfold Resolver.lookup at answer
  split at answer
  · next address' given =>
    obtain rfl : address' = address := Except.ok.inj answer
    obtain ⟨before, after, rfl, -⟩ := List.lookup_eq_some_iff.1 given
    exact h (identifier, address') (List.mem_append_right before List.mem_cons_self)
  · cases answer

namespace Engine

variable {π : Type} {limit : Nat}

/-- what a dialogue needs for its stream to be read back by a server with this limit for bodies -/
structure Writable (limit : Nat) (e : Engine (Client π)) : Prop where
  agreement : e.Agreement
  addresses : e.session.resolver.OneLine
  writes : e.session.downstream.CanWrite
  room : e.settings.maxMessageSize ≤ limit

/-! ## Acts -/

theorem doing_writes {e : Engine (Client π)} (h : e.Writable limit) {line : Octets} {command : Command}
    (parsed : Command.parse line = .ok command) :
    ∃ deeds, e.session.Writes limit deeds [] (e.doing command).session := by
  have client := h.agreement.aligned.toOverClient
  have shut := h.agreement.aligned.shut
  have nothing : ∃ deeds, e.session.Writes limit deeds [] e.session := ⟨[], (Session.Aside.refl _).writes rfl⟩
  cases command with
  | lhlo name =>
    unfold doing
    dsimp only
    by_cases inside : e.dialogue.stage.inTransaction = true
    · rw [if_pos inside]
      exact Session.reset_writes client shut
    · rw [if_neg inside]
      exact nothing
  | mail sender params =>
    have written : ∃ deeds, e.session.Writes limit deeds [] (e.session.mail sender params).2 :=
      Session.mail_writes client shut (Command.parse_mail_oneLine parsed)
    rw [doing]
    rcases e.mail_cases sender params with ⟨-, hm⟩ | ⟨-, ⟨-, hm⟩ | ⟨error, -, hm⟩⟩ <;> rw [hm]
    · exact nothing
    · exact written
    · exact written
  | rcpt recipient params =>
    have written : ∃ deeds, e.session.Writes limit deeds [] (e.session.rcpt recipient).2 :=
      Session.rcpt_writes client shut h.addresses recipient
    rw [doing]
    rcases e.rcpt_cases recipient with ⟨-, hr⟩ | ⟨error, -, hr⟩ <;> rw [hr]
    · exact written
    · exact written
  | rset => exact Session.reset_writes client shut
  | _ => exact nothing

theorem deliver_writes {e : Engine (Client π)} (h : e.Writable limit) (stage : e.dialogue.stage = .recipients)
    {s : Source} {now : Instant} {body : Body}
    (read : (s.readBody e.settings.maxMessageSize now).value = some (.ok body)) :
    ∃ deeds, e.session.Writes limit deeds (Heard.messages [.body body]) (e.deliver body).2.session := by
  cases body with
  | tooLarge size => exact Session.reset_writes h.agreement.aligned.toOverClient h.agreement.aligned.shut
  | complete octets =>
    obtain ⟨whole, fits⟩ := Source.readBody_whole read
    exact Session.data_writes h.agreement.aligned h.writes (h.agreement.some_recipient stage) whole
      (Nat.le_trans fits h.room)

/-- **An act writes what it asks for.** -/
theorem act_writes {e e' : Engine (Client π)} {l : List Heard} (act : Act e l e') (h : e.Writable limit) :
    ∃ deeds, e.session.Writes limit deeds (Heard.messages l) e'.session := by
  cases act with
  | wait t turns => exact ⟨[], (Session.waitUntil_aside e.session t).writes (Session.waitUntil_downstream _ _)⟩
  | say text =>
    refine ⟨[], rfl, rfl, rfl, ?_, rfl, (List.append_nil _).symm, nofun⟩
    show (e.session.note (.said text)).journal.asked = _
    rw [Session.journal_note, Journal.asked_append]
    rfl
  | perform parsed allowed => exact doing_writes h parsed
  | deliver read stage => exact deliver_writes h stage read

theorem act_writable {e e' : Engine (Client π)} {l : List Heard} (act : Act e l e') (h : e.Writable limit) :
    e'.Writable limit := by
  obtain ⟨deeds, written⟩ := act_writes act h
  refine ⟨act_agreement act h.agreement, ?_, ?_, ?_⟩
  · rw [written.resolver]
    exact h.addresses
  · unfold Client.CanWrite
    rw [written.peer, written.timeouts]
    exact h.writes
  · rw [act.setup.1]
    exact h.room

theorem Acts.writes {e e' : Engine (Client π)} {l : List Heard} (acts : Acts e l e') (h : e.Writable limit) :
    ∃ deeds, e.session.Writes limit deeds (Heard.messages l) e'.session := by
  induction acts with
  | done e => exact ⟨[], (Session.Aside.refl _).writes rfl⟩
  | @step e e₁ e₂ l ls act _ ih =>
    obtain ⟨deeds, first⟩ := act_writes act h
    obtain ⟨deeds', others⟩ := ih (act_writable act h)
    rw [Heard.messages_append]
    exact ⟨_, first.trans others⟩

/-! ## Runs -/

theorem logout_sent {s : Session (Client π)} (h : s.Aligned) : s.logout.2.downstream.sent
    = s.downstream.sent ++ if s.downstream.broken then [] else Dispatch.lineOctets Command.quit.text := by
  have client : s.forwarder.close s.now s.downstream = Client.close s.now s.downstream := by
    rw [h.forwarder]
    rfl
  have left : s.logout.2.downstream = (s.forwarder.close s.now s.downstream).next := rfl
  rw [left, client]
  unfold Client.close
  split
  · next broken =>
    rw [broken]
    exact (List.append_nil _).symm
  · next whole =>
    have sent := Client.command_sent h.shut s.now "QUIT" Command.quit.text
    rw [if_neg whole] at sent
    exact sent

theorem Begins.fresh {hostname : String} {e : Engine (Client π)} (h : e.Begins hostname) :
    e.session.downstream.Fresh hostname ∧ e.session.journal.asked = [] := by
  obtain ⟨accepted, connected⟩ := h
  exact ⟨Opening.connect_fresh accepted connected, rfl⟩

/-- **The stream is recovered.** In a whole run over a client that has connected, take all that it has written, and
read it as a server that cuts it into lines and reads a body after each DATA command for which the client was let send
one. What is read are the client's name, the commands that were asked of the client while it was not broken, in order,
each on one line, and for each DATA command that was let through the body that the peer sent; at the end comes QUIT,
unless the client was broken. There are as many DATA commands, refused ones included, as bodies that came whole. -/
theorem stream_recovered {hostname : String} {e₀ : Engine (Client π)} (begins : e₀.Begins hostname)
    (name : OneLine hostname) (addresses : e₀.session.resolver.OneLine) (writes : e₀.session.downstream.CanWrite)
    (room : e₀.settings.maxMessageSize ≤ limit) (s₀ : Source) :
    let e := (e₀.greetAndServe s₀).2
    let deeds := e.session.journal.asked
    let bodies := Heard.messages (e₀.heardInRun s₀)
    serverReads limit (deeds.filterMap Deed.opens?) (e₀.run s₀).2.session.downstream.sent
        = (Dispatch.line (Command.lhlo hostname).text :: dispatches deeds bodies ++
            if e.session.downstream.broken then [] else [Dispatch.line Command.quit.text]).flatMap Dispatch.readings ∧
      deeds.countP Deed.isData = bodies.length := by
  intro e deeds bodies
  have acts := greetAndServe_acts e₀ s₀
  have writable : e₀.Writable limit := ⟨begins.agreement, addresses, writes, room⟩
  obtain ⟨asked, written⟩ := acts.writes writable
  obtain ⟨fresh, none_before⟩ := begins.fresh
  have all : deeds = asked := by
    refine written.asked.trans ?_
    rw [none_before, List.nil_append]
  have taken : deeds.countP Deed.isData = bodies.length := all ▸ written.taken
  refine ⟨?_, taken⟩
  -- what was written is what was meant, from the client's name to QUIT
  generalize hlast : (if e.session.downstream.broken then [] else [Dispatch.line Command.quit.text]) = last
  have greeting : Octets.ofText (s!"LHLO {hostname}" ++ "\r\n")
      = (Dispatch.line (Command.lhlo hostname).text).octets := rfl
  have quit : (if e.session.downstream.broken then [] else Dispatch.lineOctets Command.quit.text)
      = last.flatMap Dispatch.octets := by
    rw [← hlast]
    split
    · rfl
    · exact (List.append_nil _).symm
  have meant : (e₀.run s₀).2.session.downstream.sent
      = (Dispatch.line (Command.lhlo hostname).text :: dispatches deeds bodies ++ last).flatMap Dispatch.octets :=
    calc (e₀.run s₀).2.session.downstream.sent
        = e.session.downstream.sent
            ++ if e.session.downstream.broken then [] else Dispatch.lineOctets Command.quit.text :=
          logout_sent (acts.agreement begins.agreement).aligned
      _ = (Dispatch.line (Command.lhlo hostname).text).octets ++ (dispatches deeds bodies).flatMap Dispatch.octets
            ++ last.flatMap Dispatch.octets := by
          rw [quit, written.sent, fresh.sent, greeting, all]
      _ = (Dispatch.line (Command.lhlo hostname).text :: dispatches deeds bodies ++ last).flatMap Dispatch.octets := by
          rw [List.flatMap_append, List.flatMap_cons]
  have told : deeds.filterMap Deed.opens?
      = (Dispatch.line (Command.lhlo hostname).text :: dispatches deeds bodies ++ last).filterMap Dispatch.opens? := by
    have silent : last.filterMap Dispatch.opens? = [] := by
      rw [← hlast]
      split <;> rfl
    rw [List.cons_append, List.filterMap_cons, List.filterMap_append, silent, List.append_nil, opens_dispatches taken]
    rfl
  rw [meant, told]
  refine serverReads_dispatches fun d hd => ?_
  rcases List.mem_append.1 hd with hd | hd
  · rcases List.mem_cons.1 hd with rfl | hd
    · exact Session.lhlo_fits name
    · exact written.fits d (all ▸ hd)
  · rw [← hlast] at hd
    split at hd
    · cases hd
    · obtain rfl := List.mem_singleton.1 hd
      exact Session.quit_fits

/-- a dialogue with a message, over a server that takes it -/
theorem stream_recovered_message :
    let e₀ := Sample.engine
      ["220 ready", "250 hello", "250 sender", "250 recipient", "354 go on", "250 stored", "221 bye"]
    let s₀ := Sample.source ["LHLO peer", "MAIL FROM:<a@x>", "RCPT TO:<p@h>", "DATA", "..", "QUIT", ".", "QUIT"]
    serverReads 1024 ((e₀.greetAndServe s₀).2.session.journal.asked.filterMap Deed.opens?)
        (e₀.run s₀).2.session.downstream.sent
      = (Dispatch.line "LHLO relay" ::
          dispatches (e₀.greetAndServe s₀).2.session.journal.asked (Heard.messages (e₀.heardInRun s₀)) ++
            if (e₀.greetAndServe s₀).2.session.downstream.broken then [] else
              [Dispatch.line "QUIT"]).flatMap Dispatch.readings := by
  intro e₀ s₀
  have begins : e₀.Begins "relay" := Sample.begins (by cbv) (by cbv)
  have peer : e₀.session.downstream.peer = Rehearsal.Server.peer := by cbv
  have addresses : e₀.session.resolver.OneLine := Resolver.ofTable_oneLine (by decide)
  have writes : e₀.session.downstream.CanWrite := by
    unfold Client.CanWrite
    rw [peer]
    intro now server octets
    exact ⟨rfl, 0, rfl, by simp [inTime]⟩
  exact (stream_recovered begins (by decide) addresses writes (Nat.le_refl 1024) s₀).1

end Engine
end LmtpRelay
