/-
Client and server in step. Whatever the server sends and whenever, a client that is not broken has read one complete
response for the greeting, one for each command line that it wrote and one for each recipient of each body, and has
ended every body that it began. A client that is broken stays broken, refuses every operation and writes nothing.

What the server has sent is told from what was written to it and when (`Peer.fed`), as if nobody read any of it. The
octets that a client has read are then those that it has not left.

- `Client.command_converses`, `Client.finish_converses`: what a command and the end of a body write and read.
- `Client.perform_runs`, `Client.performAll_runs`: an operation, and any operations after one another.
- `Client.perform_refused`: a broken client.
- `Opening.in_step`: all of this from the connection on.
-/
import LmtpRelay.Proofs.Downstream.Responses
import LmtpRelay.Proofs.Session.Transcript
import LmtpRelay.Rehearsal.Downstream

namespace LmtpRelay

variable {π : Type}

/-! ## The server's side -/

/-- the server, and all that it has sent, after it was written to at these moments; nothing of that is read -/
def Peer.fed (peer : Peer π) : π × Source → List (Instant × Octets) → π × Source
  | state, [] => state
  | (server, source), (time, octets) :: rest =>
    let r := peer.write time server octets
    peer.fed (r.next, r.extend source) rest

theorem Peer.fed_append (peer : Peer π) (state : π × Source) (first second : List (Instant × Octets)) :
    peer.fed state (first ++ second) = peer.fed (peer.fed state first) second := by
  induction first generalizing state with
  | nil => rfl
  | cons write rest ih => exact ih _

/-- what was read before does not matter for what comes -/
theorem Peer.fed_read (peer : Peer π) (server : π) {s s' : Source} {read : Octets} (halts : s.halts = s'.halts)
    (octets : s.octets = read ++ s'.octets) (writes : List (Instant × Octets)) :
    (peer.fed (server, s) writes).1 = (peer.fed (server, s') writes).1 ∧
      (peer.fed (server, s) writes).2.halts = (peer.fed (server, s') writes).2.halts ∧
      (peer.fed (server, s) writes).2.octets = read ++ (peer.fed (server, s') writes).2.octets := by
  induction writes generalizing server s s' with
  | nil => exact ⟨rfl, halts, octets⟩
  | cons write rest ih =>
    refine ih _ ?_ ?_
    · unfold Reaction.extend
      rw [halts]
      split
      · rfl
      · exact halts
    · unfold Reaction.extend
      rw [halts]
      split
      · unfold Source.octets at octets ⊢
        rw [List.flatMap_append, List.flatMap_append, octets, List.append_assoc]
      · exact octets

/-- a server that has closed its side does not open it again -/
theorem Peer.fed_closes (peer : Peer π) (state : π × Source) (writes : List (Instant × Octets))
    (closes : state.2.Closes) : (peer.fed state writes).2.Closes := by
  induction writes generalizing state with
  | nil => exact closes
  | cons write rest ih =>
    refine ih _ ?_
    have some_halt : state.2.halts.isEmpty = false := by
      cases halts : state.2.halts with
      | nil =>
        rw [Source.Closes, halts] at closes
        cases closes
      | cons halt rest => rfl
    unfold Reaction.extend
    rw [some_halt]
    exact closes

namespace Client

/-! ## Conversations -/

/-- between two states of a client it wrote to the server at these moments, and read these responses and nothing else -/
structure Converses (c : Client π) (writes : List (Instant × Octets)) (responses : List Octets) (c' : Client π) :
    Prop where
  peer : c'.peer = c.peer
  written : c'.written = (writes.map Prod.snd).reverse ++ c.written
  server : c'.server = (c.peer.fed (c.server, c.source) writes).1
  halts : (c.peer.fed (c.server, c.source) writes).2.halts = c'.source.halts
  octets : (c.peer.fed (c.server, c.source) writes).2.octets = responses.flatten ++ c'.source.octets
  complete : ∀ octets ∈ responses, IsResponse c'.source.Closes octets

theorem Converses.refl (c : Client π) : Converses c [] [] c := ⟨rfl, rfl, rfl, rfl, rfl, nofun⟩

theorem Converses.trans {a b c : Client π} {writes writes' : List (Instant × Octets)}
    {responses responses' : List Octets} (h : Converses a writes responses b) (h' : Converses b writes' responses' c) :
    Converses a (writes ++ writes') (responses ++ responses') c := by
  have state : a.peer.fed (a.server, a.source) writes
      = (b.server, (a.peer.fed (a.server, a.source) writes).2) := Prod.ext h.server.symm rfl
  obtain ⟨server, halts, octets⟩ := Peer.fed_read a.peer b.server h.halts h.octets writes'
  rw [← state, ← Peer.fed_append, ← h.peer] at server halts octets
  have closes : b.source.Closes → c.source.Closes := by
    intro closes
    have fed := Peer.fed_closes b.peer (b.server, b.source) writes' closes
    rw [Source.Closes, h'.halts] at fed
    exact fed
  refine ⟨h'.peer.trans h.peer, ?_, ?_, ?_, ?_, fun octets member => ?_⟩
  · rw [h'.written, h.written, List.map_append, List.reverse_append, List.append_assoc]
  · rw [← h.peer, server, h'.server]
  · rw [← h.peer, halts, h'.halts]
  · rw [← h.peer, octets, h'.octets, List.flatten_append, List.append_assoc]
  · rcases List.mem_append.1 member with member | member
    · obtain ⟨response, spells⟩ := h.complete octets member
      exact ⟨response, spells.mono closes⟩
    · exact h'.complete octets member

theorem Converses.congr {a a' b b' : Client π} {writes : List (Instant × Octets)} {responses : List Octets}
    (h : Converses a writes responses b)
    (before : a'.peer = a.peer ∧ a'.written = a.written ∧ a'.server = a.server ∧ a'.source = a.source)
    (after : b'.peer = b.peer ∧ b'.written = b.written ∧ b'.server = b.server ∧ b'.source = b.source) :
    Converses a' writes responses b' := by
  obtain ⟨peer, written, server, source⟩ := before
  obtain ⟨peer', written', server', source'⟩ := after
  refine ⟨?_, ?_, ?_, ?_, ?_, ?_⟩
  · rw [peer', peer, h.peer]
  · rw [written', written, h.written]
  · rw [server', peer, server, source, h.server]
  · rw [source', peer, server, source, h.halts]
  · rw [source', peer, server, source, h.octets]
  · rw [source']
    exact h.complete

theorem write_converses {c : Client π} (shut : c.shut = false) (now deadline : Instant) (octets : Octets) :
    ∃ writes, Converses c writes [] (c.write now deadline octets).2 := by
  unfold write
  split
  · exact ⟨[], Converses.refl c⟩
  · rw [if_neg (by simp [shut])]
    refine ⟨[(now, octets)], ?_⟩
    dsimp only
    split <;> exact ⟨rfl, rfl, rfl, rfl, rfl, nofun⟩

/-- a response that is waited for is read whole, and nothing after it -/
theorem await_converses {c : Client π} {now deadline : Instant} {step : String} {response : Response}
    (h : (c.await now deadline step).1.value = .ok response) :
    ∃ octets, Converses c [] [octets] (c.await now deadline step).2 := by
  have read : (c.source.readResponse now).value = some (.ok response) := by
    unfold await at h
    dsimp only at h
    split at h
    · next result timely =>
      rw [← (h : result = .ok response)]
      unfold Read.within at timely
      split at timely
      · exact timely
      · cases timely
    · cases h
  obtain ⟨octets, spells, left, halts⟩ := Source.readResponse_spells read
  have next : (c.await now deadline step).2 = { c with source := (c.source.readResponse now).rest } := by
    unfold await
    dsimp only
    split <;> rfl
  rw [next]
  refine ⟨octets, rfl, rfl, rfl, halts.symm, ?_, fun o member => ?_⟩
  · rw [List.flatten_singleton]
    exact left
  · obtain rfl := List.mem_singleton.1 member
    refine ⟨response, spells.mono fun closes => ?_⟩
    rw [Source.Closes] at closes ⊢
    rw [halts]
    exact closes

/-! ## Commands -/

theorem exchange_converses {c : Client π} (shut : c.shut = false) {now deadline : Instant} {step line : String}
    {response : Response} (h : (c.exchange now deadline step line).1.value = .ok response) :
    ∃ writes octets, Converses c writes [octets] (c.exchange now deadline step line).2 := by
  obtain ⟨writes, writing⟩ := write_converses shut now deadline (Octets.ofText (line ++ "\r\n"))
  unfold exchange at h ⊢
  split at h
  · cases h
  · cases h
  · next written =>
    rw [written] at writing
    obtain ⟨octets, reading⟩ := await_converses h
    exact ⟨writes ++ [], octets, writing.trans reading⟩

/-- **A command that does not break the client** is written on one line and answered by one response. -/
theorem command_converses {c : Client π} (shut : c.shut = false) {now : Instant} {step line : String}
    (whole : (c.command now step line).2.broken = false) :
    (c.command now step line).2.sent = c.sent ++ Dispatch.lineOctets line ∧
      ∃ writes octets, Converses c writes [octets] (c.command now step line).2 := by
  have answered : ∀ e, (c.command now step line).1.value ≠ .error e := fun e he => by
    rw [(command_broken c now step line).2 ⟨e, he⟩] at whole
    cases whole
  have able : c.broken = false := Bool.eq_false_iff.2 fun broken =>
    answered _ ((command_refused_iff c now step line).2 broken)
  have sent := command_sent shut now step line
  rw [able] at sent
  refine ⟨sent, ?_⟩
  unfold command at answered ⊢
  rw [if_neg (by simp [able])] at answered ⊢
  rw [settle_fst] at answered
  unfold settle
  split
  · next response hv => exact exchange_converses shut hv
  · next e hv => exact absurd hv (answered e)

/-! ## Bodies -/

/-- write pieces of a body, each at its moment, whatever comes of it -/
def writeAll (c : Client π) : List (Instant × Octets) → Client π
  | [] => c
  | (now, piece) :: rest => (writePiece now c piece).next.writeAll rest

theorem writePiece_next (now : Instant) (c : Client π) (piece : Octets) : (writePiece now c piece).next
    = ({ c with atStart := (stuff c.atStart piece).2 }.write now (now + seconds c.timeouts.dataSecs)
        (stuff c.atStart piece).1).2 :=
  writeRaw_next now { c with atStart := (stuff c.atStart piece).2 } (stuff c.atStart piece).1

/-- what the pieces of a body leave of a client: they are written with full stops doubled, and nothing is read -/
theorem writeAll_converses {c : Client π} (shut : c.shut = false) (pieces : List (Instant × Octets)) :
    Kept c (c.writeAll pieces) ∧
      (c.writeAll pieces).sent = c.sent ++ (stuff c.atStart (pieces.map Prod.snd).flatten).1 ∧
      (c.writeAll pieces).atStart = (stuff c.atStart (pieces.map Prod.snd).flatten).2 ∧
      ∃ writes, Converses c writes [] (c.writeAll pieces) := by
  induction pieces generalizing c with
  | nil => exact ⟨Kept.refl c, (List.append_nil _).symm, rfl, [], Converses.refl c⟩
  | cons first rest ih =>
    obtain ⟨now, piece⟩ := first
    have next := writePiece_next now c piece
    have k := writePiece_kept now c piece
    have sent : (writePiece now c piece).next.sent = c.sent ++ (stuff c.atStart piece).1 := by
      rw [next]
      exact write_sent (c := { c with atStart := (stuff c.atStart piece).2 }) shut now _ _
    have atStart : (writePiece now c piece).next.atStart = (stuff c.atStart piece).2 := by
      rw [next]
      exact write_atStart _ now _ _
    obtain ⟨kept, sent', atStart', writes', more⟩ := ih (k.shut.trans shut)
    obtain ⟨writes, writing⟩ := write_converses (c := { c with atStart := (stuff c.atStart piece).2 }) shut now
      (now + seconds c.timeouts.dataSecs) (stuff c.atStart piece).1
    rw [← next] at writing
    have writing : Converses c writes [] (writePiece now c piece).next :=
      writing.congr ⟨rfl, rfl, rfl, rfl⟩ ⟨rfl, rfl, rfl, rfl⟩
    rw [sent, atStart] at sent'
    rw [atStart] at atStart'
    rw [List.map_cons, List.flatten_cons, stuff_append]
    exact ⟨k.trans kept, sent'.trans (List.append_assoc _ _ _), atStart', writes ++ writes', writing.trans more⟩

/-- one response is read for each recipient, unless that breaks the client -/
theorem readStatuses_converses {c : Client π} {now : Instant} {recipients : List String}
    (whole : (c.readStatuses now recipients).2.2.broken = false) :
    ∃ responses, Converses c [] responses (c.readStatuses now recipients).2.2 ∧
      responses.length = recipients.length := by
  induction recipients generalizing c now with
  | nil => exact ⟨[], Converses.refl c, rfl⟩
  | cons recipient rest ih =>
    unfold readStatuses at whole ⊢
    dsimp only at whole ⊢
    split at whole
    · cases whole
    · next response hv =>
      obtain ⟨octets, first⟩ := await_converses hv
      obtain ⟨responses, others, length⟩ := ih whole
      exact ⟨octets :: responses, first.trans others, congrArg Nat.succ length⟩

/-- the end of a body is written in time -/
def CanEnd (c : Client π) (now : Instant) : Prop := (writeRaw now c (terminator c.atStart)).value = .ok ()

theorem finish_closed {c : Client π} {now : Instant} (can : c.CanEnd now) :
    (finish now c).closed = { ((writeRaw now c (terminator c.atStart)).next.readStatuses
      (now + (writeRaw now c (terminator c.atStart)).took) c.owed).2.2 with owed := [] } := by
  have k := writeRaw_kept now c (terminator c.atStart)
  unfold finish
  dsimp only
  rw [show (writeRaw now c (terminator c.atStart)).value = .ok () from can, k.owed]

/-- **A body that is closed without breaking the client** is ended, and answered once for each recipient. -/
theorem finish_converses {c : Client π} (shut : c.shut = false) {now : Instant} (can : c.CanEnd now)
    (whole : (finish now c).closed.broken = false) :
    ∃ writes responses, Converses c writes responses (finish now c).closed ∧ responses.length = c.owed.length := by
  obtain ⟨writes, writing⟩ := write_converses shut now (now + seconds c.timeouts.dataSecs) (terminator c.atStart)
  rw [← writeRaw_next] at writing
  rw [finish_closed can] at whole ⊢
  obtain ⟨responses, reading, length⟩ := readStatuses_converses whole
  refine ⟨writes ++ [], [] ++ responses, ?_, length⟩
  exact (writing.trans reading).congr ⟨rfl, rfl, rfl, rfl⟩ ⟨rfl, rfl, rfl, rfl⟩

/-! ## Operations -/

/-- how a body comes to its end -/
inductive Ended where
  /-- it is closed, and the answers are waited for -/
  | closed (now : Instant)
  /-- closing it begins, and is cut off -/
  | cut (now last : Instant)
  /-- it is given up -/
  | dropped (now : Instant)

/-- an operation of a client, with its moments -/
inductive Operation where
  | mail (now : Instant) (sender : String) (params : Parameters)
  | rcpt (now : Instant) (recipient : String)
  /-- where the body is let come these pieces are written, and it is ended -/
  | data (now : Instant) (pieces : List (Instant × Octets)) (ended : Ended)
  | reset (now : Instant)

def endBody (c : Client π) : Ended → Client π
  | .closed now => (finish now c).closed
  | .cut now last => (finish now c).cut last
  | .dropped now => abandon now c

def perform (c : Client π) : Operation → Except ForwardError Unit × Client π
  | .mail now sender params => let a := mail now c sender params; (a.value, a.next)
  | .rcpt now recipient => let a := rcpt now c recipient; (a.value, a.next)
  | .data now pieces ended =>
    let a := data now c
    match a.value with
    | .ok _ => (a.value, (a.next.writeAll pieces).endBody ended)
    | .error _ => (a.value, a.next)
  | .reset now => let a := reset now c; (a.value, a.next)

/-- the client after some operations, whatever they come to -/
def performAll (c : Client π) : List Operation → Client π
  | [] => c
  | operation :: rest =>
    let (_, c) := c.perform operation
    c.performAll rest

/-- what an operation sends to a server that answers, and the recipients that it sends a body for -/
structure Errand where
  dispatch : Dispatch
  recipients : List String

def errand (c : Client π) : Operation → Errand
  | .mail _ sender params => ⟨.line (Command.mail sender params).text, []⟩
  | .rcpt _ recipient => ⟨.line (Command.rcpt recipient .empty).text, []⟩
  | .data now pieces _ =>
    if (data now c).value.isOk then ⟨.data (some (pieces.map Prod.snd).flatten), c.accepted⟩ else ⟨.data none, []⟩
  | .reset _ => ⟨.line Command.rset.text, []⟩

def errands (c : Client π) : List Operation → List Errand
  | [] => []
  | operation :: rest => c.errand operation :: (c.perform operation).2.errands rest

/-- how many responses are due for errands: one for each command, and one for each recipient of a body -/
def due (errands : List Errand) : Nat := (errands.map fun e => 1 + e.recipients.length).sum

/-! ## A broken client -/

/-- **A client that is broken stays broken,** whatever is asked of it; it refuses that and writes nothing. -/
theorem perform_refused {c : Client π} (broken : c.broken = true) (operation : Operation) :
    (c.perform operation).1 = .error (.downstream .broken) ∧ (c.perform operation).2.broken = true ∧
      (c.perform operation).2.written = c.written := by
  have refused : ∀ {c : Client π}, c.broken = true → ∀ now step line,
      c.command now step line = (⟨0, .error .broken⟩, c) := fun broken _ _ _ => if_pos broken
  cases operation with
  | mail now sender params =>
    unfold perform mail
    dsimp only
    rw [refused (c := { c with accepted := [] }) broken]
    exact ⟨rfl, broken, rfl⟩
  | rcpt now recipient =>
    unfold perform rcpt
    dsimp only
    rw [refused broken]
    exact ⟨rfl, broken, rfl⟩
  | data now pieces ended =>
    have value : (data now c).value = .error (.downstream .broken) := by rw [data_eq, refused broken]
    have next : (data now c).next = c := by rw [data_eq, refused broken]
    unfold perform
    dsimp only
    rw [value, next]
    exact ⟨rfl, broken, rfl⟩
  | reset now =>
    unfold perform reset
    dsimp only
    rw [refused (c := { c with accepted := [] }) broken]
    exact ⟨rfl, broken, rfl⟩

theorem performAll_refused {c : Client π} (broken : c.broken = true) (operations : List Operation) :
    (c.performAll operations).broken = true ∧ (c.performAll operations).written = c.written := by
  induction operations generalizing c with
  | nil => exact ⟨broken, rfl⟩
  | cons operation rest ih =>
    obtain ⟨-, still, silent⟩ := perform_refused broken operation
    obtain ⟨last, written⟩ := ih still
    exact ⟨last, written.trans silent⟩

/-- a broken client leaves without a word -/
theorem close_refused {c : Client π} (broken : c.broken = true) (now : Instant) :
    (close now c).next.written = c.written := by
  unfold close
  rw [if_pos broken]

/-! ## A client that is whole -/

theorem endBody_kept (c : Client π) (ended : Ended) : Kept { c with owed := [] } (c.endBody ended) := by
  cases ended with
  | closed now => exact finish_closed_kept now c
  | cut now last => exact finish_cut_kept now c last
  | dropped now => exact abandon_kept now c

/-- a body that is not closed leaves the client broken -/
theorem endBody_broken {c : Client π} {ended : Ended} (h : (c.endBody ended).broken = false) :
    ∃ now, ended = .closed now := by
  cases ended with
  | closed now => exact ⟨now, rfl⟩
  | cut now last =>
    have broken : ((finish now c).cut last).broken = true := by
      unfold finish
      dsimp only
      split <;> rfl
    exact absurd (broken.symm.trans h) nofun
  | dropped now => cases h

/-- no operation ends the client's side, or changes whom it talks to -/
theorem perform_setting {c : Client π} (shut : c.shut = false) (operation : Operation) :
    (c.perform operation).2.shut = false ∧ (c.perform operation).2.peer = c.peer ∧
      (c.perform operation).2.timeouts = c.timeouts := by
  cases operation with
  | mail now sender params =>
    have k := mail_kept now c sender params
    exact ⟨k.shut.trans shut, k.peer, k.timeouts⟩
  | rcpt now recipient =>
    unfold perform
    dsimp only
    cases value : (rcpt now c recipient).value with
    | ok _ =>
      have k := rcpt_ok now c recipient value
      exact ⟨k.shut.trans shut, k.peer, k.timeouts⟩
    | error e =>
      have k := rcpt_error now c recipient value
      exact ⟨k.shut.trans shut, k.peer, k.timeouts⟩
  | data now pieces ended =>
    unfold perform
    dsimp only
    cases value : (data now c).value with
    | ok _ =>
      have begun := (data_ok now c value).1
      have written := (writeAll_converses (begun.shut.trans shut) pieces).1
      have k := endBody_kept ((data now c).next.writeAll pieces) ended
      exact ⟨k.shut.trans (written.shut.trans (begun.shut.trans shut)), k.peer.trans (written.peer.trans begun.peer),
        k.timeouts.trans (written.timeouts.trans begun.timeouts)⟩
    | error e =>
      have k := data_error now c value
      exact ⟨k.shut.trans shut, k.peer, k.timeouts⟩
  | reset now =>
    have k := reset_kept now c
    exact ⟨k.shut.trans shut, k.peer, k.timeouts⟩

/-- where an operation lets a body come and closes it, the end of the body is written -/
def Ends (c : Client π) (operation : Operation) : Prop :=
  ∀ now pieces last, operation = .data now pieces (.closed last) → (data now c).value = .ok () →
    ((data now c).next.writeAll pieces).CanEnd last

/-- the end of each body is written that operations after one another close -/
def EndsAll (c : Client π) : List Operation → Prop
  | [] => True
  | operation :: rest => c.Ends operation ∧ (c.perform operation).2.EndsAll rest

/-- a client whose writes all succeed writes the end of each body that it closes -/
theorem CanWrite.endsAll {c : Client π} (can : c.CanWrite) (shut : c.shut = false) (operations : List Operation) :
    c.EndsAll operations := by
  induction operations generalizing c with
  | nil => trivial
  | cons operation rest ih =>
    obtain ⟨still, peer, timeouts⟩ := perform_setting shut operation
    have later : (c.perform operation).2.CanWrite := by
      unfold CanWrite
      rw [peer, timeouts]
      exact can
    refine ⟨fun now pieces last _ letCome => ?_, ih later still⟩
    have begun := (data_ok now c letCome).1
    have k := (writeAll_converses (begun.shut.trans shut) pieces).1
    have able := k.canWrite (begun.canWrite (c := { c with owed := c.accepted, accepted := [] }) can)
    exact writeRaw_done able (k.shut.trans (begun.shut.trans shut)) last _

/-- between two states of a client that is whole it ran an errand: it wrote this, and read the responses due for it -/
def Runs (c : Client π) (errands : List Errand) (c' : Client π) : Prop :=
  c'.sent = c.sent ++ errands.flatMap (fun e => e.dispatch.octets) ∧
    ∃ writes responses, Converses c writes responses c' ∧ responses.length = due errands

theorem Runs.refl (c : Client π) : Runs c [] c := ⟨(List.append_nil _).symm, [], [], Converses.refl c, rfl⟩

theorem Runs.trans {a b c : Client π} {first second : List Errand} (h : Runs a first b) (h' : Runs b second c) :
    Runs a (first ++ second) c := by
  obtain ⟨sent, writes, responses, converses, length⟩ := h
  obtain ⟨sent', writes', responses', converses', length'⟩ := h'
  refine ⟨?_, writes ++ writes', responses ++ responses', converses.trans converses', ?_⟩
  · rw [sent', sent, List.flatMap_append, List.append_assoc]
  · rw [List.length_append, length, length', due, due, due, List.map_append, List.sum_append]

theorem command_runs {c : Client π} (shut : c.shut = false) {now : Instant} {step text : String}
    (whole : (c.command now step text).2.broken = false) :
    Runs c [⟨.line text, []⟩] (c.command now step text).2 := by
  obtain ⟨sent, writes, octets, converses⟩ := command_converses shut whole
  exact ⟨by rw [sent, List.flatMap_singleton]; rfl, writes, [octets], converses, rfl⟩

theorem Runs.congr {a a' b b' : Client π} {errands : List Errand} (h : Runs a errands b)
    (before : a'.peer = a.peer ∧ a'.written = a.written ∧ a'.server = a.server ∧ a'.source = a.source)
    (after : b'.peer = b.peer ∧ b'.written = b.written ∧ b'.server = b.server ∧ b'.source = b.source) :
    Runs a' errands b' := by
  obtain ⟨sent, writes, responses, converses, length⟩ := h
  refine ⟨?_, writes, responses, converses.congr before after, length⟩
  unfold Client.sent at sent ⊢
  rw [before.2.1, after.2.1, sent]

theorem rcpt_next (now : Instant) (c : Client π) (recipient : String) : ∃ accepted, (rcpt now c recipient).next
    = { (c.command now "RCPT" (Command.rcpt recipient .empty).text).2 with accepted } := by
  unfold rcpt
  dsimp only
  split
  · exact ⟨_, rfl⟩
  · exact ⟨_, rfl⟩

theorem data_next (now : Instant) (c : Client π) : ∃ accepted owed atStart, (data now c).next
    = { (c.command now "DATA" Command.data.text).2 with accepted, owed, atStart } := by
  rw [data_eq]
  split
  · exact ⟨_, _, _, rfl⟩
  · split <;> exact ⟨_, _, _, rfl⟩

/-- DATA is a command like any other, whether a body may come or not -/
theorem data_runs {c : Client π} (shut : c.shut = false) {now : Instant} (whole : (data now c).next.broken = false) :
    Runs c [⟨.data none, []⟩] (data now c).next := by
  obtain ⟨accepted, owed, atStart, next⟩ := data_next now c
  rw [next] at whole ⊢
  exact (command_runs shut whole).congr ⟨rfl, rfl, rfl, rfl⟩ ⟨rfl, rfl, rfl, rfl⟩

/-- a client that has ended its side gets no response -/
theorem command_open {c : Client π} {now : Instant} {step line : String} {response : Response}
    (answer : (c.command now step line).1.value = .ok response) : c.shut = false := by
  rw [← Bool.not_eq_true]
  intro shut
  have some_octets : (Octets.ofText (line ++ "\r\n")).isEmpty = false := by
    rw [Octets.ofText_append, List.isEmpty_eq_false_iff]
    exact List.append_ne_nil_of_right_ne_nil _ (by decide)
  have refused : c.write now (now + seconds c.timeouts.commandSecs) (Octets.ofText (line ++ "\r\n"))
      = (some (now, .error brokenPipe), c) := by
    unfold write
    rw [if_neg (by simp [some_octets]), if_pos shut]
  unfold command at answer
  split at answer
  · cases answer
  · rw [settle_fst] at answer
    unfold exchange at answer
    rw [refused] at answer
    cases answer

/-- only a client that is whole lets a body come -/
theorem data_able {c : Client π} {now : Instant} (letCome : (data now c).value = .ok ()) :
    (data now c).next.shut = false ∧ (data now c).next.broken = false := by
  obtain ⟨response, answer, -⟩ := (data_ok_iff now c).1 letCome
  have shut : c.shut = false := command_open answer
  refine ⟨(data_ok now c letCome).1.shut.trans shut, ?_⟩
  obtain ⟨accepted, owed, atStart, next⟩ := data_next now c
  rw [next, Bool.eq_false_iff]
  intro broken
  obtain ⟨e, he⟩ := (command_broken c now "DATA" Command.data.text).1 broken
  exact absurd (answer.symm.trans he) nofun

/-- a body that was let come and is closed without breaking the client -/
theorem body_runs {c : Client π} (shut : c.shut = false) {now last : Instant} {pieces : List (Instant × Octets)}
    (letCome : (data now c).value = .ok ()) (can : ((data now c).next.writeAll pieces).CanEnd last)
    (whole : (finish last ((data now c).next.writeAll pieces)).closed.broken = false) :
    Runs c [⟨.data (some (pieces.map Prod.snd).flatten), c.accepted⟩]
      (finish last ((data now c).next.writeAll pieces)).closed := by
  obtain ⟨k, atStart⟩ := data_ok now c letCome
  have begun := (data_able letCome).1
  obtain ⟨opened, writes, responses, opening, length⟩ := data_runs shut (data_able letCome).2
  obtain ⟨kept, sent, atStart', writes', writing⟩ := writeAll_converses begun pieces
  obtain ⟨writes'', answers, closing, each⟩ := finish_converses (kept.shut.trans begun) can whole
  rw [atStart] at sent atStart'
  refine ⟨?_, _, _, (opening.trans writing).trans closing, ?_⟩
  · rw [(finish_sent (kept.shut.trans begun) last).1, sent, opened, atStart']
    simp [Dispatch.octets]
  · rw [List.length_append, List.length_append, length, each, kept.owed, k.owed]
    rfl

/-- **An operation that does not break the client** is one errand: it is written whole, and every response that is due
for it is read. -/
theorem perform_runs {c : Client π} (shut : c.shut = false) {operation : Operation} (ends : c.Ends operation)
    (whole : (c.perform operation).2.broken = false) : Runs c [c.errand operation] (c.perform operation).2 := by
  cases operation with
  | mail now sender params =>
    exact (command_runs (c := { c with accepted := [] }) shut whole).congr ⟨rfl, rfl, rfl, rfl⟩ ⟨rfl, rfl, rfl, rfl⟩
  | rcpt now recipient =>
    have next : (c.perform (.rcpt now recipient)).2 = (rcpt now c recipient).next := rfl
    obtain ⟨accepted, same⟩ := rcpt_next now c recipient
    rw [next, same] at whole ⊢
    exact (command_runs shut whole).congr ⟨rfl, rfl, rfl, rfl⟩ ⟨rfl, rfl, rfl, rfl⟩
  | data now pieces ended =>
    unfold perform at whole ⊢
    unfold errand
    dsimp only at whole ⊢
    cases letCome : (data now c).value with
    | error e =>
      rw [letCome] at whole
      exact data_runs shut whole
    | ok _ =>
      rw [letCome] at whole
      obtain ⟨last, rfl⟩ := endBody_broken whole
      exact body_runs shut letCome (ends now pieces last rfl letCome) whole
  | reset now =>
    exact (command_runs (c := { c with accepted := [] }) shut whole).congr ⟨rfl, rfl, rfl, rfl⟩ ⟨rfl, rfl, rfl, rfl⟩

/-- the same for operations after one another -/
theorem performAll_runs {c : Client π} (shut : c.shut = false) {operations : List Operation}
    (ends : c.EndsAll operations) (whole : (c.performAll operations).broken = false) :
    Runs c (c.errands operations) (c.performAll operations) := by
  induction operations generalizing c with
  | nil => exact Runs.refl c
  | cons operation rest ih =>
    have first : (c.perform operation).2.broken = false := Bool.eq_false_iff.2 fun broken =>
      absurd ((performAll_refused broken rest).1.symm.trans whole) nofun
    exact (perform_runs shut ends.1 first).trans (ih (perform_setting shut operation).1 ends.2 whole)

end Client

namespace Opening

theorem greeting_converses {c : Client π} {now : Instant} (ok : (greeting c now).1.value = .ok ()) :
    ∃ octets, Client.Converses c [] [octets] (greeting c now).2 := by
  rw [greeting_snd]
  unfold greeting at ok
  dsimp only at ok
  rw [Client.settle_fst] at ok
  split at ok
  · cases ok
  · next response answer =>
    obtain ⟨octets, reading⟩ := Client.await_converses answer
    unfold Client.settle
    rw [answer]
    exact ⟨octets, reading⟩

/-- the greeting is one response, and the answer to the client's name another -/
theorem greet_converses {c : Client π} {now : Instant} {hostname : String} (shut : c.shut = false)
    (ok : (greet c now hostname).1.value = .ok ()) :
    ∃ writes responses, Client.Converses c writes responses (greet c now hostname).2 ∧ responses.length = 2 := by
  unfold greet at ok ⊢
  dsimp only at ok ⊢
  cases hg : (greeting c now).1.value with
  | error e => simp [hg] at ok
  | ok _ =>
    rw [hg] at ok
    dsimp only at ok ⊢
    obtain ⟨octets, greeted⟩ := greeting_converses hg
    have whole : ((greeting c now).2.command (now + (greeting c now).1.took) "LHLO"
        (Command.lhlo hostname).text).2.broken = false := by
      obtain ⟨response, answer⟩ := introduce_ok ok
      rw [Bool.eq_false_iff]
      intro broken
      obtain ⟨e, he⟩ := (Client.command_broken _ _ _ _).1 broken
      exact absurd (answer.symm.trans he) nofun
    obtain ⟨-, writes, octets', introduced⟩ :=
      Client.command_converses ((greeting_kept c now).shut.trans shut) whole
    rw [introduce_snd]
    exact ⟨_, _, greeted.trans introduced, rfl⟩

/-- a client that has connected has read two responses of the server that it reached -/
theorem connect_converses {path hostname : String} {timeouts : ClientTimeouts} {peer : Peer π} {now : Instant}
    {dial : Dial π} {c : Client π} (ok : (connect path hostname timeouts peer now dial).result = .ok ())
    (client : (connect path hostname timeouts peer now dial).client = some c) :
    ∃ server source writes responses, dial.result = .ok (server, source) ∧
      Client.Converses (Client.start timeouts peer server source) writes responses c ∧ responses.length = 2 := by
  unfold connect at ok client
  cases ht : dial.took with
  | none => simp [ht] at ok
  | some took =>
    rw [ht] at ok client
    dsimp only at ok client
    by_cases inTime : inTime now (now + seconds timeouts.connectSecs) (now + took) = true
    · rw [if_pos inTime] at ok client
      rcases hd : dial.result with failure | ⟨server, source⟩
      · simp [hd] at ok
      · rw [hd] at ok client
        obtain rfl := Option.some.inj client
        obtain ⟨writes, responses, converses, two⟩ := greet_converses rfl ok
        exact ⟨server, source, writes, responses, rfl, converses, two⟩
    · simp [inTime] at ok

/-- **A client and its server stay in step.** Take a client that has connected and let it carry out any operations,
whatever the server sends and when, where the end of each body is written that it closes. Unless it is broken, it has
written the command of each operation and, where a body was let come, the whole body and its end; and what it has read
of all that the server sent is one complete response for the greeting, one for its own name, and those due for its
errands: one for each command, and one for each recipient of each body. Once it is broken it is so for ever, refuses
every operation and writes nothing, not even a goodbye. -/
theorem in_step {path hostname : String} {timeouts : ClientTimeouts} {peer : Peer π} {now : Instant} {dial : Dial π}
    {c : Client π} (ok : (connect path hostname timeouts peer now dial).result = .ok ())
    (client : (connect path hostname timeouts peer now dial).client = some c) {operations : List Client.Operation}
    (ends : c.EndsAll operations) :
    let c' := c.performAll operations
    (c'.broken = false →
      c'.sent = Dispatch.lineOctets (Command.lhlo hostname).text
        ++ (c.errands operations).flatMap (fun e => e.dispatch.octets) ∧
      ∃ (server : π) (source : Source) (writes : List (Instant × Octets)) (responses : List Octets),
        dial.result = .ok (server, source) ∧ writes.map Prod.snd = c'.written.reverse ∧
        (peer.fed (server, source) writes).2.octets = responses.flatten ++ c'.source.octets ∧
        (∀ octets ∈ responses, IsResponse c'.source.Closes octets) ∧
        responses.length = 1 + (1 + Client.due (c.errands operations))) ∧
    (c'.broken = true → ∀ further : List Client.Operation,
      (c'.performAll further).broken = true ∧ (c'.performAll further).written = c'.written ∧
        (∀ operation, ((c'.performAll further).perform operation).1 = .error (.downstream .broken)) ∧
        ∀ now, (Client.close now (c'.performAll further)).next.written = c'.written) := by
  intro c'
  have fresh := connect_fresh ok client
  constructor
  · intro whole
    obtain ⟨server, source, writes, responses, reached, connected, two⟩ := connect_converses ok client
    obtain ⟨sent, writes', responses', converses, length⟩ := Client.performAll_runs fresh.shut ends whole
    have all := connected.trans converses
    refine ⟨by rw [sent, fresh.sent]; rfl, server, source, _, _, reached, ?_, all.octets, all.complete, ?_⟩
    · rw [all.written]
      simp [Client.start]
    · rw [List.length_append, two, length]
      omega
  · intro broken further
    obtain ⟨still, silent⟩ := Client.performAll_refused broken further
    exact ⟨still, silent, fun operation => (Client.perform_refused still operation).1,
      fun now => (Client.close_refused still now).trans silent⟩

namespace Sample

/-- reaching a server that takes one message -/
def dial : Dial Rehearsal.Server :=
  Rehearsal.Server.dial 0 (["220 ready", "250-hello\r\n250 again", "250 sender", "250 recipient", "354 go on",
    "250 stored"].map fun text => ⟨Octets.ofText (text ++ "\r\n"), false⟩)

def opening : Opening Rehearsal.Server := connect "/s" "relay" ⟨9, 9, 9⟩ Rehearsal.Server.peer 0 dial

def client : Client Rehearsal.Server :=
  opening.client.getD (Client.start ⟨9, 9, 9⟩ Rehearsal.Server.peer ⟨[], false, []⟩ ⟨[], []⟩)

def letter (ended : Client.Ended) : List Client.Operation :=
  [.mail 10 "a@x" .empty, .rcpt 20 "p@f", .data 30 [(40, Octets.ofText ".hi\r\n")] ended]

end Sample

/-- a message that is closed, with six responses to it that are all that the server has sent, and one that is given
up -/
theorem in_step_letter :
    (Sample.client.performAll (Sample.letter (.closed 60))).sent = Octets.ofText
      "LHLO relay\r\nMAIL FROM:<a@x>\r\nRCPT TO:<p@f>\r\nDATA\r\n..hi\r\n.\r\n" ∧
    (∃ (server : Rehearsal.Server) (source : Source) (writes : List (Instant × Octets)) (responses : List Octets),
      Sample.dial.result = .ok (server, source) ∧
      writes.map Prod.snd = (Sample.client.performAll (Sample.letter (.closed 60))).written.reverse ∧
      (Rehearsal.Server.peer.fed (server, source) writes).2.octets = responses.flatten ∧
      (∀ octets ∈ responses,
        IsResponse (Sample.client.performAll (Sample.letter (.closed 60))).source.Closes octets) ∧
      responses.length = 6) ∧
    ∀ further,
      ((Sample.client.performAll (Sample.letter (.dropped 60))).performAll further).broken = true ∧
      ((Sample.client.performAll (Sample.letter (.dropped 60))).performAll further).written
        = (Sample.client.performAll (Sample.letter (.dropped 60))).written := by
  have connected : Sample.opening.result = .ok () ∧ Sample.opening.client.isSome = true := by cbv
  have client : Sample.opening.client = some Sample.client := by
    obtain ⟨c, hc⟩ := Option.isSome_iff_exists.1 connected.2
    rw [Sample.client, hc]
    rfl
  have fresh := connect_fresh connected.1 client
  have can : Sample.client.CanWrite := by
    have peer : Sample.client.peer = Rehearsal.Server.peer := by cbv
    unfold Client.CanWrite
    rw [peer]
    exact fun now server octets => ⟨rfl, 0, rfl, by simp [inTime]⟩
  have closed : (let c := Sample.client.performAll (Sample.letter (.closed 60))
      (c.broken, c.source.octets, Client.due (Sample.client.errands (Sample.letter (.closed 60)))))
        = (false, [], 4) := by cbv
  obtain ⟨whole, rest⟩ := Prod.mk.inj closed
  obtain ⟨nothing, due⟩ := Prod.mk.inj rest
  obtain ⟨sent, server, source, writes, responses, reached, written, octets, complete, length⟩ :=
    (in_step connected.1 client (can.endsAll fresh.shut (Sample.letter (.closed 60)))).1 whole
  have errands : Dispatch.lineOctets (Command.lhlo "relay").text
      ++ (Sample.client.errands (Sample.letter (.closed 60))).flatMap (fun e => e.dispatch.octets) = Octets.ofText
        "LHLO relay\r\nMAIL FROM:<a@x>\r\nRCPT TO:<p@f>\r\nDATA\r\n..hi\r\n.\r\n" := by decide +kernel
  rw [nothing, List.append_nil] at octets
  rw [due] at length
  refine ⟨sent.trans errands, ⟨server, source, writes, responses, reached, written, octets, complete, length⟩,
    fun further => ?_⟩
  have broken : (Sample.client.performAll (Sample.letter (.dropped 60))).broken = true := by cbv
  obtain ⟨still, silent, -⟩ :=
    (in_step connected.1 client (can.endsAll fresh.shut (Sample.letter (.dropped 60)))).2 broken further
  exact ⟨still, silent⟩

end Opening
end LmtpRelay
