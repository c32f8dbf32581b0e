/-
What a session writes to its server. Each command that is asked of a client goes to the journal with its result; a
client that is broken refuses it and writes nothing, and any other client writes its line. `dispatches` reads off the
journal what was written, with the bodies that came for the DATA commands.

`Writes` says of two states of a session that between them the client wrote exactly these dispatches. Each operation
has a lemma for it: `mail_writes`, `rcpt_writes`, `reset_writes`, `data_writes`.
-/
import LmtpRelay.Proofs.Downstream.Reader
import LmtpRelay.Proofs.Session.Transfer

namespace LmtpRelay

/-! ## The transcript -/

/-- a client has refused a command because it was broken -/
def isRefused : Except ForwardError Unit → Bool
  | .error (.downstream .broken) => true
  | _ => false

/-- what a command with this result comes to on the connection -/
def issued (result : Except ForwardError Unit) (dispatch : Dispatch) : List Dispatch :=
  if isRefused result then [] else [dispatch]

theorem issued_octets (result : Except ForwardError Unit) (dispatch : Dispatch) :
    (issued result dispatch).flatMap Dispatch.octets = if isRefused result then [] else dispatch.octets := by
  unfold issued
  split
  · rfl
  · exact List.append_nil _

theorem issued_opens (result : Except ForwardError Unit) (dispatch : Dispatch) :
    (issued result dispatch).filterMap Dispatch.opens?
      = if isRefused result then [] else dispatch.opens?.toList := by
  unfold issued
  split
  · rfl
  · rw [List.filterMap_cons]
    cases dispatch.opens? <;> rfl

namespace Deed

def isData : Deed → Bool
  | data _ => true
  | _ => false

/-- what a deed comes to on the connection, given the body that there is for DATA -/
def dispatches (body? : Option Octets) : Deed → List Dispatch
  | mail sender params result => issued result (.line (Command.mail sender params).text)
  | rcpt recipient result => issued result (.line (Command.rcpt recipient .empty).text)
  | reset result => issued result (.line Command.rset.text)
  | data result => issued result (.data (if result.isOk then body? else none))
  | _ => []

/-- for a DATA command that was written, whether the server let a body come -/
def opens? : Deed → Option Bool
  | data result => if isRefused result then none else some result.isOk
  | _ => none

theorem dispatches_opens {deed : Deed} {body? : Option Octets} (supplied : deed.isData = true → body?.isSome = true) :
    (deed.dispatches body?).filterMap Dispatch.opens? = deed.opens?.toList := by
  cases deed with
  | data result =>
    obtain ⟨body, rfl⟩ := Option.isSome_iff_exists.1 (supplied rfl)
    refine (issued_opens _ _).trans ?_
    show _ = (if isRefused result then none else some result.isOk).toList
    cases isRefused result with
    | true => rfl
    | false => cases result <;> rfl
  | mail sender params result => exact (issued_opens _ _).trans (ite_self _)
  | rcpt recipient result => exact (issued_opens _ _).trans (ite_self _)
  | reset result => exact (issued_opens _ _).trans (ite_self _)
  | _ => rfl

end Deed

/-- what was written for commands; each DATA takes the next of the bodies, and sends it where it was let do so -/
def dispatches : List Deed → List Octets → List Dispatch
  | [], _ => []
  | deed :: deeds, bodies =>
    deed.dispatches bodies.head? ++ dispatches deeds (if deed.isData then bodies.tail else bodies)

/-- as many bodies as DATA commands: how the first of the commands takes part in that -/
theorem taken_cons {deed : Deed} {deeds : List Deed} {bodies : List Octets}
    (taken : (deed :: deeds).countP Deed.isData = bodies.length) :
    (deed.isData = true ∧ ∃ body rest, bodies = body :: rest ∧ deeds.countP Deed.isData = rest.length) ∨
      (deed.isData = false ∧ deeds.countP Deed.isData = bodies.length) := by
  cases hd : deed.isData with
  | true =>
    rw [List.countP_cons_of_pos hd] at taken
    cases bodies with
    | nil => cases taken
    | cons body rest => exact .inl ⟨rfl, body, rest, rfl, Nat.succ.inj taken⟩
  | false =>
    rw [List.countP_cons_of_neg (by simp [hd])] at taken
    exact .inr ⟨rfl, taken⟩

theorem dispatches_append {deeds : List Deed} {bodies : List Octets}
    (taken : deeds.countP Deed.isData = bodies.length) (deeds' : List Deed) (bodies' : List Octets) :
    dispatches (deeds ++ deeds') (bodies ++ bodies') = dispatches deeds bodies ++ dispatches deeds' bodies' := by
  induction deeds generalizing bodies with
  | nil =>
    obtain rfl : bodies = [] := List.length_eq_zero_iff.1 taken.symm
    rfl
  | cons deed deeds ih =>
    rw [List.cons_append, dispatches, dispatches, List.append_assoc]
    rcases taken_cons taken with ⟨isData, body, rest, rfl, others⟩ | ⟨other, others⟩
    · rw [isData, if_pos rfl, if_pos rfl, List.tail_cons, ← ih others]
      rfl
    · rw [other, if_neg Bool.false_ne_true, if_neg Bool.false_ne_true, ← ih others]
      -- only DATA looks at the bodies
      cases deed <;> first | rfl | cases other

/-- the journal and what was meant agree on which DATA commands were followed by a body -/
theorem opens_dispatches {deeds : List Deed} {bodies : List Octets}
    (taken : deeds.countP Deed.isData = bodies.length) :
    (dispatches deeds bodies).filterMap Dispatch.opens? = deeds.filterMap Deed.opens? := by
  induction deeds generalizing bodies with
  | nil => rfl
  | cons deed deeds ih =>
    have each : ∀ {body? : Option Octets}, (deed.isData = true → body?.isSome = true) →
        (deed.dispatches body?).filterMap Dispatch.opens? ++ deeds.filterMap Deed.opens?
          = (deed :: deeds).filterMap Deed.opens? := by
      intro body? supplied
      rw [Deed.dispatches_opens supplied, List.filterMap_cons]
      cases deed.opens? <;> rfl
    rw [dispatches, List.filterMap_append]
    rcases taken_cons taken with ⟨isData, body, rest, rfl, others⟩ | ⟨other, others⟩
    · rw [isData, if_pos rfl, List.tail_cons, ih others]
      exact each fun _ => rfl
    · rw [other, if_neg Bool.false_ne_true, ih others]
      exact each fun isData => absurd (isData.symm.trans other) (by decide)

/-! ## The client -/

namespace Client

variable {π : Type}

/-- every write is done before the time for a body is over -/
def CanWrite (c : Client π) : Prop :=
  ∀ (now : Instant) (server : π) (octets : Octets), (c.peer.write now server octets).result = .ok () ∧
    ∃ took, (c.peer.write now server octets).took = some took ∧
      inTime now (now + seconds c.timeouts.dataSecs) (now + took) = true

theorem Kept.canWrite {c c' : Client π} (k : Kept c c') (h : c.CanWrite) : c'.CanWrite := by
  unfold CanWrite
  rw [k.peer, k.timeouts]
  exact h

theorem command_written {c : Client π} (shut : c.shut = false) (now : Instant) (step text : String)
    {result : Except ForwardError Unit}
    (refused : isRefused result = true ↔ (c.command now step text).1.value = .error .broken) :
    (c.command now step text).2.sent
      = c.sent ++ if isRefused result then [] else Dispatch.lineOctets text := by
  have same : isRefused result = c.broken := by
    rw [Bool.eq_iff_iff, refused]
    exact command_refused_iff c now step text
  rw [command_sent shut, same]
  rfl

theorem judged_refused (r : Except DownstreamError Response) :
    isRefused (judged r) = true ↔ r = .error .broken := by
  cases r with
  | error e => cases e <;> simp [judged, isRefused]
  | ok response =>
    unfold judged
    dsimp only
    split <;> simp [isRefused, rejected]

theorem mail_sent {c : Client π} (shut : c.shut = false) (now : Instant) (sender : String) (params : Parameters) :
    (mail now c sender params).next.sent = c.sent ++
      (issued (mail now c sender params).value (.line (Command.mail sender params).text)).flatMap Dispatch.octets := by
  rw [issued_octets]
  exact command_written (c := { c with accepted := [] }) shut now "MAIL" _ (judged_refused _)

theorem reset_sent {c : Client π} (shut : c.shut = false) (now : Instant) :
    (reset now c).next.sent = c.sent ++
      (issued (reset now c).value (.line Command.rset.text)).flatMap Dispatch.octets := by
  rw [issued_octets]
  exact command_written (c := { c with accepted := [] }) shut now "RSET" _ (judged_refused _)

theorem rcpt_sent {c : Client π} (shut : c.shut = false) (now : Instant) (recipient : String) :
    (rcpt now c recipient).next.sent = c.sent ++
      (issued (rcpt now c recipient).value (.line (Command.rcpt recipient .empty).text)).flatMap Dispatch.octets := by
  have written : (rcpt now c recipient).next.sent
      = (c.command now "RCPT" (Command.rcpt recipient .empty).text).2.sent := by
    unfold rcpt
    dsimp only
    split <;> rfl
  rw [issued_octets, written, rcpt_value]
  exact command_written shut now "RCPT" _ (judged_refused _)

theorem data_refused (now : Instant) (c : Client π) : isRefused (data now c).value = true ↔
    (c.command now "DATA" Command.data.text).1.value = .error .broken := by
  rw [data_eq]
  cases (c.command now "DATA" Command.data.text).1.value with
  | error e => cases e <;> simp [isRefused]
  | ok response => by_cases code : response.code = Status.startMailInput.code <;> simp [code, isRefused, rejected]

theorem data_sent {c : Client π} (shut : c.shut = false) (now : Instant) :
    (data now c).next.sent = c.sent ++
      if isRefused (data now c).value then [] else Dispatch.lineOctets Command.data.text := by
  have written : (data now c).next.sent = (c.command now "DATA" Command.data.text).2.sent := by
    unfold data
    dsimp only
    split
    · rfl
    · split <;> rfl
  rw [written]
  exact command_written shut now "DATA" _ (data_refused now c)

/-! ## Bodies -/

theorem write_atStart (c : Client π) (now deadline : Instant) (octets : Octets) :
    (c.write now deadline octets).2.atStart = c.atStart := by
  unfold write
  split
  · rfl
  · split
    · rfl
    · dsimp only
      split <;> rfl

theorem writeRaw_next (now : Instant) (c : Client π) (octets : Octets) :
    (writeRaw now c octets).next = (c.write now (now + seconds c.timeouts.dataSecs) octets).2 := by
  unfold writeRaw
  dsimp only
  split <;> next h => rw [h]

theorem writeRaw_done {c : Client π} (can : c.CanWrite) (shut : c.shut = false) (now : Instant) (octets : Octets) :
    (writeRaw now c octets).value = .ok () := by
  obtain ⟨ok, took, htook, timely⟩ := can now c.server octets
  have written : ∃ time c', c.write now (now + seconds c.timeouts.dataSecs) octets = (some (time, .ok ()), c') := by
    unfold write
    split
    · exact ⟨now, c, rfl⟩
    · rw [if_neg (by simp [shut])]
      dsimp only
      rw [htook, ok]
      dsimp only
      rw [if_pos timely]
      exact ⟨_, _, rfl⟩
  obtain ⟨time, c', written⟩ := written
  unfold writeRaw
  dsimp only
  rw [written]

theorem writePiece_done {c : Client π} (can : c.CanWrite) (shut : c.shut = false) (now : Instant) (piece : Octets) :
    (writePiece now c piece).value = .ok () ∧
      (writePiece now c piece).next.sent = c.sent ++ (stuff c.atStart piece).1 ∧
      (writePiece now c piece).next.atStart = (stuff c.atStart piece).2 := by
  have next := writeRaw_next now { c with atStart := (stuff c.atStart piece).2 } (stuff c.atStart piece).1
  refine ⟨writeRaw_done (c := { c with atStart := (stuff c.atStart piece).2 }) can shut now _, ?_, ?_⟩
  · refine (congrArg sent next).trans ?_
    exact write_sent (c := { c with atStart := (stuff c.atStart piece).2 }) shut now _ _
  · refine (congrArg atStart next).trans ?_
    exact write_atStart _ now _ _

theorem readStatuses_sent (c : Client π) (now : Instant) (recipients : List String) :
    (c.readStatuses now recipients).2.2.sent = c.sent := by
  induction recipients generalizing c now with
  | nil => rfl
  | cons recipient rest ih =>
    have waited := await_sent c now (now + seconds c.timeouts.dataSecs) "DATA"
    rw [readStatuses]
    dsimp only
    split
    · exact waited
    · exact (ih _ _).trans waited

/-- the end of a body is written whether its answers can all be read or not -/
theorem finish_sent {c : Client π} (shut : c.shut = false) (now : Instant) :
    (finish now c).closed.sent = c.sent ++ terminator c.atStart ∧
      ∀ t, ((finish now c).cut t).sent = c.sent ++ terminator c.atStart := by
  have ended : (writeRaw now c (terminator c.atStart)).next.sent = c.sent ++ terminator c.atStart := by
    rw [writeRaw_next]
    exact write_sent shut now _ _
  unfold finish
  dsimp only
  split
  · exact ⟨ended, fun _ => ended⟩
  · have read := readStatuses_sent (writeRaw now c (terminator c.atStart)).next
      (now + (writeRaw now c (terminator c.atStart)).took) (writeRaw now c (terminator c.atStart)).next.owed
    exact ⟨read.trans ended, fun _ => read.trans ended⟩

end Client

/-! ## The session -/

namespace Session

variable {π : Type}

theorem copyPieces_done {s : Session (Client π)} (h : s.OverClient) (can : s.downstream.CanWrite)
    (shut : s.downstream.shut = false) (pieces : List Octets) :
    (s.copyPieces pieces).1 = .ok () ∧
      (s.copyPieces pieces).2.downstream.sent
        = s.downstream.sent ++ (stuff s.downstream.atStart pieces.flatten).1 ∧
      (s.copyPieces pieces).2.downstream.atStart = (stuff s.downstream.atStart pieces.flatten).2 := by
  induction pieces generalizing s with
  | nil => exact ⟨rfl, (List.append_nil _).symm, rfl⟩
  | cons piece rest ih =>
    obtain ⟨done, sent, atStart⟩ := Client.writePiece_done can shut s.now piece
    have k := Client.writePiece_kept s.now s.downstream piece
    have steady := note_heard_steady s (.write piece (s.forwarder.write s.now s.downstream piece).value) rfl
      (s.forwarder.write s.now s.downstream piece)
    have client : s.forwarder.write s.now s.downstream piece = Client.writePiece s.now s.downstream piece := by
      rw [h.forwarder]
      rfl
    rw [copyPieces]
    rw [client] at steady ⊢
    rw [done] at steady ⊢
    obtain ⟨copied, sent', atStart'⟩ := ih (h.steady steady) (k.canWrite can) (k.shut.trans shut)
    have next : ((s.note (.write piece (.ok ()))).heard (Client.writePiece s.now s.downstream piece)).downstream
        = (Client.writePiece s.now s.downstream piece).next := rfl
    rw [next, sent, atStart] at sent'
    rw [next, atStart] at atStart'
    rw [List.flatten_cons, stuff_append]
    exact ⟨copied, sent'.trans (List.append_assoc _ _ _), atStart'⟩

theorem copyBody_done {s : Session (Client π)} (h : s.OverClient) (can : s.downstream.CanWrite)
    (shut : s.downstream.shut = false) (octets : Octets) :
    (s.copyBody (.ofChunks [octets] none)).1 = .ok () ∧
      (s.copyBody (.ofChunks [octets] none)).2.downstream.sent
        = s.downstream.sent ++ (stuff s.downstream.atStart octets).1 ∧
      (s.copyBody (.ofChunks [octets] none)).2.downstream.atStart = (stuff s.downstream.atStart octets).2 := by
  obtain ⟨copied, sent, atStart⟩ := copyPieces_done h can shut (BodyInput.ofChunks [octets] none).pieces
  rw [BodyInput.flatten_pieces] at sent atStart
  rw [copyBody_whole]
  exact ⟨copied, sent, atStart⟩

/-- between two states of a session these commands were asked, with these bodies for the DATA commands, and the client
wrote exactly what they come to, so that it can be read back -/
structure Writes (limit : Nat) (s : Session (Client π)) (deeds : List Deed) (bodies : List Octets)
    (s' : Session (Client π)) : Prop where
  resolver : s'.resolver = s.resolver
  timeouts : s'.downstream.timeouts = s.downstream.timeouts
  peer : s'.downstream.peer = s.downstream.peer
  asked : s'.journal.asked = s.journal.asked ++ deeds
  taken : deeds.countP Deed.isData = bodies.length
  sent : s'.downstream.sent = s.downstream.sent ++ (dispatches deeds bodies).flatMap Dispatch.octets
  fits : ∀ d ∈ dispatches deeds bodies, d.Fits limit

variable {limit : Nat} {s s₁ s₂ : Session (Client π)}

theorem Writes.trans {deeds₁ deeds₂ : List Deed} {bodies₁ bodies₂ : List Octets} (h : Writes limit s deeds₁ bodies₁ s₁)
    (h' : Writes limit s₁ deeds₂ bodies₂ s₂) : Writes limit s (deeds₁ ++ deeds₂) (bodies₁ ++ bodies₂) s₂ := by
  have append := dispatches_append h.taken deeds₂ bodies₂
  refine ⟨h'.resolver.trans h.resolver, h'.timeouts.trans h.timeouts, h'.peer.trans h.peer, ?_, ?_, ?_, ?_⟩
  · rw [h'.asked, h.asked, List.append_assoc]
  · rw [List.countP_append, List.length_append, h.taken, h'.taken]
  · rw [append, List.flatMap_append, h'.sent, h.sent, List.append_assoc]
  · rw [append]
    intro d hd
    rcases List.mem_append.1 hd with hd | hd
    · exact h.fits d hd
    · exact h'.fits d hd

theorem Writes.congr {deeds : List Deed} {bodies : List Octets} (h : Writes limit s deeds bodies s₁)
    (resolver : s₂.resolver = s₁.resolver) (downstream : s₂.downstream = s₁.downstream)
    (journal : s₂.journal = s₁.journal) : Writes limit s deeds bodies s₂ := by
  refine ⟨resolver.trans h.resolver, ?_, ?_, ?_, h.taken, ?_, h.fits⟩
  · rw [downstream, h.timeouts]
  · rw [downstream, h.peer]
  · rw [journal, h.asked]
  · rw [downstream, h.sent]

/-- a session that asks nothing of its client writes nothing -/
theorem Aside.writes {s' : Session (Client π)} (h : Aside s s') (same : s'.downstream = s.downstream) :
    Writes limit s [] [] s' :=
  ⟨h.resolver, congrArg Client.timeouts same, congrArg Client.peer same, h.asked.trans (List.append_nil _).symm, rfl,
    (congrArg Client.sent same).trans (List.append_nil _).symm, nofun⟩

theorem note_heard_writes {α : Type} {deed : Deed} (command : deed.isCommand = true) {a : Answer (Client π) α}
    {bodies : List Octets} (taken : [deed].countP Deed.isData = bodies.length)
    (timeouts : a.next.timeouts = s.downstream.timeouts) (peer : a.next.peer = s.downstream.peer)
    (sent : a.next.sent = s.downstream.sent ++ (deed.dispatches bodies.head?).flatMap Dispatch.octets)
    (fits : ∀ d ∈ deed.dispatches bodies.head?, d.Fits limit) :
    Writes limit s [deed] bodies ((s.note deed).heard a) := by
  have one : dispatches [deed] bodies = deed.dispatches bodies.head? := List.append_nil _
  refine ⟨(heard_steady (s.note deed) a).resolver, timeouts, peer, ?_, taken, ?_, ?_⟩
  · rw [(heard_aside (s.note deed) a).asked, journal_note, Journal.asked_append]
    simp [Journal.asked, command]
  · rw [one]
    exact sent
  · rw [one]
    exact fits

/-! ## Lines that fit -/

theorem line_fits {text : String} (line : OneLine text) {c : Char} {cs : List Char} (begins : text.toList = c :: cs)
    (visible : Text.isBlank c = false) (other : c.toUpper ≠ 'D') : (Dispatch.line text).Fits limit :=
  ⟨line, isDataLine_other line begins visible other⟩

theorem issued_fits {dispatch : Dispatch} (h : dispatch.Fits limit) (result : Except ForwardError Unit) :
    ∀ d ∈ issued result dispatch, d.Fits limit := by
  intro d hd
  unfold issued at hd
  split at hd
  · cases hd
  · obtain rfl := List.mem_singleton.1 hd
    exact h

theorem rset_fits : (Dispatch.line Command.rset.text).Fits limit :=
  line_fits (by decide) (show _ = 'R' :: ['S', 'E', 'T'] from rfl) (by decide) (by decide)

theorem quit_fits : (Dispatch.line Command.quit.text).Fits limit :=
  line_fits (by decide) (show _ = 'Q' :: ['U', 'I', 'T'] from rfl) (by decide) (by decide)

theorem lhlo_fits {hostname : String} (line : OneLine hostname) :
    (Dispatch.line (Command.lhlo hostname).text).Fits limit := by
  have text : (Command.lhlo hostname).text = "LHLO " ++ hostname := rfl
  rw [text]
  exact line_fits (OneLine.append (by decide) line) String.toList_append (by decide) (by decide)

theorem mail_fits {sender : String} {params : Parameters} (line : OneLine (Command.mail sender params).text) :
    (Dispatch.line (Command.mail sender params).text).Fits limit := by
  obtain ⟨cs, begins⟩ : ∃ cs, (Command.mail sender params).text.toList = 'M' :: cs :=
    Command.pathText_begins rfl sender params
  exact line_fits line begins (by decide) (by decide)

theorem rcpt_fits {resolved : String} (line : OneLine resolved) :
    (Dispatch.line (Command.rcpt resolved .empty).text).Fits limit := by
  obtain ⟨cs, begins⟩ : ∃ cs, (Command.rcpt resolved .empty).text.toList = 'R' :: cs :=
    Command.pathText_begins rfl resolved .empty
  have text : OneLine (Command.rcpt resolved .empty).text := Command.pathText_oneLine (by decide) line nofun
  exact line_fits text begins (by decide) (by decide)

/-! ## Operations -/

theorem mail_writes (h : s.OverClient) (shut : s.downstream.shut = false) {sender : String} {params : Parameters}
    (line : OneLine (Command.mail sender params).text) :
    ∃ deeds, Writes limit s deeds [] (s.mail sender params).2 := by
  have k := Client.mail_kept s.now s.downstream sender params
  have heard : Writes limit s [.mail sender params (Client.mail s.now s.downstream sender params).value] []
      (s.mailHeard sender params) := by
    rw [mailHeard, h.forwarder]
    exact note_heard_writes rfl rfl k.timeouts k.peer (Client.mail_sent shut s.now sender params)
      (issued_fits (mail_fits line) _)
  rcases mail_cases s sender params with ⟨-, hm⟩ | ⟨e, -, hm⟩
  · rw [hm]
    exact ⟨_, heard.congr rfl rfl rfl⟩
  · rw [hm]
    exact ⟨_, heard⟩

theorem accept_writes (h : s.OverClient) (shut : s.downstream.shut = false) {resolved : String}
    (line : OneLine resolved) (new : s.recipients.contains resolved = false) (recipient : String) :
    ∃ deeds, Writes limit s deeds [] (s.accept recipient resolved).2 := by
  have k : (Client.rcpt s.now s.downstream resolved).next.timeouts = s.downstream.timeouts ∧
      (Client.rcpt s.now s.downstream resolved).next.peer = s.downstream.peer := by
    cases hv : (Client.rcpt s.now s.downstream resolved).value with
    | ok _ => exact ⟨(Client.rcpt_ok _ _ _ hv).timeouts, (Client.rcpt_ok _ _ _ hv).peer⟩
    | error e => exact ⟨(Client.rcpt_error _ _ _ hv).timeouts, (Client.rcpt_error _ _ _ hv).peer⟩
  have heard : Writes limit s [.rcpt resolved (Client.rcpt s.now s.downstream resolved).value] []
      (s.rcptHeard resolved) := by
    rw [rcptHeard, h.forwarder]
    exact note_heard_writes rfl rfl k.1 k.2 (Client.rcpt_sent shut s.now resolved) (issued_fits (rcpt_fits line) _)
  rcases accept_cases new recipient with ⟨-, ha⟩ | ⟨e, -, ha⟩
  · rw [ha]
    exact ⟨_, heard.congr rfl rfl rfl⟩
  · rw [ha]
    exact ⟨_, heard⟩

theorem rcpt_writes (h : s.OverClient) (shut : s.downstream.shut = false)
    (lines : ∀ n identifier address, (s.resolver.resolve n identifier).value = .ok address → OneLine address)
    (recipient : String) : ∃ deeds, Writes limit s deeds [] (s.rcpt recipient).2 := by
  rcases rcpt_cases s recipient with ⟨-, hr⟩ | ⟨identifier, -, ⟨cause, -, hr⟩ | ⟨resolved, answer, ⟨-, hr⟩ | ⟨new, hr⟩⟩⟩
  · rw [hr]
    exact ⟨[], (Aside.refl s).writes rfl⟩
  · rw [hr]
    exact ⟨[], (resolve_aside s identifier).writes (waitUntil_downstream s _)⟩
  · rw [hr]
    exact ⟨[], (resolve_aside s identifier).writes (waitUntil_downstream s _)⟩
  · have aside := resolve_aside s identifier
    have same : (s.resolve identifier).2.downstream = s.downstream := waitUntil_downstream s _
    rw [← aside.recipients] at new
    obtain ⟨deeds, accepted⟩ : ∃ deeds, Writes limit (s.resolve identifier).2 deeds []
        ((s.resolve identifier).2.accept recipient resolved).2 :=
      accept_writes (h.steady aside.toSteady) (by rw [same]; exact shut) (lines s.asked identifier resolved answer) new
        recipient
    rw [hr]
    exact ⟨[] ++ deeds, (aside.writes same).trans accepted⟩

theorem reset_writes (h : s.OverClient) (shut : s.downstream.shut = false) :
    ∃ deeds, Writes limit s deeds [] s.reset.2 := by
  have k := Client.reset_kept s.now s.downstream
  have heard : s.reset.2 = (s.clear.note (.reset (s.forwarder.reset s.now s.downstream).value)).heard
      (s.forwarder.reset s.now s.downstream) := rfl
  have reset : Writes limit s.clear [.reset (Client.reset s.now s.downstream).value] [] s.reset.2 := by
    rw [heard, h.forwarder]
    exact note_heard_writes rfl rfl k.timeouts k.peer (Client.reset_sent shut s.now) (issued_fits rset_fits _)
  -- clearing the transaction writes nothing
  exact ⟨_, reset.resolver, reset.timeouts, reset.peer, reset.asked, reset.taken, reset.sent, reset.fits⟩

/-- a DATA command that was refused takes its body with it -/
theorem dataHeard_writes (h : s.OverClient) (shut : s.downstream.shut = false) {e : ForwardError}
    (refused : (Client.data s.now s.downstream).value = .error e) (octets : Octets) :
    Writes limit s [.data (.error e)] [octets] s.dataHeard := by
  have client : s.forwarder.data s.now s.downstream = Client.data s.now s.downstream := by
    rw [h.forwarder]
    rfl
  have k := Client.data_error s.now s.downstream refused
  have sent := Client.data_sent shut s.now
  rw [refused] at sent
  rw [dataHeard, client, refused]
  refine note_heard_writes rfl rfl k.timeouts k.peer ?_ fun d hd => ?_
  · rw [sent]
    exact congrArg _ (issued_octets (.error e) (.data none)).symm
  · have nothing_to_fit : (Dispatch.data none).Fits limit := trivial
    exact issued_fits nothing_to_fit (.error e) d hd

/-- a body that is let come is written whole, and ended where it can be -/
theorem finished_writes (h : s.Aligned) (can : s.downstream.CanWrite)
    (letCome : (Client.data s.now s.downstream).value = .ok ()) {octets : Octets} (whole : IsWhole octets)
    (fits : octets.length ≤ limit) {s' : Session (Client π)}
    (aside : Aside (s.bodyCopied (.ofChunks [octets] none)) s')
    (finished : s'.downstream = (s.bodyCopied (.ofChunks [octets] none)).finished) :
    Writes limit s [.data (.ok ())] [octets] s' := by
  have shut := h.shut
  have client : s.forwarder.data s.now s.downstream = Client.data s.now s.downstream := by
    rw [h.forwarder]
    rfl
  obtain ⟨k, atStart⟩ := Client.data_ok s.now s.downstream letCome
  have next := dataHeard_downstream h.toOverClient
  have opened := Client.data_sent shut s.now
  rw [letCome] at opened
  rw [← next] at opened k atStart
  obtain ⟨-, copied, line⟩ := copyBody_done (h.toOverClient.steady (dataHeard_steady s)) (k.canWrite can)
    (k.shut.trans shut) octets
  have kept := bodyCopied_kept h.toOverClient letCome (.ofChunks [octets] none)
  have kept' := finished_kept (s.bodyCopied (.ofChunks [octets] none))
  rw [atStart] at copied line
  have ended : (s.bodyCopied (.ofChunks [octets] none)).finished.sent
      = (s.bodyCopied (.ofChunks [octets] none)).downstream.sent ++ terminator (stuff true octets).2 := by
    obtain ⟨closed, cut⟩ := Client.finish_sent (c := (s.bodyCopied (.ofChunks [octets] none)).downstream)
      (kept.shut.trans shut) (s.bodyCopied (.ofChunks [octets] none)).now
    rw [← line]
    unfold Session.finished
    split
    · exact closed
    · exact cut _
  refine ⟨?_, ?_, ?_, ?_, rfl, ?_, ?_⟩
  · exact aside.resolver.trans (bodyCopied_steady s _).resolver
  · exact (congrArg Client.timeouts finished).trans (kept'.timeouts.trans kept.timeouts)
  · exact (congrArg Client.peer finished).trans (kept'.peer.trans kept.peer)
  · have asked : s.dataHeard.journal.asked = s.journal.asked ++ [.data (.ok ())] := by
      rw [dataHeard, client, letCome, (heard_aside _ _).asked, journal_note, Journal.asked_append]
      rfl
    exact aside.asked.trans ((copyBody_aside s.dataHeard _).asked.trans asked)
  · have body : (s.bodyCopied (.ofChunks [octets] none)).downstream.sent
        = s.dataHeard.downstream.sent ++ (stuff true octets).1 := copied
    rw [finished, ended, body, opened]
    simp [dispatches, Deed.dispatches, issued, isRefused, Dispatch.octets, Except.isOk, Except.toBool]
  · intro d hd
    obtain rfl : d = .data (some octets) := List.mem_singleton.1 hd
    exact ⟨whole, fits⟩

theorem data_writes (h : s.Aligned) (can : s.downstream.CanWrite) (some_recipient : s.recipients.isEmpty = false)
    {octets : Octets} (whole : IsWhole octets) (fits : octets.length ≤ limit) :
    ∃ deeds, Writes limit s deeds [octets] (s.data (.ofChunks [octets] none)).2.2 := by
  rcases data_cases h.toOverClient some_recipient (.ofChunks [octets] none) with
    ⟨e, refused, hd⟩ | ⟨letCome, ⟨f, lost, -⟩ | ⟨-, s', aside, finished, hd⟩⟩
  · have heard : Writes limit s [.data (.error e)] [octets] s.dataHeard :=
      dataHeard_writes h.toOverClient h.shut refused octets
    have k := Client.data_error s.now s.downstream refused
    have next := dataHeard_downstream h.toOverClient
    obtain ⟨deeds, reset⟩ : ∃ deeds, Writes limit s.dataHeard deeds [] s.dataHeard.reset.2 :=
      reset_writes (h.toOverClient.steady (dataHeard_steady s)) (by rw [next]; exact k.shut.trans h.shut)
    rw [hd]
    exact ⟨_, heard.trans reset⟩
  · -- every write is done in time, so no body is lost
    have next := dataHeard_downstream h.toOverClient
    have k := (Client.data_ok s.now s.downstream letCome).1
    rw [← next] at k
    obtain ⟨done, -, -⟩ := copyBody_done (h.toOverClient.steady (dataHeard_steady s)) (k.canWrite can)
      (k.shut.trans h.shut) octets
    rw [done] at lost
    cases lost
  · have written := finished_writes h can letCome whole fits aside finished
    rw [hd]
    exact ⟨_, written.congr rfl rfl rfl⟩

end Session
end LmtpRelay
