/-
The calls that one body comes to, over any forwarder and any session. What is written for a body is said apart from the
rest (`Copying`): all of it, or what was written when a write failed. `Course` then goes by the five ends that a body
can have, and has for each the result, the statuses and the calls as a whole.

`data_course`: a body without a recipient asks nothing and changes nothing; any other takes one of these courses, is
written from its beginning on, is ended when all of it was written and not before, and closes the transaction.
-/
import LmtpRelay.Proofs.Session.Protocol

namespace LmtpRelay

/-! ## Writes -/

def Deed.taken (piece : Octets) : Deed := .write piece (.ok ())

def Deed.piece : Deed → Octets
  | .write piece _ => piece
  | _ => []

def written (calls : List Deed) : Octets := calls.flatMap Deed.piece

@[simp] theorem written_append (a b : List Deed) : written (a ++ b) = written a ++ written b := List.flatMap_append

@[simp] theorem written_cons (deed : Deed) (rest : List Deed) : written (deed :: rest) = deed.piece ++ written rest :=
  List.flatMap_cons

@[simp] theorem written_nil : written [] = [] := rfl

@[simp] theorem written_taken (pieces : List Octets) : written (pieces.map Deed.taken) = pieces.flatten := by
  rw [written, List.flatMap_map]
  exact List.flatMap_id

/-- how the copy of a body ends, with what is written for it -/
inductive Copying (body : BodyInput) : Except IoFailure Unit → List Deed → Prop where
  /-- all is read and written -/
  | whole (ends : body.failure = none) : Copying body (.ok ()) (body.pieces.map .taken)
  /-- all that can be read is written -/
  | unread {f : IoFailure} (fails : body.failure = some f) : Copying body (.error f) (body.pieces.map .taken)
  /-- a piece cannot be written, and none after it is -/
  | unwritten {f : IoFailure} {before after : List Octets} {piece : Octets}
      (split : body.pieces = before ++ piece :: after) :
      Copying body (.error f) (before.map .taken ++ [.write piece (.error f)])

namespace Copying

variable {body : BodyInput} {copied : Except IoFailure Unit} {writes : List Deed}

/-- **What is written is the beginning of the body.** -/
theorem written_prefix (h : Copying body copied writes) : written writes <+: body.pieces.flatten := by
  cases h with
  | whole _ | unread _ => rw [written_taken]
  | @unwritten f before after piece split =>
    refine ⟨after.flatten, ?_⟩
    rw [split, written_append, written_taken, written_cons, written_nil, List.append_nil, List.append_assoc,
      List.flatten_append, List.flatten_cons]
    rfl

theorem written_whole (h : Copying body copied writes) (well : ∀ piece f, .write piece (.error f) ∉ writes) :
    written writes = body.pieces.flatten := by
  cases h with
  | whole _ | unread _ => exact written_taken _
  | unwritten _ => exact absurd (List.mem_append_right _ List.mem_cons_self) (well _ _)

theorem not_ended (h : Copying body copied writes) : Deed.finish ∉ writes := by
  have taken : ∀ pieces : List Octets, Deed.finish ∉ pieces.map Deed.taken := by simp [Deed.taken]
  cases h with
  | whole _ | unread _ => exact taken _
  | unwritten _ => simp [taken]

end Copying

namespace Session

variable {σ : Type}

/-! ## Copying a body -/

/-- the pieces are written one after another until one fails -/
theorem copyPieces_calls (s : Session σ) (pieces : List Octets) :
    ((s.copyPieces pieces).1 = .ok () ∧
      (s.copyPieces pieces).2.journal.calls = s.journal.calls ++ pieces.map .taken) ∨
    ∃ f before after piece, pieces = before ++ piece :: after ∧ (s.copyPieces pieces).1 = .error f ∧
      (s.copyPieces pieces).2.journal.calls
        = s.journal.calls ++ (before.map .taken ++ [.write piece (.error f)]) := by
  induction pieces generalizing s with
  | nil => exact .inl ⟨rfl, (List.append_nil _).symm⟩
  | cons piece rest ih =>
    have calls := note_heard_calls s
      (rfl : (Deed.write piece (s.forwarder.write s.now s.downstream piece).value).isCall = true)
      (s.forwarder.write s.now s.downstream piece)
    rw [copyPieces]
    split
    · next value =>
      have first : ∀ others, s.journal.calls ++ [.write piece (s.forwarder.write s.now s.downstream piece).value]
          ++ others = s.journal.calls ++ (Deed.taken piece :: others) := by
        intro others
        rw [value, List.append_assoc]
        rfl
      rcases ih _ with ⟨well, all⟩ | ⟨f, before, after, failing, split, fails, some_of⟩
      · refine .inl ⟨well, all.trans ?_⟩
        rw [calls, first]
        rfl
      · refine .inr ⟨f, piece :: before, after, failing, by rw [split]; rfl, fails, some_of.trans ?_⟩
        rw [calls, first]
        rfl
    · next f value =>
      refine .inr ⟨f, [], rest, piece, rfl, rfl, calls.trans ?_⟩
      rw [value]
      rfl

theorem copyBody_fst (s : Session σ) (body : BodyInput) :
    (s.copyBody body).1 = match (s.copyPieces body.pieces).1, body.failure with
      | .ok _, some f => .error f
      | copied, _ => copied := by
  unfold copyBody
  dsimp only
  cases (s.copyPieces body.pieces).1 with
  | error f => rfl
  | ok done => cases body.failure <;> rfl

/-- **A body is copied in one of these ways.** -/
theorem copyBody_copying (s : Session σ) (body : BodyInput) : ∃ writes, Copying body (s.copyBody body).1 writes ∧
    (s.copyBody body).2.journal.calls = s.journal.calls ++ writes := by
  rw [copyBody_snd, copyBody_fst]
  rcases copyPieces_calls s body.pieces with ⟨well, calls⟩ | ⟨f, before, after, piece, split, fails, calls⟩
  · refine ⟨_, ?_, calls⟩
    rw [well]
    cases ends : body.failure with
    | none => exact .whole ends
    | some f => exact .unread ends
  · refine ⟨_, ?_, calls⟩
    rw [fails]
    exact .unwritten split

/-! ## Ending a body -/

/-- the call that ends a body fails, is waited for, or is cut off -/
theorem finish_outcome (s : Session σ) :
    (∃ e s', s.endsInTime = true ∧ s.closing.result = .error e ∧ Waits (s.note .finish) s' ∧
      s.finish = (.error (.forward e), [], s')) ∨
    (∃ c s', s.endsInTime = true ∧ s.closing.result = .ok () ∧ Waits (s.note .finish) s' ∧
      s.finish = s'.outcome c) ∨
    (∃ c s', s.endsInTime = false ∧ Waits (s.note .finish) s' ∧ s.finish = (s'.note .abandon).outcome c) := by
  by_cases ends : s.endsInTime = true
  · obtain ⟨took, within, finish⟩ := finish_inTime ends
    have closed := closedAfter_waits (s.note .finish) s.closing took
    cases result : s.closing.result with
    | error e =>
      exact .inl ⟨e, _, ends, rfl, closed.leave _, finish.trans (settle_error _ took s.deadline result)⟩
    | ok done =>
      obtain ⟨c, s', _, collected, -, listens, -⟩ := collectLater_spec
        (c := Collected.drain ⟨((s.note .finish).closedAfter s.closing took).recipients, []⟩
          ((s.note .finish).queueBursts (max 1 s.recipients.size) s.closing.direct).1)
        (max 1 s.recipients.size) s.closing.released s.closing.later
        (closedAfter_now (s := s.note .finish) s.closing within)
      refine .inr (.inl ⟨c, s', ends, rfl, closed.trans listens.waits, ?_⟩)
      rw [finish, settle_ok _ took s.deadline result]
      exact congrArg (fun r => r.2.outcome r.1) collected
  · have queue := queueBursts_waits (s.note .finish) (max 1 s.recipients.size)
      (s.closing.direct.filter fun b => inTime s.now s.deadline b.time)
    have finish := (finish_late ends).trans (settleCut_eq (s.note .finish) s.closing s.deadline)
    exact .inr (.inr ⟨_, _, Bool.eq_false_iff.2 ends,
      (queue.trans (waitUntil_waits _ s.deadline)).downstream (s.closing.cut s.deadline), finish⟩)

/-! ## The whole course -/

/-- what a body comes to: the result, the statuses, and all that is asked of the forwarder for it -/
inductive Course (s : Session σ) (body : BodyInput) :
    Except SessionError Unit → List StatusEvent → List Deed → Prop where
  /-- the forwarder does not let it come, and is reset -/
  | refused {e : ForwardError} {r : Except ForwardError Unit}
      (refused : (s.forwarder.data s.now s.downstream).value = .error e) :
      Course s body (.error (.forward e)) [] [.data (.error e), .reset r]
  /-- it is lost while it is passed on, and given up -/
  | lost {f : IoFailure} {writes : List Deed} (letCome : (s.forwarder.data s.now s.downstream).value = .ok ())
      (lost : Copying body (.error f) writes) :
      Course s body (.error (.dataCopy f)) [] (.data (.ok ()) :: (writes ++ [.abandon]))
  /-- the call that ends it fails, and the forwarder is reset -/
  | failed {e : ForwardError} {r : Except ForwardError Unit} {writes : List Deed}
      (letCome : (s.forwarder.data s.now s.downstream).value = .ok ()) (copied : Copying body (.ok ()) writes)
      (ends : (s.bodyCopied body).endsInTime = true) (failed : (s.bodyCopied body).closing.result = .error e) :
      Course s body (.error (.forward e)) [] (.data (.ok ()) :: (writes ++ [.finish, .reset r]))
  /-- it is ended, and statuses are collected -/
  | collected {c : Collected} {writes : List Deed} (letCome : (s.forwarder.data s.now s.downstream).value = .ok ())
      (copied : Copying body (.ok ()) writes) (ends : (s.bodyCopied body).endsInTime = true)
      (done : (s.bodyCopied body).closing.result = .ok ()) :
      Course s body c.result c.statuses (.data (.ok ()) :: (writes ++ [.finish]))
  /-- the call that ends it is cut off, and the statuses up to then are collected -/
  | cut {c : Collected} {writes : List Deed} (letCome : (s.forwarder.data s.now s.downstream).value = .ok ())
      (copied : Copying body (.ok ()) writes) (late : (s.bodyCopied body).endsInTime = false) :
      Course s body c.result c.statuses (.data (.ok ()) :: (writes ++ [.finish, .abandon]))

namespace Course

variable {s : Session σ} {body : BodyInput} {result : Except SessionError Unit} {statuses : List StatusEvent}
  {calls : List Deed}

/-- what is written on any course is the beginning of the body -/
theorem written_prefix (h : s.Course body result statuses calls) : written calls <+: body.pieces.flatten := by
  cases h with
  | refused _ => exact List.nil_prefix
  | lost _ copied | failed _ copied _ _ | collected _ copied _ _ | cut _ copied _ =>
    simpa [Deed.piece] using copied.written_prefix

/-- a body that the forwarder lets come is written as a whole, unless a write fails -/
theorem written_whole (h : s.Course body result statuses calls)
    (letCome : (s.forwarder.data s.now s.downstream).value = .ok ())
    (well : ∀ piece f, .write piece (.error f) ∉ calls) : written calls = body.pieces.flatten := by
  cases h with
  | refused refused => exact absurd (letCome.symm.trans refused) nofun
  | lost _ copied | failed _ copied _ _ | collected _ copied _ _ | cut _ copied _ =>
    have whole := copied.written_whole fun piece f failed =>
      well piece f (List.mem_cons_of_mem _ (List.mem_append_left _ failed))
    simpa [Deed.piece] using whole

/-- a body is ended only when all of it was written -/
theorem ended_whole (h : s.Course body result statuses calls) (ended : .finish ∈ calls) :
    written calls = body.pieces.flatten := by
  have whole : ∀ {writes}, Copying body (.ok ()) writes → written writes = body.pieces.flatten := by
    rintro writes ⟨ends⟩
    exact written_taken _
  cases h with
  | refused _ => simp at ended
  | lost _ lost => simp [lost.not_ended] at ended
  | failed _ copied _ _ | collected _ copied _ _ | cut _ copied _ => simpa [Deed.piece] using whole copied

end Course

/-- **A body with a recipient takes one of these courses.** -/
theorem data_takes {s : Session σ} (some_recipient : s.recipients.isEmpty = false) (body : BodyInput) :
    ∃ calls, (s.data body).2.2.journal.calls = s.journal.calls ++ calls ∧
      s.Course body (s.data body).1 (s.data body).2.1 calls := by
  have begun := data_transfer some_recipient body
  obtain ⟨writes, copying, copied⟩ := copyBody_copying s.dataHeard body
  rw [← bodyCopied, dataHeard_calls] at copied
  rcases transfer_cases s body with ⟨e, value, ht⟩ | ⟨value, ⟨f, hc, ht⟩ | ⟨hc, ht⟩⟩
  · obtain ⟨r, reset⟩ := s.dataHeard.reset_calls
    rw [begun, ht]
    refine ⟨[.data (.error e), .reset r], ?_, .refused value⟩
    rw [reset, dataHeard_calls, value, List.append_assoc]
    rfl
  · have abandoned : (s.bodyCopied body).abandon.clear.journal.calls
        = (s.bodyCopied body).journal.calls ++ [.abandon] := note_calls _ rfl
    rw [hc] at copying
    rw [begun, ht]
    refine ⟨_, ?_, .lost value copying⟩
    rw [abandoned, copied, value, List.append_assoc, List.append_assoc]
    rfl
  · rw [hc] at copying
    have ended : ∀ {s'}, Waits ((s.bodyCopied body).note .finish) s' → ∀ others, s'.journal.calls ++ others
        = s.journal.calls ++ (.data (.ok ()) :: (writes ++ .finish :: others)) := by
      intro s' waits others
      rw [waits.calls, note_calls _ rfl, copied, value]
      simp
    rcases finish_outcome (s.bodyCopied body) with
      ⟨e, s', ends, failed, waits, finish⟩ | ⟨c, s', ends, done, waits, finish⟩ | ⟨c, s', late, waits, finish⟩
    · obtain ⟨r, reset⟩ := s'.reset_calls
      rw [begun, ht, finish]
      exact ⟨_, reset.trans (ended waits [.reset r]), .failed value copying ends failed⟩
    · have calls : s'.clear.journal.calls = s'.journal.calls ++ [] := (List.append_nil _).symm
      rw [data_of_outcome some_recipient (ht.trans finish)]
      exact ⟨_, calls.trans (ended waits []), .collected value copying ends done⟩
    · have abandoned : (s'.note .abandon).clear.journal.calls = s'.journal.calls ++ [.abandon] := note_calls _ rfl
      rw [data_of_outcome some_recipient (ht.trans finish)]
      exact ⟨_, abandoned.trans (ended waits [.abandon]), .cut value copying late⟩

/-- **Course of a body,** in any session, over any forwarder and however it comes. Without a recipient nothing is asked
and nothing changes. Otherwise the transaction is over afterwards; what was asked of the forwarder, the result and the
statuses are those of one course; and what was written is the beginning of what came, and all of it where the body was
ended, or no write failed. -/
theorem data_course (s : Session σ) (chunks : List Octets) (failure : Option IoFailure) :
    if s.recipients.isEmpty then s.data (.ofChunks chunks failure) = (.error .noRecipients, [], s)
    else (s.data (.ofChunks chunks failure)).2.2.sender = none ∧
      (s.data (.ofChunks chunks failure)).2.2.recipients = .empty ∧
      ∃ calls, (s.data (.ofChunks chunks failure)).2.2.journal.calls = s.journal.calls ++ calls ∧
        s.Course (.ofChunks chunks failure) (s.data (.ofChunks chunks failure)).1
          (s.data (.ofChunks chunks failure)).2.1 calls ∧
        written calls <+: chunks.flatten ∧
        (.finish ∈ calls → written calls = chunks.flatten) ∧
        ((s.forwarder.data s.now s.downstream).value = .ok () → (∀ piece f, .write piece (.error f) ∉ calls) →
          written calls = chunks.flatten) := by
  split
  · next nobody => exact if_pos nobody
  · next somebody =>
    have some_recipient := Bool.eq_false_iff.2 somebody
    obtain ⟨sender, recipients⟩ := data_cleared some_recipient (.ofChunks chunks failure)
    obtain ⟨calls, asked, course⟩ := data_takes some_recipient (.ofChunks chunks failure)
    have came := BodyInput.flatten_ofChunks chunks failure
    exact ⟨sender, recipients, calls, asked, course, came ▸ course.written_prefix,
      fun ended => came ▸ course.ended_whole ended, fun letCome well => came ▸ course.written_whole letCome well⟩

/-- a session with one recipient, over a forwarder that has this plan for the body -/
def Sample.offered (plan : Rehearsal.Plan) : Session Rehearsal.Script :=
  let s := Session.start 1 (.ofTable [("p", "p@f")]) Rehearsal.forwarder
    { Rehearsal.Script.plain with plans := [plan] } 100 0
  ((s.mail "a@x" .empty).2.rcpt "p@h").2

/-- the end of the body fails -/
def Sample.unclosed : Session Rehearsal.Script :=
  Sample.offered { Rehearsal.Plan.plain with result := .error (.unavailable "down") }

/-- a body in parts, one of them empty -/
def Sample.inParts : List Octets := [Octets.ofText "hi", [], Octets.ofText "\r\n"]

theorem data_course_unclosed : ∃ calls,
    Sample.unclosed.Course (.ofChunks Sample.inParts none) (.error (.forward (.unavailable "down"))) [] calls ∧
    calls = [.data (.ok ()), .write (Octets.ofText "hi") (.ok ()), .write (Octets.ofText "\r\n") (.ok ()), .finish,
      .reset (.ok ())] ∧
    written calls = Sample.inParts.flatten := by
  have takes := data_course Sample.unclosed Sample.inParts none
  have some_recipient : Sample.unclosed.recipients.isEmpty = false := by cbv
  rw [if_neg (Bool.eq_false_iff.1 some_recipient)] at takes
  obtain ⟨-, -, calls, asked, course, -, ended, -⟩ := takes
  have came : (Sample.unclosed.data (.ofChunks Sample.inParts none)).2.2.journal.calls
      = Sample.unclosed.journal.calls ++ [.data (.ok ()), .write (Octets.ofText "hi") (.ok ()),
        .write (Octets.ofText "\r\n") (.ok ()), .finish, .reset (.ok ())] := by cbv
  have result : (Sample.unclosed.data (.ofChunks Sample.inParts none)).1
      = .error (.forward (.unavailable "down")) := by cbv
  have statuses : (Sample.unclosed.data (.ofChunks Sample.inParts none)).2.1 = [] := by cbv
  obtain rfl := List.append_cancel_left (came.symm.trans asked)
  rw [result, statuses] at course
  exact ⟨_, course, rfl, ended (by simp)⟩

end Session
end LmtpRelay
