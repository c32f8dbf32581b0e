/-
Responses as octets. `Spells` says which octets are a response, line by line and without a reader: the lines belong
together, each but the last says that more follow, and the last says that none does. Whoever reads a response takes
exactly such octets off the stream: `readResponse_spells`.

A line ends with a line feed. Only where the server has closed its side may what is left count as the last line.
-/
import LmtpRelay.Downstream.Client
import LmtpRelay.Proofs.Wire.Segments

namespace LmtpRelay

/-! ## Lines -/

/-- octets are a line: there is a line feed at the end, and none before -/
def SingleLine (line : Octets) : Prop := ∃ text, Octets.lf ∉ text ∧ line = text ++ [Octets.lf]

theorem SingleLine.cons {b : UInt8} (h : b ≠ Octets.lf) {line : Octets} (single : SingleLine line) :
    SingleLine (b :: line) := by
  obtain ⟨text, one, rfl⟩ := single
  exact ⟨b :: text, by simp [one, Ne.symm h], rfl⟩

/-- what is cut off at a line feed is a line, or has no line feed at all -/
theorem cutLine_singleLine (limit : Nat) (bs : Octets) :
    SingleLine (cutLine limit bs).1 ∨ endsLine (cutLine limit bs).1 = false ∧ Octets.lf ∉ (cutLine limit bs).1 := by
  induction bs generalizing limit with
  | nil => cases limit <;> exact .inr ⟨rfl, List.not_mem_nil⟩
  | cons b bs ih =>
    cases limit with
    | zero => exact .inr ⟨rfl, List.not_mem_nil⟩
    | succ n =>
      rw [cutLine]
      by_cases hb : b = Octets.lf
      · rw [if_pos hb, hb]
        exact .inl ⟨[], List.not_mem_nil, rfl⟩
      · rw [if_neg hb]
        refine (ih n).imp (SingleLine.cons hb) fun open_end => ⟨?_, ?_⟩
        · exact (endsLine_cons_of_ne hb _).trans open_end.1
        · simp [open_end.2, Ne.symm hb]

theorem endingAt_eq_closed {t : Instant} {halts : List Halt} (h : endingAt t halts = .closed) {halt : Halt}
    (here : halt ∈ halts) (past : halt.time ≤ t) : halt.ending = .closed := by
  have fold : ∀ (halts : List Halt) (e : Ending),
      halts.foldl (fun e h => if h.ending = .closed then e else h.ending) e = .closed →
        e = .closed ∧ ∀ halt ∈ halts, halt.ending = .closed := by
    intro halts
    induction halts with
    | nil => exact fun e h => ⟨h, nofun⟩
    | cons first rest ih =>
      intro e h
      rw [List.foldl_cons] at h
      obtain ⟨after, others⟩ := ih _ h
      by_cases closes : first.ending = .closed
      · rw [if_pos closes] at after
        refine ⟨after, fun halt member => ?_⟩
        rcases List.mem_cons.1 member with rfl | member
        · exact closes
        · exact others halt member
      · rw [if_neg closes] at after
        exact absurd after closes
  exact (fold _ _ h).2 halt (List.mem_filter.2 ⟨here, decide_eq_true past⟩)

namespace Source

/-- something closes the stream -/
def Closes (s : Source) : Prop := .closed ∈ s.halts.map Halt.ending

theorem closes_of_ending {now : Instant} {s : Source} (h : s.ending? now = some .closed) : s.Closes := by
  unfold ending? noticed? at h
  cases halts : s.halts with
  | nil =>
    rw [halts] at h
    cases h
  | cons halt rest =>
    rw [halts] at h
    have closed := endingAt_eq_closed (Option.some.inj h) List.mem_cons_self (Nat.le_max_right now halt.time)
    rw [Closes, halts]
    exact List.mem_map.2 ⟨halt, List.mem_cons_self, closed⟩

/-- a piece that nothing cuts short is a line, or all that is left of a stream that is closed -/
theorem piece_line {limit : Nat} {now : Instant} {s : Source} (long : (s.there now).length < limit) {piece : Octets}
    (h : (s.piece limit now).value = some (.ok piece)) :
    SingleLine piece ∨ s.Closes ∧ Octets.lf ∉ piece ∧ (s.piece limit now).rest.there now = [] := by
  obtain ⟨rfl, ended⟩ := piece_ok h
  have short : (cutLine limit (s.there now)).1.length ≤ (s.there now).length := by
    have parts := congrArg List.length (cutLine_append limit (s.there now))
    rw [List.length_append] at parts
    omega
  rcases cutLine_singleLine limit (s.there now) with line | ⟨unended, absent⟩
  · exact .inl line
  · rcases ended with whole | ⟨-, all, closed⟩
    · rw [isWhole, unended, Bool.false_or, decide_eq_true_eq] at whole
      omega
    · refine .inr ⟨closes_of_ending closed, absent, ?_⟩
      rw [(piece_there limit now s).2.1, all]

end Source

/-! ## Responses -/

/-- octets go on with what there is of a response so far, and end it. A line belongs to the response where it can be
added to it; where the stream `closes`, the last line may have no end. -/
inductive Spells (closes : Prop) : Option Response → Octets → Response → Prop where
  | last {sofar : Option Response} {octets : Octets} {text : String} {line : ResponseLine} {response : Response}
      (ended : SingleLine octets ∨ closes ∧ Octets.lf ∉ octets) (read : responseText? octets = some text)
      (parsed : ResponseLine.parse text = .ok line) (last : line.isLast = true)
      (added : Response.push sofar line = .ok response) : Spells closes sofar octets response
  | more {sofar : Option Response} {octets others : Octets} {text : String} {line : ResponseLine}
      {response whole : Response} (ended : SingleLine octets) (read : responseText? octets = some text)
      (parsed : ResponseLine.parse text = .ok line) (more : line.isLast = false)
      (added : Response.push sofar line = .ok response) (rest : Spells closes (some response) others whole) :
      Spells closes sofar (octets ++ others) whole

theorem Spells.mono {closes closes' : Prop} (h : closes → closes') {sofar : Option Response} {octets : Octets}
    {response : Response} (spells : Spells closes sofar octets response) : Spells closes' sofar octets response := by
  induction spells with
  | last ended read parsed last added => exact .last (ended.imp_right fun e => ⟨h e.1, e.2⟩) read parsed last added
  | more ended read parsed more added _ ih => exact .more ended read parsed more added ih

/-- octets are one complete response -/
def IsResponse (closes : Prop) (octets : Octets) : Prop := ∃ response, Spells closes none octets response

namespace Source

theorem readResponseFrom_nothing {limit : Nat} {now : Instant} {sofar : Option Response} {s : Source}
    (nothing : s.there now = []) (response : Response) :
    (s.readResponseFrom limit now sofar).value ≠ some (.ok response) := by
  have empty : ∀ piece, (s.piece limit now).value = some (.ok piece) → piece = [] := by
    intro piece h
    rw [(piece_ok h).1, nothing]
    cases limit <;> rfl
  rw [readResponseFrom]
  split
  · exact fun other => by cases other
  · exact fun other => by cases other
  · exact fun other => by cases other
  · next h => exact absurd (empty _ h) (List.cons_ne_nil _ _)

theorem readResponseFrom_spells {limit : Nat} {now : Instant} {sofar : Option Response} {s : Source}
    (long : s.size < limit) {response : Response}
    (h : (s.readResponseFrom limit now sofar).value = some (.ok response)) :
    ∃ octets, Spells s.Closes sofar octets response ∧
      s.octets = octets ++ (s.readResponseFrom limit now sofar).rest.octets ∧
      (s.readResponseFrom limit now sofar).rest.halts = s.halts := by
  have shorter : ∀ s : Source, (s.there now).length ≤ s.size := fun s => by
    rw [Source.size, ← there_append_missed now s, List.length_append]
    exact Nat.le_add_right _ _
  fun_induction readResponseFrom limit now sofar s with
  | case7 sofar s r b bs hv text read line parsed added_to added last =>
    obtain rfl := Except.ok.inj (Option.some.inj h)
    have ended := piece_line (Nat.lt_of_le_of_lt (shorter s) long) hv
    refine ⟨b :: bs, .last (ended.imp_right fun e => ⟨e.1, e.2.1⟩) read parsed last added, ?_, ?_⟩
    · exact (octets_piece hv).symm
    · exact (piece_there limit now s).2.2
  | case8 sofar s r b bs hv text read line parsed added_to added goes_on ih =>
    have halts : r.rest.halts = s.halts := (piece_there limit now s).2.2
    obtain ⟨others, spells, left, same⟩ := ih (Nat.lt_trans (size_piece_lt hv) long) h
    have closes : r.rest.Closes → s.Closes := by
      rw [Closes, halts]
      exact id
    refine ⟨b :: bs ++ others, ?_, ?_, same.trans halts⟩
    · rcases piece_line (Nat.lt_of_le_of_lt (shorter s) long) hv with line | ⟨-, -, nothing⟩
      · exact .more line read parsed (Bool.not_eq_true _ ▸ goes_on) added (spells.mono closes)
      · exact absurd h (readResponseFrom_nothing nothing response)
    · rw [← octets_piece hv, List.append_assoc]
      exact congrArg (b :: bs ++ ·) left
  | _ => cases h

/-- **A response that is read is one complete response,** and all that comes after it is left. -/
theorem readResponse_spells {now : Instant} {s : Source} {response : Response}
    (h : (s.readResponse now).value = some (.ok response)) :
    ∃ octets, Spells s.Closes none octets response ∧ s.octets = octets ++ (s.readResponse now).rest.octets ∧
      (s.readResponse now).rest.halts = s.halts :=
  readResponseFrom_spells (Nat.lt_succ_self s.size) h

end Source
end LmtpRelay
