/-
What the engine says, read by a client. A reply is one line and an answer of several lines is as many; a reader of
responses finds at the front of a stream exactly what was said (`readResponse_front`), and the texts of its lines come
back as they were (`Said.spells`). An enhanced code is read again from the text; where that is the code that was said,
the reply to pass on is the reply that was given: `Reply.reply_wording`.

`Understood` goes through a stream, one response for each thing that was said; `understood_all` is the main result.
-/
import LmtpRelay.Proofs.Command.Faults
import LmtpRelay.Proofs.Downstream.Responses
import LmtpRelay.Proofs.Text.Numerals
import LmtpRelay.Wire.Sending

namespace LmtpRelay

/-! ## The front of a stream -/

namespace Source

/-- a reader that begins later notices the end of the stream later, and finds more in front of it -/
theorem there_later {now later : Instant} (h : now ≤ later) (s : Source) : s.there now <+: s.there later := by
  have front : ∀ noticed noticed' : Option Instant,
      (∀ a : Arrival, a.isLate noticed' = true → a.isLate noticed = true) →
      ∀ arrivals, timely noticed arrivals <+: timely noticed' arrivals := by
    intro noticed noticed' earlier arrivals
    induction arrivals with
    | nil => exact List.prefix_refl _
    | cons a rest ih =>
      rw [timely_cons, timely_cons]
      by_cases late : a.isLate noticed = true
      · rw [if_pos late]
        exact List.nil_prefix
      · rw [if_neg late, if_neg fun late' => late (earlier a late')]
        exact (List.prefix_append_right_inj _).2 ih
  refine front _ _ (fun a late => ?_) s.arrivals
  unfold noticed? at late ⊢
  cases hh : s.halts.head? with
  | none => simp [hh, Arrival.isLate] at late
  | some halt =>
    rw [hh] at late
    have after : max later halt.time < a.time := of_decide_eq_true late
    refine decide_eq_true (Nat.lt_of_le_of_lt ?_ after)
    exact max_le_max_right halt.time h

theorem piece_front {limit : Nat} {now : Instant} {s : Source} {line more : Octets} (single : SingleLine line)
    (front : s.there now = line ++ more) (long : (s.there now).length < limit) :
    (s.piece limit now).value = some (.ok line) ∧ (s.piece limit now).rest.there now = more := by
  obtain ⟨text, one, rfl⟩ := single
  obtain ⟨value, left, -⟩ := piece_there limit now s
  have short : text.length < limit := by
    rw [front, List.length_append, List.length_append] at long
    omega
  have cut : cutLine limit (s.there now) = (text ++ [Octets.lf], more) := by
    rw [front, List.append_assoc]
    exact cutLine_line one short more
  have whole : isWhole limit (text ++ [Octets.lf]) = true := by
    rw [isWhole, endsLine_append (List.cons_ne_nil _ _)]
    rfl
  rw [cut] at value left
  rw [if_pos whole] at value
  exact ⟨value, left⟩

theorem readResponseFrom_last {limit : Nat} {now : Instant} {sofar : Option Response} {s : Source} {octets : Octets}
    {text : String} {line : ResponseLine} {response : Response} (some_octets : octets ≠ [])
    (piece : (s.piece limit now).value = some (.ok octets)) (read : responseText? octets = some text)
    (parsed : ResponseLine.parse text = .ok line) (added : Response.push sofar line = .ok response)
    (last : line.isLast = true) : s.readResponseFrom limit now sofar
      = ⟨some (.ok response), (s.piece limit now).ready, (s.piece limit now).rest⟩ := by
  rw [readResponseFrom]
  split <;> simp_all

theorem readResponseFrom_more {limit : Nat} {now : Instant} {sofar : Option Response} {s : Source} {octets : Octets}
    {text : String} {line : ResponseLine} {response : Response} (some_octets : octets ≠ [])
    (piece : (s.piece limit now).value = some (.ok octets)) (read : responseText? octets = some text)
    (parsed : ResponseLine.parse text = .ok line) (added : Response.push sofar line = .ok response)
    (more : line.isLast = false) : s.readResponseFrom limit now sofar
      = ((s.piece limit now).rest.readResponseFrom limit now (some response)).after (s.piece limit now).ready := by
  rw [readResponseFrom]
  split <;> simp_all

theorem SingleLine.ne_nil {line : Octets} (single : SingleLine line) : line ≠ [] := by
  obtain ⟨text, -, rfl⟩ := single
  exact List.append_ne_nil_of_right_ne_nil _ (List.cons_ne_nil _ _)

theorem readResponseFrom_front {limit : Nat} {now : Instant} {sofar : Option Response} {octets : Octets}
    {response : Response} (spells : Spells False sofar octets response) {s : Source} {more : Octets}
    (front : s.there now = octets ++ more) (long : (s.there now).length < limit) :
    (s.readResponseFrom limit now sofar).value = some (.ok response) ∧
      (s.readResponseFrom limit now sofar).rest.there now = more ∧
      s.octets = octets ++ (s.readResponseFrom limit now sofar).rest.octets := by
  induction spells generalizing s with
  | last ended read parsed last added =>
    have single := ended.resolve_right fun never => never.1
    obtain ⟨piece, left⟩ := piece_front single front long
    rw [readResponseFrom_last (SingleLine.ne_nil single) piece read parsed added last]
    exact ⟨rfl, left, (octets_piece piece).symm⟩
  | more single read parsed goes_on added _ ih =>
    rw [List.append_assoc] at front
    obtain ⟨piece, left⟩ := piece_front single front long
    have shorter : ((s.piece limit now).rest.there now).length < limit := by
      rw [front, List.length_append] at long
      rw [left]
      omega
    obtain ⟨value, left', octets'⟩ := ih left shorter
    rw [readResponseFrom_more (SingleLine.ne_nil single) piece read parsed added goes_on]
    refine ⟨value, left', ?_⟩
    rw [← octets_piece piece, octets', List.append_assoc]
    rfl

/-- **A response at the front of a stream is read,** and all that comes after it is left. -/
theorem readResponse_front {now : Instant} {octets : Octets} {response : Response}
    (spells : Spells False none octets response) {s : Source} {more : Octets} (front : s.there now = octets ++ more) :
    (s.readResponse now).value = some (.ok response) ∧ (s.readResponse now).rest.there now = more ∧
      s.octets = octets ++ (s.readResponse now).rest.octets := by
  refine readResponseFrom_front spells front ?_
  rw [Source.size, ← there_append_missed now s, List.length_append]
  omega

end Source

/-! ## Lines -/

/-- a text that a reader of lines gives back: there is no line feed in it, and no carriage return at its end -/
structure LineText (s : String) : Prop where
  unbroken : Unbroken s
  open_end : s.toList.getLast? ≠ some '\r'

instance (s : String) : Decidable (LineText s) :=
  decidable_of_iff (Unbroken s ∧ s.toList.getLast? ≠ some '\r') ⟨fun h => ⟨h.1, h.2⟩, fun h => ⟨h.1, h.2⟩⟩

theorem LineText.behind {s before mark : String} (h : LineText s) (unbroken : Unbroken before) (line : Unbroken mark)
    (marked : mark.toList.getLast? ≠ none ∧ mark.toList.getLast? ≠ some '\r') : LineText (before ++ mark ++ s) := by
  refine ⟨(unbroken.append line).append h.unbroken, ?_⟩
  rw [String.toList_append, String.toList_append, List.getLast?_append, List.getLast?_append]
  cases hs : s.toList.getLast? with
  | some c =>
    have open_end := h.open_end
    rw [hs] at open_end
    exact open_end
  | none =>
    obtain ⟨some_mark, other⟩ := marked
    obtain ⟨c, hc⟩ := Option.ne_none_iff_exists'.1 some_mark
    rw [hc] at other ⊢
    exact other

theorem LineText.singleLine {s : String} (h : LineText s) : SingleLine (Octets.ofText (s ++ "\r\n")) := by
  refine ⟨Octets.ofText s ++ [Octets.cr], ?_, ?_⟩
  · have absent : Octets.lf ∉ Octets.ofText s := Octets.not_mem_ofText (by decide) rfl h.unbroken
    exact fun member => (List.mem_append.1 member).elim absent (by decide)
  · rw [Octets.ofText_append, List.append_assoc]
    rfl

/-- **A line is read as the text that was sent.** -/
theorem LineText.read {s : String} (h : LineText s) : responseText? (Octets.ofText (s ++ "\r\n")) = some s := by
  have kept : (s.toList.reverse.dropWhile fun c => c = '\r' ∨ c = '\n') = s.toList.reverse := by
    cases hr : s.toList.reverse with
    | nil => rfl
    | cons c cs =>
      have last : s.toList.getLast? = some c := by rw [← List.head?_reverse, hr]; rfl
      have feed : c ≠ '\n' := by
        rintro rfl
        exact h.unbroken (List.mem_of_getLast? last)
      have turn : c ≠ '\r' := by
        rintro rfl
        exact h.open_end last
      exact List.dropWhile_cons_of_neg (by simp [turn, feed])
  have reversed : (s ++ "\r\n").toList.reverse = '\n' :: '\r' :: s.toList.reverse := by
    rw [String.toList_append, List.reverse_append]
    rfl
  rw [responseText?, Octets.toText?_ofText, Option.map_some, reversed, List.dropWhile_cons_of_pos (by decide),
    List.dropWhile_cons_of_pos (by decide), kept, List.reverse_reverse, String.ofList_toList]

/-- a code that three digits can write -/
def Status.ThreeDigits (status : Status) : Prop := 100 ≤ status.code ∧ status.code ≤ 999

instance (status : Status) : Decidable status.ThreeDigits := inferInstanceAs (Decidable (_ ∧ _))

theorem Status.ThreeDigits.digits {status : Status} (three : status.ThreeDigits) :
    ∃ a b c, status.text.toList = [a, b, c] := by
  obtain ⟨low, high⟩ := three
  have text : status.text.toList = Nat.toDigits 10 status.code := Nat.toList_repr
  have most : status.text.toList.length ≤ 3 := by
    rw [text, Nat.length_toDigits_le_iff (by decide) (by decide)]
    omega
  have least : ¬status.text.toList.length ≤ 2 := by
    rw [text, Nat.length_toDigits_le_iff (by decide) (by decide)]
    omega
  exact List.length_eq_three.1 (by omega)

/-- the code at the front of a line is read, and nothing after it -/
theorem ResponseLine.code?_text {status : Status} (three : status.ThreeDigits) (rest : List Char) :
    code? (status.text.toList ++ rest) = some (status.code, rest) := by
  have number : Text.digits? 999 status.text.toList = some status.code := Text.digits?_number three.2
  obtain ⟨a, b, c, digits⟩ := three.digits
  rw [digits] at number ⊢
  show (Text.digits? 999 [a, b, c]).map _ = _
  rw [number]
  rfl

theorem ResponseLine.parse_last {status : Status} (three : status.ThreeDigits) (message : String) :
    parse (status.text ++ " " ++ message) = .ok ⟨status.code, true, message⟩ := by
  have chars : (status.text ++ " " ++ message).toList = status.text.toList ++ ' ' :: message.toList := by
    rw [String.toList_append, String.toList_append, List.append_assoc]
    rfl
  rw [parse, chars, code?_text three]
  show Except.ok (⟨status.code, true, String.ofList message.toList⟩ : ResponseLine) = _
  rw [String.ofList_toList]

theorem ResponseLine.parse_more {status : Status} (three : status.ThreeDigits) (message : String) :
    parse (status.text ++ "-" ++ message) = .ok ⟨status.code, false, message⟩ := by
  have chars : (status.text ++ "-" ++ message).toList = status.text.toList ++ '-' :: message.toList := by
    rw [String.toList_append, String.toList_append, List.append_assoc]
    rfl
  rw [parse, chars, code?_text three]
  show Except.ok (⟨status.code, false, String.ofList message.toList⟩ : ResponseLine) = _
  rw [String.ofList_toList]

/-! ## Replies -/

namespace Reply

/-- what a reply says after its reply code -/
def wording (r : Reply) : String :=
  match r.enhanced with
  | some e => e.text ++ " " ++ r.message
  | none => r.message

theorem text_wording (r : Reply) : r.text = r.status.text ++ " " ++ r.wording := by
  unfold text wording
  cases r.enhanced with
  | none => rfl
  | some e =>
    show r.status.text ++ " " ++ e.text ++ " " ++ r.message = _
    simp only [String.append_assoc]

/-- the wording tells whether there is an enhanced code, and which -/
def Legible (r : Reply) : Prop :=
  match r.enhanced with
  | some e => e.Sendable
  | none => EnhancedCode.ofText? r.message.toList = none

/-- **A reply is read back from its code and its wording.** -/
theorem reply_wording {r : Reply} (legible : r.Legible) : Response.reply ⟨r.status.code, [r.wording]⟩ = r := by
  obtain ⟨status, enhanced, message⟩ := r
  have joined : " ".intercalate (Response.lines ⟨status.code, [wording ⟨status, enhanced, message⟩]⟩)
      = wording ⟨status, enhanced, message⟩ := rfl
  unfold Response.reply
  dsimp only
  rw [joined]
  cases enhanced with
  | none =>
    have none_read : EnhancedCode.ofText? (wording ⟨status, none, message⟩).toList = none := legible
    rw [none_read]
    rfl
  | some e =>
    have chars : (wording ⟨status, some e, message⟩).toList = e.text.toList ++ ' ' :: message.toList := by
      show (e.text ++ " " ++ message).toList = _
      rw [String.toList_append, String.toList_append, List.append_assoc]
      rfl
    have no_blank : ' ' ∉ e.text.toList := fun member => absurd (e.text_blankless _ member) (by decide)
    rw [chars, EnhancedCode.ofText?_text legible, Text.splitOnce_append no_blank]
    show (⟨⟨status.code⟩, some e, String.ofList message.toList⟩ : Reply) = _
    rw [String.ofList_toList]

theorem wording_lineText {r : Reply} (h : LineText r.message) : LineText r.wording := by
  unfold wording
  cases r.enhanced with
  | none => exact h
  | some e =>
    have unbroken : Unbroken e.text := (Text.Blankless.oneLine e.text_blankless).2 ∘ by
      rw [String.ofList_toList]
      exact id
    exact h.behind unbroken (by decide) (by decide)

end Reply

/-! ## What is said -/

/-- what the engine says at once: a reply, or an answer of several lines -/
inductive Said where
  | reply (r : Reply)
  | lines (status : Status) (texts : List String)

namespace Said

def octets : Said → Octets
  | reply r => Octets.ofText r.line
  | lines status texts => Octets.ofText (status.lines texts)

/-- every code has three digits and every text keeps to its line; an answer of several lines has one at least -/
def Clear : Said → Prop
  | reply r => r.status.ThreeDigits ∧ LineText r.message
  | lines status texts => status.ThreeDigits ∧ texts ≠ [] ∧ ∀ text ∈ texts, LineText text

instance (said : Said) : Decidable said.Clear :=
  match said with
  | reply r => inferInstanceAs (Decidable (r.status.ThreeDigits ∧ LineText r.message))
  | lines status texts => inferInstanceAs
      (Decidable (status.ThreeDigits ∧ texts ≠ [] ∧ ∀ text ∈ texts, LineText text))

/-- a response is the one to what was said -/
def MeantBy (said : Said) (response : Response) : Prop :=
  match said with
  | reply r => response.code = r.status.code ∧ response.lines = [r.wording] ∧ (r.Legible → response.reply = r)
  | lines status texts => response.code = status.code ∧ response.lines = texts

theorem last_lineText {status : Status} {text : String} (h : LineText text) :
    LineText (status.text ++ " " ++ text) := h.behind (unbroken_number _) (by decide) (by decide)

theorem more_lineText {status : Status} {text : String} (h : LineText text) :
    LineText (status.text ++ "-" ++ text) := h.behind (unbroken_number _) (by decide) (by decide)

/-- a line that says that none follows is the last of a response -/
theorem spells_last {status : Status} (three : status.ThreeDigits) {text : String} (h : LineText text)
    {sofar : Option Response} {before : List String}
    (goes_on : ∀ isLast text, Response.push sofar ⟨status.code, isLast, text⟩ = .ok ⟨status.code, text :: before⟩) :
    Spells False sofar (Octets.ofText (status.text ++ " " ++ text ++ "\r\n")) ⟨status.code, text :: before⟩ :=
  .last (.inl (last_lineText h).singleLine) (last_lineText h).read (ResponseLine.parse_last three text) rfl
    (goes_on true text)

/-- the lines of an answer are one response, whatever was read before them -/
theorem spells_lines {status : Status} (three : status.ThreeDigits) {texts : List String} (some_text : texts ≠ [])
    (h : ∀ text ∈ texts, LineText text) {sofar : Option Response} {before : List String}
    (goes_on : ∀ isLast text, Response.push sofar ⟨status.code, isLast, text⟩ = .ok ⟨status.code, text :: before⟩) :
    Spells False sofar (Octets.ofText (status.lines texts)) ⟨status.code, texts.reverse ++ before⟩ := by
  induction texts generalizing sofar before with
  | nil => exact absurd rfl some_text
  | cons text rest ih =>
    have here := h text List.mem_cons_self
    cases rest with
    | nil => exact spells_last three here goes_on
    | cons next rest =>
      have first : status.lines (text :: next :: rest)
          = (status.text ++ "-" ++ text ++ "\r\n") ++ status.lines (next :: rest) := String.join_cons
      have again : ∀ isLast other, Response.push (some ⟨status.code, text :: before⟩) ⟨status.code, isLast, other⟩
          = .ok ⟨status.code, other :: text :: before⟩ := fun _ _ => if_pos rfl
      have others := ih (List.cons_ne_nil next rest) (fun t ht => h t (List.mem_cons_of_mem text ht)) again
      rw [first, Octets.ofText_append, List.reverse_cons, List.append_assoc]
      exact .more (more_lineText here).singleLine (more_lineText here).read (ResponseLine.parse_more three text) rfl
        (goes_on false text) others

/-- **What is said is one response,** with the codes and texts that were said. -/
theorem spells {said : Said} (clear : said.Clear) :
    ∃ response, Spells False none said.octets response ∧ said.MeantBy response := by
  cases said with
  | reply r =>
    obtain ⟨three, text⟩ := clear
    refine ⟨⟨r.status.code, [r.wording]⟩, ?_, rfl, rfl, Reply.reply_wording⟩
    show Spells False none (Octets.ofText (r.text ++ "\r\n")) _
    rw [Reply.text_wording]
    exact spells_last three (Reply.wording_lineText text) fun _ _ => rfl
  | lines status texts =>
    obtain ⟨three, some_text, each⟩ := clear
    refine ⟨⟨status.code, texts.reverse⟩, ?_, rfl, List.reverse_reverse texts⟩
    have all : Spells False none (Octets.ofText (status.lines texts)) ⟨status.code, texts.reverse ++ []⟩ :=
      spells_lines three some_text each fun _ _ => rfl
    rwa [List.append_nil] at all

end Said

/-! ## Reading what is said -/

/-- one response is read for each thing that was said, beginning at its moment: it is the one to what was said, and its
octets are all that is read for it -/
inductive Understood : List (Instant × Said) → Source → Source → Prop where
  | nil (s : Source) : Understood [] s s
  | cons {now : Instant} {said : Said} {rest : List (Instant × Said)} {s s' : Source} {response : Response}
      (read : (s.readResponse now).value = some (.ok response)) (meant : said.MeantBy response)
      (octets : s.octets = said.octets ++ (s.readResponse now).rest.octets)
      (others : Understood rest (s.readResponse now).rest s') : Understood ((now, said) :: rest) s s'

theorem Understood.octets {exchanges : List (Instant × Said)} {s s' : Source} (h : Understood exchanges s s') :
    s.octets = (exchanges.flatMap fun e => e.2.octets) ++ s'.octets := by
  induction h with
  | nil s => rfl
  | cons _ _ octets _ ih => rw [octets, ih, List.flatMap_cons, List.append_assoc]

/-- **Client and engine agree on the wording of replies.** Let any replies and answers be said after one another, and
let their octets come first in a stream, however that is cut and whatever comes after them. A client that reads
responses one after another, each from any moment on that is not before the last, gets one for each thing that was said,
in order, and reads no octet beyond them. -/
theorem understood_all {exchanges : List (Instant × Said)} (clear : ∀ e ∈ exchanges, e.2.Clear) {start : Instant}
    (in_order : (start :: exchanges.map Prod.fst).Pairwise (· ≤ ·)) {s : Source}
    (front : (exchanges.flatMap fun e => e.2.octets) <+: s.there start) : ∃ s', Understood exchanges s s' := by
  induction exchanges generalizing start s with
  | nil => exact ⟨s, .nil s⟩
  | cons first rest ih =>
    obtain ⟨now, said⟩ := first
    obtain ⟨response, spells, meant⟩ := Said.spells (clear _ List.mem_cons_self)
    obtain ⟨from_start, ordered⟩ := List.pairwise_cons.1 in_order
    have here := front.trans (Source.there_later (from_start now List.mem_cons_self) s)
    rw [List.flatMap_cons] at here
    obtain ⟨tail, split⟩ := here
    rw [List.append_assoc] at split
    obtain ⟨read, left, octets⟩ := Source.readResponse_front spells split.symm
    obtain ⟨s', others⟩ := ih (fun e he => clear e (List.mem_cons_of_mem _ he)) ordered
      (left ▸ List.prefix_append _ tail)
    exact ⟨s', .cons read meant octets others⟩

namespace Said.Sample

/-- a reply without a message, an answer of three lines of which one is empty, and a reply whose message begins like an
enhanced code of a class that there is not -/
def said : List (Instant × Said) :=
  [(5, .reply (.coded .done .success "")), (7, .lines .done ["host", "", "8BITMIME"]),
    (7, .reply ⟨.serviceReady, none, "3.0.0 ready"⟩)]

/-- what was said, cut within an end of line and within a code, with something after it -/
def hearing : Source :=
  ⟨[⟨1, Octets.ofText "250 2.0.0 \r"⟩, ⟨3, Octets.ofText "\n250-host\r\n250-\r\n25"⟩,
    ⟨6, Octets.ofText "0 8BITMIME\r\n220 3.0.0 ready\r\n421"⟩], [⟨9, .closed⟩]⟩

end Said.Sample

/-- three things that are said and heard; both replies come back -/
theorem understood_all_said : (∀ e ∈ Said.Sample.said, e.2.Clear) ∧
    (5 :: Said.Sample.said.map Prod.fst).Pairwise (· ≤ ·) ∧
    (Reply.coded .done .success "").Legible ∧ (⟨.serviceReady, none, "3.0.0 ready"⟩ : Reply).Legible ∧
    ∃ s', Understood Said.Sample.said Said.Sample.hearing s' ∧ s'.octets = Octets.ofText "421" := by
  have clear : ∀ e ∈ Said.Sample.said, e.2.Clear := by decide
  have in_order : (5 :: Said.Sample.said.map Prod.fst).Pairwise (· ≤ ·) := by decide
  have split : Said.Sample.hearing.there 5
      = (Said.Sample.said.flatMap fun e => e.2.octets) ++ Octets.ofText "421" := by decide
  have all : Said.Sample.hearing.octets
      = (Said.Sample.said.flatMap fun e => e.2.octets) ++ Octets.ofText "421" := by decide
  have coded : (Reply.coded .done .success "").Legible := ⟨by decide, by decide, by decide⟩
  have plain : (⟨.serviceReady, none, "3.0.0 ready"⟩ : Reply).Legible := by
    show EnhancedCode.ofText? "3.0.0 ready".toList = none
    decide
  obtain ⟨s', heard⟩ := understood_all clear in_order (split ▸ List.prefix_append _ _)
  refine ⟨clear, in_order, coded, plain, s', heard, ?_⟩
  exact List.append_cancel_left (heard.octets.symm.trans all)

end LmtpRelay
