/-
The stream to the downstream server as a server of its own reads it. `serverReads` cuts the stream into lines; after a
line that is a DATA command it reads a body if it is told that the client was let send one. It knows nothing of the
client but the octets and these answers.

A `Dispatch` is what the client means to send. Lines without an end of line in them and whole bodies are read back as
they were meant, in order and with nothing in between: `serverReads_dispatches`.
-/
import LmtpRelay.Proofs.Command.Parsed
import LmtpRelay.Proofs.Wire.Bodies
import LmtpRelay.Wire.Line

namespace LmtpRelay

/-! ## Reading -/

/-- something that a server reads -/
inductive Reading where
  /-- a line, with its end -/
  | line (octets : Octets)
  /-- the body after DATA -/
  | body (body : Body)
  /-- what is left where the stream ends in the middle of a line or of a body -/
  | unfinished (octets : Octets)
  deriving DecidableEq, Repr

/-- whether a line is a DATA command, for a server that reads commands as the relay does -/
def isDataLine (line : Octets) : Bool :=
  match Command.parse (dropLineEnd line) with
  | .ok .data => true
  | _ => false

theorem length_cutLine_lt {limit : Nat} {bs : Octets} (h : endsLine (cutLine limit bs).1 = true) :
    (cutLine limit bs).2.length < bs.length := by
  have parts := congrArg List.length (cutLine_append limit bs)
  rw [List.length_append] at parts
  have octets : (cutLine limit bs).1 ≠ [] := by
    intro nothing
    rw [nothing] at h
    cases h
  have := List.length_pos_iff.2 octets
  omega

/-- what a server reads from a stream, where `opens` says of each DATA command whether a body comes after it, and bodies
have at most `limit` octets -/
def serverReads (limit : Nat) (opens : List Bool) (bs : Octets) : List Reading :=
  if _h : endsLine (cutLine bs.length bs).1 = true then
    let line := (cutLine bs.length bs).1
    let rest := (cutLine bs.length bs).2
    if isDataLine line then
      let r := (Source.plain rest).readBody limit 0
      match opens, r.value with
      | true :: opens, some (.ok body) => .line line :: .body body :: serverReads limit opens r.rest.octets
      | true :: _, _ => [.line line, .unfinished rest]
      | opens, _ => .line line :: serverReads limit opens.tail rest
    else .line line :: serverReads limit opens rest
  else if bs = [] then [] else [.unfinished bs]
termination_by bs.length
decreasing_by
  · refine Nat.lt_of_le_of_lt (Source.size_readBody_le limit 0 _) ?_
    rw [Source.size, Source.plain_octets]
    exact length_cutLine_lt _h
  · exact length_cutLine_lt _h
  · exact length_cutLine_lt _h

/-! ## What is meant -/

/-- something that a client sends -/
inductive Dispatch where
  /-- a command on a line of its own -/
  | line (text : String)
  /-- DATA, with the body where the client was let send one -/
  | data (body? : Option Octets)
  deriving DecidableEq, Repr

namespace Dispatch

def lineOctets (text : String) : Octets := Octets.ofText (text ++ "\r\n")

def octets : Dispatch → Octets
  | line text => lineOctets text
  | data none => lineOctets Command.data.text
  | data (some body) => lineOctets Command.data.text ++ ((stuff true body).1 ++ terminator (stuff true body).2)

def readings : Dispatch → List Reading
  | line text => [.line (lineOctets text)]
  | data none => [.line (lineOctets Command.data.text)]
  | data (some body) => [.line (lineOctets Command.data.text), .body (.complete body)]

/-- for DATA, whether a body comes after it -/
def opens? : Dispatch → Option Bool
  | line _ => none
  | data body? => some body?.isSome

/-- a line is one line and not DATA, and a body can be ended and is within the limit -/
def Fits (limit : Nat) : Dispatch → Prop
  | line text => OneLine text ∧ isDataLine (lineOctets text) = false
  | data none => True
  | data (some body) => IsWhole body ∧ body.length ≤ limit

end Dispatch

/-! ## Lines -/

theorem lineOctets_eq (text : String) :
    Dispatch.lineOctets text = (Octets.ofText text ++ [Octets.cr]) ++ [Octets.lf] := by
  rw [Dispatch.lineOctets, Octets.ofText_append, List.append_assoc]
  rfl

theorem cutLine_lineOctets {text : String} (h : OneLine text) (rest : Octets) :
    cutLine (Dispatch.lineOctets text ++ rest).length (Dispatch.lineOctets text ++ rest)
      = (Dispatch.lineOctets text, rest) := by
  have inside : Octets.lf ∉ Octets.ofText text ++ [Octets.cr] := by
    intro hm
    rcases List.mem_append.1 hm with hm | hm
    · exact h.octets.2 hm
    · exact absurd (List.mem_singleton.1 hm) (by decide)
  rw [lineOctets_eq, List.append_assoc]
  refine cutLine_line inside ?_ rest
  simp only [List.length_append, List.length_cons]
  omega

theorem endsLine_lineOctets (text : String) : endsLine (Dispatch.lineOctets text) = true := by
  rw [lineOctets_eq, endsLine_append (List.cons_ne_nil _ _)]
  rfl

theorem dropLineEnd_append {bs : Octets} (h : ∀ b ∈ bs, isLineEnd b = false) {ending : Octets}
    (line_end : dropLineEnd ending = []) : dropLineEnd (bs ++ ending) = bs := by
  induction bs with
  | nil => exact line_end
  | cons b bs ih =>
    rw [List.cons_append, dropLineEnd, ih fun c hc => h c (List.mem_cons_of_mem b hc)]
    cases bs with
    | nil => simp [h b List.mem_cons_self]
    | cons c cs => rfl

theorem parse_lineOctets {text : String} (h : OneLine text) :
    Command.parse (dropLineEnd (Dispatch.lineOctets text)) = Command.parseText text.toList := by
  have inside : ∀ b ∈ Octets.ofText text, isLineEnd b = false := by
    intro b hb
    simp only [isLineEnd, Bool.or_eq_false_iff, decide_eq_false_iff_not]
    exact ⟨fun e => h.octets.1 (e ▸ hb), fun e => h.octets.2 (e ▸ hb)⟩
  rw [lineOctets_eq, List.append_assoc, dropLineEnd_append inside rfl, Command.parse, Octets.toText?_ofText]

theorem isDataLine_other {text : String} (h : OneLine text) {c : Char} {cs : List Char} (begins : text.toList = c :: cs)
    (visible : Text.isBlank c = false) (other : c.toUpper ≠ 'D') : isDataLine (Dispatch.lineOctets text) = false := by
  unfold isDataLine
  rw [parse_lineOctets h, begins]
  split
  · next same => exact absurd same (Command.parseText_ne_data visible other)
  · rfl

theorem isDataLine_data : isDataLine (Dispatch.lineOctets Command.data.text) = true := by
  unfold isDataLine
  rw [parse_lineOctets (by decide)]
  rfl

/-! ## Reading what was meant -/

theorem data_oneLine : OneLine Command.data.text := by decide

theorem serverReads_line {limit : Nat} {opens : List Bool} {text : String} (h : OneLine text)
    (other : isDataLine (Dispatch.lineOctets text) = false) (rest : Octets) :
    serverReads limit opens (Dispatch.lineOctets text ++ rest)
      = .line (Dispatch.lineOctets text) :: serverReads limit opens rest := by
  rw [serverReads, cutLine_lineOctets h, dif_pos (endsLine_lineOctets text)]
  dsimp only
  rw [other]
  rfl

theorem serverReads_refused (limit : Nat) (opens : List Bool) (rest : Octets) :
    serverReads limit (false :: opens) (Dispatch.lineOctets Command.data.text ++ rest)
      = .line (Dispatch.lineOctets Command.data.text) :: serverReads limit opens rest := by
  rw [serverReads, cutLine_lineOctets data_oneLine, dif_pos (endsLine_lineOctets _)]
  dsimp only
  rw [isDataLine_data]
  rfl

theorem serverReads_body {limit : Nat} {body : Octets} (whole : IsWhole body) (fits : body.length ≤ limit)
    (opens : List Bool) (rest : Octets) :
    serverReads limit (true :: opens) (Dispatch.octets (.data (some body)) ++ rest)
      = .line (Dispatch.lineOctets Command.data.text) :: .body (.complete body) :: serverReads limit opens rest := by
  have written : Dispatch.octets (.data (some body)) ++ rest
      = Dispatch.lineOctets Command.data.text ++ ((stuff true body).1 ++ (terminator true ++ rest)) := by
    rw [Dispatch.octets, stuff_whole whole, List.append_assoc, List.append_assoc]
  obtain ⟨value, left⟩ := Source.readBody_stuffed 0 whole fits rest
  rw [written, serverReads, cutLine_lineOctets data_oneLine, dif_pos (endsLine_lineOctets _)]
  dsimp only
  rw [isDataLine_data, if_pos rfl, value, left, Source.plain_octets]

/-- **What is meant is what is read.** -/
theorem serverReads_dispatches {limit : Nat} {dispatches : List Dispatch} (h : ∀ d ∈ dispatches, d.Fits limit) :
    serverReads limit (dispatches.filterMap Dispatch.opens?) (dispatches.flatMap Dispatch.octets)
      = dispatches.flatMap Dispatch.readings := by
  induction dispatches with
  | nil =>
    rw [serverReads]
    rfl
  | cons d rest ih =>
    have fits := h d List.mem_cons_self
    rw [List.flatMap_cons, List.flatMap_cons, ← ih fun d' hd => h d' (List.mem_cons_of_mem d hd)]
    cases d with
    | line text => exact serverReads_line fits.1 fits.2 _
    | data body? =>
      cases body? with
      | none => exact serverReads_refused limit _ _
      | some body => exact serverReads_body fits.1 fits.2 _ _

end LmtpRelay
