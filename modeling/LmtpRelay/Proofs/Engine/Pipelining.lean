/-
A whole run, as a peer sees it that sends without waiting for replies. `replies_accounted` is the main result: after the
greeting, an undisturbed run says exactly what its stream calls for, line by line and in order. What it says does not
depend on how the stream is cut into arrivals, and not on when they come either, unless the forwarder looks at the clock.
-/
import LmtpRelay.Proofs.Engine.Alike
import LmtpRelay.Proofs.Engine.Cutting
import LmtpRelay.Proofs.Engine.Lines

namespace LmtpRelay.Engine

variable {σ : Type}

/-! ## Runs -/

/-- **An undisturbed run says what its stream calls for.** -/
theorem run_accounted {e₀ : Engine σ} {s₀ : Source} (fresh : e₀.Fresh) (assured : Assured .closed e₀ s₀) : ∃ texts,
    (e₀.run s₀).2.session.journal.said = (greeting e₀.settings).line :: texts ∧
      Accounted e₀.session.forwarder e₀.settings .initial s₀.octets texts := by
  obtain ⟨texts, accounted, heard⟩ := serve_accounted (assured.unhindered fresh)
  have said := assured.said
  obtain ⟨⟩ := fresh
  exact ⟨texts, said.trans heard, accounted⟩

/-- **An undisturbed run says the same whenever its octets come,** over a forwarder that does not look at the clock. -/
theorem run_alike {ending : Ending} {e₀ : Engine σ} {s₀ s₁ : Source} (fresh : e₀.Fresh)
    (blind : e₀.session.forwarder.ClockBlind) (assured : Assured ending e₀ s₀) (assured' : Assured ending e₀ s₁)
    (same : s₁.octets = s₀.octets) :
    (e₀.run s₁).2.session.journal.said = (e₀.run s₀).2.session.journal.said := by
  have attuned : Attuned ending (e₀.saying (greeting e₀.settings).line) s₀ (e₀.saying (greeting e₀.settings).line) s₁ :=
    ⟨assured.unhindered fresh, assured'.unhindered fresh, blind, .refl _, rfl, same⟩
  rw [assured.said, assured'.said]
  exact attuned.serve

/-- **One reply for each line.** Over a stream that is closed in the end, whatever the resolver and the forwarder
answer, an undisturbed run says the greeting and then what the lines of the stream call for, in order: one reply each,
but five lines for LHLO, and for DATA a prompt and after the body one reply for each recipient. Nothing is said after
QUIT, at the end of the stream or inside a body without an end. Where neither the name of the host nor the forwarder's
words have a line feed in them, every reply is one line and the answer to LHLO is five, whatever the peer sends. The run
is the same however the stream is cut; what it says is the same also when the octets come at other times, over a
forwarder that does not look at the clock. -/
theorem replies_accounted {e₀ : Engine σ} {s₀ : Source} (fresh : e₀.Fresh) (whole : s₀.Whole)
    (undisturbed : e₀.Undisturbed s₀) :
    ∃ texts, (e₀.run s₀).2.session.journal.said = (greeting e₀.settings).line :: texts ∧
      Accounted e₀.session.forwarder e₀.settings .initial s₀.octets texts ∧
      (Plain e₀.session.forwarder e₀.settings →
        (∀ text ∈ (greeting e₀.settings).line :: texts,
          text = Status.done.lines (capabilities e₀.settings) ∨ IsLine text) ∧
        ∃ lines : List String, lines.length = 5 ∧ (∀ line ∈ lines, IsLine line) ∧
          Status.done.lines (capabilities e₀.settings) = String.join lines) ∧
      (∀ s₁, s₀.Recut s₁ → e₀.run s₁ = e₀.run s₀) ∧
      (e₀.session.forwarder.ClockBlind → ∀ s₁ : Source, s₁.Whole → s₁.octets = s₀.octets → e₀.Undisturbed s₁ →
        (e₀.run s₁).2.session.journal.said = (greeting e₀.settings).line :: texts) := by
  have assured := undisturbed.assured whole
  obtain ⟨texts, said, accounted⟩ := run_accounted fresh assured
  refine ⟨texts, said, accounted, fun plain => ⟨?_, capabilities_lines plain.hostname⟩, fun s₁ cut => run_recut e₀ cut,
    fun blind s₁ whole' same undisturbed' => ?_⟩
  · have no_recipient : Dialogue.initial.Named := fun _ => nofun
    intro text ht
    rcases List.mem_cons.1 ht with rfl | ht
    · exact .inr (greeting_line plain.hostname)
    · exact accounted.lines plain no_recipient text ht
  · rw [run_alike fresh blind assured (undisturbed'.assured whole') same]
    exact said

namespace Sample

/-- a forwarder that delivers to everyone at once -/
def obliging : Forwarder (List String) where
  mail _ _ _ _ := ⟨0, .ok (), []⟩
  rcpt _ accepted recipient := ⟨0, .ok (), accepted ++ [recipient]⟩
  data _ accepted := ⟨0, .ok (), accepted⟩
  write _ accepted _ := ⟨0, .ok (), accepted⟩
  finish now accepted :=
    ⟨some 0, .ok (), [⟨now, accepted.map (⟨·, .ok ()⟩)⟩], [], some now, [], fun _ => []⟩
  abandon _ _ := []
  reset _ _ := ⟨0, .ok (), []⟩
  close _ accepted := ⟨0, .ok (), accepted⟩

theorem obliging_blind : obliging.ClockBlind where
  mail _ _ _ _ _ := ⟨rfl, rfl⟩
  rcpt _ _ _ _ := ⟨rfl, rfl⟩
  data _ _ _ := ⟨rfl, rfl⟩
  write _ _ _ _ := ⟨rfl, rfl⟩
  finish now accepted := by simp [obliging, Closing.shift, Burst.shift]
  abandon _ _ _ := rfl
  reset _ _ _ := ⟨rfl, rfl⟩

theorem obliging_supplies (error : ForwardError) : ¬obliging.Supplies error := by
  intro supplied
  cases supplied with
  | report made reported failed =>
    obtain rfl := List.mem_singleton.1 made
    obtain ⟨recipient, -, rfl⟩ := List.mem_map.1 reported
    cases failed
  | mail answer => cases answer
  | rcpt answer => cases answer
  | data answer => cases answer
  | finish answer => cases answer
  | reset answer => cases answer

def willing : Engine (List String) :=
  start ⟨"relay", 1024, ⟨9, 9, 9⟩⟩ .calm (Session.start 1 (.ofTable [("p", "p@f")]) obliging [] 9000 0)

/-- a message to one recipient with a line that is no command, and a command too many, all sent at once -/
def first : Octets := Octets.ofText "LHLO peer\r\nMAIL FROM:<a@x>\r\nRCPT TO:<p@h>\r\nFOO\r\nDA"
def second : Octets := Octets.ofText "TA\r\nhi\r\n.\r\nQUIT\r\nNOOP\r\n"

def atOnce : Source := ⟨[⟨1, first ++ second⟩], [⟨9, .closed⟩]⟩
def inParts : Source := ⟨[⟨1, first⟩, ⟨1, second⟩], [⟨9, .closed⟩]⟩
def slowly : Source := ⟨[⟨3, first⟩, ⟨7, second⟩], [⟨9, .closed⟩]⟩

def replies : List String :=
  ["250-relay\r\n250-PIPELINING\r\n250-ENHANCEDSTATUSCODES\r\n250-8BITMIME\r\n250 SIZE 1024\r\n",
    "250 2.1.0 Sender OK\r\n", "250 2.1.5 Recipient OK\r\n", "500 5.5.2 Syntax error: FOO\r\n",
    "354 Start mail input; end with <CRLF>.<CRLF>\r\n", "250 2.0.0 <p@h> delivered\r\n",
    "221 2.0.0 relay closing connection\r\n"]

theorem atOnce_whole : atOnce.Whole := ⟨by simp [atOnce], by simp [atOnce]⟩

theorem slowly_whole : slowly.Whole := ⟨by simp [slowly], by simp [slowly]⟩

theorem inParts_recut : atOnce.Recut inParts where
  stamped := by simp [atOnce, inParts, stamped, Arrival.stamped]
  halts := rfl
  ordered := List.pairwise_singleton _ _
  ordered' := by simp [inParts, InOrder]

theorem ended_well {s : Source} (h : (willing.run s).1.isOk = true) (failure : IoFailure) :
    (willing.run s).1 ≠ .error (.io failure) := by
  intro failed
  rw [failed] at h
  cases h

theorem atOnce_undisturbed : willing.Undisturbed atOnce := ⟨by decide +kernel, ended_well (by decide +kernel)⟩

theorem slowly_undisturbed : willing.Undisturbed slowly := ⟨by decide +kernel, ended_well (by decide +kernel)⟩

theorem atOnce_said :
    (willing.run atOnce).2.session.journal.said = (greeting willing.settings).line :: replies := by decide +kernel

theorem willing_plain : Plain obliging willing.settings :=
  ⟨by decide, fun _ supplied => absurd supplied (obliging_supplies _)⟩

end Sample

/-- a message that is sent at once, in two parts, or slowly -/
theorem replies_accounted_message :
    Accounted Sample.obliging Sample.willing.settings .initial (Sample.first ++ Sample.second) Sample.replies ∧
      (∀ text ∈ Sample.replies,
        text = Status.done.lines (capabilities Sample.willing.settings) ∨ IsLine text) ∧
      Sample.willing.run Sample.inParts = Sample.willing.run Sample.atOnce ∧
      (Sample.willing.run Sample.slowly).2.session.journal.said
        = (greeting Sample.willing.settings).line :: Sample.replies := by
  obtain ⟨texts, said, accounted, worded, recut, later⟩ :=
    replies_accounted (.intro : Sample.willing.Fresh) Sample.atOnce_whole Sample.atOnce_undisturbed
  obtain rfl : Sample.replies = texts := List.tail_eq_of_cons_eq (Sample.atOnce_said.symm.trans said)
  exact ⟨accounted, fun text ht => (worded Sample.willing_plain).1 text (List.mem_cons_of_mem _ ht),
    recut _ Sample.inParts_recut,
    later Sample.obliging_blind _ Sample.slowly_whole rfl Sample.slowly_undisturbed⟩

end LmtpRelay.Engine
