/-
Numbers that are written and read back. What is read as a number is a numeral, digits behind a plus sign or nothing
(`numeral?_eq_some_iff`). The decimal digits of a number are a numeral with that value (`numeral?_number`), and between
full stops three of them are an enhanced status code again, whatever text comes after it: `ofText?_text`.
-/
import LmtpRelay.Proofs.Text.Lines
import LmtpRelay.Reply.Enhanced

namespace LmtpRelay

/-! ## Cutting -/

namespace Text

/-- a text is cut at the first mark -/
theorem splitOnce_append {mark : Char} {before : List Char} (absent : mark ∉ before) (after : List Char) :
    splitOnce mark (before ++ mark :: after) = some (before, after) := by
  induction before with
  | nil => exact if_pos rfl
  | cons c cs ih =>
    obtain ⟨other, others⟩ := not_or.1 (mt List.mem_cons.2 absent)
    rw [List.cons_append, splitOnce, if_neg (Ne.symm other), ih others]
    rfl

theorem startsWord_append {word : List Char} (blankless : Blankless word) (some_chars : word ≠ []) (after : List Char) :
    startsWord (word ++ after) = true := by
  cases word with
  | nil => exact absurd rfl some_chars
  | cons c cs => simp [startsWord, blankless c List.mem_cons_self]

/-- characters in front of a blank are the first word -/
theorem words_append {word : List Char} (blankless : Blankless word) (some_chars : word ≠ []) {blank : Char}
    (isBlank : isBlank blank = true) (after : List Char) :
    words (word ++ blank :: after) = word :: words (blank :: after) := by
  induction word with
  | nil => exact absurd rfl some_chars
  | cons c cs ih =>
    have hc : ¬Text.isBlank c = true := by simp [blankless c List.mem_cons_self]
    have rest : Blankless cs := fun d hd => blankless d (List.mem_cons_of_mem c hd)
    rw [List.cons_append, words, if_neg hc]
    cases cs with
    | nil => rw [if_neg (by simp [startsWord, isBlank])]; rfl
    | cons d ds =>
      rw [if_pos (startsWord_append rest (List.cons_ne_nil d ds) _), ih rest (List.cons_ne_nil d ds)]
      rfl

/-! ## Numerals -/

/-- reading one more digit makes no number smaller -/
theorem le_ofDigitChars (cs : List Char) (acc : Nat) : acc ≤ Nat.ofDigitChars 10 cs acc := by
  induction cs generalizing acc with
  | nil => exact Nat.le_refl acc
  | cons c cs ih =>
    refine Nat.le_trans ?_ (ih (10 * acc + (c.toNat - '0'.toNat)))
    omega

theorem digit?_isDigit {c : Char} (digit : c.isDigit = true) : digit? c = some (c.toNat - '0'.toNat) := by
  obtain ⟨low, high⟩ := Bool.and_eq_true_iff.1 digit
  exact if_pos ⟨of_decide_eq_true low, of_decide_eq_true high⟩

/-- a number that is within the limit in the end has been so all the time -/
theorem digitsFrom?_digits {limit acc : Nat} {cs : List Char} (digits : ∀ c ∈ cs, c.isDigit = true)
    (within : Nat.ofDigitChars 10 cs acc ≤ limit) : digitsFrom? limit acc cs = some (Nat.ofDigitChars 10 cs acc) := by
  induction cs generalizing acc with
  | nil => rfl
  | cons c cs ih =>
    have step : Nat.ofDigitChars 10 (c :: cs) acc = Nat.ofDigitChars 10 cs (acc * 10 + (c.toNat - '0'.toNat)) := by
      rw [Nat.mul_comm]
      rfl
    rw [step] at within ⊢
    have small : acc * 10 + (c.toNat - '0'.toNat) ≤ limit := Nat.le_trans (le_ofDigitChars cs _) within
    rw [digitsFrom?, digit?_isDigit (digits c List.mem_cons_self)]
    refine (if_pos small).trans (ih (fun d hd => digits d (List.mem_cons_of_mem c hd)) within)

/-- digits are read as the number that they spell, where that is within the limit; nothing else is read -/
theorem digitsFrom?_eq_some_iff {limit acc n : Nat} {cs : List Char} (start : acc ≤ limit) :
    digitsFrom? limit acc cs = some n ↔
      (∀ c ∈ cs, c.isDigit = true) ∧ Nat.ofDigitChars 10 cs acc = n ∧ n ≤ limit := by
  refine ⟨fun h => ?_, fun ⟨digits, value, within⟩ => value ▸ digitsFrom?_digits digits (value.symm ▸ within)⟩
  induction cs generalizing acc with
  | nil =>
    obtain rfl := Option.some.inj h
    exact ⟨fun _ none_there => absurd none_there List.not_mem_nil, rfl, start⟩
  | cons c cs ih =>
    rw [digitsFrom?] at h
    obtain ⟨d, digit, h⟩ := Option.bind_eq_some_iff.1 h
    dsimp only at h
    split at h
    · next within =>
      obtain ⟨digits, value, small⟩ := ih within h
      unfold digit? at digit
      split at digit
      · next bounds =>
        obtain rfl := Option.some.inj digit
        refine ⟨fun e there => ?_, ?_, small⟩
        · rcases List.mem_cons.1 there with rfl | there
          · exact Bool.and_eq_true_iff.2 ⟨decide_eq_true bounds.1, decide_eq_true bounds.2⟩
          · exact digits e there
        · rw [← value, Nat.mul_comm]
          rfl
      · cases digit
    · cases h

/-- a text that spells a number: at least one decimal digit, and a plus sign in front of them or none -/
def Numeral (cs : List Char) (n : Nat) : Prop :=
  ∃ digits, (cs = digits ∨ cs = '+' :: digits) ∧ digits ≠ [] ∧ (∀ c ∈ digits, c.isDigit = true) ∧
    Nat.ofDigitChars 10 digits 0 = n

theorem digits?_eq_some_iff {limit n : Nat} {cs : List Char} : digits? limit cs = some n ↔
    cs ≠ [] ∧ (∀ c ∈ cs, c.isDigit = true) ∧ Nat.ofDigitChars 10 cs 0 = n ∧ n ≤ limit := by
  cases cs with
  | nil => exact ⟨nofun, fun h => absurd rfl h.1⟩
  | cons c cs => exact (digitsFrom?_eq_some_iff (Nat.zero_le limit)).trans (and_iff_right (List.cons_ne_nil c cs)).symm

/-- **Exactly the texts that spell a number within the limit are read, and as that number.** -/
theorem numeral?_eq_some_iff {limit n : Nat} {cs : List Char} :
    numeral? limit cs = some n ↔ Numeral cs n ∧ n ≤ limit := by
  have spelled : ∀ {unsigned}, (∀ digits, (cs = digits ∨ cs = '+' :: digits) → digits ≠ [] →
      (∀ c ∈ digits, c.isDigit = true) → digits = unsigned) → (cs = unsigned ∨ cs = '+' :: unsigned) →
      (digits? limit unsigned = some n ↔ Numeral cs n ∧ n ≤ limit) := by
    intro unsigned only there
    rw [digits?_eq_some_iff]
    constructor
    · exact fun ⟨some_digits, digits, value, within⟩ => ⟨⟨unsigned, there, some_digits, digits, value⟩, within⟩
    · rintro ⟨⟨ds, same, some_digits, digits, value⟩, within⟩
      obtain rfl := only ds same some_digits digits
      exact ⟨some_digits, digits, value, within⟩
  unfold numeral?
  split
  · next rest =>
    refine spelled (fun ds same some_digits digits => ?_) (.inr rfl)
    rcases same with rfl | same
    · exact absurd (digits '+' List.mem_cons_self) (by decide)
    · exact (List.cons.inj same).2.symm
  · next unsigned =>
    refine spelled (fun ds same _ _ => ?_) (.inl rfl)
    rcases same with same | same
    · exact same.symm
    · exact absurd same (unsigned ds)

theorem number_digits (n : Nat) : (∀ c ∈ (toString n).toList, c.isDigit = true) ∧ (toString n).toList ≠ [] := by
  have text : (toString n).toList = Nat.toDigits 10 n := Nat.toList_repr
  rw [text]
  exact ⟨fun c hc => Nat.isDigit_of_mem_toDigits (by decide) (by decide) hc, Nat.toDigits_ne_nil⟩

theorem number_not_mem {c : Char} (other : c.isDigit = false) (n : Nat) : c ∉ (toString n).toList := fun hc =>
  absurd (((number_digits n).1 c hc).symm.trans other) (by decide)

theorem number_blankless (n : Nat) : Blankless (toString n).toList := by
  intro c hc
  rw [← Bool.not_eq_true]
  intro blank
  obtain ⟨low, high⟩ := Bool.and_eq_true_iff.1 ((number_digits n).1 c hc)
  have least : 48 ≤ c.toNat := of_decide_eq_true low
  have most : c.toNat ≤ 57 := of_decide_eq_true high
  simp only [isBlank, Bool.or_eq_true, Bool.and_eq_true, decide_eq_true_eq, beq_iff_eq] at blank
  omega

theorem digits?_number {limit n : Nat} (within : n ≤ limit) : digits? limit (toString n).toList = some n := by
  obtain ⟨digits, some_digits⟩ := number_digits n
  have value : Nat.ofDigitChars 10 (toString n).toList 0 = n := by
    rw [show (toString n).toList = Nat.toDigits 10 n from Nat.toList_repr]
    exact Nat.ofDigitChars_toDigits (by decide) (by decide)
  cases hcs : (toString n).toList with
  | nil => exact absurd hcs some_digits
  | cons c cs =>
    rw [hcs] at digits value
    rw [digits?, digitsFrom?_digits digits (value.symm ▸ within), value]

/-- **The digits of a number are a numeral with its value.** -/
theorem numeral?_number {limit n : Nat} (within : n ≤ limit) : numeral? limit (toString n).toList = some n := by
  have unsigned := number_not_mem (c := '+') (by decide) n
  unfold numeral?
  split
  · next rest signed =>
    rw [signed] at unsigned
    exact absurd List.mem_cons_self unsigned
  · exact digits?_number within

end Text

/-! ## Enhanced status codes -/

namespace EnhancedCode

/-- a code as a reply can carry it: its class is one of three, and its numbers are words of sixteen bits -/
structure Sendable (e : EnhancedCode) : Prop where
  cls : e.cls = 2 ∨ e.cls = 4 ∨ e.cls = 5
  subject : e.subject ≤ Text.wordMax 16
  detail : e.detail ≤ Text.wordMax 16

theorem text_toList (e : EnhancedCode) : e.text.toList
    = (toString e.cls).toList ++ '.' :: ((toString e.subject).toList ++ '.' :: (toString e.detail).toList) := by
  have parts : e.text = toString e.cls ++ ("." ++ (toString e.subject ++ ("." ++ toString e.detail))) := by
    simp only [← String.append_assoc]
    rfl
  rw [parts]
  simp only [String.toList_append]
  rfl

theorem text_blankless (e : EnhancedCode) : Text.Blankless e.text.toList := by
  have stop : Text.isBlank '.' = false := by decide
  rw [text_toList]
  intro c hc
  simp only [List.mem_append, List.mem_cons] at hc
  rcases hc with hc | rfl | hc | rfl | hc
  · exact Text.number_blankless _ c hc
  · exact stop
  · exact Text.number_blankless _ c hc
  · exact stop
  · exact Text.number_blankless _ c hc

theorem text_ne_nil (e : EnhancedCode) : e.text.toList ≠ [] := by
  rw [text_toList]
  exact List.append_ne_nil_of_right_ne_nil _ (List.cons_ne_nil _ _)

theorem ofWord?_text {e : EnhancedCode} (h : e.Sendable) : ofWord? e.text.toList = some e := by
  have absent : ∀ n : Nat, '.' ∉ (toString n).toList := Text.number_not_mem (by decide)
  have small : e.cls ≤ Text.wordMax 8 := by
    rcases h.cls with cls | cls | cls <;> rw [cls] <;> decide
  rw [text_toList, ofWord?, Text.splitOnce_append (absent _)]
  dsimp only [Option.bind_eq_bind, Option.bind_some]
  rw [Text.splitOnce_append (absent _)]
  dsimp only [Option.bind_some]
  rw [Text.numeral?_number small, Text.numeral?_number h.subject, Text.numeral?_number h.detail]
  exact if_pos h.cls

/-- **A code in front of a text is the code of that text.** -/
theorem ofText?_text {e : EnhancedCode} (h : e.Sendable) (after : List Char) :
    ofText? (e.text.toList ++ ' ' :: after) = some e := by
  rw [ofText?, Text.words_append e.text_blankless e.text_ne_nil (by decide), List.head?_cons, Option.bind_some]
  exact ofWord?_text h

end EnhancedCode
end LmtpRelay
