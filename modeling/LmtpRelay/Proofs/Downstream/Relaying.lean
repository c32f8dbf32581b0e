/-
Responses that are passed on. The reply to pass on is written again from the lines of a response: they are joined, an
enhanced code is looked for in the first word of the whole, wherever that stands, and what is passed on after a code is
all that comes after the first space. The code is the one of the response's first word (`enhanced_eq`), and every word
is passed on exactly once where the code is parted from the rest by a space and by nothing else
(`faithful_iff`). Where it is not, words are lost or said twice: `code_ill_parted`.
-/
import LmtpRelay.Proofs.Downstream.Codec
import LmtpRelay.Proofs.Text.Words

namespace LmtpRelay

namespace Response

/-! ## Assembling -/

/-- one more line of text for the response that there is so far -/
def addText (sofar : Option Response) (text : String) : Except ResponseFault (Option Response) := do
  let line ← ResponseLine.parse text
  let response ← push sofar line
  return some response

/-- the response that lines of text make up -/
def assemble (texts : List String) : Except ResponseFault (Option Response) := texts.foldlM addText none

theorem push_texts {sofar : Option Response} {line : ResponseLine} {r : Response} (h : push sofar line = .ok r) :
    r.texts ≠ [] := by
  unfold push at h
  split at h
  · obtain rfl := Except.ok.inj h
    exact List.cons_ne_nil _ _
  · split at h
    · obtain rfl := Except.ok.inj h
      exact List.cons_ne_nil _ _
    · cases h

theorem assemble_lines {texts : List String} {r : Response} (h : assemble texts = .ok (some r)) : r.lines ≠ [] := by
  have step : ∀ {sofar sofar' : Option Response} {text : String}, (∀ r ∈ sofar, r.texts ≠ []) → True →
      addText sofar text = .ok sofar' → ∀ r ∈ sofar', r.texts ≠ [] := by
    intro sofar sofar' text _ _ added r hr
    obtain ⟨line, -, added⟩ := bind_ok added
    obtain ⟨response, pushed, added⟩ := bind_ok added
    obtain rfl := Except.ok.inj added
    obtain rfl := Option.some.inj hr
    exact push_texts pushed
  have some_text := foldlM_keeps (P := fun sofar => ∀ r ∈ sofar, r.texts ≠ []) step (Q := fun _ => True) nofun
    (fun _ _ => trivial) h r rfl
  simpa [lines] using some_text

/-! ## What is passed on -/

def joined (r : Response) : List Char := (" ".intercalate r.lines).toList

def words (r : Response) : List (List Char) := r.lines.flatMap fun line => Text.words line.toList

/-- the first line as far as its first space -/
def firstPart (r : Response) : List Char := (r.lines.headD "").toList.takeWhile fun c => c ≠ ' '

/-- words as they were given, except that an enhanced code in front may be written anew -/
def KeptAs (given sent : List (List Char)) : Prop :=
  sent = given ∨ ∃ word rest code, given = word :: rest ∧ EnhancedCode.ofWord? word = some code ∧
    sent = code.text.toList :: rest

theorem KeptAs.length {given sent : List (List Char)} (h : KeptAs given sent) : sent.length = given.length := by
  rcases h with rfl | ⟨word, rest, code, rfl, -, rfl⟩
  · rfl
  · rfl

/-- the reply to pass on says what the response says: its code and then its words, none lost and none repeated; and it
has an enhanced code only where the first line begins with it -/
structure Faithful (r : Response) : Prop where
  words : ∃ sent, Text.words r.reply.text.toList = (toString r.code).toList :: sent ∧ KeptAs r.words sent
  code : ∀ code, r.reply.enhanced = some code →
    ∃ first others, r.lines = first :: others ∧ EnhancedCode.ofText? first.toList = some code

/-- an enhanced code that comes first of all words stands alone in front of the first space of the first line -/
def CodeParted (r : Response) : Prop :=
  ∀ word rest, r.words = word :: rest → (EnhancedCode.ofWord? word).isSome → Text.words r.firstPart = [word]

theorem words_joined (r : Response) : Text.words r.joined = r.words := Text.words_intercalate r.lines

def afterSpace (cs : List Char) : List Char := (Text.splitOnce ' ' cs).elim [] Prod.snd

/-- a text is cut at its first space without harm to a word -/
theorem words_cut (cs : List Char) :
    Text.words cs = Text.words (cs.takeWhile fun c => c ≠ ' ') ++ Text.words (afterSpace cs) := by
  unfold afterSpace
  cases cut : Text.splitOnce ' ' cs with
  | none =>
    have absent := Text.splitOnce_eq_none_iff.1 cut
    have all : (cs.takeWhile fun c => c ≠ ' ') = cs :=
      List.takeWhile_eq_self_iff.2 fun c hc => decide_eq_true fun same => absent (same ▸ hc)
    rw [all]
    exact (List.append_nil _).symm
  | some parts =>
    obtain ⟨before, after⟩ := parts
    obtain ⟨rfl, absent⟩ := Text.splitOnce_eq_some_iff.1 cut
    have front : ∀ c ∈ before, decide (c ≠ ' ') = true := fun c hc => decide_eq_true fun same => absent (same ▸ hc)
    have kept : ((before ++ ' ' :: after).takeWhile fun c => c ≠ ' ') = before := by
      rw [List.takeWhile_append_of_pos front]
      exact List.append_nil before
    rw [kept]
    exact Text.words_split (by decide) before after

/-- the first space of the joined lines is the first of the first line, or comes right after that -/
theorem joined_takeWhile {r : Response} (some_line : r.lines ≠ []) :
    (r.joined.takeWhile fun c => c ≠ ' ') = r.firstPart := by
  unfold joined firstPart
  rw [String.toList_intercalate]
  cases hl : r.lines with
  | nil => exact absurd hl some_line
  | cons first others =>
    cases others with
    | nil => simp
    | cons next others =>
      rw [List.map_cons, List.map_cons, List.intercalate_cons_cons, List.append_assoc, List.takeWhile_append]
      split
      · next whole =>
        have all := (List.takeWhile_prefix _).eq_of_length whole
        show first.toList ++ [] = first.toList.takeWhile _
        rw [all, List.append_nil]
      · rfl

theorem reply_coded {r : Response} {code : EnhancedCode} (h : EnhancedCode.ofText? r.joined = some code) :
    r.reply = ⟨⟨r.code⟩, some code, String.ofList (afterSpace r.joined)⟩ := by
  unfold joined at h
  simp only [reply, h]
  rfl

theorem reply_uncoded {r : Response} (h : EnhancedCode.ofText? r.joined = none) :
    r.reply = ⟨⟨r.code⟩, none, " ".intercalate r.lines⟩ := by
  unfold joined at h
  simp only [reply, h]

/-- **The code that is passed on is the one of the first word,** in whatever line that stands. -/
theorem enhanced_eq (r : Response) : r.reply.enhanced = r.words.head?.bind EnhancedCode.ofWord? := by
  rw [← words_joined]
  show r.reply.enhanced = EnhancedCode.ofText? r.joined
  cases h : EnhancedCode.ofText? r.joined with
  | none => rw [reply_uncoded h]
  | some code => rw [reply_coded h]

theorem message_eq (r : Response) : r.reply.message.toList =
    if r.reply.enhanced.isSome then afterSpace r.joined else r.joined := by
  cases h : EnhancedCode.ofText? r.joined with
  | none =>
    rw [reply_uncoded h]
    rfl
  | some code =>
    rw [reply_coded h]
    exact String.toList_ofList

end Response

theorem Reply.words_text (r : Reply) : Text.words r.text.toList = (toString r.status.code).toList ::
    (r.enhanced.toList.map (fun code => code.text.toList) ++ Text.words r.message.toList) := by
  have code : ∀ more, Text.words ((toString r.status.code).toList ++ ' ' :: more)
      = (toString r.status.code).toList :: Text.words more := by
    intro more
    rw [Text.words_split (by decide), Text.words_self (Text.number_blankless _) (Text.number_digits _).2]
    rfl
  have text : r.text.toList = (toString r.status.code).toList ++ ' ' :: r.wording.toList := by
    rw [text_wording, String.toList_append, String.toList_append, List.append_assoc]
    rfl
  rw [text, code, wording]
  cases r.enhanced with
  | none => rfl
  | some e =>
    show _ :: Text.words (e.text ++ " " ++ r.message).toList = _
    rw [String.toList_append, String.toList_append, List.append_assoc]
    show _ :: Text.words (e.text.toList ++ ' ' :: r.message.toList) = _
    rw [Text.words_append e.text_blankless e.text_ne_nil (by decide)]
    rfl

namespace Response

/-- where no code is found, all words are passed on -/
theorem words_without_code {r : Response} (none_found : r.reply.enhanced = none) :
    Text.words r.reply.text.toList = (toString r.code).toList :: r.words := by
  have code : r.reply.status.code = r.code := by
    unfold reply
    dsimp only
    split <;> rfl
  rw [Reply.words_text, message_eq, none_found, code, ← words_joined]
  rfl

/-- where a code is found, it is passed on with what comes after the first space -/
theorem words_with_code {r : Response} {e : EnhancedCode} (found : r.reply.enhanced = some e) :
    Text.words r.reply.text.toList
      = (toString r.code).toList :: e.text.toList :: Text.words (afterSpace r.joined) := by
  have code : r.reply.status.code = r.code := by
    unfold reply
    dsimp only
    split <;> rfl
  rw [Reply.words_text, message_eq, found, code]
  rfl

/-- **Every word is passed on exactly once if and only if the code is parted from the rest by a space.** The code that is
passed on is always the one of the first word, in whatever line that stands. -/
theorem faithful_iff {texts : List String} {r : Response} (assembled : assemble texts = .ok (some r)) :
    r.reply.enhanced = r.words.head?.bind EnhancedCode.ofWord? ∧ (r.Faithful ↔ r.CodeParted) := by
  refine ⟨r.enhanced_eq, ?_⟩
  have some_line := assemble_lines assembled
  have cut : r.words = Text.words r.firstPart ++ Text.words (afterSpace r.joined) := by
    rw [← words_joined, words_cut, joined_takeWhile some_line]
  constructor
  · intro faithful word rest given code
    obtain ⟨e, he⟩ := Option.isSome_iff_exists.1 code
    have found : r.reply.enhanced = some e := by
      rw [enhanced_eq, given]
      exact he
    obtain ⟨sent, said, kept⟩ := faithful.words
    rw [words_with_code found] at said
    obtain rfl := (List.cons.inj said).2
    -- as many words come after the space as come after the first word, so the first word is all there is before it
    have all_kept : (Text.words r.firstPart).length = 1 := by
      have total := congrArg List.length cut
      have as_many := kept.length
      simp only [List.length_append, List.length_cons] at total as_many
      omega
    obtain ⟨word', alone⟩ := List.length_eq_one_iff.1 all_kept
    rw [alone, given] at cut
    rw [alone, (List.cons.inj cut).1]
  · intro parted
    cases found : r.reply.enhanced with
    | none => exact ⟨⟨r.words, words_without_code found, .inl rfl⟩, by simp [found]⟩
    | some e =>
      obtain ⟨word, first, code⟩ := Option.bind_eq_some_iff.1 ((enhanced_eq r).symm.trans found)
      obtain ⟨rest, given⟩ : ∃ rest, r.words = word :: rest := by
        cases hw : r.words with
        | nil => simp [hw] at first
        | cons w ws => exact ⟨ws, by simpa [hw] using first⟩
      have alone := parted word rest given (by simp [code])
      rw [alone, given, List.singleton_append] at cut
      refine ⟨⟨e.text.toList :: rest, ?_, .inr ⟨word, rest, e, given, code, rfl⟩⟩, fun e' he' => ?_⟩
      · rw [words_with_code found, ← (List.cons.inj cut).2]
      · obtain rfl := Option.some.inj (found.symm.trans he')
        obtain ⟨line, others, lines⟩ := List.exists_cons_of_ne_nil some_line
        have first_word : Text.words line.toList = word :: Text.words (afterSpace line.toList) := by
          unfold firstPart at alone
          rw [lines, List.headD_cons] at alone
          rw [words_cut, alone]
          rfl
        refine ⟨line, others, lines, ?_⟩
        rw [EnhancedCode.ofText?, first_word]
        exact code

namespace Sample

/-- a code that a space parts from the text, in three lines of which one is empty -/
def parted : List String := ["550-5.01.1 relay  03", "550-", "550 <q@fwd>\tunknown"]

/-- a code that a tabulator parts from the text -/
def tabbed : List String := ["550 5.1.1\tUser unknown"]

/-- a code that comes after an empty line -/
def late : List String := ["550-", "550 5.1.1 no"]

end Sample

/-- a response that is passed on word by word, its code in the usual form, and one that is not -/
theorem faithful_iff_samples : ∃ r r', assemble Sample.parted = .ok (some r) ∧ assemble Sample.late = .ok (some r') ∧
    r.Faithful ∧ r.reply.text = "550 5.1.1 relay  03  <q@fwd>\tunknown" ∧ ¬r'.Faithful ∧
    r'.reply.text = "550 5.1.1 5.1.1 no" := by
  have kept : assemble Sample.parted = .ok (some ⟨550, ["<q@fwd>\tunknown", "", "5.01.1 relay  03"]⟩) := rfl
  have repeated : assemble Sample.late = .ok (some ⟨550, ["5.1.1 no", ""]⟩) := rfl
  refine ⟨_, _, kept, repeated, (faithful_iff kept).2.2 ?_, by decide, fun h => ?_, by decide⟩
  · intro word rest given _
    have words : words ⟨550, ["<q@fwd>\tunknown", "", "5.01.1 relay  03"]⟩
        = "5.01.1".toList :: ["relay".toList, "03".toList, "<q@fwd>".toList, "unknown".toList] := by decide
    rw [← (List.cons.inj (words.symm.trans given)).1]
    decide
  · have alone := (faithful_iff repeated).2.1 h "5.1.1".toList ["no".toList] (by decide) (by decide)
    exact absurd alone (by decide)

/-- **Words are lost, and words are said twice.** Behind a tabulator the next word is lost. Behind an empty line the code
is taken from the second line, and said twice. -/
theorem code_ill_parted : (∃ r, assemble Sample.tabbed = .ok (some r) ∧ r.reply.text = "550 5.1.1 unknown" ∧
      ¬r.Faithful) ∧
    ∃ r, assemble Sample.late = .ok (some r) ∧ r.reply.enhanced = some .badDestination ∧
      r.reply.text = "550 5.1.1 5.1.1 no" ∧ ¬r.Faithful := by
  refine ⟨⟨⟨550, ["5.1.1\tUser unknown"]⟩, rfl, by decide, fun h => ?_⟩,
    ⟨⟨550, ["5.1.1 no", ""]⟩, rfl, by decide, by decide, fun h => ?_⟩⟩
  · obtain ⟨sent, said, kept⟩ := h.words
    have all := congrArg List.length said
    have three : (words ⟨550, ["5.1.1\tUser unknown"]⟩).length = 3 := by decide
    rw [List.length_cons, kept.length, three] at all
    exact absurd all (by decide)
  · obtain ⟨first, others, lines, code⟩ := h.code .badDestination (by decide)
    obtain ⟨rfl, -⟩ := List.cons.inj lines
    exact absurd code (by decide)

end Response
end LmtpRelay
