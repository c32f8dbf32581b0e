/-
Words and what stands between them. A blank parts a text into words on either side of it (`words_split`), so how many
blanks there are and where a text is padded with them does not matter: `trim_padded`, `words_trimEnd`. The words of a
text are those that blanks part in it, each without blanks: `words_eq_iff`. A text is cut at the first mark, if there is
one: `splitOnce_eq_some_iff`. Letter case changes no blank, and no character that is not a letter: `mem_of_sameFolded`.
-/
import LmtpRelay.Proofs.Text.Numerals

namespace LmtpRelay.Text

/-! ## Blanks -/

/-- characters all of which are blank -/
def Blank (cs : List Char) : Prop := ∀ c ∈ cs, isBlank c = true

instance (cs : List Char) : Decidable (Blank cs) := List.decidableBAll _ cs

instance (cs : List Char) : Decidable (Blankless cs) := List.decidableBAll _ cs

theorem Blank.nil : Blank [] := fun _ h => absurd h List.not_mem_nil

theorem Blank.cons {c : Char} {cs : List Char} (blank : isBlank c = true) (more : Blank cs) : Blank (c :: cs) := by
  intro d hd
  rcases List.mem_cons.1 hd with rfl | hd
  · exact blank
  · exact more d hd

theorem Blank.tail {c : Char} {cs : List Char} (h : Blank (c :: cs)) : Blank cs := fun d hd =>
  h d (List.mem_cons_of_mem c hd)

theorem Blankless.tail {c : Char} {cs : List Char} (h : Blankless (c :: cs)) : Blankless cs := fun d hd =>
  h d (List.mem_cons_of_mem c hd)

theorem Blankless.append {a b : List Char} (ha : Blankless a) (hb : Blankless b) : Blankless (a ++ b) := fun c hc =>
  (List.mem_append.1 hc).elim (ha c) (hb c)

theorem startsWord_cons (c : Char) (cs : List Char) : startsWord (c :: cs) = !isBlank c := rfl

/-- what starts no word is nothing, or begins with a blank -/
theorem startsWord_eq_false {cs : List Char} (h : startsWord cs = false) :
    cs = [] ∨ ∃ c rest, isBlank c = true ∧ cs = c :: rest := by
  cases cs with
  | nil => exact .inl rfl
  | cons c rest => exact .inr ⟨c, rest, by simpa [startsWord_cons] using h, rfl⟩

/-! ## Trimming -/

theorem trimStart_blank {before : List Char} (blank : Blank before) (cs : List Char) :
    trimStart (before ++ cs) = trimStart cs := List.dropWhile_append_of_pos blank

theorem trimStart_word {cs : List Char} (h : startsWord cs = true) : trimStart cs = cs := by
  cases cs with
  | nil => rfl
  | cons c rest => exact List.dropWhile_cons_of_neg (by simpa [startsWord_cons] using h)

/-- one more character at the end is dropped, or ends the text -/
theorem trimEnd_concat (cs : List Char) (c : Char) :
    trimEnd (cs ++ [c]) = if isBlank c then trimEnd cs else cs ++ [c] := by
  induction cs with
  | nil => rfl
  | cons d ds ih =>
    rw [List.cons_append, trimEnd, ih]
    by_cases hc : isBlank c = true
    · rw [if_pos hc, if_pos hc, trimEnd]
    · rw [if_neg hc, if_neg hc]
      cases ds <;> rfl

theorem trimEnd_blank {after : List Char} (blank : Blank after) (cs : List Char) :
    trimEnd (cs ++ after) = trimEnd cs := by
  induction after using List.reverseRecOn with
  | nil => rw [List.append_nil]
  | append_singleton after c ih =>
    rw [← List.append_assoc, trimEnd_concat, if_pos (blank c (by simp))]
    exact ih fun d hd => blank d (List.mem_append_left [c] hd)

theorem trimEnd_spec (cs : List Char) : ∃ after, Blank after ∧ cs = trimEnd cs ++ after := by
  induction cs using List.reverseRecOn with
  | nil => exact ⟨[], .nil, rfl⟩
  | append_singleton cs c ih =>
    rw [trimEnd_concat]
    split
    · next blank =>
      obtain ⟨after, all, same⟩ := ih
      refine ⟨after ++ [c], fun d hd => ?_, ?_⟩
      · rcases List.mem_append.1 hd with hd | hd
        · exact all d hd
        · rwa [List.mem_singleton.1 hd]
      · rw [← List.append_assoc, ← same]
    · exact ⟨[], .nil, (List.append_nil _).symm⟩

/-- a text that ends with a visible character keeps it, whatever comes after -/
theorem trimEnd_append (cs : List Char) {c : Char} (visible : isBlank c = false) (after : List Char) :
    trimEnd (cs ++ c :: after) = cs ++ c :: trimEnd after := by
  obtain ⟨dropped, blank, same⟩ := trimEnd_spec after
  have visible' : ¬isBlank c = true := by simp [visible]
  conv => lhs; rw [same, ← List.cons_append, ← List.append_assoc, trimEnd_blank blank]
  induction after using List.reverseRecOn generalizing dropped with
  | nil =>
    show trimEnd (cs ++ [c]) = cs ++ [c]
    rw [trimEnd_concat, if_neg visible']
  | append_singleton after d ih =>
    rw [trimEnd_concat] at same ⊢
    split
    · next hd =>
      obtain ⟨dropped', blank', same'⟩ := trimEnd_spec after
      exact ih dropped' blank' same'
    · next hd =>
      rw [← List.cons_append, ← List.append_assoc, trimEnd_concat, if_neg hd]

theorem trimEnd_blankless {word : List Char} (blankless : Blankless word) (some_chars : word ≠ []) (after : List Char) :
    trimEnd (word ++ after) = word ++ trimEnd after := by
  have last := List.dropLast_concat_getLast some_chars
  rw [← last, List.append_assoc, List.append_assoc]
  exact trimEnd_append _ (blankless _ (List.getLast_mem some_chars)) after

theorem startsWord_trimEnd {cs : List Char} (h : startsWord cs = false) : startsWord (trimEnd cs) = false := by
  obtain ⟨after, -, same⟩ := trimEnd_spec cs
  cases kept : trimEnd cs with
  | nil => rfl
  | cons c rest =>
    rw [kept] at same
    rw [same] at h
    exact h

/-- **Blanks at either end of a text do not matter.** -/
theorem trim_padded {before after : List Char} (front : Blank before) (back : Blank after) (cs : List Char) :
    trim (before ++ cs ++ after) = trim cs := by
  rw [trim, trim, List.append_assoc, trimStart_blank front]
  by_cases all : Blank cs
  · -- nothing of the text is left in either case
    have left := trimStart_blank all after
    have text := trimStart_blank all []
    have none_left := trimStart_blank back []
    rw [List.append_nil] at text none_left
    rw [left, text, none_left]
  · obtain ⟨c, hc, visible⟩ : ∃ c ∈ cs, isBlank c = false := by simpa [Blank] using all
    have some_left : ¬(cs.dropWhile isBlank).isEmpty = true := by
      rw [List.isEmpty_iff, List.dropWhile_eq_nil_iff]
      exact fun all => absurd (all c hc) (by simp [visible])
    have kept : trimStart (cs ++ after) = trimStart cs ++ after :=
      List.dropWhile_append.trans (if_neg some_left)
    rw [kept, trimEnd_blank back]

theorem trim_trimEnd (cs : List Char) : trim (trimEnd cs) = trim cs := by
  obtain ⟨after, blank, same⟩ := trimEnd_spec cs
  conv => rhs; rw [same]
  exact (trim_padded .nil blank (trimEnd cs)).symm

/-- what is dropped at either end is blank -/
theorem trim_spec (cs : List Char) :
    ∃ before after, Blank before ∧ Blank after ∧ cs = before ++ (trim cs ++ after) := by
  obtain ⟨after, blank, same⟩ := trimEnd_spec (trimStart cs)
  refine ⟨cs.takeWhile isBlank, after, fun c hc => List.mem_takeWhile_imp hc, blank, ?_⟩
  rw [trim, ← same]
  exact List.takeWhile_append_dropWhile.symm

theorem trim_trim (cs : List Char) : trim (trim cs) = trim cs := by
  obtain ⟨before, after, front, back, same⟩ := trim_spec cs
  conv => rhs; rw [same, ← List.append_assoc]
  exact (trim_padded front back _).symm

/-! ## Words -/

theorem words_blank {before : List Char} (blank : Blank before) (cs : List Char) :
    words (before ++ cs) = words cs := by
  induction before with
  | nil => rfl
  | cons c before ih =>
    rw [List.cons_append, words, if_pos (blank c List.mem_cons_self)]
    exact ih blank.tail

theorem words_ne_nil {cs : List Char} (h : startsWord cs = true) : words cs ≠ [] := by
  cases cs with
  | nil => cases h
  | cons c cs =>
    rw [startsWord_cons, Bool.not_eq_true'] at h
    rw [words, if_neg (by simp [h])]
    split
    · cases words cs <;> exact List.cons_ne_nil _ _
    · exact List.cons_ne_nil _ _

theorem consWord_append {c : Char} {ws : List (List Char)} (some_words : ws ≠ []) (others : List (List Char)) :
    consWord c (ws ++ others) = consWord c ws ++ others := by
  cases ws with
  | nil => exact absurd rfl some_words
  | cons w ws => rfl

/-- **A blank parts the words before it from the words after it.** -/
theorem words_split {blank : Char} (isBlank : isBlank blank = true) (before after : List Char) :
    words (before ++ blank :: after) = words before ++ words after := by
  induction before with
  | nil => exact words_blank (fun c hc => by rwa [List.mem_singleton.1 hc]) after
  | cons c before ih =>
    have starts : startsWord (before ++ blank :: after) = startsWord before := by
      cases before with
      | nil => simp [isBlank, startsWord]
      | cons d ds => rfl
    rw [List.cons_append, words, words, ih, starts]
    split
    · rfl
    · split
      · next h => exact consWord_append (words_ne_nil h) _
      · rfl

theorem words_self {word : List Char} (blankless : Blankless word) (some_chars : word ≠ []) : words word = [word] := by
  induction word with
  | nil => exact absurd rfl some_chars
  | cons c cs ih =>
    have visible : ¬isBlank c = true := by simp [blankless c List.mem_cons_self]
    rw [words, if_neg visible]
    cases cs with
    | nil => rfl
    | cons d ds =>
      have starts : startsWord (d :: ds) = true := by simp [startsWord_cons, blankless d (by simp)]
      rw [if_pos starts, ih blankless.tail (List.cons_ne_nil d ds)]
      rfl

theorem words_word {word : List Char} (blankless : Blankless word) (some_chars : word ≠ []) {more : List Char}
    (parted : startsWord more = false) : words (word ++ more) = word :: words more := by
  rcases startsWord_eq_false parted with rfl | ⟨blank, rest, isBlank, rfl⟩
  · rw [List.append_nil, words_self blankless some_chars]
    rfl
  · exact words_append blankless some_chars isBlank rest

/-- how a text is made of words: each stands between blanks, or at an end of the text -/
inductive Parted : List Char → List (List Char) → Prop where
  | blank {cs : List Char} (blank : Blank cs) : Parted cs []
  | word {gap word more : List Char} {others : List (List Char)} (blank : Blank gap) (blankless : Blankless word)
    (some_chars : word ≠ []) (ends : startsWord more = false) (rest : Parted more others) :
    Parted (gap ++ (word ++ more)) (word :: others)

theorem Parted.pad {c : Char} (isBlank : isBlank c = true) {cs : List Char} {ws : List (List Char)}
    (h : Parted cs ws) : Parted (c :: cs) ws := by
  cases h with
  | blank blank => exact .blank (blank.cons isBlank)
  | @word gap word more others blank blankless some_chars ends rest =>
    exact @Parted.word (c :: gap) word more others (blank.cons isBlank) blankless some_chars ends rest

/-- a visible character in front of a word belongs to that word -/
theorem Parted.grow {c : Char} (visible : Text.isBlank c = false) {cs : List Char} (starts : startsWord cs = true)
    {ws : List (List Char)} (h : Parted cs ws) : Parted (c :: cs) (consWord c ws) := by
  cases h with
  | blank blank =>
    cases cs with
    | nil => cases starts
    | cons d ds => simp [startsWord_cons, blank d List.mem_cons_self] at starts
  | @word gap word more others blank blankless some_chars ends rest =>
    cases gap with
    | cons d ds => simp [startsWord_cons, blank d List.mem_cons_self] at starts
    | nil =>
      refine @Parted.word [] (c :: word) more others .nil (fun d there => ?_) (List.cons_ne_nil c word) ends rest
      rcases List.mem_cons.1 there with rfl | there
      · exact visible
      · exact blankless d there

/-- **The words of a text are what it is made of between its blanks.** -/
theorem words_eq_iff {cs : List Char} {ws : List (List Char)} : words cs = ws ↔ Parted cs ws := by
  constructor
  · rintro rfl
    induction cs with
    | nil => exact .blank .nil
    | cons c cs ih =>
      rw [words]
      split
      · next isBlank => exact ih.pad isBlank
      · next visible =>
        rw [Bool.not_eq_true] at visible
        split
        · next starts => exact ih.grow visible starts
        · next ends =>
          refine @Parted.word [] [c] cs _ .nil (fun d there => ?_) (List.cons_ne_nil c []) (by simpa using ends) ih
          rwa [List.mem_singleton.1 there]
  · intro h
    induction h with
    | @blank cs blank => rw [← List.append_nil cs, words_blank blank]; rfl
    | word blank blankless some_chars ends _ ih => rw [words_blank blank, words_word blankless some_chars ends, ih]

theorem words_trimEnd (cs : List Char) : words (trimEnd cs) = words cs := by
  obtain ⟨after, blank, same⟩ := trimEnd_spec cs
  conv => rhs; rw [same]
  cases after with
  | nil => rw [List.append_nil]
  | cons c after =>
    have none_left : words after = [] := by
      rw [← List.append_nil after, words_blank blank.tail]
      rfl
    rw [words_split (blank c List.mem_cons_self), none_left, List.append_nil]

theorem ne_nil_of_mem_words {cs word : List Char} (h : word ∈ words cs) : word ≠ [] := by
  induction cs generalizing word with
  | nil => cases h
  | cons c cs ih =>
    rw [words] at h
    split at h
    · exact ih h
    · split at h
      · cases hw : words cs with
        | nil =>
          rw [hw] at h
          rw [List.mem_singleton.1 h]
          exact List.cons_ne_nil _ _
        | cons w ws =>
          rw [hw] at h ih
          rcases List.mem_cons.1 h with rfl | h
          · exact List.cons_ne_nil _ _
          · exact ih (List.mem_cons_of_mem w h)
      · rcases List.mem_cons.1 h with rfl | h
        · exact List.cons_ne_nil _ _
        · exact ih h

/-- the words of texts that are put together with spaces -/
theorem words_intercalate (texts : List String) :
    words (" ".intercalate texts).toList = texts.flatMap fun text => words text.toList := by
  rw [String.toList_intercalate]
  induction texts with
  | nil => rfl
  | cons text rest ih =>
    cases rest with
    | nil => simp
    | cons next rest =>
      rw [List.map_cons] at ih ⊢
      rw [List.map_cons, List.intercalate_cons_cons, List.append_assoc, List.flatMap_cons, ← ih]
      exact words_split (by decide) _ _

/-! ## Marks -/

theorem splitOnce_eq_some_iff {mark : Char} {cs before after : List Char} :
    splitOnce mark cs = some (before, after) ↔ cs = before ++ mark :: after ∧ mark ∉ before := by
  refine ⟨fun h => ?_, fun ⟨same, absent⟩ => same ▸ splitOnce_append absent after⟩
  induction cs generalizing before with
  | nil => cases h
  | cons c cs ih =>
    rw [splitOnce] at h
    split at h
    · next here =>
      obtain ⟨rfl, rfl⟩ := Prod.mk.inj (Option.some.inj h)
      exact ⟨by rw [here]; rfl, List.not_mem_nil⟩
    · next other =>
      obtain ⟨⟨b, a⟩, hb, same⟩ := Option.map_eq_some_iff.1 h
      obtain ⟨rfl, rfl⟩ := Prod.mk.inj same
      obtain ⟨rfl, absent⟩ := ih hb
      exact ⟨rfl, fun hm => (List.mem_cons.1 hm).elim (fun same => other same.symm) absent⟩

theorem splitOnce_eq_none_iff {mark : Char} {cs : List Char} : splitOnce mark cs = none ↔ mark ∉ cs := by
  constructor
  · intro h there
    obtain ⟨before, after, same, absent⟩ := List.eq_append_cons_of_mem there
    rw [splitOnce_eq_some_iff.2 ⟨same, absent⟩] at h
    cases h
  · intro absent
    cases h : splitOnce mark cs with
    | none => rfl
    | some parts =>
      obtain ⟨same, -⟩ := splitOnce_eq_some_iff.1 h
      exact absurd (by rw [same]; simp) absent

/-- what has no mark in it stays in front of the first mark -/
theorem splitOnce_not_mem {mark : Char} {before : List Char} (absent : mark ∉ before) (cs : List Char) :
    splitOnce mark (before ++ cs) = (splitOnce mark cs).map fun (b, after) => (before ++ b, after) := by
  cases h : splitOnce mark cs with
  | none =>
    rw [splitOnce_eq_none_iff] at h
    exact splitOnce_eq_none_iff.2 (by simp [absent, h])
  | some parts =>
    obtain ⟨rfl, absent'⟩ := splitOnce_eq_some_iff.1 h
    exact splitOnce_eq_some_iff.2 ⟨(List.append_assoc _ _ _).symm, by simp [absent, absent']⟩

theorem splitBlank_trim {gap word more : List Char} (blank : Blank gap) (blankless : Blankless word)
    (some_chars : word ≠ []) (parted : startsWord more = false) :
    ∃ rest, splitBlank (trim (gap ++ (word ++ more))) = (word, rest) ∧ words rest = words more := by
  have starts : startsWord (word ++ more) = true := startsWord_append blankless some_chars more
  rw [trim, trimStart_blank blank, trimStart_word starts, trimEnd_blankless blankless some_chars]
  have visible : ∀ c ∈ word, (!isBlank c) = true := fun c hc => by simp [blankless c hc]
  refine ⟨(trimEnd more).drop 1, ?_, ?_⟩
  · rw [splitBlank, List.takeWhile_append_of_pos visible, List.dropWhile_append_of_pos visible]
    rcases startsWord_eq_false (startsWord_trimEnd parted) with none_left | ⟨c, rest, isBlank, some_left⟩
    · simp [none_left]
    · simp [some_left, isBlank]
  · rw [← words_trimEnd more]
    rcases startsWord_eq_false (startsWord_trimEnd parted) with none_left | ⟨c, rest, isBlank, some_left⟩
    · rw [none_left, List.drop_nil]
    · rw [some_left, words, if_pos isBlank]
      rfl

/-! ## Letter case -/

theorem sameFolded_iff {a b : List Char} : sameFolded a b = true ↔ upper a = upper b := beq_iff_eq

theorem sameFolded_length {a b : List Char} (same : sameFolded a b = true) : a.length = b.length := by
  have lengths := congrArg List.length (sameFolded_iff.1 same)
  simpa [upper] using lengths

theorem sameFolded_symm {a b : List Char} (same : sameFolded a b = true) : sameFolded b a = true :=
  sameFolded_iff.2 (sameFolded_iff.1 same).symm

theorem sameFolded_trans {a b c : List Char} (h : sameFolded a b = true) (h' : sameFolded b c = true) :
    sameFolded a c = true := sameFolded_iff.2 ((sameFolded_iff.1 h).trans (sameFolded_iff.1 h'))

theorem sameFolded_append {a b : List Char} (same : sameFolded a b = true) (more : List Char) :
    sameFolded (a ++ more) (b ++ more) = true := by
  rw [sameFolded_iff, upper, upper, List.map_append, List.map_append]
  exact congrArg (· ++ _) (sameFolded_iff.1 same)

/-- a character that is changed becomes a capital letter -/
theorem toUpper_eq_or (c : Char) : c.toUpper = c ∨ c.toUpper.isUpper = true := by
  by_cases small : c.isLower = true
  · right
    rw [Char.isUpper_toUpper_eq_isAlpha, Char.isAlpha, small, Bool.or_true]
  · exact .inl (Char.toUpper_eq_of_not_isLower small)

theorem sameFolded_upper (cs : List Char) : sameFolded cs (upper cs) = true := by
  rw [sameFolded_iff, upper, upper, List.map_map]
  exact List.map_congr_left fun c _ => (Char.toUpper_toUpper_eq_toUpper c).symm

/-- **Letter case changes no character that is not a letter.** -/
theorem mem_upper_iff {c : Char} (fixed : c.toUpper = c) (other : c.isUpper = false) {cs : List Char} :
    c ∈ upper cs ↔ c ∈ cs := by
  constructor
  · intro h
    obtain ⟨d, hd, same⟩ := List.mem_map.1 h
    rcases toUpper_eq_or d with fixed' | capital
    · rwa [← same, fixed']
    · rw [same, other] at capital
      cases capital
  · intro h
    exact List.mem_map.2 ⟨c, h, fixed⟩

theorem mem_of_sameFolded {a b : List Char} (same : sameFolded a b = true) {c : Char} (fixed : c.toUpper = c)
    (other : c.isUpper = false) : c ∈ a ↔ c ∈ b := by
  rw [← mem_upper_iff fixed other, sameFolded_iff.1 same, mem_upper_iff fixed other]

theorem isBlank_upper (c : Char) : isBlank c.toUpper = isBlank c := by
  cases h : isBlank c with
  | false => exact isBlank_toUpper h
  | true =>
    unfold Char.toUpper
    split
    · next letter =>
      have low : 97 ≤ c.val.toNat := letter.1
      have high : c.val.toNat ≤ 122 := letter.2
      simp only [isBlank, Char.toNat, Bool.or_eq_true, Bool.and_eq_true, decide_eq_true_eq, beq_iff_eq] at h
      omega
    · exact h

theorem blankless_of_sameFolded {a b : List Char} (same : sameFolded a b = true) (blankless : Blankless a) :
    Blankless b := by
  intro c hc
  have there : c.toUpper ∈ upper a := by
    rw [sameFolded_iff.1 same]
    exact List.mem_map_of_mem hc
  rw [← isBlank_upper]
  exact upper_blankless blankless _ there

theorem startsWord_upper (cs : List Char) : startsWord (upper cs) = startsWord cs := by
  cases cs with
  | nil => rfl
  | cons c cs => exact congrArg (!·) (isBlank_upper c)

/-- what is dropped is the same up to letter case -/
theorem dropFolded?_eq_some_iff {word cs rest : List Char} :
    dropFolded? word cs = some rest ↔ ∃ head, cs = head ++ rest ∧ sameFolded head word = true := by
  unfold dropFolded?
  constructor
  · intro h
    split at h
    · next there =>
      obtain ⟨-, same⟩ := Bool.and_eq_true_iff.1 there
      obtain rfl := Option.some.inj h
      exact ⟨cs.take word.length, (List.take_append_drop _ _).symm, same⟩
    · cases h
  · rintro ⟨head, rfl, same⟩
    simp [← sameFolded_length same, same]

theorem dropFolded?_other {c d : Char} {word cs : List Char} (other : c.toUpper ≠ d.toUpper) :
    dropFolded? (d :: word) (c :: cs) = none := by
  rw [Option.eq_none_iff_forall_ne_some]
  intro rest h
  obtain ⟨head, same, folded⟩ := dropFolded?_eq_some_iff.1 h
  cases head with
  | nil => cases sameFolded_length folded
  | cons c' head =>
    obtain ⟨rfl, -⟩ := List.cons.inj same
    exact other (List.cons.inj (sameFolded_iff.1 folded)).1

/-- words that begin and end with visible characters stay when the text is trimmed, in any letter case -/
theorem trim_folded {before head : List Char} (word : List Char) (last : Char) (blank : Blank before)
    (same : sameFolded head (word ++ [last]) = true) (starts : startsWord (word ++ [last]) = true)
    (visible : isBlank last = false) (rest : List Char) : trim (before ++ (head ++ rest)) = head ++ trimEnd rest := by
  have upper_same := sameFolded_iff.1 same
  have starts' : startsWord (head ++ rest) = true := by
    rw [← startsWord_upper, ← upper_same, startsWord_upper] at starts
    cases head with
    | nil => cases starts
    | cons c head => exact starts
  obtain ⟨front, back, rfl, -, last_same⟩ := List.map_eq_append_iff.1 (upper_same.trans (List.map_append ..))
  obtain ⟨c, rfl⟩ : ∃ c, back = [c] := by
    have length := congrArg List.length last_same
    exact List.length_eq_one_iff.1 (by simpa using length)
  have visible' : isBlank c = false := by
    rw [← isBlank_upper, (List.cons.inj last_same).1, isBlank_upper, visible]
  rw [trim, trimStart_blank blank, trimStart_word starts', List.append_assoc, List.singleton_append,
    trimEnd_append front visible', List.append_assoc, List.singleton_append]

end LmtpRelay.Text
