/-
How parameters are written. A word spells one parameter, its key up to the first equals sign; in which case its letters
are does not matter, since the key is kept in capitals. What is kept of a word is such a spelling of it again
(`addToken_spelled`), so parameters that were read and are written out are read as the same parameters: `parse_text`.
-/
import LmtpRelay.Proofs.Command.Parsed
import LmtpRelay.Proofs.Text.Words

namespace LmtpRelay.Parameters

/-! ## One parameter -/

/-- the word made of a key and a value -/
def token (key : List Char) : Option (List Char) → List Char
  | none => key
  | some value => key ++ '=' :: value

theorem splitToken_token {key : List Char} (no_mark : '=' ∉ key) (value : Option (List Char)) :
    splitToken (token key value) = (String.ofList key, value.map String.ofList) := by
  unfold splitToken
  cases value with
  | none => rw [token, Text.splitOnce_eq_none_iff.2 no_mark]; rfl
  | some value => rw [token, Text.splitOnce_append no_mark]; rfl

/-- each word is made of a key and, behind the first equals sign, a value -/
theorem exists_token (word : List Char) : ∃ key value, '=' ∉ key ∧ word = token key value := by
  cases h : Text.splitOnce '=' word with
  | none => exact ⟨word, none, Text.splitOnce_eq_none_iff.1 h, rfl⟩
  | some parts =>
    obtain ⟨same, no_mark⟩ := Text.splitOnce_eq_some_iff.1 h
    exact ⟨parts.1, some parts.2, no_mark, same⟩

theorem token_blankless {key : List Char} {value : Option (List Char)} (hk : Text.Blankless key)
    (hv : ∀ v, value = some v → Text.Blankless v) : Text.Blankless (token key value) := by
  cases value with
  | none => exact hk
  | some v =>
    refine hk.append fun c hc => ?_
    rcases List.mem_cons.1 hc with rfl | hc
    · decide
    · exact hv v rfl c hc

/-- **The case of the letters in a key does not matter.** -/
theorem addToken_folded {key key' : List Char} (no_mark : '=' ∉ key) (same : Text.sameFolded key key' = true)
    (value : Option (List Char)) (ps : Parameters) :
    ps.addToken (token key' value) = ps.addToken (token key value) := by
  have no_mark' : '=' ∉ key' := by rwa [← Text.mem_of_sameFolded same (by decide) (by decide)]
  have capitals : capital (String.ofList key') = capital (String.ofList key) := by
    simp only [capital, String.toList_ofList, Text.sameFolded_iff.1 same]
  have size : Text.sameFolded key' "SIZE".toList = Text.sameFolded key "SIZE".toList := by
    rw [Text.sameFolded, Text.sameFolded, Text.sameFolded_iff.1 same]
  simp only [addToken, splitToken_token no_mark, splitToken_token no_mark', has, insert, checkSize, capitals, size,
    String.toList_ofList]

/-! ## What is kept of a word -/

def spelled (word : List Char) : Parameter := ⟨capital (splitToken word).1, (splitToken word).2⟩

theorem spelled_text {key : List Char} (no_mark : '=' ∉ key) (value : Option (List Char)) :
    (spelled (token key value)).text.toList = token (Text.upper key) value := by
  rw [spelled, splitToken_token no_mark, Parameter.text]
  cases value with
  | none => simp [capital, token]
  | some value =>
    show ((capital (String.ofList key) ++ "=") ++ String.ofList value).toList = _
    simp [capital, token]

/-- what is kept of a word spells the same parameter -/
theorem addToken_spelled (ps : Parameters) (word : List Char) :
    ps.addToken (spelled word).text.toList = ps.addToken word := by
  obtain ⟨key, value, no_mark, rfl⟩ := exists_token word
  rw [spelled_text no_mark]
  exact addToken_folded no_mark (Text.sameFolded_upper key) value ps

theorem addToken_ok {ps ps' : Parameters} {word : List Char} (h : ps.addToken word = .ok ps') :
    ps'.entries = ps.entries ++ [spelled word] := by
  unfold addToken at h
  dsimp only at h
  split at h
  · cases h
  · cases checked : checkSize (splitToken word).1 (splitToken word).2 with
    | error f => rw [checked] at h; cases h
    | ok _ =>
      rw [checked] at h
      obtain rfl := Except.ok.inj h
      rfl

/-- **The parameters are what the words spell, in their order.** -/
theorem parse_entries {cs : List Char} {ps : Parameters} (h : parse cs = .ok ps) :
    ps.entries = (Text.words cs).map spelled := by
  have fold : ∀ {words : List (List Char)} {ps ps' : Parameters}, words.foldlM addToken ps = .ok ps' →
      ps'.entries = ps.entries ++ words.map spelled := by
    intro words
    induction words with
    | nil =>
      intro ps ps' h
      obtain rfl := Except.ok.inj h
      exact (List.append_nil _).symm
    | cons word words ih =>
      intro ps ps' h
      rw [List.foldlM_cons] at h
      obtain ⟨ps₁, added, h⟩ := bind_ok h
      rw [ih h, addToken_ok added, List.append_assoc, List.map_cons]
      rfl
  exact fold h

/-! ## Writing and reading -/

theorem spelled_word {cs word : List Char} (h : word ∈ Text.words cs) :
    Text.words (spelled word).text.toList = [(spelled word).text.toList] := by
  have blankless := Text.words_blankless cs word h
  have some_chars := Text.ne_nil_of_mem_words h
  obtain ⟨key, value, no_mark, rfl⟩ := exists_token word
  rw [spelled_text no_mark]
  refine Text.words_self ?_ ?_
  · cases value with
    | none => exact Text.upper_blankless blankless
    | some v =>
      have key_blankless : Text.Blankless key := fun c hc => blankless c (List.mem_append_left _ hc)
      refine token_blankless (Text.upper_blankless key_blankless) fun v' same => ?_
      obtain rfl := Option.some.inj same
      exact fun c hc => blankless c (List.mem_append_right _ (List.mem_cons_of_mem _ hc))
  · cases value with
    | none => simpa [token, Text.upper] using some_chars
    | some v => simp [token]

/-- **Parameters that were read and are written out are read as the same parameters.** -/
theorem parse_text {cs : List Char} {ps : Parameters} (h : parse cs = .ok ps) : parse ps.text.toList = .ok ps := by
  have words : Text.words ps.text.toList = (Text.words cs).map fun word => (spelled word).text.toList := by
    rw [text, Text.words_intercalate, parse_entries h, List.map_map, List.flatMap_map, List.map_eq_flatMap]
    exact List.flatMap_congr fun word hw => spelled_word hw
  calc parse ps.text.toList
      = ((Text.words cs).map fun word => (spelled word).text.toList).foldlM addToken empty := by rw [parse, words]
    _ = (Text.words cs).foldlM addToken empty := by
        rw [List.foldlM_map]
        simp only [addToken_spelled]
    _ = .ok ps := h

/-! ## Keys in another letter case -/

/-- one key among the parameters after a path is written in another letter case -/
inductive KeyRespelled : List Char → List Char → Prop where
  | key {before after key key' : List Char} {value : Option (List Char)} {blank : Char}
    (parted : Text.startsWord before = false) (isBlank : Text.isBlank blank = true)
    (word : Text.Blankless (token key value)) (no_mark : '=' ∉ key) (same : Text.sameFolded key key' = true)
    (ends : Text.startsWord after = false) :
    KeyRespelled (before ++ blank :: (token key value ++ after)) (before ++ blank :: (token key' value ++ after))

/-- a word, if it is one, stands in front of what comes after it -/
theorem parse_token {key : List Char} {value : Option (List Char)} (word : Text.Blankless (token key value))
    {before after : List Char} {blank : Char} (isBlank : Text.isBlank blank = true)
    (ends : Text.startsWord after = false) (some_chars : token key value ≠ []) :
    parse (before ++ blank :: (token key value ++ after)) =
      (Text.words before).foldlM addToken empty >>= fun ps =>
        ps.addToken (token key value) >>= fun ps => (Text.words after).foldlM addToken ps := by
  rw [parse, Text.words_split isBlank, Text.words_word word some_chars ends, List.foldlM_append]
  simp only [List.foldlM_cons]

theorem token_folded_blankless {key key' : List Char} (same : Text.sameFolded key key' = true)
    {value : Option (List Char)} (word : Text.Blankless (token key value)) : Text.Blankless (token key' value) := by
  cases value with
  | none => exact Text.blankless_of_sameFolded same word
  | some v =>
    have key_blankless : Text.Blankless key := fun c hc => word c (List.mem_append_left _ hc)
    refine token_blankless (Text.blankless_of_sameFolded same key_blankless) fun v' same' => ?_
    obtain rfl := Option.some.inj same'
    exact fun c hc => word c (List.mem_append_right _ (List.mem_cons_of_mem _ hc))

/-- **In which letter case a key is written does not matter.** -/
theorem KeyRespelled.parse {text text' : List Char} (h : KeyRespelled text text') :
    Parameters.parse text' = Parameters.parse text := by
  cases h with
  | @key before after key key' value blank parted isBlank word no_mark same ends =>
    by_cases none_there : token key value = []
    · -- there is no word, so there is no letter in it
      cases value with
      | some v => simp [token] at none_there
      | none =>
        cases none_there
        have length := Text.sameFolded_length same
        rw [List.eq_nil_of_length_eq_zero length.symm]
    · have some_chars : token key' value ≠ [] := by
        cases value with
        | some v => simp [token]
        | none =>
          rintro (rfl : key' = [])
          exact none_there (List.eq_nil_of_length_eq_zero (Text.sameFolded_length same))
      have word' := token_folded_blankless same word
      rw [parse_token word isBlank ends none_there, parse_token word' isBlank ends some_chars]
      simp only [addToken_folded no_mark same]

theorem KeyRespelled.parted {text text' : List Char} (h : KeyRespelled text text') :
    Text.startsWord text = false ∧ Text.startsWord text' = false := by
  cases h with
  | @key before _ _ _ _ blank parted isBlank _ _ _ _ =>
    cases before with
    | nil => simp [Text.startsWord_cons, isBlank]
    | cons c before => exact ⟨parted, parted⟩

end LmtpRelay.Parameters
