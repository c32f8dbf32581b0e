/-
In how many ways a command may be spelled. Blanks around a line, and the letter case of its verb, of the words in front
of its path and of its parameter keys, do not matter: `Respelled.parse`. Of all the spellings of a command, the one in
which it is written is read as the command again, unless it keeps something back (credentials) or its address cannot be
put in brackets. Reading and writing a command thus comes to rest after one turn: `parse_canonical`.
-/
import LmtpRelay.Proofs.Command.Paths

namespace LmtpRelay.Command

variable {c : Command}

/-! ## Verbs -/

section verbs

variable {line verb argument : List Char}

/-- the letter case of a verb, or of a line that is one, does not matter -/
theorem parseVerb_folded {line' verb' : List Char} (same_line : Text.sameFolded line line' = true)
    (same_verb : Text.sameFolded verb verb' = true) (h : parseVerb line verb argument = .ok c) :
    parseVerb line' verb' argument = .ok c := by
  have lines : ∀ word, Text.sameFolded line' word = Text.sameFolded line word := fun word => by
    rw [Text.sameFolded, Text.sameFolded, Text.sameFolded_iff.1 same_line]
  have verbs : ∀ word, Text.sameFolded verb' word = Text.sameFolded verb word := fun word => by
    rw [Text.sameFolded, Text.sameFolded, Text.sameFolded_iff.1 same_verb]
  -- only the wording of a fault repeats the line as it came
  have same : (parseVerb line' verb' argument).toOption = (parseVerb line verb argument).toOption := by
    simp only [parseVerb, lines, verbs, apply_ite Except.toOption]
    rfl
  rw [h] at same
  cases read : parseVerb line' verb' argument with
  | error f => rw [read] at same; cases same
  | ok c' =>
    rw [read] at same
    exact congrArg Except.ok (Option.some.inj same)

/-- the words in front of a path have a blank in them, so a verb cannot hold them -/
theorem dropFolded?_verb {words verb' rest : List Char} (blank : ' ' ∈ words) (word : Text.Blankless verb)
    (same : Text.sameFolded verb verb' = true) :
    Text.dropFolded? words (verb' ++ rest) = Text.dropFolded? words (verb ++ rest) := by
  have one_way : ∀ {v v' left : List Char}, Text.Blankless v → Text.sameFolded v v' = true →
      Text.dropFolded? words (v ++ rest) = some left → Text.dropFolded? words (v' ++ rest) = some left := by
    intro v v' left blankless folded dropped
    obtain ⟨head, parts, same_head⟩ := Text.dropFolded?_eq_some_iff.1 dropped
    have inside : ' ' ∈ head := (Text.mem_of_sameFolded same_head (by decide) (by decide)).2 blank
    rcases List.append_eq_append_iff.1 parts with ⟨more, rfl, rfl⟩ | ⟨more, rfl, -⟩
    · have same_head' := Text.sameFolded_trans (Text.sameFolded_append (Text.sameFolded_symm folded) more) same_head
      exact Text.dropFolded?_eq_some_iff.2 ⟨v' ++ more, by rw [List.append_assoc], same_head'⟩
    · exact absurd (blankless ' ' (List.mem_append_left _ inside)) (by decide)
  have word' := Text.blankless_of_sameFolded same word
  cases dropped : Text.dropFolded? words (verb ++ rest) with
  | some left => exact one_way word same dropped
  | none =>
    cases dropped' : Text.dropFolded? words (verb' ++ rest) with
    | none => rfl
    | some left => exact absurd (one_way word' (Text.sameFolded_symm same) dropped') (by simp [dropped])

/-- **The letter case of the first word of a line does not matter.** -/
theorem parseText_verb {before rest verb' : List Char} (blank : Text.Blank before) (word : Text.Blankless verb)
    (same : Text.sameFolded verb verb' = true)
    (h : parseText (before ++ (verb ++ rest)) = .ok c) : parseText (before ++ (verb' ++ rest)) = .ok c := by
  by_cases none_there : verb = []
  · subst none_there
    obtain rfl : verb' = [] := List.eq_nil_of_length_eq_zero (Text.sameFolded_length same).symm
    exact h
  have trimmed : ∀ {v : List Char}, Text.Blankless v → v ≠ [] →
      Text.trim (before ++ (v ++ rest)) = v ++ Text.trimEnd rest := by
    intro v blankless some_chars
    rw [Text.trim, Text.trimStart_blank blank, Text.trimStart_word (Text.startsWord_append blankless some_chars rest),
      Text.trimEnd_blankless blankless some_chars]
  have word' := Text.blankless_of_sameFolded same word
  have some_chars : verb' ≠ [] := by
    rintro rfl
    exact none_there (List.eq_nil_of_length_eq_zero (Text.sameFolded_length same))
  have no_space : ∀ {v : List Char}, Text.Blankless v → ' ' ∉ v := fun blankless there =>
    absurd (blankless ' ' there) (by decide)
  unfold parseText at h ⊢
  rw [trimmed word none_there] at h
  rw [trimmed word' some_chars]
  dsimp only at h ⊢
  rw [dropFolded?_verb (by decide) word same, dropFolded?_verb (by decide) word same,
    Text.splitOnce_not_mem (no_space word')]
  rw [Text.splitOnce_not_mem (no_space word)] at h
  split at h
  · exact h
  · exact h
  · cases cut : Text.splitOnce ' ' (Text.trimEnd rest) with
    | none =>
      rw [cut] at h
      exact parseVerb_folded (Text.sameFolded_append same _) (Text.sameFolded_append same _) h
    | some parts =>
      rw [cut] at h
      exact parseVerb_folded (Text.sameFolded_append same _) (Text.sameFolded_append same _) h

end verbs

/-! ## Commands without a path -/

/-- a verb in small or capital letters and what follows it, where the verb begins no words in front of a path -/
theorem parseText_argument {letter : Char} {letters : List Char} (word : Text.Blankless (letter :: letters))
    (no_mail : letter.toUpper ≠ 'M') (no_rcpt : letter.toUpper ≠ 'R') (argument : List Char) :
    ∃ line, parseText (letter :: letters ++ ' ' :: argument) =
      parseVerb line (letter :: letters) (Text.trim argument) := by
  generalize spelled : letter :: letters = verb at word ⊢
  have some_chars : verb ≠ [] := spelled ▸ List.cons_ne_nil _ _
  have trimmed : Text.trim (verb ++ ' ' :: argument) = verb ++ Text.trimEnd (' ' :: argument) := by
    have starts := Text.startsWord_append word some_chars (' ' :: argument)
    rw [Text.trim, Text.trimStart_word starts, Text.trimEnd_blankless word some_chars]
  have no_path : ∀ rest, Text.dropFolded? "MAIL FROM:".toList (verb ++ rest) = none ∧
      Text.dropFolded? "RCPT TO:".toList (verb ++ rest) = none := by
    intro rest
    rw [← spelled]
    exact ⟨Text.dropFolded?_other no_mail, Text.dropFolded?_other no_rcpt⟩
  have no_space : ' ' ∉ verb := fun there => absurd (word ' ' there) (by decide)
  unfold parseText
  simp only [trimmed, no_path]
  refine ⟨verb ++ Text.trimEnd (' ' :: argument), ?_⟩
  have tail : Text.trimEnd (' ' :: argument) =
      if Text.trimEnd argument = [] then [] else ' ' :: Text.trimEnd argument := by
    rw [Text.trimEnd]
    cases Text.trimEnd argument <;> rfl
  rw [← Text.trim_trimEnd argument]
  by_cases none_there : Text.trimEnd argument = []
  · rw [tail, if_pos none_there, List.append_nil, Text.splitOnce_eq_none_iff.2 no_space, none_there]
    rfl
  · rw [tail, if_neg none_there, Text.splitOnce_append no_space]

theorem parseVerb_cases {line verb argument : List Char} (h : parseVerb line verb argument = .ok c) :
    (c = .lhlo (String.ofList argument) ∧ argument ≠ []) ∨ c = .helo (String.ofList argument) ∨
      c = .vrfy (String.ofList argument) ∨ c = .auth (String.ofList argument) ∨
      c ∈ [.help, .noop, .data, .rset, .quit] := by
  unfold parseVerb at h
  dsimp only at h
  repeat' split at h
  all_goals
    cases h
    try simp
  next some_host => simpa using some_host

/-- **A command without a path is read as itself when it is written out**, unless it keeps its argument back. -/
theorem parseVerb_text {line verb argument : List Char} (h : parseVerb line verb argument = .ok c)
    (trimmed : Text.trim argument = argument) (shown : ∀ credentials, c ≠ .auth credentials) :
    parseText c.text.toList = .ok c := by
  have reads : ∀ {letter : Char} {letters : List Char}, Text.Blankless (letter :: letters) → letter.toUpper ≠ 'M' →
      letter.toUpper ≠ 'R' → c.text.toList = letter :: letters ++ ' ' :: argument →
      (∀ line, parseVerb line (letter :: letters) argument = .ok c) → parseText c.text.toList = .ok c := by
    intro letter letters word no_mail no_rcpt written again
    obtain ⟨line, read⟩ := parseText_argument word no_mail no_rcpt argument
    rw [written, read, trimmed, again]
  rcases parseVerb_cases h with ⟨rfl, some_host⟩ | rfl | rfl | rfl | h
  · have written : ("LHLO " ++ String.ofList argument).toList = "LHLO".toList ++ ' ' :: argument := by simp
    refine reads (by decide) (by decide) (by decide) written fun line => ?_
    exact if_neg (by simpa using some_host)
  · have written : ("HELO " ++ String.ofList argument).toList = "HELO".toList ++ ' ' :: argument := by simp
    exact reads (by decide) (by decide) (by decide) written fun line => rfl
  · have written : ("VRFY " ++ String.ofList argument).toList = "VRFY".toList ++ ' ' :: argument := by simp
    exact reads (by decide) (by decide) (by decide) written fun line => rfl
  · exact absurd rfl (shown _)
  · simp only [List.mem_cons, List.not_mem_nil, or_false] at h
    rcases h with rfl | rfl | rfl | rfl | rfl <;> rfl

/-! ## All commands -/

variable {text text' : List Char}

/-- a command written out is read as itself, unless it keeps its argument back or its address has a closing bracket -/
theorem parseText_text (parsed : parseText text = .ok c) (shown : ∀ credentials, c ≠ .auth credentials)
    (inside : ∀ address, c.address? = some address → '>' ∉ address.toList) : parseText c.text.toList = .ok c := by
  cases named : c.address? with
  | some address => exact (text_read_iff parsed named).2 (inside address named)
  | none =>
    have no_path : ∀ {allowNull rest} {make : String → Parameters → Command},
        (∀ address params, (make address params).address? = some address) →
        (parsePath allowNull rest).map (fun path => make path.1 path.2) ≠ .ok c := by
      intro allowNull rest make names h
      cases read : parsePath allowNull rest with
      | error f => rw [read] at h; cases h
      | ok path =>
        rw [read] at h
        obtain rfl := Except.ok.inj h
        rw [names] at named
        cases named
    unfold parseText at parsed
    dsimp only at parsed
    split at parsed
    · exact absurd parsed (no_path fun _ _ => rfl)
    · exact absurd parsed (no_path fun _ _ => rfl)
    · split at parsed
      · exact parseVerb_text parsed (Text.trim_trim _) shown
      · exact parseVerb_text parsed rfl shown

/-! ## Spellings -/

theorem Heads.folded {head head' : List Char} {allowNull : Bool} {make : String → Parameters → Command}
    (h : Heads head allowNull make) (same : Text.sameFolded head head' = true) : Heads head' allowNull make := by
  cases h with
  | mail words => exact .mail (Text.sameFolded_trans (Text.sameFolded_symm same) words)
  | rcpt words => exact .rcpt (Text.sameFolded_trans (Text.sameFolded_symm same) words)

/-- one change in the spelling of a line: blanks around it, or other letters in its verb, in the words in front of its
path or in one of the keys behind it -/
inductive Respelled : List Char → List Char → Prop where
  | padded {before after : List Char} (front : Text.Blank before) (back : Text.Blank after) (text : List Char) :
    Respelled text (before ++ text ++ after)
  | verb {before verb verb' rest : List Char} (front : Text.Blank before) (word : Text.Blankless verb)
    (ends : Text.startsWord rest = false) (same : Text.sameFolded verb verb' = true) :
    Respelled (before ++ (verb ++ rest)) (before ++ (verb' ++ rest))
  | head {before head head' rest : List Char} {allowNull : Bool} {make : String → Parameters → Command}
    (front : Text.Blank before) (heads : Heads head allowNull make) (same : Text.sameFolded head head' = true) :
    Respelled (before ++ (head ++ rest)) (before ++ (head' ++ rest))
  | key {before head gap path more more' : List Char} {allowNull : Bool} {make : String → Parameters → Command}
    (front : Text.Blank before) (heads : Heads head allowNull make) (blank : Text.Blank gap)
    (word : Text.Blankless path) (some_chars : path ≠ []) (keys : Parameters.KeyRespelled more more') :
    Respelled (before ++ (head ++ (gap ++ (path ++ more)))) (before ++ (head ++ (gap ++ (path ++ more'))))

/-- **No change of spelling makes another command.** -/
theorem Respelled.parse (h : Respelled text text') (parsed : parseText text = .ok c) : parseText text' = .ok c := by
  cases h with
  | padded front back =>
    rw [← parsed, parseText, parseText, Text.trim_padded front back]
  | verb front word _ same => exact parseText_verb front word same parsed
  | head front heads same =>
    rw [heads.parseText front] at parsed
    rw [(heads.folded same).parseText front, parsed]
  | @key before head gap path more more' allowNull make front heads blank word some_chars keys =>
    obtain ⟨parted, parted'⟩ := keys.parted
    rw [heads.parseText front] at parsed ⊢
    cases read : parsePath allowNull (gap ++ (path ++ more)) with
    | error f => rw [read] at parsed; cases parsed
    | ok result =>
      have read' : parsePath allowNull (gap ++ (path ++ more')) = .ok (result.1, result.2) := by
        rw [parsePath_word blank word some_chars parted', keys.parse]
        exact (parsePath_word blank word some_chars parted).1 read
      rw [read] at parsed
      rw [read']
      exact parsed

/-- **Reading a command has a canonical form.** A line that is a command may be spelled in other ways and is the same
command. The command as it is written is one more line that is read as it, if it is shown whole and its address fits in
brackets. An address has no blanks, and it has an at sign, except that the null path of MAIL stands for none. -/
theorem parse_canonical {line : Octets} (parsed : parse line = .ok c) :
    (∃ text, line = Octets.ofText text ∧
      ∀ text', Relation.ReflTransGen Respelled text.toList text'.toList → parse (Octets.ofText text') = .ok c) ∧
    ((∀ credentials, c ≠ .auth credentials) → (∀ address, c.address? = some address → '>' ∉ address.toList) →
      parse (Octets.ofText c.text) = .ok c) ∧
    ∀ address, c.address? = some address → Text.Blankless address.toList ∧
      ((path? line = some ['<', '>'] ∧ ∃ params, c = .mail "" params) ∨
        (path? line ≠ some ['<', '>'] ∧ '@' ∈ address.toList)) := by
  obtain ⟨text, rfl, spelled⟩ := exists_text parsed
  refine ⟨⟨text, rfl, fun text' spellings => ?_⟩, fun shown inside => ?_, fun address named => ⟨?_, ?_⟩⟩
  · rw [parse_ofText]
    generalize text'.toList = chars at spellings
    induction spellings with
    | refl => exact spelled
    | tail _ step ih => exact step.parse ih
  · rw [parse_ofText]
    exact parseText_text spelled shown inside
  · obtain ⟨_, _, _, _, _, _, -, -, -, -, read⟩ := exists_heads spelled named
    exact parsePath_blankless read
  · obtain ⟨path, found, -, ⟨rfl, sender⟩ | ⟨not_null, names⟩⟩ := exists_path parsed named
    · exact .inl ⟨found, sender⟩
    · exact .inr ⟨fun null => not_null (Option.some.inj (found.symm.trans null)), names.at_sign⟩

/-- a sender with a name, small letters and a value with an equals sign, and two other spellings of the line -/
theorem parse_canonical_mail :
    let line := Octets.ofText "mail from: Ann<a@x> size=10 x=a=b Flag"
    let c := Command.mail "a@x" ⟨[⟨"SIZE", some "10"⟩, ⟨"X", some "a=b"⟩, ⟨"FLAG", none⟩]⟩
    parse line = .ok c ∧ parse (Octets.ofText "\tMail From: Ann<a@x> size=10 X=a=b Flag ") = .ok c ∧
      c.text = "MAIL FROM:<a@x> SIZE=10 X=a=b FLAG" ∧ parse (Octets.ofText c.text) = .ok c ∧
      path? line ≠ some ['<', '>'] ∧ '@' ∈ "a@x".toList := by
  intro line c
  have parsed : parse line = .ok c := (parse_ofText _).trans rfl
  obtain ⟨⟨text, same, spellings⟩, again, addresses⟩ := parse_canonical parsed
  obtain rfl : "mail from: Ann<a@x> size=10 x=a=b Flag" = text := by
    have texts := congrArg Octets.toText? same
    rw [Octets.toText?_ofText, Octets.toText?_ofText] at texts
    exact Option.some.inj texts
  have words : Respelled "mail from: Ann<a@x> size=10 x=a=b Flag".toList
      "Mail From: Ann<a@x> size=10 x=a=b Flag".toList :=
    @Respelled.head [] "mail from:".toList "Mail From:".toList " Ann<a@x> size=10 x=a=b Flag".toList true .mail .nil
      (.mail (by decide)) (by decide)
  have keys : Parameters.KeyRespelled " size=10 x=a=b Flag".toList " size=10 X=a=b Flag".toList :=
    @Parameters.KeyRespelled.key " size=10".toList " Flag".toList ['x'] ['X'] (some "a=b".toList) ' ' (by decide)
      (by decide) (by decide) (by decide) (by decide) (by decide)
  have key : Respelled "Mail From: Ann<a@x> size=10 x=a=b Flag".toList
      "Mail From: Ann<a@x> size=10 X=a=b Flag".toList :=
    @Respelled.key [] "Mail From:".toList [' '] "Ann<a@x>".toList _ _ true .mail .nil (.mail (by decide)) (by decide)
      (by decide) (by decide) keys
  have padded : Respelled "Mail From: Ann<a@x> size=10 X=a=b Flag".toList
      "\tMail From: Ann<a@x> size=10 X=a=b Flag ".toList := @Respelled.padded ['\t'] [' '] (by decide) (by decide) _
  refine ⟨parsed, spellings _ (((Relation.ReflTransGen.single words).tail key).tail padded), by decide,
    again (fun _ => nofun) (fun address same => ?_), ?_⟩
  · obtain rfl := Option.some.inj same
    decide
  · obtain ⟨-, ⟨-, params, null⟩ | visible⟩ := addresses "a@x" rfl
    · exact absurd (Command.mail.inj null).1 (by decide)
    · exact visible

end LmtpRelay.Command
