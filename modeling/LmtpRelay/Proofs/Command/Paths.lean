/-
Which address a path names. A path is the first word after the words in front of it, and its address is the first mailbox
in it; so a path may hold more than that mailbox, and the rest of it is passed over. Written again in brackets, the
address is read as itself unless there is a closing bracket in it, which only an address that came without brackets can
have. When a path says neither more nor less than its address is told by `parse_path`.
-/
import LmtpRelay.Proofs.Command.AddressGrammar
import LmtpRelay.Proofs.Command.ParameterText
import LmtpRelay.Proofs.Command.Faults

namespace LmtpRelay.Command

/-- the address that a command names, if there is one in it -/
def address? : Command → Option String
  | mail sender _ => some sender
  | rcpt recipient _ => some recipient
  | _ => none

/-- the path in a text: the first word after the words in front of a path -/
def pathIn? (text : List Char) : Option (List Char) :=
  let line := Text.trim text
  let rest := Text.dropFolded? "MAIL FROM:".toList line <|> Text.dropFolded? "RCPT TO:".toList line
  rest.map fun rest => (Text.splitBlank (Text.trim rest)).1

def path? (line : Octets) : Option (List Char) := (Octets.toText? line).bind fun text => pathIn? text.toList

/-! ## Paths and parameters -/

variable {allowNull : Bool} {rest path : List Char} {address : String} {params : Parameters}

/-- an address list names an address by its first entry -/
def Names (path : List Char) (address : String) : Prop :=
  ∃ others, AddressList.entries path = .ok (.mailbox address.toList :: others)

theorem Names.at_sign (h : Names path address) : '@' ∈ address.toList := by
  obtain ⟨others, entries⟩ := h
  obtain ⟨_, _, _, _, _, written, _⟩ := AddressList.entries_mailbox_iff.1 entries
  exact written.at_sign

theorem parseAddress_eq_ok_iff : parseAddress path = .ok address ↔ Names path address := by
  unfold parseAddress Names
  cases AddressList.entries path with
  | error f => exact ⟨nofun, fun ⟨_, h⟩ => nomatch h⟩
  | ok entries =>
    constructor
    · intro h
      rcases entries with _ | ⟨a | members, others⟩
      · cases h
      · obtain rfl := Except.ok.inj h
        exact ⟨others, by rw [String.toList_ofList]⟩
      · cases h
    · rintro ⟨others, h⟩
      obtain rfl := Except.ok.inj h
      exact congrArg Except.ok (String.ofList_toList (s := address))

/-- the null path stands for no address where that is allowed; any other path names its address -/
def Stands (allowNull : Bool) (path : List Char) (address : String) : Prop :=
  (path = ['<', '>'] ∧ allowNull = true ∧ address = "") ∨ (path ≠ ['<', '>'] ∧ Names path address)

/-- **A path is read as an address and the words after it as parameters.** -/
theorem parsePath_eq_ok_iff : parsePath allowNull rest = .ok (address, params) ↔
    Stands allowNull (Text.splitBlank (Text.trim rest)).1 address ∧
      Parameters.parse (Text.splitBlank (Text.trim rest)).2 = .ok params := by
  unfold parsePath Stands
  rcases Text.splitBlank (Text.trim rest) with ⟨path, words⟩
  dsimp only
  cases Parameters.parse words with
  | error f => exact ⟨nofun, fun ⟨_, h⟩ => nomatch h⟩
  | ok ps =>
    show (if path = ['<', '>'] then if allowNull = true then Except.ok ("", ps) else Except.error CommandFault.nullPath
      else parseAddress path >>= fun address => Except.ok (address, ps)) = _ ↔ _
    by_cases null : path = ['<', '>']
    · cases allowNull <;> simp [null, eq_comm]
    · rw [if_neg null, ← parseAddress_eq_ok_iff]
      cases parseAddress path <;> simp [null, bind, Except.bind]

/-- a path that stands somewhere after blanks, with blanks or nothing after it -/
theorem parsePath_word {gap more : List Char} (blank : Text.Blank gap) (word : Text.Blankless path)
    (some_chars : path ≠ []) (parted : Text.startsWord more = false) :
    parsePath allowNull (gap ++ (path ++ more)) = .ok (address, params) ↔
      Stands allowNull path address ∧ Parameters.parse more = .ok params := by
  obtain ⟨rest, split, words⟩ := Text.splitBlank_trim blank word some_chars parted
  rw [parsePath_eq_ok_iff, split, Parameters.parse, words]
  rfl

theorem parsePath_trimEnd : parsePath allowNull (Text.trimEnd rest) = parsePath allowNull rest := by
  rw [parsePath, Text.trim_trimEnd]
  rfl

theorem parsePath_blankless (h : parsePath allowNull rest = .ok (address, params)) :
    Text.Blankless address.toList := by
  rcases (parsePath_eq_ok_iff.1 h).1 with ⟨-, -, rfl⟩ | ⟨-, names⟩
  · exact fun c hc => absurd hc List.not_mem_nil
  · exact parseAddress_blankless (Text.splitBlank_blankless _) (parseAddress_eq_ok_iff.2 names)

/-! ## Written in brackets -/

def bracketed (address : String) : List Char := '<' :: (address.toList ++ ['>'])

theorem bracketed_names_iff (at_sign : '@' ∈ address.toList) :
    Names (bracketed address) address ↔ '>' ∉ address.toList := by
  constructor
  · rintro ⟨others, entries⟩
    exact (AddressList.entries_mailbox_iff.1 entries).bracketed.1
  · intro inside
    exact ⟨[], (AddressList.entries_bracketed_iff at_sign).2 inside⟩

theorem bracketed_stands_iff (stands : Stands allowNull path address) :
    Stands allowNull (bracketed address) address ↔ '>' ∉ address.toList := by
  rcases stands with ⟨-, allowed, rfl⟩ | ⟨-, names⟩
  · exact ⟨fun _ => List.not_mem_nil, fun _ => .inl ⟨rfl, allowed, rfl⟩⟩
  · have at_sign := names.at_sign
    have not_null : bracketed address ≠ ['<', '>'] := by
      intro null
      have inside : address.toList ++ ['>'] = ['>'] := (List.cons.inj null).2
      rw [List.append_left_eq_self.1 inside] at at_sign
      cases at_sign
    rw [← bracketed_names_iff at_sign]
    exact ⟨fun h => h.elim (fun null => absurd null.1 not_null) And.right, fun h => .inr ⟨not_null, h⟩⟩

theorem bracketed_blankless (h : Text.Blankless address.toList) : Text.Blankless (bracketed address) := by
  intro c hc
  simp only [bracketed, List.mem_cons, List.mem_append, List.not_mem_nil, or_false] at hc
  rcases hc with rfl | hc | rfl
  · decide
  · exact h c hc
  · decide

theorem pathText_parts {words : List Char} (read : Parameters.parse words = .ok params) (head address : String) :
    ∃ more, (pathText head address params).toList = head.toList ++ (bracketed address ++ more) ∧
      Text.startsWord more = false ∧ Parameters.parse more = .ok params := by
  rw [pathText_eq]
  by_cases none_there : params.isEmpty = true
  · refine ⟨[], ?_, rfl, ?_⟩
    · simp [none_there, bracketed]
    · rcases params with ⟨_ | ⟨p, ps⟩⟩
      · rfl
      · cases none_there
  · refine ⟨' ' :: params.text.toList, ?_, rfl, Parameters.parse_text read⟩
    simp [none_there, bracketed]

/-! ## Lines with a path -/

/-- the words in front of a path, in any letter case, and what they make of an address and parameters -/
inductive Heads : List Char → Bool → (String → Parameters → Command) → Prop where
  | mail {head : List Char} (same : Text.sameFolded head "MAIL FROM:".toList = true) : Heads head true .mail
  | rcpt {head : List Char} (same : Text.sameFolded head "RCPT TO:".toList = true) : Heads head false .rcpt

variable {head before : List Char} {make : String → Parameters → Command} {c : Command}

theorem Heads.address? (h : Heads head allowNull make) (address : String) (params : Parameters) :
    (make address params).address? = some address := by
  cases h <;> rfl

theorem Heads.text (h : Heads head allowNull make) : ∃ words : String, Heads words.toList allowNull make ∧
    ∀ address params, (make address params).text = pathText words address params := by
  cases h with
  | mail _ => exact ⟨"MAIL FROM:", .mail (by decide), fun _ _ => rfl⟩
  | rcpt _ => exact ⟨"RCPT TO:", .rcpt (by decide), fun _ _ => rfl⟩

theorem Heads.trim (h : Heads head allowNull make) (blank : Text.Blank before) (rest : List Char) :
    Text.trim (before ++ (head ++ rest)) = head ++ Text.trimEnd rest := by
  cases h with
  | mail same => exact Text.trim_folded "MAIL FROM".toList ':' blank same (by decide) (by decide) rest
  | rcpt same => exact Text.trim_folded "RCPT TO".toList ':' blank same (by decide) (by decide) rest

theorem Heads.dropped (h : Heads head allowNull make) (rest : List Char) :
    (Text.dropFolded? "MAIL FROM:".toList (head ++ rest) = some rest ∧ make = .mail ∧ allowNull = true) ∨
      (Text.dropFolded? "MAIL FROM:".toList (head ++ rest) = none ∧
        Text.dropFolded? "RCPT TO:".toList (head ++ rest) = some rest ∧ make = .rcpt ∧ allowNull = false) := by
  cases h with
  | mail same => exact .inl ⟨Text.dropFolded?_eq_some_iff.2 ⟨head, rfl, same⟩, rfl, rfl⟩
  | rcpt same =>
    refine .inr ⟨?_, Text.dropFolded?_eq_some_iff.2 ⟨head, rfl, same⟩, rfl, rfl⟩
    cases head with
    | nil => cases Text.sameFolded_length same
    | cons c cs =>
      have letter : c.toUpper = 'R' := (List.cons.inj (Text.sameFolded_iff.1 same)).1
      exact Text.dropFolded?_other (by rw [letter]; decide)

theorem Heads.parseText (h : Heads head allowNull make) (blank : Text.Blank before) (rest : List Char) :
    parseText (before ++ (head ++ rest)) =
      (parsePath allowNull rest).map fun path => make path.1 path.2 := by
  rw [← parsePath_trimEnd, Command.parseText, h.trim blank]
  rcases h.dropped (Text.trimEnd rest) with ⟨dropped, rfl, rfl⟩ | ⟨other, dropped, rfl, rfl⟩
  · simp only [dropped]
  · simp only [other, dropped]

theorem Heads.pathIn? (h : Heads head allowNull make) (blank : Text.Blank before) (rest : List Char) :
    pathIn? (before ++ (head ++ rest)) = some (Text.splitBlank (Text.trim rest)).1 := by
  rw [Command.pathIn?, h.trim blank, ← Text.trim_trimEnd rest]
  rcases h.dropped (Text.trimEnd rest) with ⟨dropped, -, -⟩ | ⟨other, dropped, -, -⟩
  · simp only [dropped]
    rfl
  · simp only [other, dropped]
    rfl

theorem parseVerb_address? {line verb argument : List Char} (h : parseVerb line verb argument = .ok c) :
    c.address? = none := by
  unfold parseVerb at h
  dsimp only at h
  repeat' split at h
  all_goals
    cases h
    try rfl

/-- **A command with an address is a line with a path.** -/
theorem exists_heads {text : List Char} (parsed : Command.parseText text = .ok c) (named : c.address? = some address) :
    ∃ before head rest allowNull make params, text = before ++ (head ++ rest) ∧ Text.Blank before ∧
      Heads head allowNull make ∧ c = make address params ∧ parsePath allowNull rest = .ok (address, params) := by
  obtain ⟨before, after, front, -, same⟩ := Text.trim_spec text
  obtain ⟨head, rest, allowNull, make, heads, line⟩ : ∃ head rest allowNull make, Heads head allowNull make ∧
      Text.trim text = head ++ rest := by
    unfold Command.parseText at parsed
    dsimp only at parsed
    split at parsed
    · next rest dropped =>
      obtain ⟨head, line, folded⟩ := Text.dropFolded?_eq_some_iff.1 dropped
      exact ⟨head, rest, _, _, .mail folded, line⟩
    · next rest _ dropped =>
      obtain ⟨head, line, folded⟩ := Text.dropFolded?_eq_some_iff.1 dropped
      exact ⟨head, rest, _, _, .rcpt folded, line⟩
    · split at parsed <;> rw [parseVerb_address? parsed] at named <;> cases named
  rw [line, List.append_assoc] at same
  rw [same, heads.parseText front] at parsed
  cases read : parsePath allowNull (rest ++ after) with
  | error f => rw [read] at parsed; cases parsed
  | ok result =>
    rw [read] at parsed
    obtain rfl := Except.ok.inj parsed
    rw [heads.address?] at named
    obtain rfl := Option.some.inj named
    exact ⟨before, head, rest ++ after, allowNull, make, result.2, same, front, heads, rfl, read⟩

theorem parse_ofText (text : String) : parse (Octets.ofText text) = Command.parseText text.toList := by
  rw [parse, Octets.toText?_ofText]

theorem exists_text {line : Octets} (parsed : parse line = .ok c) : ∃ text, line = Octets.ofText text ∧
    Command.parseText text.toList = .ok c := by
  unfold parse at parsed
  split at parsed
  · next text spelled => exact ⟨text, (Octets.ofText_of_toText? spelled).symm, parsed⟩
  · cases parsed

/-- the path in a line is the null path of MAIL, or a word that names the address of the command -/
theorem exists_path {line : Octets} (parsed : parse line = .ok c) (named : c.address? = some address) :
    ∃ path, path? line = some path ∧ Text.Blankless path ∧
      ((path = ['<', '>'] ∧ ∃ params, c = .mail "" params) ∨ (path ≠ ['<', '>'] ∧ Names path address)) := by
  obtain ⟨text, rfl, spelled⟩ := exists_text parsed
  obtain ⟨before, head, rest, allowNull, make, params, same, front, heads, rfl, read⟩ := exists_heads spelled named
  refine ⟨(Text.splitBlank (Text.trim rest)).1, ?_, Text.splitBlank_blankless _, ?_⟩
  · rw [path?, Octets.toText?_ofText, Option.bind_some, same]
    exact heads.pathIn? front rest
  · refine (parsePath_eq_ok_iff.1 read).1.imp_left fun ⟨null, allowed, none_named⟩ => ⟨null, params, ?_⟩
    subst none_named
    cases heads with
    | mail => rfl
    | rcpt => cases allowed

/-- **A command with an address, written out, is read as itself exactly when the address has no closing bracket.** -/
theorem text_read_iff {text : List Char} (parsed : Command.parseText text = .ok c) (named : c.address? = some address) :
    Command.parseText c.text.toList = .ok c ↔ '>' ∉ address.toList := by
  obtain ⟨before, head, rest, allowNull, make, params, -, -, heads, rfl, read⟩ := exists_heads parsed named
  obtain ⟨stands, words⟩ := parsePath_eq_ok_iff.1 read
  obtain ⟨written, heads', writes⟩ := heads.text
  obtain ⟨more, parts, parted, again⟩ := pathText_parts words written address
  have path : Text.Blankless (bracketed address) := bracketed_blankless (parsePath_blankless read)
  have line := heads'.parseText .nil (bracketed address ++ more)
  have made : ∀ {result : String × Parameters}, make result.1 result.2 = make address params →
      result = (address, params) := by
    intro result same
    cases heads <;> cases same <;> rfl
  calc parseText (make address params).text.toList = .ok (make address params)
    _ ↔ (parsePath allowNull (bracketed address ++ more)).map (fun path => make path.1 path.2) =
          .ok (make address params) := by rw [writes, parts, ← line, List.nil_append]
    _ ↔ parsePath allowNull (bracketed address ++ more) = .ok (address, params) := by
        cases parsePath allowNull (bracketed address ++ more) with
        | error f => exact ⟨nofun, nofun⟩
        | ok result => exact ⟨fun h => congrArg _ (made (Except.ok.inj h)), fun h => by rw [Except.ok.inj h]; rfl⟩
    _ ↔ Stands allowNull (bracketed address) address :=
        (parsePath_word .nil path (List.cons_ne_nil _ _) parted).trans (and_iff_left again)
    _ ↔ '>' ∉ address.toList := bracketed_stands_iff stands

/-! ## What a path holds besides its address -/

/-- a path is one mailbox: there is nothing else in it, or one separator behind the mailbox -/
def OneMailbox (path : List Char) (address : String) : Prop :=
  ∃ mailbox tail, path = mailbox ++ tail ∧ AddressList.Mailbox mailbox address.toList ∧ tail ∈ [[], [','], [';']]

/-- **What a path says beyond the address that is taken from it.** A line with an address has a path, and the address is
the first entry in it. It is the only entry exactly when the path is one mailbox; in brackets it is read as itself, and
the command that is sent on as the same command, exactly when there is no closing bracket in it. -/
theorem parse_path {line : Octets} (parsed : parse line = .ok c) (named : c.address? = some address) :
    ∃ path, path? line = some path ∧
      ((path = ['<', '>'] ∧ ∃ params, c = .mail "" params) ∨
        (path ≠ ['<', '>'] ∧
          (∃ others, AddressList.entries path = .ok (.mailbox address.toList :: others)) ∧
          (AddressList.entries path = .ok [.mailbox address.toList] ↔ OneMailbox path address) ∧
          (AddressList.entries (bracketed address) = .ok [.mailbox address.toList] ↔ '>' ∉ address.toList))) ∧
      (parse (Octets.ofText c.text) = .ok c ↔ '>' ∉ address.toList) := by
  obtain ⟨path, found, word, holds⟩ := exists_path parsed named
  obtain ⟨text, rfl, spelled⟩ := exists_text parsed
  have again := text_read_iff spelled named
  rw [← parse_ofText] at again
  refine ⟨path, found, holds.imp_right fun ⟨not_null, names⟩ => ⟨not_null, names, ?_, ?_⟩, again⟩
  · exact AddressList.entries_single_iff word
  · exact AddressList.entries_bracketed_iff names.at_sign

/-- a name in words, remarks and a separator leave a path one mailbox -/
theorem parse_path_one_mailbox :
    let line := Octets.ofText " rcpt to: Bob(x)<a@x>(y); X=y"
    let c := Command.rcpt "a@x" ⟨[⟨"X", some "y"⟩]⟩
    parse line = .ok c ∧ c.address? = some "a@x" ∧ path? line = some "Bob(x)<a@x>(y);".toList ∧
      OneMailbox "Bob(x)<a@x>(y);".toList "a@x" ∧ parse (Octets.ofText c.text) = .ok c := by
  intro line c
  have parsed : parse line = .ok c := (parse_ofText _).trans rfl
  have spelled : path? line = some "Bob(x)<a@x>(y);".toList := by
    rw [path?, Octets.toText?_ofText]
    rfl
  obtain ⟨path, found, holds, again⟩ := parse_path parsed rfl
  obtain rfl := Option.some.inj (found.symm.trans spelled)
  obtain ⟨null, -⟩ | ⟨-, -, only, -⟩ := holds
  · exact absurd null (by decide)
  · exact ⟨parsed, rfl, spelled, only.1 rfl, again.2 (by decide)⟩

/-- two mailboxes are taken for the first, and a closing bracket for a part of an address that has no brackets -/
theorem paths_with_more :
    parse (Octets.ofText "RCPT TO:<a@x>,<b@y>") = .ok (.rcpt "a@x" .empty) ∧
    path? (Octets.ofText "RCPT TO:<a@x>,<b@y>") = some "<a@x>,<b@y>".toList ∧
    AddressList.entries "<a@x>,<b@y>".toList = .ok [.mailbox "a@x".toList, .mailbox "b@y".toList] ∧
    parse (Octets.ofText "MAIL FROM:a@x>b") = .ok (.mail "a@x>b" .empty) ∧
    AddressList.entries (bracketed "a@x>b") = .error .afterBracket :=
  ⟨(parse_ofText _).trans rfl, by rw [path?, Octets.toText?_ofText]; rfl, rfl, (parse_ofText _).trans rfl, rfl⟩

end LmtpRelay.Command
