/-
How a mailbox is written. The grammar says it in pieces and without a scanner: a name, quoted or in words, may stand in
front of an address in angle brackets and remarks may come after it; an address without brackets is the words
themselves, less the remarks among them. Scanning follows it exactly: an address list begins with a mailbox if and only
if its text does, and a comma or a semicolon parts that from the other entries (`entries_mailbox_iff`).
-/
import LmtpRelay.Proofs.Command.AddressScan

namespace LmtpRelay.AddressList

/-! ## The grammar -/

/-- what comes after an opening quotation mark, up to the closing one; a backslash takes the character after it along -/
inductive Quoted : List Char → Prop where
  | close : Quoted ['"']
  | escape (c : Char) {rest : List Char} (more : Quoted rest) : Quoted ('\\' :: c :: rest)
  | char {c : Char} {rest : List Char} (plain : c ≠ '\\') (inside : c ≠ '"') (more : Quoted rest) : Quoted (c :: rest)

/-- what may come between a quoted name and an address in brackets -/
inductive Naming : List Char → Prop where
  | done : Naming []
  | char {c : Char} {rest : List Char} (other : c ∉ ['<', ':', '"']) (more : Naming rest) : Naming (c :: rest)
  | quoted {text rest : List Char} (again : Quoted text) (more : Naming rest) : Naming ('"' :: (text ++ rest))

/-- words with remarks in round brackets among them, and what is kept of them -/
inductive Wording : List Char → List Char → Prop where
  | done : Wording [] []
  | char {c : Char} {rest kept : List Char} (other : c ∉ ['<', ',', ';', ':', '(']) (more : Wording rest kept) :
    Wording (c :: rest) (c :: kept)
  | remark {text rest kept : List Char} (inside : ')' ∉ text) (more : Wording rest kept) :
    Wording ('(' :: (text ++ ')' :: rest)) kept

/-- blanks and remarks after an address in brackets -/
inductive Remarks : List Char → Prop where
  | done : Remarks []
  | blank {c : Char} {rest : List Char} (blank : Text.isBlank c = true) (more : Remarks rest) : Remarks (c :: rest)
  | remark {text rest : List Char} (inside : ')' ∉ text) (more : Remarks rest) : Remarks ('(' :: (text ++ ')' :: rest))

/-- a character that begins words: any visible one that begins nothing else -/
def BeginsWords (c : Char) : Prop := Text.isBlank c = false ∧ c ∉ ['"', '<', ';']

instance (c : Char) : Decidable (BeginsWords c) := inferInstanceAs (Decidable (_ ∧ _))

/-- what may stand in front of an address in brackets -/
inductive Phrase : List Char → Prop where
  | none : Phrase []
  | quoted {text rest : List Char} (name : Quoted text) (more : Naming rest) : Phrase ('"' :: (text ++ rest))
  | words {c : Char} {rest kept : List Char} (first : BeginsWords c) (more : Wording rest kept) : Phrase (c :: rest)

inductive Mailbox : List Char → List Char → Prop where
  | bracketed {phrase address remarks : List Char} (name : Phrase phrase) (inside : '>' ∉ address)
    (at_sign : '@' ∈ address) (after : Remarks remarks) : Mailbox (phrase ++ '<' :: (address ++ '>' :: remarks)) address
  | bare {c : Char} {rest kept : List Char} (first : BeginsWords c) (more : Wording rest kept)
    (at_sign : '@' ∈ Text.trimEnd (c :: kept)) : Mailbox (c :: rest) (Text.trimEnd (c :: kept))

/-- what may follow a mailbox, and the entries in it: nothing, or a separator and a further list -/
inductive Follows : List Char → List Entry → Prop where
  | nothing : Follows [] []
  | more {separator : Char} {rest : List Char} {others : List Entry} (parts : separator ∈ [',', ';'])
    (list : entries rest = .ok others) : Follows (separator :: rest) others

/-- the text of a list begins with a mailbox, behind blanks, and this is what else is in the list -/
def BeginsWith (text address : List Char) (others : List Entry) : Prop :=
  ∃ lead mailbox tail, text = lead ++ (mailbox ++ tail) ∧ Text.Blank lead ∧ Mailbox mailbox address ∧
    Follows tail others

/-! ## Pieces are read as they are written -/

variable {members : Option (List (List Char))} {es : List Entry} {read : List Char}

theorem BeginsWords.step {c : Char} (h : BeginsWords c) :
    (⟨.start, [], members, es⟩ : Scan).step c = .ok ⟨.bare, [c], members, es⟩ := by
  obtain ⟨visible, other⟩ := h
  simp only [List.mem_cons, List.not_mem_nil, or_false, not_or] at other
  simp [Scan.step, Scan.begin, visible, other, Scan.take, Scan.moveTo]

theorem Reads.blank {lead : List Char} (blank : Text.Blank lead) :
    Reads ⟨.start, [], members, es⟩ lead ⟨.start, [], members, es⟩ := by
  induction lead with
  | nil => exact .refl _
  | cons c lead ih => exact .step (if_pos (blank c List.mem_cons_self)) (ih blank.tail)

theorem Reads.quoted {text : List Char} (h : Quoted text) :
    Reads ⟨.quoted, [], members, es⟩ text ⟨.named, [], members, es⟩ := by
  induction h with
  | close => exact .step rfl (.refl _)
  | escape c _ ih => exact .step rfl (.step rfl ih)
  | char plain inside _ ih => exact .step (by simp [Scan.step, plain, inside]) ih

theorem Reads.naming {text : List Char} (h : Naming text) :
    Reads ⟨.named, [], members, es⟩ text ⟨.named, [], members, es⟩ := by
  induction h with
  | done => exact .refl _
  | char other _ ih =>
    simp only [List.mem_cons, List.not_mem_nil, or_false, not_or] at other
    exact .step (by simp [Scan.step, other]) ih
  | quoted again _ ih => exact .step rfl (.trans (.quoted again) ih)

theorem Reads.wording {text kept : List Char} (h : Wording text kept) :
    Reads ⟨.bare, read, members, es⟩ text ⟨.bare, kept.reverse ++ read, members, es⟩ := by
  induction h generalizing read with
  | done => exact .refl _
  | @char c rest kept other _ ih =>
    simp only [List.mem_cons, List.not_mem_nil, or_false, not_or] at other
    have step : (⟨.bare, read, members, es⟩ : Scan).step c = .ok ⟨.bare, c :: read, members, es⟩ := by
      simp [Scan.step, other, Scan.take]
    rw [List.reverse_cons, List.append_assoc]
    exact .step step ih
  | @remark text rest kept inside _ ih =>
    have remark : Reads ⟨.commentInBare, read, members, es⟩ (text ++ [')']) ⟨.bare, read, members, es⟩ :=
      .until (fun c other => by simp [Scan.step, other]) rfl inside
    have whole := remark.trans ih
    rw [List.append_assoc] at whole
    exact .step rfl whole

theorem Reads.remarks {text : List Char} (h : Remarks text) :
    Reads ⟨.closed, [], members, es⟩ text ⟨.closed, [], members, es⟩ := by
  induction h with
  | done => exact .refl _
  | blank blank _ ih => exact .step (by simp [Scan.step, blank]) ih
  | @remark text rest inside _ ih =>
    have remark : Reads ⟨.commentAfterBracket, [], members, es⟩ (text ++ [')']) ⟨.closed, [], members, es⟩ :=
      .until (fun c other => by simp [Scan.step, other]) rfl inside
    have whole := remark.trans ih
    rw [List.append_assoc] at whole
    exact .step rfl whole

theorem Reads.address {address : List Char} (inside : '>' ∉ address) :
    Reads ⟨.bracketed, read, members, es⟩ address ⟨.bracketed, address.reverse ++ read, members, es⟩ := by
  induction address generalizing read with
  | nil => exact .refl _
  | cons c address ih =>
    obtain ⟨other, others⟩ := not_or.1 (mt List.mem_cons.2 inside)
    have step : (⟨.bracketed, read, members, es⟩ : Scan).step c = .ok ⟨.bracketed, c :: read, members, es⟩ := by
      simp [Scan.step, Ne.symm other, Scan.take]
    rw [List.reverse_cons, List.append_assoc]
    exact .step step (ih others)

theorem Reads.close {address : List Char} (at_sign : '@' ∈ address) :
    Reads ⟨.bracketed, address.reverse, none, es⟩ ['>'] ⟨.closed, [], none, .mailbox address :: es⟩ := by
  refine .step ?_ (.refl _)
  show (⟨.bracketed, address.reverse, none, es⟩ : Scan).push .closed address.reverse.reverse = _
  rw [List.reverse_reverse, push_eq, if_pos at_sign]

theorem Reads.phrase {phrase : List Char} (h : Phrase phrase) :
    Reads ⟨.start, [], none, []⟩ (phrase ++ ['<']) ⟨.bracketed, [], none, []⟩ := by
  cases h with
  | none => exact .step rfl (.refl _)
  | quoted name more =>
    rw [List.cons_append, List.append_assoc]
    exact .step rfl (.trans (.quoted name) (.trans (.naming more) (.step rfl (.refl _))))
  | words first more => exact .step first.step (.trans (.wording more) (.step rfl (.refl _)))

/-- when a mailbox has been read, the text may end, or a separator may come -/
theorem Mailbox.reads {mailbox address : List Char} (h : Mailbox mailbox address) :
    ∃ s, Reads ⟨.start, [], none, []⟩ mailbox s ∧ s.finish = .ok [.mailbox address] ∧
      ∀ c ∈ [',', ';'], s.step c = .ok ⟨.start, [], none, [.mailbox address]⟩ := by
  cases h with
  | @bracketed phrase _ remarks name inside at_sign after =>
    have opened := Reads.phrase name
    have filled : Reads ⟨.bracketed, [], none, []⟩ address ⟨.bracketed, address.reverse ++ [], none, []⟩ :=
      .address inside
    rw [List.append_nil] at filled
    have whole := ((opened.trans filled).trans (Reads.close at_sign)).trans (.remarks after)
    refine ⟨⟨.closed, [], none, [.mailbox address]⟩, ?_, rfl, fun c separator => ?_⟩
    · simpa using whole
    · rcases List.mem_pair.1 separator with rfl | rfl <;> rfl
  | @bare c rest kept first more at_sign =>
    have finish : (⟨.bare, kept.reverse ++ [c], none, []⟩ : Scan).finish =
        .ok [.mailbox (Text.trimEnd (c :: kept))] := by
      rw [finish_bare, List.reverse_append, List.reverse_reverse, List.reverse_singleton, List.singleton_append,
        if_pos at_sign]
    refine ⟨_, .step first.step (.wording more), finish, fun c separator => ?_⟩
    rw [step_separator separator, finish]
    rfl

/-! ## What ends a piece -/

variable {text : List Char} {out : List Entry}

theorem run_remark (place : Place) {s : Scan} (h : run s text = .ok out)
    (passes : ∀ c, c ≠ ')' → s.step c = .ok s) (closes : s.step ')' = .ok { s with place })
    (unfinished : s.finish ≠ .ok out) :
    ∃ remark rest, text = remark ++ ')' :: rest ∧ ')' ∉ remark ∧ run { s with place } rest = .ok out := by
  by_cases ends : ')' ∈ text
  · obtain ⟨remark, rest, rfl, absent⟩ := List.eq_append_cons_of_mem ends
    refine ⟨remark, rest, rfl, absent, ?_⟩
    rwa [List.append_cons, Reads.until passes closes absent rest] at h
  · have goes_on : run s text = s.finish := by
      clear h
      induction text with
      | nil => rfl
      | cons c text ih =>
        obtain ⟨other, others⟩ := not_or.1 (mt List.mem_cons.2 ends)
        rw [run_cons, passes c (Ne.symm other)]
        exact ih others
    exact absurd (goes_on.symm.trans h) unfinished

theorem run_quoted (h : run ⟨.quoted, [], none, es⟩ text = .ok out) :
    ∃ name rest, text = name ++ rest ∧ Quoted name ∧ run ⟨.named, [], none, es⟩ rest = .ok out := by
  -- two characters at a time, because a backslash takes the next one along
  induction text using List.twoStepInduction with
  | nil => cases h
  | singleton c =>
    rw [run_cons] at h
    by_cases escape : c = '\\'
    · cases escape
      cases h
    · by_cases close : c = '"'
      · cases close
        exact ⟨['"'], [], rfl, .close, h⟩
      · simp only [Scan.step, if_neg escape, if_neg close] at h
        cases h
  | cons_cons c d text ih ih' =>
    rw [run_cons] at h
    by_cases escape : c = '\\'
    · cases escape
      obtain ⟨name, rest, rfl, quoted, h⟩ := ih h
      exact ⟨'\\' :: d :: name, rest, rfl, .escape d quoted, h⟩
    · by_cases close : c = '"'
      · cases close
        exact ⟨['"'], d :: text, rfl, .close, h⟩
      · simp only [Scan.step, if_neg escape, if_neg close] at h
        obtain ⟨name, rest, same, quoted, h⟩ := ih' d h
        exact ⟨c :: name, rest, congrArg (c :: ·) same, .char escape close quoted, h⟩

/-- after a quoted name an address in brackets has to come, or a group begins -/
theorem run_named (h : run ⟨.named, [], none, []⟩ text = .ok out) : GroupFirst out ∨
    ∃ naming rest, text = naming ++ '<' :: rest ∧ Naming naming ∧ run ⟨.bracketed, [], none, []⟩ rest = .ok out := by
  -- on the length of the text, because a further name in quotation marks is passed over as a whole
  induction length : text.length using Nat.strong_induction_on generalizing text with
  | h n ih =>
    cases text with
    | nil => cases h
    | cons c text =>
      rw [run_cons] at h
      rw [List.length_cons] at length
      by_cases bracket : c = '<'
      · cases bracket
        exact .inr ⟨[], text, rfl, .done, h⟩
      by_cases colon : c = ':'
      · cases colon
        exact .inl (run_in_group rfl rfl h)
      by_cases quote : c = '"'
      · cases quote
        obtain ⟨name, rest, rfl, quoted, h⟩ := run_quoted h
        rw [List.length_append] at length
        refine (ih rest.length (by omega) h rfl).imp_right ?_
        rintro ⟨naming, rest, rfl, named, h⟩
        exact ⟨'"' :: (name ++ naming), rest, by simp, .quoted quoted named, h⟩
      · simp only [Scan.step, if_neg bracket, if_neg colon, if_neg quote] at h
        refine (ih text.length (by omega) h rfl).imp_right ?_
        rintro ⟨naming, rest, rfl, named, h⟩
        exact ⟨c :: naming, rest, rfl, .char (by simp [bracket, colon, quote]) named, h⟩

/-- an address in brackets may be followed by blanks and remarks, until the text ends or a separator comes -/
theorem run_closed {first : Entry} (h : run ⟨.closed, [], none, [first]⟩ text = .ok out) :
    ∃ remarks tail others, text = remarks ++ tail ∧ Remarks remarks ∧ out.reverse = first :: others ∧
      Follows tail others := by
  -- on the length again: a remark is passed over as a whole
  induction length : text.length using Nat.strong_induction_on generalizing text with
  | h n ih =>
    cases text with
    | nil =>
      cases h
      exact ⟨[], [], [], rfl, .done, rfl, .nothing⟩
    | cons c text =>
      rw [run_cons] at h
      rw [List.length_cons] at length
      by_cases blank : Text.isBlank c = true
      · simp only [Scan.step, if_pos blank] at h
        obtain ⟨remarks, tail, others, rfl, rest, first, follows⟩ := ih text.length (by omega) h rfl
        exact ⟨c :: remarks, tail, others, rfl, .blank blank rest, first, follows⟩
      by_cases separator : c ∈ [',', ';']
      · have next : run ⟨.start, [], none, [first]⟩ text = .ok out := by
          rcases List.mem_pair.1 separator with rfl | rfl
          · exact h
          · exact h
        obtain ⟨others, first, list⟩ := run_next.1 next
        exact ⟨[], c :: text, others, rfl, .done, first, .more separator list⟩
      obtain ⟨no_comma, no_semicolon⟩ := not_or.1 (mt List.mem_pair.2 separator)
      by_cases remark : c = '('
      · cases remark
        obtain ⟨remark, rest, rfl, inside, h⟩ := run_remark .closed h
          (fun c other => congrArg Except.ok (if_neg other)) rfl (by rintro ⟨⟩)
        rw [List.length_append, List.length_cons] at length
        obtain ⟨remarks, tail, others, rfl, rest, first, follows⟩ := ih rest.length (by omega) h rfl
        exact ⟨'(' :: (remark ++ ')' :: remarks), tail, others, by simp, .remark inside rest, first, follows⟩
      · simp only [Scan.step, if_neg blank, if_neg no_comma, if_neg no_semicolon, if_neg remark] at h
        cases h

theorem run_bracketed (h : run ⟨.bracketed, [], none, []⟩ text = .ok out) :
    ∃ address remarks tail others, text = address ++ '>' :: (remarks ++ tail) ∧ '>' ∉ address ∧ '@' ∈ address ∧
      Remarks remarks ∧ out.reverse = .mailbox address :: others ∧ Follows tail others := by
  by_cases ends : '>' ∈ text
  · obtain ⟨address, rest, rfl, inside⟩ := List.eq_append_cons_of_mem ends
    rw [Reads.address inside, List.append_nil] at h
    by_cases at_sign : '@' ∈ address
    · rw [← List.singleton_append, Reads.close at_sign] at h
      obtain ⟨remarks, tail, others, rfl, after, first, follows⟩ := run_closed h
      exact ⟨address, remarks, tail, others, rfl, inside, at_sign, after, first, follows⟩
    · have pushed : (⟨.bracketed, address.reverse, none, []⟩ : Scan).step '>' = .error .noAtSign := by
        show (⟨.bracketed, address.reverse, none, []⟩ : Scan).push .closed address.reverse.reverse = _
        rw [List.reverse_reverse, push_eq, if_neg at_sign]
      rw [run_cons, pushed] at h
      cases h
  · have goes_on : Reads ⟨.bracketed, [], none, []⟩ text ⟨.bracketed, text.reverse ++ [], none, []⟩ := .address ends
    rw [← List.append_nil text, goes_on] at h
    cases h

/-- words are a bare address where the text ends, and where a separator comes -/
theorem run_ended {read : List Char} (ends : text = [] ∨ ∃ c more, c ∈ [',', ';'] ∧ text = c :: more)
    (h : run ⟨.bare, read, none, []⟩ text = .ok out) : '@' ∈ Text.trimEnd read.reverse ∧
      ∃ others, out.reverse = .mailbox (Text.trimEnd read.reverse) :: others ∧ Follows text others := by
  have finish : (⟨.bare, read, none, []⟩ : Scan).finish = _ := finish_bare read
  by_cases at_sign : '@' ∈ Text.trimEnd read.reverse
  · rw [if_pos at_sign] at finish
    refine ⟨at_sign, ?_⟩
    rcases ends with rfl | ⟨c, more, separator, rfl⟩
    · cases finish.symm.trans h
      exact ⟨[], rfl, .nothing⟩
    · rw [run_cons, step_separator separator, finish] at h
      obtain ⟨others, first, list⟩ := run_next.1 h
      exact ⟨others, first, .more separator list⟩
  · rw [if_neg at_sign] at finish
    rcases ends with rfl | ⟨c, more, separator, rfl⟩
    · cases finish.symm.trans h
    · rw [run_cons, step_separator separator, finish] at h
      cases h

/-- how words end: in front of an address in brackets, or as a bare address -/
theorem run_bare {read : List Char} (h : run ⟨.bare, read, none, []⟩ text = .ok out) :
    GroupFirst out ∨ ∃ words kept rest, text = words ++ rest ∧ Wording words kept ∧
      ((∃ more, rest = '<' :: more ∧ run ⟨.bracketed, [], none, []⟩ more = .ok out) ∨
        '@' ∈ Text.trimEnd (read.reverse ++ kept) ∧
          ∃ others, out.reverse = .mailbox (Text.trimEnd (read.reverse ++ kept)) :: others ∧ Follows rest others) := by
  induction length : text.length using Nat.strong_induction_on generalizing text read with
  | h n ih =>
    by_cases ends : text = [] ∨ ∃ c more, c ∈ [',', ';'] ∧ text = c :: more
    · refine .inr ⟨[], [], text, rfl, .done, .inr ?_⟩
      rw [List.append_nil]
      exact run_ended ends h
    cases text with
    | nil => exact absurd (.inl rfl) ends
    | cons c text =>
      have separator : c ∉ [',', ';'] := fun there => ends (.inr ⟨c, text, there, rfl⟩)
      rw [run_cons] at h
      rw [List.length_cons] at length
      by_cases bracket : c = '<'
      · cases bracket
        exact .inr ⟨[], [], '<' :: text, rfl, .done, .inl ⟨text, rfl, h⟩⟩
      obtain ⟨no_comma, no_semicolon⟩ := not_or.1 (mt List.mem_pair.2 separator)
      by_cases colon : c = ':'
      · cases colon
        exact .inl (run_in_group rfl rfl h)
      by_cases remark : c = '('
      · cases remark
        obtain ⟨remark, rest, rfl, inside, h⟩ := run_remark .bare h
          (fun c other => congrArg Except.ok (if_neg other)) rfl (by rintro ⟨⟩)
        rw [List.length_append, List.length_cons] at length
        refine (ih rest.length (by omega) h rfl).imp_right ?_
        rintro ⟨words, kept, rest, rfl, wording, ends⟩
        exact ⟨'(' :: (remark ++ ')' :: words), kept, rest, by simp, .remark inside wording, ends⟩
      · simp only [Scan.step, if_neg bracket, if_neg no_comma, if_neg no_semicolon, if_neg colon, if_neg remark] at h
        refine (ih text.length (by omega) h rfl).imp_right ?_
        rintro ⟨words, kept, rest, rfl, wording, ends⟩
        rw [List.reverse_cons, List.append_assoc] at ends
        refine ⟨c :: words, c :: kept, rest, rfl, .char ?_ wording, ends⟩
        simp [bracket, no_comma, no_semicolon, colon, remark]

/-! ## Lists that begin with a mailbox -/

/-- a list is empty, or begins with a group or with a mailbox -/
theorem run_start (h : run ⟨.start, [], none, []⟩ text = .ok out) : (out = [] ∧ Text.Blank text) ∨ GroupFirst out ∨
    ∃ address others, out.reverse = .mailbox address :: others ∧ BeginsWith text address others := by
  induction text with
  | nil => exact .inl ⟨(Except.ok.inj h).symm, .nil⟩
  | cons c text ih =>
    rw [run_cons] at h
    -- an address in brackets after a phrase
    have bracketed : ∀ {phrase rest}, Phrase phrase → c :: text = phrase ++ '<' :: rest →
        run ⟨.bracketed, [], none, []⟩ rest = .ok out →
        ∃ address others, out.reverse = .mailbox address :: others ∧ BeginsWith (c :: text) address others := by
      intro phrase rest name same h
      obtain ⟨address, remarks, tail, others, rfl, inside, at_sign, after, first, follows⟩ := run_bracketed h
      refine ⟨address, others, first, [], phrase ++ '<' :: (address ++ '>' :: remarks), tail, ?_, .nil,
        .bracketed name inside at_sign after, follows⟩
      rw [same]
      simp
    by_cases blank : Text.isBlank c = true
    · simp only [Scan.step, Scan.begin, if_pos blank] at h
      refine (ih h).imp (And.imp_right (.cons blank)) (Or.imp_right ?_)
      rintro ⟨address, others, first, lead, mailbox, tail, rfl, all, mailboxes⟩
      exact ⟨address, others, first, c :: lead, mailbox, tail, rfl, .cons blank all, mailboxes⟩
    by_cases quote : c = '"'
    · cases quote
      obtain ⟨name, rest, rfl, quoted, h⟩ := run_quoted h
      refine .inr ((run_named h).imp_right ?_)
      rintro ⟨naming, rest, rfl, named, h⟩
      exact bracketed (.quoted quoted named) (by simp) h
    by_cases bracket : c = '<'
    · cases bracket
      exact .inr (.inr (bracketed .none rfl h))
    by_cases semicolon : c = ';'
    · cases semicolon
      cases h
    · have first : BeginsWords c := ⟨by simpa using blank, by simp [quote, bracket, semicolon]⟩
      rw [first.step] at h
      refine .inr ((run_bare h).imp_right ?_)
      rintro ⟨words, kept, rest, rfl, wording, ⟨more, rfl, inside⟩ | ⟨at_sign, others, reads, follows⟩⟩
      · exact bracketed (.words first wording) rfl inside
      · exact ⟨_, others, reads, [], c :: words, rest, rfl, .nil, .bare first wording at_sign, follows⟩

/-- **A list is empty, or begins with a group, or begins with a mailbox as its text does.** -/
theorem entries_cases {read : List Entry} (h : entries text = .ok read) : (read = [] ∧ Text.Blank text) ∨
    (∃ members others, read = .group members :: others) ∨
      ∃ address others, read = .mailbox address :: others ∧ BeginsWith text address others := by
  have first := run_start (entries_eq_ok_iff.1 h)
  simpa only [GroupFirst, List.reverse_reverse, List.reverse_eq_nil_iff] using first

/-- **A list begins with a mailbox exactly when its text does**, and the rest of the text spells the other entries. -/
theorem entries_mailbox_iff {address : List Char} {others : List Entry} :
    entries text = .ok (.mailbox address :: others) ↔ BeginsWith text address others := by
  constructor
  · intro h
    rcases entries_cases h with ⟨none_read, -⟩ | ⟨members, others', group⟩ | ⟨address', others', same, begins⟩
    · cases none_read
    · cases group
    · cases same
      exact begins
  · rintro ⟨lead, mailbox, tail, rfl, blank, written, follows⟩
    obtain ⟨s, reads, finish, separates⟩ := written.reads
    rw [entries_eq_ok_iff, Scan.initial, Reads.blank blank, reads]
    cases follows with
    | nothing => exact finish
    | more parts list =>
      rw [run_cons, separates _ parts]
      exact run_next.2 ⟨others, List.reverse_reverse _, list⟩

example : entries "\"A, B\" x <a@x> (y), b@y ; all: c@z, <d@z>;".toList =
    .ok [.mailbox "a@x".toList, .mailbox "b@y".toList, .group ["c@z".toList, "d@z".toList]] := rfl

/-! ## Addresses in brackets -/

theorem Mailbox.at_sign {mailbox address : List Char} (h : Mailbox mailbox address) : '@' ∈ address := by
  cases h with
  | bracketed _ _ at_sign _ => exact at_sign
  | bare _ _ at_sign => exact at_sign

theorem entries_nil_iff : entries text = .ok [] ↔ Text.Blank text := by
  constructor
  · intro h
    rcases entries_cases h with ⟨-, blank⟩ | ⟨_, _, group⟩ | ⟨_, _, mailbox, -⟩
    · exact blank
    · cases group
    · cases mailbox
  · intro blank
    have read : Reads ⟨.start, [], none, []⟩ text ⟨.start, [], none, []⟩ := .blank blank
    rw [entries_eq_ok_iff, Scan.initial, ← List.append_nil text, read]
    rfl

/-- an address that begins a text in brackets is all that stands up to the first closing one -/
theorem BeginsWith.bracketed {address : List Char} {others : List Entry} (h : BeginsWith ('<' :: text) address others) :
    '>' ∉ address ∧ ∃ rest, text = address ++ '>' :: rest := by
  obtain ⟨lead, mailbox, tail, same, blank, written, -⟩ := h
  have no_lead : lead = [] := by
    cases lead with
    | nil => rfl
    | cons c lead =>
      obtain ⟨rfl, -⟩ := List.cons.inj same
      exact absurd (blank '<' List.mem_cons_self) (by decide)
  subst no_lead
  cases written with
  | bracketed name inside _ _ =>
    cases name with
    | none => exact ⟨inside, _, by simpa using (List.cons.inj same).2⟩
    | quoted _ _ => exact absurd (List.cons.inj same).1 (by decide)
    | words first _ =>
      obtain ⟨rfl, -⟩ := List.cons.inj same
      exact absurd first (by decide)
  | bare first _ _ =>
    obtain ⟨rfl, -⟩ := List.cons.inj same
    exact absurd first (by decide)

/-- **An address in brackets is read as that address exactly when it has no closing bracket in it.** -/
theorem entries_bracketed_iff {address : List Char} (at_sign : '@' ∈ address) :
    entries ('<' :: (address ++ ['>'])) = .ok [.mailbox address] ↔ '>' ∉ address := by
  constructor
  · exact fun h => (entries_mailbox_iff.1 h).bracketed.1
  · intro inside
    refine entries_mailbox_iff.2 ⟨[], '<' :: (address ++ ['>']), [], (List.append_nil _).symm, .nil, ?_, .nothing⟩
    exact .bracketed .none inside at_sign .done

/-- in a text without blanks, a mailbox is the only entry exactly when at most one separator comes after it -/
theorem entries_single_iff {address : List Char} (blankless : Text.Blankless text) :
    entries text = .ok [.mailbox address] ↔
      ∃ mailbox tail, text = mailbox ++ tail ∧ Mailbox mailbox address ∧ tail ∈ [[], [','], [';']] := by
  rw [entries_mailbox_iff]
  constructor
  · rintro ⟨lead, mailbox, tail, rfl, blank, written, follows⟩
    have empty : ∀ {piece : List Char}, piece ⊆ lead ++ (mailbox ++ tail) → Text.Blank piece → piece = [] := by
      intro piece part blank
      refine List.eq_nil_iff_forall_not_mem.2 fun c hc => ?_
      have visible := blankless c (part hc)
      rw [blank c hc] at visible
      cases visible
    obtain rfl := empty (List.subset_append_left _ _) blank
    refine ⟨mailbox, tail, rfl, written, ?_⟩
    cases follows with
    | nothing => simp
    | @more separator rest _ parts list =>
      have part : rest ⊆ [] ++ (mailbox ++ separator :: rest) := fun c hc => by simp [hc]
      obtain rfl := empty part (entries_nil_iff.1 list)
      rcases List.mem_pair.1 parts with rfl | rfl <;> simp
  · rintro ⟨mailbox, tail, rfl, written, separators⟩
    refine ⟨[], mailbox, tail, rfl, .nil, written, ?_⟩
    simp only [List.mem_cons, List.not_mem_nil, or_false] at separators
    rcases separators with rfl | rfl | rfl
    · exact .nothing
    · exact .more (by decide) rfl
    · exact .more (by decide) rfl

end LmtpRelay.AddressList
