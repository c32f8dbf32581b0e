/-
What a parsed command is made of. An address list is read character by character, and an address in it holds only
characters of the list; a path has no blanks, so neither has the address in it. A parameter is a word, so it has no
blanks either. A sender that was parsed is therefore passed on in one line: `parse_mail_oneLine`.
-/
import LmtpRelay.Command.Parser
import LmtpRelay.Proofs.Text.Lines

namespace LmtpRelay

/-! ## Steps that may fail -/

theorem bind_ok {ε α β : Type} {x : Except ε α} {f : α → Except ε β} {b : β} (h : (x >>= f) = .ok b) :
    ∃ a, x = .ok a ∧ f a = .ok b := by
  cases x with
  | error e => cases h
  | ok a => exact ⟨a, rfl, h⟩

theorem mapError_ok {ε ε' α : Type} {x : Except ε α} {f : ε → ε'} {a : α} (h : x.mapError f = .ok a) : x = .ok a := by
  cases x with
  | error e => cases h
  | ok a' => exact congrArg Except.ok (Except.ok.inj h)

/-- what every step keeps, a fold that succeeds keeps -/
theorem foldlM_keeps {α β ε : Type} {P : β → Prop} {Q : α → Prop} {f : β → α → Except ε β}
    (step : ∀ {b b' a}, P b → Q a → f b a = .ok b' → P b') {as : List α} {b b' : β} (start : P b)
    (each : ∀ a ∈ as, Q a) (h : as.foldlM f b = .ok b') : P b' := by
  induction as generalizing b with
  | nil =>
    obtain rfl := Except.ok.inj h
    exact start
  | cons a as ih =>
    rw [List.foldlM_cons] at h
    obtain ⟨b₁, hf, h⟩ := bind_ok h
    exact ih (step start (each a List.mem_cons_self) hf) (fun a' ha => each a' (List.mem_cons_of_mem a ha)) h

/-! ## Addresses -/

namespace AddressList

variable {P : Char → Prop}

/-- all characters that the scan holds have a property -/
structure Scan.Holds (P : Char → Prop) (s : Scan) : Prop where
  address : ∀ c ∈ s.address, P c
  entries : ∀ a, .mailbox a ∈ s.entries → ∀ c ∈ a, P c

theorem Scan.Holds.moveTo {s : Scan} (h : s.Holds P) (place : Place) : (s.moveTo place).Holds P :=
  ⟨nofun, h.entries⟩

theorem Scan.Holds.take {s : Scan} (h : s.Holds P) (place : Place) {c : Char} (hc : P c) :
    (s.take place c).Holds P := by
  refine ⟨fun d hd => ?_, h.entries⟩
  rcases List.mem_cons.1 hd with rfl | hd
  · exact hc
  · exact h.address d hd

theorem Scan.Holds.push {s s' : Scan} (h : s.Holds P) {place : Place} {address : List Char}
    (ha : ∀ c ∈ address, P c) (pushed : s.push place address = .ok s') : s'.Holds P := by
  unfold Scan.push at pushed
  split at pushed
  · split at pushed
    · obtain rfl := Except.ok.inj pushed
      exact ⟨nofun, h.entries⟩
    · obtain rfl := Except.ok.inj pushed
      refine ⟨nofun, fun a hmem => ?_⟩
      rcases List.mem_cons.1 hmem with same | hmem
      · obtain rfl := Entry.mailbox.inj same
        exact ha
      · exact h.entries a hmem
  · cases pushed

theorem Scan.Holds.openGroup {s s' : Scan} (h : s.Holds P) (opened : s.openGroup = .ok s') : s'.Holds P := by
  unfold Scan.openGroup at opened
  split at opened
  · cases opened
  · obtain rfl := Except.ok.inj opened
    exact ⟨nofun, h.entries⟩

theorem Scan.Holds.endGroup {s : Scan} (h : s.Holds P) : s.endGroup.Holds P := by
  unfold Scan.endGroup
  split
  · refine ⟨nofun, fun a hmem => ?_⟩
    rcases List.mem_cons.1 hmem with same | hmem
    · cases same
    · exact h.entries a hmem
  · exact h.moveTo .start

theorem Scan.Holds.bareAddress {s : Scan} (h : s.Holds P) : ∀ c ∈ s.bareAddress, P c := by
  intro c hc
  exact h.address c ((List.dropWhile_sublist _).subset (List.mem_reverse.1 hc))

theorem Scan.Holds.begin {s s' : Scan} (h : s.Holds P) {c : Char} (hc : P c) (begun : s.begin c = .ok s') :
    s'.Holds P := by
  unfold Scan.begin at begun
  split at begun
  · obtain rfl := Except.ok.inj begun
    exact h.moveTo .start
  · split at begun
    · obtain rfl := Except.ok.inj begun
      exact h.moveTo .quoted
    · split at begun
      · obtain rfl := Except.ok.inj begun
        exact h.moveTo .bracketed
      · split at begun
        · split at begun
          · obtain rfl := Except.ok.inj begun
            exact h.endGroup
          · cases begun
        · obtain rfl := Except.ok.inj begun
          exact (h.moveTo .bare).take .bare hc

/-- after a name there is an address in brackets, or a group opens -/
theorem Scan.Holds.afterName {s s' : Scan} {c : Char} (h : s.Holds P) (here : s.place = .named)
    (stepped : s.step c = .ok s') : s'.Holds P := by
  unfold Scan.step at stepped
  rw [here] at stepped
  dsimp only at stepped
  split at stepped
  · obtain rfl := Except.ok.inj stepped
    exact h.moveTo _
  · split at stepped
    · exact h.openGroup stepped
    · split at stepped
      · obtain rfl := Except.ok.inj stepped
        exact h.moveTo _
      · obtain rfl := Except.ok.inj stepped
        exact h

/-- an address in brackets is followed by the next entry, or by a comment -/
theorem Scan.Holds.afterBracket {s s' : Scan} {c : Char} (h : s.Holds P) (here : s.place = .closed)
    (stepped : s.step c = .ok s') : s'.Holds P := by
  unfold Scan.step at stepped
  rw [here] at stepped
  dsimp only at stepped
  split at stepped
  · obtain rfl := Except.ok.inj stepped
    exact h
  · split at stepped
    · obtain rfl := Except.ok.inj stepped
      exact h.moveTo _
    · split at stepped
      · obtain rfl := Except.ok.inj stepped
        exact h.endGroup
      · split at stepped
        · obtain rfl := Except.ok.inj stepped
          exact h.moveTo _
        · cases stepped

/-- an address without brackets goes on, or ends in one of several ways -/
theorem Scan.Holds.inBare {s s' : Scan} {c : Char} (h : s.Holds P) (hc : P c) (here : s.place = .bare)
    (stepped : s.step c = .ok s') : s'.Holds P := by
  unfold Scan.step at stepped
  rw [here] at stepped
  dsimp only at stepped
  split at stepped
  · obtain rfl := Except.ok.inj stepped
    exact h.moveTo _
  · split at stepped
    · exact h.push h.bareAddress stepped
    · split at stepped
      · cases hpush : s.push .start s.bareAddress with
        | error f =>
          rw [hpush] at stepped
          cases stepped
        | ok s₁ =>
          rw [hpush] at stepped
          obtain rfl := Except.ok.inj stepped
          exact (h.push h.bareAddress hpush).endGroup
      · split at stepped
        · exact h.openGroup stepped
        · split at stepped
          · obtain rfl := Except.ok.inj stepped
            exact ⟨h.address, h.entries⟩
          · obtain rfl := Except.ok.inj stepped
            exact h.take _ hc

theorem Scan.Holds.step {s s' : Scan} {c : Char} (h : s.Holds P) (hc : P c) (stepped : s.step c = .ok s') :
    s'.Holds P := by
  cases hp : s.place with
  | named => exact h.afterName hp stepped
  | closed => exact h.afterBracket hp stepped
  | bare => exact h.inBare hc hp stepped
  | start =>
    unfold Scan.step at stepped
    rw [hp] at stepped
    exact h.begin hc stepped
  | opened =>
    unfold Scan.step at stepped
    rw [hp] at stepped
    exact h.begin hc stepped
  | quoted =>
    unfold Scan.step at stepped
    rw [hp] at stepped
    obtain rfl := Except.ok.inj stepped
    split
    · exact h.moveTo _
    · split
      · exact h.moveTo _
      · exact h
  | escaped =>
    unfold Scan.step at stepped
    rw [hp] at stepped
    obtain rfl := Except.ok.inj stepped
    exact h.moveTo _
  | bracketed =>
    unfold Scan.step at stepped
    rw [hp] at stepped
    dsimp only at stepped
    split at stepped
    · exact h.push (fun d hd => h.address d (List.mem_reverse.1 hd)) stepped
    · obtain rfl := Except.ok.inj stepped
      exact h.take _ hc
  | commentAfterBracket =>
    unfold Scan.step at stepped
    rw [hp] at stepped
    obtain rfl := Except.ok.inj stepped
    split
    · exact h.moveTo _
    · exact h
  | commentInBare =>
    unfold Scan.step at stepped
    rw [hp] at stepped
    obtain rfl := Except.ok.inj stepped
    split
    · exact ⟨h.address, h.entries⟩
    · exact h

theorem Scan.Holds.finish {s : Scan} {es : List Entry} (h : s.Holds P) (finished : s.finish = .ok es) :
    ∀ a, .mailbox a ∈ es → ∀ c ∈ a, P c := by
  unfold Scan.finish at finished
  split at finished
  · obtain rfl := Except.ok.inj finished
    intro a hmem
    rcases List.mem_cons.1 hmem with same | hmem
    · cases same
    · exact h.entries a hmem
  · cases finished
  · obtain rfl := Except.ok.inj finished
    exact h.entries
  · obtain rfl := Except.ok.inj finished
    exact h.entries
  · obtain rfl := Except.ok.inj finished
    exact h.entries
  · cases hpush : s.push .start s.bareAddress with
    | error f =>
      rw [hpush] at finished
      cases finished
    | ok s₁ =>
      rw [hpush] at finished
      obtain rfl := Except.ok.inj finished
      exact (h.push h.bareAddress hpush).entries
  · cases finished

theorem entries_hold {cs : List Char} {es : List Entry} (hcs : ∀ c ∈ cs, P c) (h : entries cs = .ok es) :
    ∀ a, .mailbox a ∈ es → ∀ c ∈ a, P c := by
  obtain ⟨s, hs, h⟩ := bind_ok h
  obtain ⟨last, hf, h⟩ := bind_ok h
  obtain rfl := Except.ok.inj h
  have holds : s.Holds P := by
    refine foldlM_keeps (P := Scan.Holds P) (Q := P) Scan.Holds.step ?_ hcs hs
    exact ⟨nofun, nofun⟩
  exact fun a hmem => holds.finish hf a (List.mem_reverse.1 hmem)

end AddressList

/-! ## Parameters -/

namespace Parameters

/-- every parameter is written on one line -/
def OneLine (ps : Parameters) : Prop := ∀ p ∈ ps.entries, LmtpRelay.OneLine p.text

theorem OneLine.text {ps : Parameters} (h : ps.OneLine) : LmtpRelay.OneLine ps.text := by
  refine LmtpRelay.OneLine.intercalate (by decide) fun t ht => ?_
  obtain ⟨p, hp, rfl⟩ := List.mem_map.1 ht
  exact h p hp

theorem splitToken_blankless {token : List Char} (h : Text.Blankless token) :
    Text.Blankless (splitToken token).1.toList ∧
      ∀ value, (splitToken token).2 = some value → Text.Blankless value.toList := by
  unfold splitToken
  split
  · next key value split =>
    obtain ⟨before, after⟩ := Text.splitOnce_subset split
    refine ⟨fun c hc => h c (before (by simpa using hc)), fun v hv c hc => ?_⟩
    obtain rfl := Option.some.inj hv
    exact h c (after (by simpa using hc))
  · exact ⟨fun c hc => h c (by simpa using hc), nofun⟩

theorem insert_oneLine {ps : Parameters} (h : ps.OneLine) {key : String} {value : Option String}
    (hk : Text.Blankless key.toList) (hv : ∀ v, value = some v → Text.Blankless v.toList) :
    (ps.insert key value).OneLine := by
  have capital : LmtpRelay.OneLine (capital key) := (Text.upper_blankless hk).oneLine
  intro p hp
  rcases List.mem_append.1 hp with hp | hp
  · exact h p hp
  · obtain rfl := List.mem_singleton.1 hp
    cases value with
    | none => exact capital
    | some v =>
      have line := (hv v rfl).oneLine
      rw [String.ofList_toList] at line
      exact (capital.append (by decide)).append line

theorem addToken_oneLine {ps ps' : Parameters} {token : List Char} (h : ps.OneLine) (ht : Text.Blankless token)
    (added : ps.addToken token = .ok ps') : ps'.OneLine := by
  obtain ⟨hk, hv⟩ := splitToken_blankless ht
  unfold addToken at added
  dsimp only at added
  split at added
  · cases added
  · cases hc : checkSize (splitToken token).1 (splitToken token).2 with
    | error f =>
      rw [hc] at added
      cases added
    | ok _ =>
      rw [hc] at added
      obtain rfl := Except.ok.inj added
      exact insert_oneLine h hk hv

theorem parse_oneLine {cs : List Char} {ps : Parameters} (h : parse cs = .ok ps) : ps.OneLine :=
  foldlM_keeps (P := OneLine) (Q := Text.Blankless) addToken_oneLine (fun _ hp => absurd hp List.not_mem_nil)
    (Text.words_blankless cs) h

end Parameters

/-! ## Commands -/

namespace Command

theorem parseAddress_blankless {path : List Char} {address : String} (hp : Text.Blankless path)
    (h : parseAddress path = .ok address) : Text.Blankless address.toList := by
  obtain ⟨es, he, h⟩ := bind_ok h
  have holds := AddressList.entries_hold (P := fun c => Text.isBlank c = false) hp (mapError_ok he)
  cases es with
  | nil => cases h
  | cons entry rest =>
    cases entry with
    | group members => cases h
    | mailbox a =>
      obtain rfl := Except.ok.inj h
      intro c hc
      exact holds a List.mem_cons_self c (by simpa using hc)

theorem parsePath_oneLine {allowNull : Bool} {rest : List Char} {address : String} {params : Parameters}
    (h : parsePath allowNull rest = .ok (address, params)) : OneLine address ∧ params.OneLine := by
  have blankless := Text.splitBlank_blankless (Text.trim rest)
  unfold parsePath at h
  rcases Text.splitBlank (Text.trim rest) with ⟨path, words⟩
  obtain ⟨ps, hw, h⟩ := bind_ok h
  have line := Parameters.parse_oneLine (mapError_ok hw)
  split at h
  · split at h
    · obtain ⟨rfl, rfl⟩ := Prod.mk.inj (Except.ok.inj h)
      exact ⟨by decide, line⟩
    · cases h
  · obtain ⟨a, ha, h⟩ := bind_ok h
    obtain ⟨rfl, rfl⟩ := Prod.mk.inj (Except.ok.inj h)
    have address := (parseAddress_blankless blankless ha).oneLine
    rw [String.ofList_toList] at address
    exact ⟨address, line⟩

theorem pathText_eq (head address : String) (params : Parameters) : pathText head address params =
    if params.isEmpty then head ++ "<" ++ address ++ ">" else head ++ "<" ++ address ++ "> " ++ params.text := rfl

theorem pathText_oneLine {head address : String} {params : Parameters} (hh : OneLine head) (ha : OneLine address)
    (hp : params.OneLine) : OneLine (pathText head address params) := by
  have path : OneLine (head ++ "<" ++ address) := (hh.append (by decide)).append ha
  rw [pathText_eq]
  split
  · exact path.append (by decide)
  · exact (path.append (by decide)).append hp.text

theorem pathText_begins {head : String} {c : Char} {cs : List Char} (h : head.toList = c :: cs) (address : String)
    (params : Parameters) : ∃ more, (pathText head address params).toList = c :: more := by
  rw [pathText_eq]
  split
  · simp [h]
  · simp [h]

theorem parseVerb_ne_mail {line verb argument : List Char} {sender : String} {params : Parameters} :
    parseVerb line verb argument ≠ .ok (.mail sender params) := by
  unfold parseVerb
  dsimp only
  intro h
  repeat' split at h
  all_goals cases h

/-- **A sender that was parsed is passed on in one line.** -/
theorem parsePath_mail_oneLine {rest : List Char} {sender : String} {params : Parameters}
    (h : (parsePath true rest).map (fun (sender, params) => Command.mail sender params) = .ok (.mail sender params)) :
    OneLine (Command.mail sender params).text := by
  cases hp : parsePath true rest with
  | error f =>
    rw [hp] at h
    cases h
  | ok path =>
    rw [hp] at h
    obtain ⟨rfl, rfl⟩ := Command.mail.inj (Except.ok.inj h)
    obtain ⟨address, line⟩ := parsePath_oneLine hp
    exact pathText_oneLine (by decide) address line

theorem parse_mail_oneLine {line : Octets} {sender : String} {params : Parameters}
    (h : parse line = .ok (.mail sender params)) : OneLine (Command.mail sender params).text := by
  unfold parse at h
  split at h
  · next text _ =>
    unfold parseText at h
    dsimp only at h
    split at h
    · exact parsePath_mail_oneLine h
    · next rest _ _ =>
      cases hp : parsePath false rest <;> rw [hp] at h <;> cases h
    · split at h <;> exact absurd h parseVerb_ne_mail
  · cases h

/-! ## DATA -/

theorem trim_cons {c : Char} (h : Text.isBlank c = false) (cs : List Char) :
    ∃ more, Text.trim (c :: cs) = c :: more := by
  unfold Text.trim
  rw [Text.trimStart, List.dropWhile_cons_of_neg (by simp [h]), Text.trimEnd]
  split
  · rw [h]
    exact ⟨[], rfl⟩
  · exact ⟨_, rfl⟩

theorem parseVerb_data {line verb argument : List Char} (h : parseVerb line verb argument = .ok .data) :
    Text.sameFolded line "DATA".toList = true := by
  unfold parseVerb at h
  dsimp only at h
  repeat' split at h
  all_goals first | assumption | cases h

theorem parseText_ne_data {c : Char} {cs : List Char} (visible : Text.isBlank c = false) (other : c.toUpper ≠ 'D') :
    parseText (c :: cs) ≠ .ok .data := by
  obtain ⟨more, trimmed⟩ := trim_cons visible cs
  have different : ∀ {verb argument : List Char}, parseVerb (c :: more) verb argument ≠ .ok .data := by
    intro verb argument h
    have same := parseVerb_data h
    simp only [Text.sameFolded, Text.upper, List.map_cons, beq_iff_eq] at same
    exact other (List.cons.inj same).1
  intro h
  unfold parseText at h
  rw [trimmed] at h
  dsimp only at h
  split at h
  · next rest _ => cases hp : parsePath true rest <;> rw [hp] at h <;> cases h
  · next rest _ _ => cases hp : parsePath false rest <;> rw [hp] at h <;> cases h
  · split at h <;> exact different h

end Command
end LmtpRelay
